import Aprovan.Library.Text

/-!
# Padded ordinals

Numbers that are written in decimal digits and filled up with zeros to one
width are ordered as texts as they are as numbers, whatever follows them.
-/

namespace Aprovan.Library

/-- `String(number).padStart(width, "0")`. -/
def padded (width number : Nat) : Text :=
  (Nat.toDigits 10 number).leftpad width '0'

theorem isDigit_of_mem_padded {width number : Nat} {letter : Char}
    (member : letter ∈ padded width number) : letter.isDigit = true := by
  rw [padded, List.leftpad, List.mem_append] at member
  rcases member with filled | digit
  · rw [(List.mem_replicate.mp filled).2]
    rfl
  · exact Nat.isDigit_of_mem_toDigits (by omega) (by omega) digit

/-- The numbers below the bound fill the width. -/
theorem length_padded_eq_iff {width number : Nat} (positive : 0 < width) :
    (padded width number).length = width ↔ number < 10 ^ width := by
  rw [padded, List.length_leftpad, ← Nat.length_toDigits_le_iff (by omega) positive]
  omega

theorem length_padded {width number : Nat} (positive : 0 < width) (short : number < 10 ^ width) :
    (padded width number).length = width :=
  (length_padded_eq_iff positive).mpr short

theorem ofDigitChars_padded (width number : Nat) :
    Nat.ofDigitChars 10 (padded width number) 0 = number := by
  rw [padded, List.leftpad, Nat.ofDigitChars_append, Nat.ofDigitChars_replicate_zero, Nat.mul_zero,
    Nat.ofDigitChars_ten_toDigits]

theorem digit_lt_ten {letter : Char} (digit : letter.isDigit = true) :
    letter.toNat - '0'.toNat < 10 := by
  simp only [Char.isDigit, Bool.and_eq_true, decide_eq_true_eq] at digit
  have upper : letter.toNat ≤ 57 := digit.2
  have zero : '0'.toNat = 48 := rfl
  omega

theorem ofDigitChars_lt {digits : Text} (all : ∀ letter ∈ digits, letter.isDigit = true) :
    Nat.ofDigitChars 10 digits 0 < 10 ^ digits.length := by
  induction digits with
  | nil => simp
  | cons letter rest ih =>
    have head := digit_lt_ten (all letter List.mem_cons_self)
    have tail := ih fun other member => all other (List.mem_cons_of_mem letter member)
    rw [Nat.ofDigitChars_cons, Nat.ofDigitChars_eq_ofDigitChars_zero,
      List.length_cons, Nat.pow_succ]
    have bound : 10 ^ rest.length * (10 * 0 + (letter.toNat - '0'.toNat)) ≤ 10 ^ rest.length * 9 :=
      Nat.mul_le_mul_left _ (by omega)
    omega

theorem lt_of_digit_lt {first second : Char} (one : first.isDigit = true)
    (less : first.toNat - '0'.toNat < second.toNat - '0'.toNat) :
    first < second := by
  simp only [Char.isDigit, Bool.and_eq_true, decide_eq_true_eq] at one
  have lower : '0'.toNat ≤ first.toNat := one.1
  have values : first.toNat < second.toNat := by omega
  exact values

theorem eq_of_digit_eq {first second : Char} (one : first.isDigit = true)
    (two : second.isDigit = true) (same : first.toNat - '0'.toNat = second.toNat - '0'.toNat) :
    first = second := by
  simp only [Char.isDigit, Bool.and_eq_true, decide_eq_true_eq] at one two
  have lowerFirst : '0'.toNat ≤ first.toNat := one.1
  have lowerSecond : '0'.toNat ≤ second.toNat := two.1
  have values : first.toNat = second.toNat := by omega
  exact Char.ext (UInt32.toNat_inj.mp values)

/-- Of two texts that start with as many digits, the one with the smaller
number comes first. -/
theorem append_lt_append {first second : Text}
    (digitsFirst : ∀ letter ∈ first, letter.isDigit = true)
    (digitsSecond : ∀ letter ∈ second, letter.isDigit = true)
    (lengths : first.length = second.length)
    (less : Nat.ofDigitChars 10 first 0 < Nat.ofDigitChars 10 second 0)
    (restFirst restSecond : Text) :
    first ++ restFirst < second ++ restSecond := by
  induction first generalizing second with
  | nil =>
    cases second with
    | nil => exact absurd less (Nat.lt_irrefl _)
    | cons other others => cases lengths
  | cons letter rest ih =>
    cases second with
    | nil => cases lengths
    | cons other others =>
      have digit := digitsFirst letter List.mem_cons_self
      have otherDigit := digitsSecond other List.mem_cons_self
      have restDigits : ∀ item ∈ rest, item.isDigit = true :=
        fun item member => digitsFirst item (List.mem_cons_of_mem letter member)
      have othersDigits : ∀ item ∈ others, item.isDigit = true :=
        fun item member => digitsSecond item (List.mem_cons_of_mem other member)
      have tails : rest.length = others.length := by simpa using lengths
      rw [List.cons_append, List.cons_append, List.cons_lt_cons_iff]
      rw [Nat.ofDigitChars_cons, Nat.ofDigitChars_cons, Nat.ofDigitChars_eq_ofDigitChars_zero,
        @Nat.ofDigitChars_eq_ofDigitChars_zero others, tails] at less
      rcases Nat.lt_trichotomy (letter.toNat - '0'.toNat)
          (other.toNat - '0'.toNat) with below | same | above
      · exact Or.inl (lt_of_digit_lt digit below)
      · have heads := eq_of_digit_eq digit otherDigit same
        rw [same] at less
        have remaining : Nat.ofDigitChars 10 rest 0 < Nat.ofDigitChars 10 others 0 := by omega
        exact Or.inr ⟨heads, ih restDigits othersDigits tails remaining⟩
      · have bound := ofDigitChars_lt othersDigits
        have step : 10 ^ others.length *
            (10 * 0 + (other.toNat - '0'.toNat) + 1) ≤ 10 ^ others.length *
                (10 * 0 + (letter.toNat - '0'.toNat)) :=
          Nat.mul_le_mul_left _ (by omega)
        rw [Nat.mul_succ] at step
        omega

/-- Padded numbers are ordered as numbers. -/
theorem padded_append_lt {width first second : Nat} (positive : 0 < width)
    (less : first < second) (short : second < 10 ^ width) (restFirst restSecond : Text) :
    padded width first ++ restFirst < padded width second ++ restSecond := by
  have shorter : first < 10 ^ width := by omega
  apply append_lt_append
  · exact fun _ member => isDigit_of_mem_padded member
  · exact fun _ member => isDigit_of_mem_padded member
  · rw [length_padded positive shorter, length_padded positive short]
  · rw [ofDigitChars_padded, ofDigitChars_padded]
    exact less

end Aprovan.Library
