import Mathlib

/-!
# Text and its segments

Text is a list of characters.  Splitting at a separator, joining with it, and
the test whether one name lies at or below another, which is the prefix order
on segments.
-/

namespace Aprovan.Library

/-- A text, as the characters it consists of. -/
abbrev Text := List Char

instance : LawfulBEq Text := inferInstance

instance : LawfulBEq (Text × Text) := inferInstance

def splitOn (separator : Char) : Text → List Text
  | [] => [[]]
  | letter :: rest =>
    if letter = separator then [] :: splitOn separator rest
    else
      match splitOn separator rest with
      | [] => [[letter]]
      | first :: others => (letter :: first) :: others

def joinWith (separator : Char) : List Text → Text
  | [] => []
  | [segment] => segment
  | segment :: next :: others => segment ++ separator :: joinWith separator (next :: others)

theorem splitOn_cons (separator letter : Char) (rest : Text) :
    splitOn separator (letter :: rest) =
      if letter = separator then [] :: splitOn separator rest
      else
        match splitOn separator rest with
        | [] => [[letter]]
        | first :: others => (letter :: first) :: others :=
  rfl

theorem joinWith_cons_cons (separator : Char) (segment next : Text) (others : List Text) :
    joinWith separator (segment :: next :: others) =
      segment ++ separator :: joinWith separator (next :: others) :=
  rfl

theorem splitOn_ne_nil (separator : Char) (text : Text) : splitOn separator text ≠ [] := by
  cases text with
  | nil => exact List.cons_ne_nil _ _
  | cons letter rest =>
    rw [splitOn_cons]
    split
    · simp
    · split <;> simp

/-- Joining undoes splitting. -/
theorem joinWith_splitOn (separator : Char) (text : Text) :
    joinWith separator (splitOn separator text) = text := by
  induction text with
  | nil => rfl
  | cons letter rest ih =>
    rw [splitOn_cons]
    split
    next same =>
      subst same
      cases parts : splitOn letter rest with
      | nil => exact absurd parts (splitOn_ne_nil letter rest)
      | cons first others =>
        rw [parts] at ih
        rw [joinWith_cons_cons, ih, List.nil_append]
    next =>
      cases parts : splitOn separator rest with
      | nil => exact absurd parts (splitOn_ne_nil separator rest)
      | cons first others =>
        rw [parts] at ih
        cases others with
        | nil => exact congrArg (letter :: ·) ih
        | cons second others => exact congrArg (letter :: ·) ih

variable {separator : Char} {text : Text}

theorem separator_not_mem_of_mem_splitOn {segment : Text}
    (member : segment ∈ splitOn separator text) :
    separator ∉ segment := by
  induction text generalizing segment with
  | nil =>
    rw [List.mem_singleton.mp member]
    exact List.not_mem_nil
  | cons letter rest ih =>
    rw [splitOn_cons] at member
    split at member
    next =>
      rcases List.mem_cons.mp member with rfl | later
      · exact List.not_mem_nil
      · exact ih later
    next different =>
      cases parts : splitOn separator rest with
      | nil => exact absurd parts (splitOn_ne_nil separator rest)
      | cons first others =>
        rw [parts] at member
        rcases List.mem_cons.mp member with rfl | later
        · have inFirst : separator ∉ first := ih (by rw [parts]; exact List.mem_cons_self)
          simpa [Ne.symm different] using inFirst
        · exact ih (by rw [parts]; exact List.mem_cons_of_mem first later)

theorem exists_mem_splitOn {letter : Char} (member : letter ∈ text) (plain : letter ≠ separator) :
    ∃ segment ∈ splitOn separator text, letter ∈ segment := by
  induction text with
  | nil => cases member
  | cons first rest ih =>
    rw [splitOn_cons]
    by_cases separates : first = separator
    · rw [if_pos separates]
      rcases List.mem_cons.mp member with same | later
      · exact absurd (same.trans separates) plain
      · obtain ⟨segment, inside, inSegment⟩ := ih later
        exact ⟨segment, List.mem_cons_of_mem _ inside, inSegment⟩
    · rw [if_neg separates]
      cases parts : splitOn separator rest with
      | nil => exact absurd parts (splitOn_ne_nil separator rest)
      | cons start others =>
        rcases List.mem_cons.mp member with same | later
        · exact ⟨first :: start, List.mem_cons_self, same ▸ List.mem_cons_self⟩
        · obtain ⟨segment, inside, inSegment⟩ :=
            ih later
          rw [parts] at inside
          rcases List.mem_cons.mp inside with own | other
          · exact ⟨first :: start, List.mem_cons_self,
              List.mem_cons_of_mem first (own ▸ inSegment)⟩
          · exact ⟨segment, List.mem_cons_of_mem _ other, inSegment⟩

theorem splitOn_of_not_mem (absent : separator ∉ text) : splitOn separator text = [text] := by
  induction text with
  | nil => rfl
  | cons letter rest ih =>
    rw [List.mem_cons, not_or] at absent
    rw [splitOn_cons, if_neg (Ne.symm absent.1), ih absent.2]

theorem splitOn_append_separator (separator : Char) (first second : Text) :
    splitOn separator (first ++ separator :: second) =
      splitOn separator first ++ splitOn separator second := by
  induction first with
  | nil => exact if_pos rfl
  | cons letter rest ih =>
    rw [List.cons_append, splitOn_cons, splitOn_cons]
    split
    · rw [ih, List.cons_append]
    · cases parts : splitOn separator rest with
      | nil => exact absurd parts (splitOn_ne_nil separator rest)
      | cons head others =>
        rw [ih, parts]
        rfl

theorem splitOn_injective (separator : Char) : Function.Injective (splitOn separator) := by
  intro first second same
  rw [← joinWith_splitOn separator first, same, joinWith_splitOn]

/-- Does the name `text` lie at or below the name `root`? -/
def isUnder (separator : Char) (text root : Text) : Bool :=
  text = root || (root ++ [separator]).isPrefixOf text

theorem isUnder_iff {root : Text} :
    isUnder separator text root = true ↔
      text = root ∨ ∃ rest, text = root ++ separator :: rest := by
  simp only [isUnder, Bool.or_eq_true, decide_eq_true_eq, List.isPrefixOf_iff_prefix]
  refine or_congr Iff.rfl ?_
  constructor
  · rintro ⟨rest, rfl⟩
    exact ⟨rest, by simp⟩
  · rintro ⟨rest, rfl⟩
    exact ⟨rest, by simp⟩

@[simp]
theorem isUnder_self (separator : Char) (text : Text) : isUnder separator text text = true :=
  isUnder_iff.mpr (Or.inl rfl)

/-- Lying below is the prefix order on segments. -/
theorem isUnder_iff_segments {root : Text} :
    isUnder separator text root = true ↔ splitOn separator root <+: splitOn separator text := by
  rw [isUnder_iff]
  constructor
  · rintro (rfl | ⟨rest, rfl⟩)
    · exact List.prefix_refl _
    · rw [splitOn_append_separator]
      exact List.prefix_append _ _
  · rintro ⟨others, parts⟩
    cases others with
    | nil =>
      rw [List.append_nil] at parts
      exact Or.inl (splitOn_injective separator parts.symm)
    | cons head tail =>
      right
      refine ⟨joinWith separator (head :: tail), ?_⟩
      apply splitOn_injective separator
      rw [splitOn_append_separator, ← parts]
      congr 1
      have whole : ∀ segment ∈ head :: tail, separator ∉ segment := by
        intro segment member
        have inside : segment ∈ splitOn separator text := by
          rw [← parts]
          exact List.mem_append_right _ member
        exact separator_not_mem_of_mem_splitOn inside
      clear parts
      induction tail generalizing head with
      | nil => exact (splitOn_of_not_mem (whole head List.mem_cons_self)).symm
      | cons next others ih =>
        rw [joinWith_cons_cons, splitOn_append_separator, splitOn_of_not_mem (whole head List.mem_cons_self),
          ← ih next
            (fun segment member => whole segment (List.mem_cons_of_mem head member))]
        rfl

theorem isUnder_trans {middle root : Text} (lower : isUnder separator text middle = true)
    (upper : isUnder separator middle root = true) :
    isUnder separator text root = true := by
  rw [isUnder_iff_segments] at lower upper ⊢
  exact upper.trans lower

/-- Two names above one name are comparable. -/
theorem isUnder_total {first second : Text} (underFirst : isUnder separator text first = true)
    (underSecond : isUnder separator text second = true) :
    isUnder separator first second = true ∨ isUnder separator second first = true := by
  rw [isUnder_iff_segments] at underFirst underSecond ⊢
  rw [isUnder_iff_segments]
  exact (List.prefix_or_prefix_of_prefix underFirst underSecond).symm

/-- The letters that `trim` removes. -/
def isJsSpace (letter : Char) : Bool :=
  letter.toNat ∈ [9, 10, 11, 12, 13, 32, 160, 5760, 8232, 8233, 8239, 8287, 12288, 65279] ||
  (8192 ≤ letter.toNat && letter.toNat ≤ 8202)

/-- `text.trim()`. -/
def trim (text : Text) : Text :=
  ((text.dropWhile isJsSpace).reverse.dropWhile isJsSpace).reverse

def codeUnits (text : Text) : List Nat :=
  text.flatMap fun letter =>
    if letter.toNat < 65536 then [letter.toNat]
    else [55296 + (letter.toNat - 65536) / 1024, 56320 + (letter.toNat - 65536) % 1024]

theorem ne_surrogate (letter : Char) :
    letter.toNat < 55296 ∨ (57343 < letter.toNat ∧ letter.toNat < 1114112) := by
  have valid := letter.valid
  simp only [UInt32.isValidChar, Nat.isValidChar] at valid
  exact valid

theorem codeUnits_cons (letter : Char) (rest : Text) :
    codeUnits (letter :: rest) = (if letter.toNat < 65536 then [letter.toNat]
      else
        [55296 + (letter.toNat - 65536) / 1024,
          56320 + (letter.toNat - 65536) % 1024]) ++ codeUnits rest :=
  rfl

/-- A text can be read from its code units. -/
theorem codeUnits_injective : Function.Injective codeUnits := by
  intro first
  induction first with
  | nil =>
    intro second same
    cases second with
    | nil => rfl
    | cons letter rest =>
      rw [codeUnits_cons] at same
      split at same <;> cases same
  | cons letter rest ih =>
    intro second same
    cases second with
    | nil =>
      rw [codeUnits_cons] at same
      split at same <;> cases same
    | cons other others =>
      have letterRange := ne_surrogate letter
      have otherRange := ne_surrogate other
      rw [codeUnits_cons, codeUnits_cons] at same
      have parts : letter.toNat = other.toNat ∧ codeUnits rest = codeUnits others := by
        split at same
        · split at same
          · simpa using same
          · simp only [List.cons_append, List.cons.injEq] at same
            omega
        · split at same
          · simp only [List.cons_append, List.cons.injEq] at same
            omega
          · simp only [List.cons_append, List.nil_append, List.cons.injEq] at same
            exact ⟨by omega, same.2.2⟩
      rw [Char.toNat_inj.mp parts.1, ih parts.2]

/-- `texts.sort()`. -/
def sortTexts (texts : List Text) : List Text :=
  texts.insertionSort fun first second => codeUnits first ≤ codeUnits second

theorem mem_sortTexts {texts : List Text} : text ∈ sortTexts texts ↔ text ∈ texts :=
  (List.perm_insertionSort _ texts).mem_iff

theorem sortTexts_eq_of_mem_iff {first second : List Text} (firstDistinct : first.Nodup)
    (secondDistinct : second.Nodup) (same : ∀ text, text ∈ first ↔ text ∈ second) :
    sortTexts first = sortTexts second := by
  have total : Std.Total fun first second : Text =>
      codeUnits first ≤ codeUnits second :=
    ⟨fun first second => le_total (codeUnits first) (codeUnits second)⟩
  have transitive : IsTrans Text fun first second =>
      codeUnits first ≤ codeUnits second :=
    ⟨fun first second third => le_trans⟩
  have rearranged : first.Perm second :=
    (List.perm_ext_iff_of_nodup firstDistinct secondDistinct).mpr same
  have sortedAlike : (sortTexts first).Perm (sortTexts second) :=
    (List.perm_insertionSort _ first).trans
      (rearranged.trans (List.perm_insertionSort _ second).symm)
  refine sortedAlike.eq_of_pairwise ?_ (List.pairwise_insertionSort _ first)
    (List.pairwise_insertionSort _ second)
  intro left right _ _ below above
  exact codeUnits_injective (le_antisymm below above)

theorem nodup_eraseDups (values : List Text) : values.eraseDups.Nodup := by
  induction length : values.length using Nat.strong_induction_on generalizing values with
  | _ bound ih =>
    cases values with
    | nil => simp
    | cons value rest =>
      rw [List.eraseDups_cons, List.nodup_cons]
      refine ⟨by simp, ih _ ?_ _ rfl⟩
      have shorter := List.length_filter_le (fun other => !other == value) rest
      rw [List.length_cons] at length
      omega

end Aprovan.Library
