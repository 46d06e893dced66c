import Aprovan.Library.Text

/-!
# JSON texts

A value is written without blanks.  Its text determines the value with the
order of the members of its objects.
-/

namespace Aprovan.Library

def isNumberLetter (letter : Char) : Bool :=
  letter.isDigit || letter ∈ ['-', '+', '.', 'e']

/-- A finite number, as it is printed. -/
structure NumberText where
  letters : Text
  nonempty : letters ≠ []
  plain : letters.all isNumberLetter = true

/-- A value, with the members of an object in the order of their enumeration. -/
inductive Json
  | null
  | bool (value : Bool)
  | number (value : NumberText)
  | string (value : Text)
  | array (items : List Json)
  | object (members : List (Text × Json))

def backslash : Char := Char.ofNat 92

def isEscaped (letter : Char) : Bool :=
  letter.toNat < 32 || letter ∈ ['"', backslash]

/-- What follows the backslash. -/
def escapeCode (letter : Char) : Text :=
  match letter.toNat with
  | 8 => ['b']
  | 9 => ['t']
  | 10 => ['n']
  | 12 => ['f']
  | 13 => ['r']
  | code =>
    if code < 32 then ['u', '0', '0', Nat.digitChar (code / 16), Nat.digitChar (code % 16)]
    else [letter]

def escapeLetter (letter : Char) : Text :=
  if isEscaped letter then backslash :: escapeCode letter else [letter]

def quoted (text : Text) : Text :=
  '"' :: text.flatMap escapeLetter ++ ['"']

mutual

/-- `JSON.stringify(value)`. -/
def stringify : Json → Text
  | .null => "null".toList
  | .bool true => "true".toList
  | .bool false => "false".toList
  | .number value => value.letters
  | .string value => quoted value
  | .array items => '[' :: stringifyItems [] items
  | .object members => '{' :: stringifyMembers [] members

/-- The items, with a separator in front of the first one. -/
def stringifyItems (separator : Text) : List Json → Text
  | [] => [']']
  | item :: items => separator ++ (stringify item ++ stringifyItems [','] items)

def stringifyMembers (separator : Text) : List (Text × Json) → Text
  | [] => ['}']
  | (key, value) :: members =>
    separator ++ (quoted key ++ ':' :: (stringify value ++ stringifyMembers [','] members))

end

def escapedLetters : List Char :=
  '"' :: backslash :: (List.range 32).map Char.ofNat

theorem mem_escapedLetters {letter : Char} (special : isEscaped letter = true) :
    letter ∈ escapedLetters := by
  rw [isEscaped, Bool.or_eq_true, decide_eq_true_eq, decide_eq_true_eq] at special
  cases special with
  | inl control =>
    have member : Char.ofNat letter.toNat ∈ (List.range 32).map Char.ofNat :=
      List.mem_map_of_mem (List.mem_range.mpr control)
    rw [Char.ofNat_toNat] at member
    exact List.mem_cons_of_mem _ (List.mem_cons_of_mem _ member)
  | inr known => exact List.mem_append_left ((List.range 32).map Char.ofNat) known

theorem escapeCode_prefixFree :
    (escapedLetters.all fun first => escapedLetters.all fun second =>
      !(escapeCode first).isPrefixOf (escapeCode second) || first = second) = true := by
  decide +kernel

theorem eq_of_escapeCode_start {first second : Char} (firstSpecial : isEscaped first = true)
    (secondSpecial : isEscaped second = true) (starts : escapeCode first <+: escapeCode second) :
    first = second := by
  have free := List.all_eq_true.mp
    (List.all_eq_true.mp escapeCode_prefixFree first (mem_escapedLetters firstSpecial))
    second (mem_escapedLetters secondSpecial)
  rw [List.isPrefixOf_iff_prefix.mpr starts] at free
  simpa using free

section

variable {rest more : Text}

theorem escapeLetter_append_inj {letter other : Char}
    (same : escapeLetter letter ++ rest = escapeLetter other ++ more) :
    letter = other ∧ rest = more := by
  have marked : isEscaped backslash = true := by decide
  unfold escapeLetter at same
  by_cases special : isEscaped letter = true
  · rw [if_pos special] at same
    by_cases otherSpecial : isEscaped other = true
    · rw [if_pos otherSpecial] at same
      have codes : escapeCode letter ++ rest = escapeCode other ++ more := (List.cons.inj same).2
      have equal : letter = other := by
        rcases List.prefix_or_prefix_of_prefix (List.prefix_append (escapeCode letter) rest)
          (codes ▸ List.prefix_append (escapeCode other) more) with starts | starts
        · exact eq_of_escapeCode_start special otherSpecial starts
        · exact (eq_of_escapeCode_start otherSpecial special starts).symm
      rw [equal] at codes
      exact ⟨equal, List.append_cancel_left codes⟩
    · rw [if_neg otherSpecial] at same
      rw [← (List.cons.inj same).1] at otherSpecial
      exact absurd marked otherSpecial
  · rw [if_neg special] at same
    by_cases otherSpecial : isEscaped other = true
    · rw [if_pos otherSpecial] at same
      rw [(List.cons.inj same).1] at special
      exact absurd marked special
    · rw [if_neg otherSpecial] at same
      exact List.cons.inj same

theorem escapeLetter_append_ne (letter : Char) : escapeLetter letter ++ rest ≠ '"' :: more := by
  intro same
  unfold escapeLetter at same
  by_cases special : isEscaped letter = true
  · rw [if_pos special] at same
    exact absurd (List.cons.inj same).1 (by decide)
  · rw [if_neg special] at same
    rw [(List.cons.inj same).1] at special
    exact special (by decide)

/-- A quoted text ends where its letters do. -/
theorem quoted_append_inj {text other : Text} (same : quoted text ++ rest = quoted other ++ more) :
    text = other ∧ rest = more := by
  have opened : text.flatMap escapeLetter ++ '"' :: rest =
      other.flatMap escapeLetter ++ '"' :: more := by
    simpa [quoted] using same
  clear same
  induction text generalizing other with
  | nil =>
    cases other with
    | nil => exact ⟨rfl, (List.cons.inj opened).2⟩
    | cons letter others =>
      rw [List.flatMap_cons, List.append_assoc] at opened
      exact absurd opened.symm (escapeLetter_append_ne letter)
  | cons letter text ih =>
    rw [List.flatMap_cons, List.append_assoc] at opened
    cases other with
    | nil => exact absurd opened (escapeLetter_append_ne letter)
    | cons otherLetter others =>
      rw [List.flatMap_cons, List.append_assoc] at opened
      obtain ⟨sameLetter, later⟩ := escapeLetter_append_inj opened
      obtain ⟨sameText, sameRest⟩ := ih later
      exact ⟨by rw [sameLetter, sameText], sameRest⟩

/-- What follows a value is no part of a number. -/
def Ends (rest : Text) : Prop :=
  rest.takeWhile isNumberLetter = []

theorem NumberText.append_inj {value other : NumberText} (ends : Ends rest) (moreEnds : Ends more)
    (same : value.letters ++ rest = other.letters ++ more) : value = other ∧ rest = more := by
  have read : ∀ (number : NumberText) {after : Text}, Ends after →
      (number.letters ++ after).takeWhile isNumberLetter = number.letters := by
    intro number after ends
    rw [List.takeWhile_append_of_pos (List.all_eq_true.mp number.plain), ends, List.append_nil]
  have letters : value.letters = other.letters := by
    rw [← read value ends, same, read other moreEnds]
  rw [letters] at same
  refine ⟨?_, List.append_cancel_left same⟩
  cases value
  cases other
  cases letters
  rfl

end

/-- The first letter of a value tells its kind. -/
def kindOf (letter : Char) : Nat :=
  if isNumberLetter letter then 0 else letter.toNat

def Json.kind : Json → Nat
  | .null => 'n'.toNat
  | .bool true => 't'.toNat
  | .bool false => 'f'.toNat
  | .number _ => 0
  | .string _ => '"'.toNat
  | .array _ => '['.toNat
  | .object _ => '{'.toNat

theorem stringify_kind (value : Json) :
    ∃ first rest, stringify value = first :: rest ∧ kindOf first = value.kind := by
  cases value with
  | null => exact ⟨_, _, rfl, rfl⟩
  | bool value => cases value <;> exact ⟨_, _, rfl, rfl⟩
  | number value =>
    obtain ⟨letters, nonempty, plain⟩ := value
    cases letters with
    | nil => exact absurd rfl nonempty
    | cons first rest =>
      exact ⟨first, rest, rfl, if_pos (List.all_eq_true.mp plain first List.mem_cons_self)⟩
  | string value => exact ⟨_, _, rfl, rfl⟩
  | array items => exact ⟨_, _, rfl, rfl⟩
  | object members => exact ⟨_, _, rfl, rfl⟩

/-- A separator, or nothing, and a value do not start like a closing bracket. -/
theorem stringify_ne_closing {separator : Text} (known : separator = [] ∨ separator = [','])
    {closing : Char} (closes : closing = ']' ∨ closing = '}') (value : Json) (rest more : Text) :
    separator ++ (stringify value ++ rest) ≠ closing :: more := by
  intro same
  rcases known with rfl | rfl
  · obtain ⟨first, later, starts, kind⟩ := stringify_kind value
    rw [starts] at same
    rw [(List.cons.inj same).1] at kind
    rcases closes with rfl | rfl <;> rcases value with _ | (_ | _) | _ | _ | _ | _ <;> cases kind
  · have comma := (List.cons.inj same).1
    rcases closes with rfl | rfl <;> exact absurd comma (by decide)

theorem ends_stringifyItems (items : List Json) (rest : Text) :
    Ends (stringifyItems [','] items ++ rest) := by
  cases items <;> rfl

theorem ends_stringifyMembers (members : List (Text × Json)) (rest : Text) :
    Ends (stringifyMembers [','] members ++ rest) := by
  cases members <;> rfl

mutual

/-- A value ends where its text does. -/
theorem stringify_append_inj (value other : Json) {rest more : Text} (ends : Ends rest)
    (moreEnds : Ends more) (same : stringify value ++ rest = stringify other ++ more) :
    value = other ∧ rest = more := by
  have sameKind : value.kind = other.kind := by
    obtain ⟨first, later, starts, kind⟩ := stringify_kind value
    obtain ⟨otherFirst, otherLater, otherStarts, otherKind⟩ := stringify_kind other
    rw [starts, otherStarts] at same
    rw [← kind, ← otherKind, (List.cons.inj same).1]
  match value, other with
  | .null, .null => exact ⟨rfl, List.append_cancel_left same⟩
  | .bool true, .bool true => exact ⟨rfl, List.append_cancel_left same⟩
  | .bool false, .bool false => exact ⟨rfl, List.append_cancel_left same⟩
  | .number first, .number second =>
    obtain ⟨numbers, rests⟩ := NumberText.append_inj ends moreEnds same
    exact ⟨by rw [numbers], rests⟩
  | .string first, .string second =>
    obtain ⟨texts, rests⟩ := quoted_append_inj same
    exact ⟨by rw [texts], rests⟩
  | .array items, .array others =>
    obtain ⟨lists, rests⟩ := stringifyItems_append_inj items others (Or.inl rfl)
      (List.cons.inj same).2
    exact ⟨by rw [lists], rests⟩
  | .object members, .object others =>
    obtain ⟨lists, rests⟩ := stringifyMembers_append_inj members others (Or.inl rfl)
      (List.cons.inj same).2
    exact ⟨by rw [lists], rests⟩

theorem stringifyItems_append_inj (items others : List Json) {separator rest more : Text}
    (known : separator = [] ∨ separator = [','])
    (same : stringifyItems separator items ++ rest = stringifyItems separator others ++ more) :
    items = others ∧ rest = more := by
  match items, others with
  | [], [] => exact ⟨rfl, (List.cons.inj same).2⟩
  | [], other :: others =>
    rw [stringifyItems, stringifyItems, List.append_assoc, List.append_assoc] at same
    exact absurd same.symm (stringify_ne_closing known (Or.inl rfl) _ _ _)
  | item :: items, [] =>
    rw [stringifyItems, stringifyItems, List.append_assoc, List.append_assoc] at same
    exact absurd same (stringify_ne_closing known (Or.inl rfl) _ _ _)
  | item :: items, other :: others =>
    rw [stringifyItems, stringifyItems, List.append_assoc, List.append_assoc,
      List.append_assoc, List.append_assoc] at same
    obtain ⟨first, later⟩ := stringify_append_inj item other (ends_stringifyItems items rest)
      (ends_stringifyItems others more) (List.append_cancel_left same)
    obtain ⟨lists, rests⟩ := stringifyItems_append_inj items others (Or.inr rfl) later
    exact ⟨by rw [first, lists], rests⟩

theorem stringifyMembers_append_inj (members others : List (Text × Json))
    {separator rest more : Text} (known : separator = [] ∨ separator = [','])
    (same : stringifyMembers separator members ++ rest =
      stringifyMembers separator others ++ more) :
    members = others ∧ rest = more := by
  match members, others with
  | [], [] => exact ⟨rfl, (List.cons.inj same).2⟩
  | [], (key, other) :: others =>
    rw [stringifyMembers, stringifyMembers, List.append_assoc, List.append_assoc] at same
    exact absurd same.symm (stringify_ne_closing known (Or.inr rfl) (.string key) _ _)
  | (key, value) :: members, [] =>
    rw [stringifyMembers, stringifyMembers, List.append_assoc, List.append_assoc] at same
    exact absurd same (stringify_ne_closing known (Or.inr rfl) (.string key) _ _)
  | (key, value) :: members, (otherKey, other) :: others =>
    rw [stringifyMembers, stringifyMembers, List.append_assoc, List.append_assoc,
      List.append_assoc, List.append_assoc] at same
    obtain ⟨keys, values⟩ := quoted_append_inj (List.append_cancel_left same)
    have values : stringify value ++ (stringifyMembers [','] members ++ rest) =
        stringify other ++ (stringifyMembers [','] others ++ more) := by
      simpa using values
    obtain ⟨first, later⟩ := stringify_append_inj value other
      (ends_stringifyMembers members rest) (ends_stringifyMembers others more) values
    obtain ⟨lists, rests⟩ := stringifyMembers_append_inj members others (Or.inr rfl) later
    exact ⟨by rw [keys, first, lists], rests⟩

end

theorem stringify_inj {value other : Json} (same : stringify value = stringify other) :
    value = other := by
  have ends : Ends [] := rfl
  exact (stringify_append_inj value other ends ends (congrArg (· ++ []) same)).1

end Aprovan.Library
