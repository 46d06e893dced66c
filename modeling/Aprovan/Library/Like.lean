import Aprovan.Library.Text

/-!
# The pattern language of SQL LIKE

A pattern is a text in which `%` stands for any text, `_` for any single
letter, and the escape letter takes the next letter literally.  Databases
differ in which letters count as the same, so the comparison of letters is a
parameter.
-/

namespace Aprovan.Library

/-- One item of a pattern. -/
inductive LikeItem where
  | letter (expected : Char)
  | anyLetter
  | anyText

/-- Read a pattern; a pattern that ends in the escape letter is malformed. -/
def parseLike (escape : Char) : Text → Option (List LikeItem)
  | [] => some []
  | first :: rest =>
    if first = escape then
      match rest with
      | [] => none
      | escaped :: others => (parseLike escape others).map (.letter escaped :: ·)
    else if first = '%' then (parseLike escape rest).map (.anyText :: ·)
    else if first = '_' then (parseLike escape rest).map (.anyLetter :: ·)
    else (parseLike escape rest).map (.letter first :: ·)

/-- Does the text match the items, under the given comparison of letters? -/
def matchesItems (same : Char → Char → Bool) : List LikeItem → Text → Bool
  | [], text => text.isEmpty
  | .letter expected :: items, text =>
    match text with
    | [] => false
    | found :: rest => same expected found && matchesItems same items rest
  | .anyLetter :: items, text =>
    match text with
    | [] => false
    | _ :: rest => matchesItems same items rest
  | .anyText :: items, text => text.tails.any (matchesItems same items)

/-- `text LIKE pattern ESCAPE escape`. -/
def like (same : Char → Char → Bool) (escape : Char) (text pattern : Text) : Bool :=
  match parseLike escape pattern with
  | none => false
  | some items => matchesItems same items text

def escapeLetters (escape : Char) (special : List Char) : Text → Text
  | [] => []
  | first :: rest =>
    if first ∈ special then escape :: first :: escapeLetters escape special rest
    else first :: escapeLetters escape special rest

def literally (text : Text) : List LikeItem :=
  text.map .letter

/-- A letter that is neither the escape nor a wildcard stands for itself. -/
theorem parseLike_plain {escape first : Char} {rest : Text} (notEscape : first ≠ escape)
    (notPercent : first ≠ '%') (notUnderscore : first ≠ '_') :
    parseLike escape (first :: rest) = (parseLike escape rest).map (.letter first :: ·) := by
  cases rest with
  | nil => simp [parseLike, notEscape, notPercent, notUnderscore]
  | cons second others => rw [parseLike, if_neg notEscape, if_neg notPercent, if_neg notUnderscore]

theorem matchesItems_anyText (same : Char → Char → Bool) (text : Text) :
    matchesItems same [.anyText] text = true := by
  simp only [matchesItems, List.any_eq_true, List.mem_tails]
  exact ⟨[], List.nil_suffix, rfl⟩

/-- A match splits where its pattern does. -/
theorem matchesItems_append_iff {same : Char → Char → Bool} {first second : List LikeItem}
    {text : Text} :
    matchesItems same (first ++ second) text = true ↔ ∃ found rest, text = found ++ rest ∧
        matchesItems same first found = true ∧
        matchesItems same second rest = true := by
  induction first generalizing text with
  | nil =>
    constructor
    · intro hit
      exact ⟨[], text, rfl, rfl, hit⟩
    · rintro ⟨found, rest, rfl, none_left, hit⟩
      rw [List.isEmpty_iff.mp none_left]
      exact hit
  | cons item items ih =>
    -- an item that stands for one letter
    have single : ∀ accepts : Char → Bool, (∀ items, matchesItems same (item :: items) [] = false) →
        (∀ items letter tail, matchesItems same (item :: items) (letter :: tail) =
          (accepts letter && matchesItems same items tail)) →
        (matchesItems same (item :: items ++ second) text = true ↔
          ∃ found rest, text = found ++ rest ∧ matchesItems same (item :: items) found = true ∧
            matchesItems same second rest = true) := by
      intro accepts none next
      constructor
      · intro hit
        cases text with
        | nil =>
          rw [List.cons_append, none] at hit
          cases hit
        | cons letter tail =>
          rw [List.cons_append, next, Bool.and_eq_true] at hit
          obtain ⟨found, rest, rfl, begun, ended⟩ := ih.mp hit.2
          exact ⟨letter :: found, rest, rfl, by rw [next, hit.1, begun, Bool.and_self], ended⟩
      · rintro ⟨found, rest, rfl, begun, ended⟩
        cases found with
        | nil =>
          rw [none] at begun
          cases begun
        | cons letter tail =>
          rw [next, Bool.and_eq_true] at begun
          rw [List.cons_append, List.cons_append, next, begun.1,
            ih.mpr ⟨tail, rest, rfl, begun.2, ended⟩, Bool.and_self]
    cases item with
    | letter expected => exact single (same expected) (fun _ => rfl) fun _ _ _ => rfl
    | anyLetter => exact single (fun _ => true) (fun _ => rfl) fun _ _ _ => rfl
    | anyText =>
      simp only [List.cons_append, matchesItems, List.any_eq_true, List.mem_tails]
      constructor
      · rintro ⟨tail, ⟨skipped, rfl⟩, hit⟩
        obtain ⟨found, rest, rfl, begun, ended⟩ :=
          ih.mp hit
        exact ⟨skipped ++ found, rest, by rw [List.append_assoc],
          ⟨found, List.suffix_append skipped found, begun⟩, ended⟩
      · rintro ⟨found, rest, rfl, ⟨tail, ⟨skipped, rfl⟩, begun⟩, ended⟩
        exact ⟨tail ++ rest, ⟨skipped, by rw [List.append_assoc]⟩,
          ih.mpr ⟨tail, rest, rfl, begun, ended⟩⟩

theorem matchesItems_literally {same : Char → Char → Bool} {expected text : Text} :
    matchesItems same (literally expected) text = true ↔
      List.Forall₂ (fun left right => same left right = true) expected text := by
  induction expected generalizing text with
  | nil => cases text <;> simp [literally, matchesItems]
  | cons first others ih =>
    cases text with
    | nil => simp [literally, matchesItems]
    | cons letter rest =>
      rw [List.forall₂_cons, ← ih]
      simp [literally, matchesItems]

theorem matchesItems_below {same : Char → Char → Bool} {items : List LikeItem} {separator : Char}
    {text : Text} :
    matchesItems same (items ++ [.letter separator, .anyText]) text = true ↔
      ∃ above letter rest, text = above ++ letter :: rest ∧
        matchesItems same items above = true ∧ same separator letter = true := by
  rw [matchesItems_append_iff]
  constructor
  · rintro ⟨above, remaining, rfl, begun, hit⟩
    cases remaining with
    | nil => simp [matchesItems] at hit
    | cons letter rest =>
      rw [matchesItems, Bool.and_eq_true] at hit
      exact ⟨above, letter, rest, rfl, begun, hit.1⟩
  · rintro ⟨above, letter, rest, rfl, begun, found⟩
    refine ⟨above, letter :: rest, rfl, begun, ?_⟩
    rw [matchesItems, found, matchesItems_anyText]
    rfl

/-- When the escape letter is itself special, an escaped text is read back
literally, whatever follows it. -/
theorem parseLike_escapeLetters {escape : Char} {special : List Char} {text following : Text}
    {items : List LikeItem} (percent : '%' ∈ special) (underscore : '_' ∈ special)
    (escaped : escape ∈ special ∨ escape ∉ text)
    (tail : parseLike escape following = some items) :
    parseLike escape (escapeLetters escape special text ++ following) =
      some (literally text ++ items) := by
  induction text with
  | nil => simpa [escapeLetters, literally] using tail
  | cons first rest ih =>
    have later : escape ∈ special ∨ escape ∉ rest :=
      escaped.imp_right fun absent member => absent (List.mem_cons_of_mem first member)
    have remaining := ih later
    by_cases isSpecial : first ∈ special
    · simp [escapeLetters, isSpecial, parseLike, remaining, literally]
    · have notEscape : first ≠ escape := by
        rintro rfl
        rcases escaped with member | absent
        · exact isSpecial member
        · exact absent List.mem_cons_self
      have notPercent : first ≠ '%' := by
        rintro rfl
        exact isSpecial percent
      have notUnderscore : first ≠ '_' := by
        rintro rfl
        exact isSpecial underscore
      rw [escapeLetters, if_neg isSpecial, List.cons_append,
        parseLike_plain notEscape notPercent notUnderscore, remaining]
      rfl

section

variable {escape separator : Char} {special : List Char} {root : Text}
  (percent : '%' ∈ special) (underscore : '_' ∈ special)
  (escaped : escape ∈ special ∨ escape ∉ root)
  (plain : separator ∉ [escape, '%', '_']) (notPercent : escape ≠ '%')

include percent underscore escaped plain notPercent

/-- The pattern of everything strictly below a name: the escaped name, the
separator, and any text. -/
theorem like_below_iff {same : Char → Char → Bool} {text : Text} :
    like same escape text (escapeLetters escape special root ++ [separator, '%']) = true ↔
      ∃ above letter rest, text = above ++ letter :: rest ∧
        List.Forall₂ (fun left right => same left right = true) root above ∧
        same separator letter = true := by
  have notSeparator : separator ≠ escape ∧ separator ≠ '%' ∧ separator ≠ '_' := by simpa using plain
  have ending : parseLike escape [separator, '%'] = some [.letter separator, .anyText] := by
    simp [parseLike, notSeparator.1, notSeparator.2.1, notSeparator.2.2, Ne.symm notPercent]
  rw [like, parseLike_escapeLetters percent underscore escaped ending]
  simp only [matchesItems_below, matchesItems_literally]

/-- With the exact comparison of letters the pattern selects what lies below
the name. -/
theorem like_below_exact_iff {text : Text} :
    like (fun left right => left = right) escape text
        (escapeLetters escape special root ++ [separator, '%']) = true ↔
      ∃ rest, text = root ++ separator :: rest := by
  rw [like_below_iff percent underscore escaped plain notPercent]
  simp only [decide_eq_true_eq, List.forall₂_eq_eq_eq]
  constructor
  · rintro ⟨above, letter, rest, rfl, rfl, rfl⟩
    exact ⟨rest, rfl⟩
  · rintro ⟨rest, rfl⟩
    exact ⟨root, separator, rest, rfl, rfl, rfl⟩

end

/-- A comparison of letters that accepts equal ones selects at least what
lies below the name. -/
theorem like_below_of_append {same : Char → Char → Bool} {escape separator : Char}
    {special : List Char} {root rest : Text} (reflexive : ∀ letter, same letter letter = true)
    (percent : '%' ∈ special) (underscore : '_' ∈ special)
    (escaped : escape ∈ special ∨ escape ∉ root) (plain : separator ∉ [escape, '%', '_'])
    (notPercent : escape ≠ '%') :
    like same escape (root ++ separator :: rest)
        (escapeLetters escape special root ++ [separator, '%']) = true := by
  rw [like_below_iff percent underscore escaped plain notPercent]
  refine ⟨root, separator, rest, rfl, ?_, reflexive separator⟩
  exact List.forall₂_same.mpr fun letter _ => reflexive letter

end Aprovan.Library
