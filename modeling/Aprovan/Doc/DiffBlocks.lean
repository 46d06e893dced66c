import Aprovan.Library.Occurrences

/-!
# SEARCH/REPLACE blocks

A block is put at the first place where its search text stands, else at the
first window of lines that agrees with it up to white space at the ends of
lines and one indentation of the whole window.
-/

namespace Aprovan.Doc

open Aprovan.Library

structure DiffBlock where
  (search replace : Text)

/-- `text.trimEnd()`. -/
def trimEnd (text : Text) : Text :=
  (text.reverse.dropWhile isJsSpace).reverse

/-- The one indentation by which the lines of a window differ from the search
lines: the prefix that the file has more, or less. -/
structure Shift where
  (indent dedent : Option Text)

/-- The white space that `longer` has before `shorter`, if it is `shorter`
with white space before it. -/
def spaceBefore (longer shorter : Text) : Option Text :=
  let space := longer.take (longer.length - shorter.length)
  if shorter ≠ [] ∧ shorter.isSuffixOf longer ∧ space ≠ [] ∧ space.all isJsSpace then some space
  else none

/-- One round of the comparison of a window, on a line of the file and the
search line. -/
def shiftLine (shift : Shift) (fileLine searchLine : Text) : Option Shift :=
  let file := trimEnd fileLine
  let search := trimEnd searchLine
  if file = search then some shift
  else
    match spaceBefore file search with
    | some space =>
      if shift.indent.getD space ≠ space ∨ shift.dedent ≠ none then none
      else some { shift with indent := some space }
    | none =>
      match spaceBefore search file with
      | some space =>
        if shift.dedent.getD space ≠ space ∨ shift.indent ≠ none then none
        else some { shift with dedent := some space }
      | none => none

def shiftWindow (window searchLines : List Text) : Option Shift :=
  (window.zip searchLines).foldlM (fun shift lines => shiftLine shift lines.1 lines.2)
    { indent := none, dedent := none }

/-- The first window of the search's height that matches, from `start` on. -/
def firstWindow (searchLines : List Text) : Nat → List Text → Option (Nat × Shift)
  | _, [] => none
  | start, line :: lines =>
    if (line :: lines).length < searchLines.length then none
    else
      match shiftWindow ((line :: lines).take searchLines.length) searchLines with
      | some shift => some (start, shift)
      | none => firstWindow searchLines (start + 1) lines

def shiftReplaceLine (shift : Shift) (line : Text) : Text :=
  if trim line = [] then line
  else
    match shift.indent, shift.dedent with
    | some space, _ => space ++ line
    | none, some space =>
      if space.isPrefixOf line then line.drop space.length else line
    | none, none => line

/-- The replacement's lines under the shift of the window. -/
def shiftReplace (shift : Shift) (replace : Text) : List Text :=
  (splitOn '\n' replace).map (shiftReplaceLine shift)

/-- Where a block matches, how far, and what is put there. -/
structure DiffMatch where
  (index length : Nat)
  replace : Text

def matchFuzzy (code search replace : Text) : Option DiffMatch :=
  let fileLines := splitOn '\n' code
  let searchLines := splitOn '\n' search
  (firstWindow searchLines 0 fileLines).map fun window =>
    let matchedText := joinWith '\n' ((fileLines.drop window.1).take searchLines.length)
    { index := ((fileLines.take window.1).map (·.length + 1)).sum
      length := matchedText.length
      replace := joinWith '\n' (shiftReplace window.2 replace) }

def matchDiffBlock (code search replace : Text) : Option DiffMatch :=
  if search = [] then none
  else
    match indexOf search code with
    | some exactIndex =>
      some {
        index := exactIndex
        length := search.length
        replace := replace }
    | none => matchFuzzy code search replace

def applyMatch (code : Text) (found : DiffMatch) : Text :=
  splice code found.index found.length found.replace

/-- A block applied to a text; `none` when it does not match. -/
def applyBlock (code : Text) (block : DiffBlock) : Option Text :=
  (matchDiffBlock code block.search block.replace).map (applyMatch code)

/-- What a sequence of blocks leaves, and which of them matched. -/
@[ext]
structure Applied where
  text : Text
  matched : List Bool

def applyEach (applyOne : Text → DiffBlock → Option Text) (text : Text) : List DiffBlock → Applied
  | [] => ⟨text, []⟩
  | block :: blocks =>
    match applyOne text block with
    | none =>
      let rest := applyEach applyOne text blocks
      ⟨rest.text, false :: rest.matched⟩
    | some next =>
      let rest := applyEach applyOne next blocks
      ⟨rest.text, true :: rest.matched⟩

/-- `text.slice(0, limit)`, in code units; half a letter is left out. -/
def takeUnits (limit : Nat) : Text → Text
  | [] => []
  | letter :: rest =>
    let units := (codeUnits [letter]).length
    if units ≤ limit then letter :: takeUnits (limit - units) rest else []

/-- `failPreview`: three lines of the search, a hundred units of them. -/
def failPreview (search : Text) : Text :=
  let preview := takeUnits 100 (joinWith '\n' ((splitOn '\n' search).take 3))
  preview ++ (if preview.length < search.length then "...".toList else [])

theorem firstWindow_bounds {searchLines lines : List Text} {start found : Nat} {shift : Shift}
    (matched : firstWindow searchLines start lines = some (found, shift)) :
    start ≤ found ∧ found - start + searchLines.length ≤ lines.length ∧
      found - start < lines.length := by
  induction lines generalizing start with
  | nil => cases matched
  | cons line lines ih =>
    rw [firstWindow] at matched
    by_cases short : (line :: lines).length < searchLines.length
    · rw [if_pos short] at matched
      cases matched
    rw [if_neg short] at matched
    split at matched
    · cases matched
      rw [List.length_cons] at short ⊢
      omega
    · have bounds := ih matched
      rw [List.length_cons] at short ⊢
      omega

theorem splitOn_length_pos (separator : Char) (text : Text) :
    0 < (splitOn separator text).length :=
  List.length_pos_iff.mpr (splitOn_ne_nil separator text)

theorem shiftReplace_ne_nil (shift : Shift) (replace : Text) :
    shiftReplace shift replace ≠ [] := by
  have nonempty := splitOn_ne_nil '\n' replace
  simpa [shiftReplace] using nonempty

theorem length_closedSegments (separator : Char) (segments : List Text) :
    (closedSegments separator segments).length = (segments.map (·.length + 1)).sum := by
  induction segments with
  | nil => rfl
  | cons segment segments ih =>
    rw [closedSegments, List.flatMap_cons, List.length_append, ← closedSegments, ih]
    simp

theorem applyMatch_fuzzy {code search replace : Text} {window : Nat × Shift}
    (found : firstWindow (splitOn '\n' search) 0 (splitOn '\n' code) = some window) :
    (matchFuzzy code search replace).map (applyMatch code) =
      some (joinWith '\n' ((splitOn '\n' code).take window.1 ++ shiftReplace window.2 replace ++
          (splitOn '\n' code).drop (window.1 + (splitOn '\n' search).length))) := by
  have bounds := firstWindow_bounds found
  have height := splitOn_length_pos '\n' search
  have middle : ((splitOn '\n' code).drop window.1).take (splitOn '\n' search).length ≠ [] := by
    rw [← List.length_pos_iff, List.length_take, List.length_drop]
    omega
  have lines : splitOn '\n' code = (splitOn '\n' code).take window.1 ++
        ((splitOn '\n' code).drop window.1).take (splitOn '\n' search).length ++
        (splitOn '\n' code).drop (window.1 + (splitOn '\n' search).length) := by
    rw [List.append_assoc, ← List.drop_drop, List.take_append_drop, List.take_append_drop]
  have letters : code = joinWith '\n' ((splitOn '\n' code).take window.1 ++
        ((splitOn '\n' code).drop window.1).take (splitOn '\n' search).length ++
        (splitOn '\n' code).drop (window.1 + (splitOn '\n' search).length)) := by
    rw [← lines, joinWith_splitOn]
  simp only [matchFuzzy, found, Option.map_some, applyMatch]
  rw [← length_closedSegments]
  have replaced := splice_joinWith '\n' ((splitOn '\n' code).take window.1)
    ((splitOn '\n' code).drop (window.1 + (splitOn '\n' search).length))
    middle (shiftReplace_ne_nil window.2 replace)
  rw [← letters] at replaced
  rw [replaced]

end Aprovan.Doc
