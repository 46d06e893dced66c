import Aprovan.Doc.DiffBlocks

/-!
# The editor's edits

The editor applies the same SEARCH/REPLACE blocks as the server, with a matcher
of its own.  Its exact replacement goes through `String.replace`, which reads
the replacement as a template.
-/

namespace Aprovan.Editor

open Aprovan.Library Aprovan.Doc

section

variable (matched before after : Text)

/-- What a dollar sign and this letter stand for.  A string pattern captures
nothing, so digits and names stand for themselves. -/
def substitution (letter : Char) : Option Text :=
  if letter = '$' then some ['$']
  else if letter = '&' then some matched
  else if letter.toNat = 96 then some before
  else if letter.toNat = 39 then some after
  else none

/-- `GetSubstitution`, of a replacement for the matched text. -/
def substitute : Text → Text
  | [] => []
  | [letter] => [letter]
  | letter :: next :: rest =>
    if letter = '$' then
      match substitution matched before after next with
      | some text => text ++ substitute rest
      | none => letter :: substitute (next :: rest)
    else letter :: substitute (next :: rest)

end

/-- `code.replace(search, replace)`: the first occurrence only. -/
def replaceFirst (code search replace : Text) : Text :=
  match indexOf search code with
  | none => code
  | some index =>
    splice code index search.length (substitute search (code.take index)
        (code.drop (index + search.length)) replace)

def applyFuzzyDiff (code search replace : Text) : Option Text :=
  let fileLines := splitOn '\n' code
  let searchLines := splitOn '\n' search
  (firstWindow searchLines 0 fileLines).map fun window =>
    joinWith '\n' (fileLines.take window.1 ++ shiftReplace window.2 replace ++
        fileLines.drop (window.1 + searchLines.length))

/-- One round of `applyDiffs`; `none` when the block fails. -/
def applyDiff (code : Text) (diff : DiffBlock) : Option Text :=
  if (indexOf diff.search code).isSome then some (replaceFirst code diff.search diff.replace)
  else applyFuzzyDiff code diff.search diff.replace

def diffMarkers : List Text :=
  ["<<<<<<< SEARCH".toList, "=======".toList, ">>>>>>> REPLACE".toList]

def isLineEnd (letter : Char) : Bool :=
  letter.toNat ∈ [10, 13, 8232, 8233]

/-- Does the pattern `^<marker>\s*$` match somewhere?  `atStart` says whether
the text begins a line. -/
def hasMarkerLine (marker : Text) : Bool → Text → Bool
  | _, [] => false
  | atStart, letter :: rest =>
    let behind := (letter :: rest).drop marker.length
    let space := behind.takeWhile isJsSpace
    (atStart && marker.isPrefixOf (letter :: rest) &&
      (space.any isLineEnd || space.length = behind.length)) ||
    hasMarkerLine marker (isLineEnd letter) rest

/-- The first marker that stands on a line of its own. -/
def findDiffMarkers (text : Text) : Option Text :=
  diffMarkers.find? fun marker => hasMarkerLine marker true text

/-- `text.replace(/^<marker>\s*\n?/gm, "")`; `skipped` letters of a match are
still to be dropped. -/
def dropMarker (marker : Text) : Bool → Nat → Text → Text
  | _, _, [] => []
  | _, skipped + 1, letter :: rest => dropMarker marker (isLineEnd letter) skipped rest
  | atStart, 0, letter :: rest =>
    if atStart && marker.isPrefixOf (letter :: rest) then
      let space :=
        ((letter :: rest).drop marker.length).takeWhile isJsSpace
      dropMarker marker (isLineEnd letter) (marker.length + space.length - 1) rest
    else letter :: dropMarker marker (isLineEnd letter) 0 rest

/-- `text.replace(/\n{3,}/g, "\n\n")`, behind `seen` line feeds. -/
def collapseLines : Nat → Text → Text
  | _, [] => []
  | seen, letter :: rest =>
    if letter = '\n' then
      if seen < 2 then letter :: collapseLines (seen + 1) rest
      else collapseLines seen rest
    else letter :: collapseLines 0 rest

def sanitizeDiffMarkers (text : Text) : Text :=
  collapseLines 0 (diffMarkers.foldl (fun result marker => dropMarker marker true 0 result) text)

structure DiffResult where
  code : Text
  applied : Nat
  failed : List Text
  warning : Option Text

def removedMarker (marker : Text) : Text :=
  "Removed stray diff marker \"".toList ++ marker ++ "\" from output".toList

def containsMarker (marker : Text) : Text :=
  "Output contains diff marker \"".toList ++ marker ++
    "\" - the LLM may have generated a malformed response".toList

/-- `applyDiffs`; `sanitize` is false unless the caller asks for it. -/
def applyDiffs (code : Text) (diffs : List DiffBlock) (sanitize : Bool) : DiffResult :=
  let edited := applyEach applyDiff code diffs
  let marker := findDiffMarkers edited.text
  { code :=
      if marker.isSome && sanitize then sanitizeDiffMarkers edited.text else edited.text
    applied := edited.matched.count true
    failed := ((diffs.zip edited.matched).filter (!·.2)).map fun diff => failPreview diff.1.search
    warning := marker.map
      (if sanitize then removedMarker else containsMarker) }

theorem applyFuzzyDiff_eq (code search replace : Text) :
    applyFuzzyDiff code search replace =
      (matchFuzzy code search replace).map (applyMatch code) := by
  cases found : firstWindow (splitOn '\n' search) 0 (splitOn '\n' code) with
  | none => simp only [applyFuzzyDiff, matchFuzzy, found, Option.map_none]
  | some window =>
    rw [applyMatch_fuzzy found]
    simp only [applyFuzzyDiff, found, Option.map_some]

section

variable {code : Text} {diff : DiffBlock}

theorem applyDiff_of_not_exact (searched : diff.search ≠ [])
    (absent : indexOf diff.search code = none) :
    applyDiff code diff = applyBlock code diff := by
  unfold applyDiff applyBlock matchDiffBlock
  simp only [absent, if_neg searched]
  rw [← applyFuzzyDiff_eq]
  rfl

theorem applyDiff_exact {index : Nat} (found : indexOf diff.search code = some index) :
    applyDiff code diff = some (splice code index diff.search.length
        (substitute diff.search (code.take index)
          (code.drop (index + diff.search.length)) diff.replace)) := by
  unfold applyDiff replaceFirst
  simp only [found]
  rfl

theorem applyBlock_exact {index : Nat} (searched : diff.search ≠ [])
    (found : indexOf diff.search code = some index) :
    applyBlock code diff = some (splice code index diff.search.length diff.replace) := by
  unfold applyBlock matchDiffBlock
  simp only [found, if_neg searched]
  rfl

/-- At an exact match the editor's replacement is literal exactly when the
template says what it spells. -/
theorem applyDiff_literal_iff {index : Nat} (found : indexOf diff.search code = some index) :
    applyDiff code diff = some (splice code index diff.search.length diff.replace) ↔
      substitute diff.search (code.take index)
        (code.drop (index + diff.search.length)) diff.replace = diff.replace := by
  rw [applyDiff_exact found, Option.some.injEq]
  exact (splice_injective code index diff.search.length).eq_iff

end

/-- In the editor's run every exact match is replaced by the replacement as
it is spelled. -/
def ReplacedLiterally : Text → List DiffBlock → Prop
  | _, [] => True
  | code, diff :: diffs =>
    (∀ index, indexOf diff.search code = some index → applyDiff code diff =
        some (splice code index diff.search.length diff.replace)) ∧
    ReplacedLiterally ((applyDiff code diff).getD code) diffs

/-- Where a block stands exactly in what the blocks before it have left, its
template says what it spells. -/
def TemplatesLiteral : Text → List DiffBlock → Prop
  | _, [] => True
  | code, diff :: diffs =>
    (∀ index, indexOf diff.search code = some index → substitute diff.search (code.take index)
        (code.drop (index + diff.search.length)) diff.replace = diff.replace) ∧
    TemplatesLiteral ((applyBlock code diff).getD code) diffs

/-- A block whose template is literal where it matches is applied alike. -/
theorem applyDiff_eq_applyBlock {code : Text} {diff : DiffBlock} (searched : diff.search ≠ [])
    (literal : ∀ index, indexOf diff.search code = some index →
      substitute diff.search (code.take index)
        (code.drop (index + diff.search.length)) diff.replace = diff.replace) :
    applyDiff code diff = applyBlock code diff := by
  cases found : indexOf diff.search code with
  | none => exact applyDiff_of_not_exact searched found
  | some index =>
    rw [applyBlock_exact searched found]
    exact (applyDiff_literal_iff found).mpr (literal index found)

theorem replacedLiterally_iff {code : Text} {diffs : List DiffBlock}
    (searched : ∀ diff ∈ diffs, diff.search ≠ []) :
    ReplacedLiterally code diffs ↔ TemplatesLiteral code diffs := by
  induction diffs generalizing code with
  | nil => exact Iff.rfl
  | cons diff diffs ih =>
    have here := searched diff List.mem_cons_self
    have later : ∀ other ∈ diffs, other.search ≠ [] := fun other member =>
      searched other (List.mem_cons_of_mem diff member)
    rw [ReplacedLiterally, TemplatesLiteral]
    constructor
    · rintro ⟨literal, rest⟩
      have spelled : ∀ index, indexOf diff.search code = some index → _ :=
        fun index found => (applyDiff_literal_iff found).mp (literal index found)
      rw [applyDiff_eq_applyBlock here spelled] at rest
      exact ⟨spelled, (ih later).mp rest⟩
    · rintro ⟨spelled, rest⟩
      rw [applyDiff_eq_applyBlock here spelled]
      refine ⟨?_, (ih later).mpr rest⟩
      intro index found
      rw [← applyDiff_eq_applyBlock here spelled]
      exact (applyDiff_literal_iff found).mpr (spelled index found)

theorem applyEach_eq {code : Text} {diffs : List DiffBlock}
    (searched : ∀ diff ∈ diffs, diff.search ≠ []) (literal : TemplatesLiteral code diffs) :
    applyEach applyDiff code diffs = applyEach applyBlock code diffs := by
  induction diffs generalizing code with
  | nil => rfl
  | cons diff diffs ih =>
    have same := applyDiff_eq_applyBlock (searched diff List.mem_cons_self) literal.1
    have later : ∀ other ∈ diffs, other.search ≠ [] := fun other member =>
      searched other (List.mem_cons_of_mem diff member)
    have rest := ih later literal.2
    rw [applyEach, applyEach, same]
    cases applied : applyBlock code diff with
    | none =>
      rw [applied, Option.getD_none] at rest
      simp only [rest]
    | some next =>
      rw [applied, Option.getD_some] at rest
      simp only [rest]

/-- The editor and the server agree on the text and on the blocks that apply,
and every exact match is replaced literally, exactly when every template says
what it spells where its block matches exactly. -/
theorem applyDiffs_agrees_iff (code : Text) (diffs : List DiffBlock)
    (searched : ∀ diff ∈ diffs, diff.search ≠ []) :
    ((applyDiffs code diffs false).code = (applyEach applyBlock code diffs).text ∧
        (applyEach applyDiff code diffs).matched = (applyEach applyBlock code diffs).matched ∧
        ReplacedLiterally code diffs) ↔
      TemplatesLiteral code diffs := by
  have unsanitized : (applyDiffs code diffs false).code =
      (applyEach applyDiff code diffs).text := by
    simp only [applyDiffs, Bool.and_false, Bool.false_eq_true, if_false]
  rw [unsanitized, replacedLiterally_iff searched]
  constructor
  · rintro ⟨_, _, literal⟩
    exact literal
  · intro literal
    rw [applyEach_eq searched literal]
    exact ⟨rfl, rfl, literal⟩

/-- A block whose replacement has two dollar signs. -/
def killShell : DiffBlock where
  search := "run".toList
  replace := "kill $$".toList

theorem applyDiffs_agrees_renamed :
    ((applyDiffs "run it".toList [⟨"run".toList, "start".toList⟩] false).code =
          (applyEach applyBlock "run it".toList [⟨"run".toList, "start".toList⟩]).text ∧
        (applyEach applyDiff "run it".toList [⟨"run".toList, "start".toList⟩]).matched =
          (applyEach applyBlock "run it".toList [⟨"run".toList, "start".toList⟩]).matched ∧
        ReplacedLiterally "run it".toList [⟨"run".toList, "start".toList⟩]) ↔
      TemplatesLiteral "run it".toList [⟨"run".toList, "start".toList⟩] :=
  applyDiffs_agrees_iff "run it".toList [⟨"run".toList, "start".toList⟩] (by decide)

/-- The editor writes one dollar sign, the server two. -/
theorem applyDiffs_disagrees :
    ¬ ∀ (code : Text) (diffs : List DiffBlock), (∀ diff ∈ diffs, diff.search ≠ []) →
          (applyDiffs code diffs false).code = (applyEach applyBlock code diffs).text ∧
            (applyEach applyDiff code diffs).matched = (applyEach applyBlock code diffs).matched ∧
            ReplacedLiterally code diffs := by
  intro law
  have same := (law "run it".toList [killShell] (by decide)).1
  exact absurd same (by decide +kernel)

end Aprovan.Editor
