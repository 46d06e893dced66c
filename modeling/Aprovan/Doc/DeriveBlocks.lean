import Aprovan.Doc.DiffBlocks

/-!
# From a base to a content

`deriveDiffBlocks` aligns the lines of a base text with those of a content and
turns every stretch of deleted and inserted lines into a block.  A `Hunk` is
such a stretch with what surrounds it.
-/

namespace Aprovan.Doc

open Aprovan.Library

/-- A row of the table, from the row below it; one entry a suffix of the
content's lines. -/
def lcsRow (line : Text) : List Text → List Nat → List Nat
  | [], _ => [0]
  | other :: others, below =>
    let rest := lcsRow line others below.tail
    (if line = other then below.tail.headD 0 + 1
    else max (below.headD 0) (rest.headD 0)) :: rest

/-- `dp`: one row a suffix of the base's lines. -/
def lcsTable (content : List Text) : List Text → List (List Nat)
  | [] => [List.replicate (content.length + 1) 0]
  | line :: lines =>
    let table := lcsTable content lines
    lcsRow line content (table.headD []) :: table

/-- The entry of a row for this suffix of the content's lines. -/
def entryAt (row : List Nat) (lines : List Text) : Nat :=
  row.getD (row.length - 1 - lines.length) 0

inductive DiffOp where
  | eq (line : Text)
  | del (line : Text)
  | ins (line : Text)

/-- The rounds on one line of the base; `rest` aligns the lines behind it. -/
def alignLine (line : Text) (row below : List Nat) (rest : List Text → List DiffOp) :
    List Text → List DiffOp
  | [] => .del line :: rest []
  | other :: others =>
    if line = other then .eq line :: rest others
    else if entryAt row others ≤ entryAt below (other :: others) then
      .del line :: rest (other :: others)
    else .ins other :: alignLine line row below rest others

/-- The two walks: along both texts, then along what is left of one. -/
def alignLines : List Text → List (List Nat) → List Text → List DiffOp
  | [], _, content => content.map .ins
  | line :: lines, table, content =>
    alignLine line (table.headD []) (table.tail.headD []) (alignLines lines table.tail) content

variable (base content : Text)

def diffOps : List DiffOp :=
  let a := splitOn '\n' base
  let b := splitOn '\n' content
  alignLines a (lcsTable b a) b

/-- A stretch of deletions takes the line behind it along, else the line
before it. -/
def deletionBlock (previous next : Option Text) (del : List Text) : DiffBlock :=
  match next with
  | some line => ⟨joinWith '\n' (del ++ [line]), line⟩
  | none =>
    match previous with
    | some line => ⟨joinWith '\n' (line :: del), line⟩
    | none => ⟨joinWith '\n' del, []⟩

/-- A stretch of insertions takes the line before it along, else the line
behind it; with neither the whole text is replaced. -/
def insertionBlock (previous next : Option Text) (ins : List Text) : DiffBlock :=
  match previous with
  | some line => ⟨line, joinWith '\n' (line :: ins)⟩
  | none =>
    match next with
    | some line => ⟨line, joinWith '\n' (ins ++ [line])⟩
    | none => ⟨base, content⟩

/-- The block of a stretch: `previous` and `next` are the unchanged lines
around it. -/
def stretchBlock (previous next : Option Text) (del ins : List Text) : DiffBlock :=
  if del = [] then insertionBlock base content previous next ins
  else if ins = [] then deletionBlock previous next del
  else ⟨joinWith '\n' del, joinWith '\n' ins⟩

/-- The block of a stretch, unless it is empty. -/
def closeStretch (previous next : Option Text) (del ins : List Text) : List DiffBlock :=
  if del = [] ∧ ins = [] then [] else [stretchBlock base content previous next del ins]

/-- One block a maximal stretch of deletions and insertions. -/
def stretchBlocks (base content : Text) (previous : Option Text) (del ins : List Text) :
    List DiffOp → List DiffBlock
  | [] => closeStretch base content previous none del ins
  | .del line :: ops => stretchBlocks base content previous (del ++ [line]) ins ops
  | .ins line :: ops => stretchBlocks base content previous del (ins ++ [line]) ops
  | .eq line :: ops =>
    closeStretch base content previous (some line) del ins ++
      stretchBlocks base content (some line) [] [] ops

def deriveDiffBlocks : List DiffBlock :=
  if base = content then []
  else stretchBlocks base content none [] [] (diffOps base content)

def DiffOp.oldLine : DiffOp → Option Text
  | .eq line => some line
  | .del line => some line
  | .ins _ => none

def DiffOp.newLine : DiffOp → Option Text
  | .eq line => some line
  | .del _ => none
  | .ins line => some line

def oldLines (ops : List DiffOp) : List Text :=
  ops.filterMap DiffOp.oldLine

def newLines (ops : List DiffOp) : List Text :=
  ops.filterMap DiffOp.newLine

theorem oldLines_alignLine {line : Text} {row below : List Nat} {rest : List Text → List DiffOp}
    {lines : List Text} (restOld : ∀ content, oldLines (rest content) = lines)
    (content : List Text) :
    oldLines (alignLine line row below rest content) = line :: lines := by
  induction content with
  | nil => exact congrArg (line :: ·) (restOld [])
  | cons other others ih =>
    rw [alignLine]
    by_cases same : line = other
    · rw [if_pos same]
      exact congrArg (line :: ·) (restOld others)
    rw [if_neg same]
    by_cases deletes : entryAt row others ≤ entryAt below (other :: others)
    · rw [if_pos deletes]
      exact congrArg (line :: ·) (restOld (other :: others))
    · rw [if_neg deletes]
      exact ih

theorem newLines_alignLine {line : Text} {row below : List Nat} {rest : List Text → List DiffOp}
    (restNew : ∀ content, newLines (rest content) = content) (content : List Text) :
    newLines (alignLine line row below rest content) = content := by
  induction content with
  | nil => exact restNew []
  | cons other others ih =>
    rw [alignLine]
    by_cases same : line = other
    · rw [if_pos same, same]
      exact congrArg (other :: ·) (restNew others)
    rw [if_neg same]
    by_cases deletes : entryAt row others ≤ entryAt below (other :: others)
    · rw [if_pos deletes]
      exact restNew (other :: others)
    · rw [if_neg deletes]
      exact congrArg (other :: ·) ih

theorem oldLines_alignLines (lines : List Text) (table : List (List Nat)) (content : List Text) :
    oldLines (alignLines lines table content) = lines := by
  induction lines generalizing table content with
  | nil => simp [alignLines, oldLines, DiffOp.oldLine]
  | cons line lines ih => exact oldLines_alignLine (ih table.tail) content

theorem newLines_alignLines (lines : List Text) (table : List (List Nat)) (content : List Text) :
    newLines (alignLines lines table content) = content := by
  induction lines generalizing table content with
  | nil =>
    induction content with
    | nil => rfl
    | cons other others linesOf => exact congrArg (other :: ·) linesOf
  | cons line lines ih => exact newLines_alignLine (ih table.tail) content

theorem joinWith_oldLines_diffOps : joinWith '\n' (oldLines (diffOps base content)) = base := by
  rw [diffOps, oldLines_alignLines, joinWith_splitOn]

theorem joinWith_newLines_diffOps :
    joinWith '\n' (newLines (diffOps base content)) = content := by
  rw [diffOps, newLines_alignLines, joinWith_splitOn]

/-- A stretch of deletions and insertions: the lines of the content before
it, its own lines, and the lines of the base behind it. -/
structure Hunk where
  (placed del ins following : List Text)

def Hunk.before (hunk : Hunk) : Text :=
  joinWith '\n' (hunk.placed ++ hunk.del ++ hunk.following)

def Hunk.after (hunk : Hunk) : Text :=
  joinWith '\n' (hunk.placed ++ hunk.ins ++ hunk.following)

def Hunk.block (hunk : Hunk) : DiffBlock :=
  stretchBlock base content hunk.placed.getLast? hunk.following.head? hunk.del hunk.ins

/-- The hunks of an alignment, behind `placed` lines of the content and the
stretch so far. -/
def hunksFrom (placed del ins : List Text) : List DiffOp → List Hunk
  | [] => if del = [] ∧ ins = [] then [] else [⟨placed, del, ins, []⟩]
  | .del line :: ops => hunksFrom placed (del ++ [line]) ins ops
  | .ins line :: ops => hunksFrom placed del (ins ++ [line]) ops
  | .eq line :: ops =>
    (if del = [] ∧ ins = [] then [] else [⟨placed, del, ins, line :: oldLines ops⟩]) ++
    hunksFrom (placed ++ ins ++ [line]) [] [] ops

def hunks : List Hunk :=
  if base = content then [] else hunksFrom [] [] [] (diffOps base content)

theorem stretchBlocks_eq_map_hunksFrom (placed del ins : List Text) (ops : List DiffOp) :
    stretchBlocks base content placed.getLast? del ins ops =
      (hunksFrom placed del ins ops).map (Hunk.block base content) := by
  induction ops generalizing placed del ins with
  | nil =>
    rw [stretchBlocks, hunksFrom, closeStretch]
    by_cases empty : del = [] ∧ ins = []
    · rw [if_pos empty, if_pos empty]
      rfl
    · rw [if_neg empty, if_neg empty]
      rfl
  | cons op ops ih =>
    cases op with
    | del line => exact ih placed (del ++ [line]) ins
    | ins line => exact ih placed del (ins ++ [line])
    | eq line =>
      have later := ih (placed ++ ins ++ [line]) [] []
      rw [List.getLast?_concat] at later
      rw [stretchBlocks, hunksFrom, later, List.map_append, closeStretch]
      by_cases empty : del = [] ∧ ins = []
      · rw [if_pos empty, if_pos empty]
        rfl
      · rw [if_neg empty, if_neg empty]
        rfl

theorem deriveDiffBlocks_eq_map_hunks :
    deriveDiffBlocks base content = (hunks base content).map (Hunk.block base content) := by
  unfold deriveDiffBlocks hunks
  by_cases same : base = content
  · rw [if_pos same, if_pos same]
    rfl
  · rw [if_neg same, if_neg same]
    exact stretchBlocks_eq_map_hunksFrom base content [] [] [] _

/-- The hunks lead from one text to another, each from where the one before
it ends. -/
def LeadFrom : Text → List Hunk → Text → Prop
  | start, [], target => start = target
  | start, hunk :: others, target => hunk.before = start ∧ LeadFrom hunk.after others target

theorem leadFrom_hunksFrom (placed del ins : List Text) (ops : List DiffOp) :
    LeadFrom (joinWith '\n' (placed ++ del ++ oldLines ops)) (hunksFrom placed del ins ops)
      (joinWith '\n' (placed ++ ins ++ newLines ops)) := by
  induction ops generalizing placed del ins with
  | nil =>
    rw [hunksFrom]
    by_cases empty : del = [] ∧ ins = []
    · rw [if_pos empty, empty.1, empty.2]
      rfl
    · rw [if_neg empty]
      exact ⟨rfl, rfl⟩
  | cons op ops ih =>
    cases op with
    | del line =>
      have later := ih placed (del ++ [line]) ins
      rw [← List.append_assoc, List.append_assoc] at later
      exact later
    | ins line =>
      have later := ih placed del (ins ++ [line])
      rw [← List.append_assoc placed ins, List.append_assoc (placed ++ ins)] at later
      exact later
    | eq line =>
      have later := ih (placed ++ ins ++ [line]) [] []
      rw [List.append_nil, List.append_assoc (placed ++ ins),
        List.append_assoc (placed ++ ins)] at later
      rw [hunksFrom]
      by_cases empty : del = [] ∧ ins = []
      · rw [if_pos empty, empty.1, empty.2]
        rw [empty.2] at later
        exact later
      · rw [if_neg empty]
        exact ⟨rfl, later⟩

theorem leadFrom_hunks : LeadFrom base (hunks base content) content := by
  unfold hunks
  by_cases same : base = content
  · rw [if_pos same]
    exact same
  · rw [if_neg same]
    have leads := leadFrom_hunksFrom [] [] [] (diffOps base content)
    simpa only [List.nil_append, joinWith_oldLines_diffOps, joinWith_newLines_diffOps] using leads

end Aprovan.Doc
