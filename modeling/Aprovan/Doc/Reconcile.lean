import Aprovan.Doc.DeriveBlocks

/-!
# Reconciling a write with a live document

A whole-file write to a live document becomes blocks between the text that the
writer knew and the new content, and each block is put where its search text
stands first in the live text.  The live document is its text here: deleting and
inserting a stretch of it is `splice`.
-/

namespace Aprovan.Doc

open Aprovan.Library

/-- The arguments that decide what is written. -/
structure ReconcileWriteArgs where
  content : Text
  base : Option Text

/-- A conflict also stages the whole content in a session, with the previews
of the blocks that did not match. -/
inductive ReconcileResult where
  | notLive
  | applied (appliedBlocks : Nat)
  | conflict (appliedBlocks : Nat) (failed : List Text)
  deriving DecidableEq

/-- The text that the writer knew: the one given, else the stored file. -/
def writerBase (stored : Option Text) (args : ReconcileWriteArgs) : Text :=
  args.base.getD (stored.getD [])

/-- The transaction: every matched block once more, on the text as it is. -/
def transact (text : Text) (matched : List DiffBlock) : Text :=
  matched.foldl (fun current block => (applyBlock current block).getD current) text

def withOutcome (outcome : Bool) (blocks : List DiffBlock) (matched : List Bool) :
    List DiffBlock :=
  ((blocks.zip matched).filter (·.2 = outcome)).map (·.1)

def reconcileOrPassThrough (live stored : Option Text) (args : ReconcileWriteArgs) :
    ReconcileResult × Option Text :=
  match live with
  | none => (.notLive, none)
  | some text =>
    let blocks := deriveDiffBlocks (writerBase stored args) args.content
    let working := applyEach applyBlock text blocks
    let matched := withOutcome true blocks working.matched
    let failed := (withOutcome false blocks working.matched).map
      fun block => failPreview block.search
    let reached := if matched = [] then text else transact text matched
    if failed = [] then (.applied matched.length, some reached)
    else (.conflict matched.length failed, some reached)

/-- The transaction makes of the live text what the working copy became. -/
theorem transact_withOutcome (text : Text) (blocks : List DiffBlock) :
    transact text (withOutcome true blocks (applyEach applyBlock text blocks).matched) =
      (applyEach applyBlock text blocks).text := by
  induction blocks generalizing text with
  | nil => rfl
  | cons block blocks ih =>
    rw [applyEach]
    cases matches_ : applyBlock text block with
    | none => exact ih text
    | some next =>
      have later := ih next
      simp only [withOutcome, List.zip_cons_cons, decide_true,
        List.filter_cons_of_pos, List.map_cons, transact,
        List.foldl_cons, matches_, Option.getD_some]
      exact later

/-- Lines that a block has to hold on to: the document is not empty around
the hunk, and the hunk does something. -/
structure Hunk.Anchored (hunk : Hunk) : Prop where
  changes : hunk.del ≠ [] ∨ hunk.ins ≠ []
  around : hunk.placed ≠ [] ∨ hunk.del ≠ [] ∨ hunk.following ≠ []

/-- The block of the hunk takes the line before it along. -/
def Hunk.takesPrevious (hunk : Hunk) : Bool :=
  hunk.del = [] || (hunk.ins = [] && hunk.following = [])

/-- Where the hunk's block has its search text. -/
def Hunk.place (hunk : Hunk) : Nat :=
  (closedSegments '\n' (if hunk.takesPrevious then hunk.placed.dropLast
    else hunk.placed)).length

variable {hunk : Hunk}

theorem Hunk.place_spec_of_lines {base content : Text} (front old new back : List Text)
    (oldNonempty : old ≠ []) (newNonempty : new ≠ [])
    (search : (hunk.block base content).search = joinWith '\n' old)
    (replace : (hunk.block base content).replace = joinWith '\n' new)
    (before : hunk.placed ++ hunk.del ++ hunk.following = front ++ old ++ back)
    (after : hunk.placed ++ hunk.ins ++ hunk.following = front ++ new ++ back)
    (place : hunk.place = (closedSegments '\n' front).length) :
    ∃ first last : Text, first.length = hunk.place ∧
      hunk.before = first ++ (hunk.block base content).search ++ last ∧
      hunk.after = first ++ (hunk.block base content).replace ++ last := by
  refine ⟨closedSegments '\n' front, ledSegments '\n' back, place.symm, ?_, ?_⟩
  · rw [Hunk.before, before, search, joinWith_middle '\n' front back oldNonempty]
  · rw [Hunk.after, after, replace, joinWith_middle '\n' front back newNonempty]

theorem Hunk.place_spec (base content : Text) (anchored : hunk.Anchored) :
    ∃ first last : Text, first.length = hunk.place ∧
      hunk.before = first ++ (hunk.block base content).search ++ last ∧
      hunk.after = first ++ (hunk.block base content).replace ++ last := by
  obtain ⟨placed, del, ins, following⟩ := hunk
  obtain ⟨changes, around⟩ := anchored
  simp only at changes around
  by_cases deletes : del = []
  · -- only insertions: the line before, else the line behind
    subst deletes
    have inserts : ins ≠ [] := by simpa using changes
    rcases List.eq_nil_or_concat placed with atStart | ⟨front, line, shown⟩
    · subst atStart
      have hasNext : following ≠ [] := by simpa using around
      obtain ⟨line, back, shown⟩ := List.exists_cons_of_ne_nil hasNext
      subst shown
      exact Hunk.place_spec_of_lines [] [line] (ins ++ [line]) back (by simp) (by simp)
        (by simp [Hunk.block, stretchBlock, insertionBlock, joinWith])
        (by simp [Hunk.block, stretchBlock, insertionBlock])
        (by simp) (by simp)
        (by simp [Hunk.place, Hunk.takesPrevious])
    · rw [List.concat_eq_append] at shown
      subst shown
      exact Hunk.place_spec_of_lines front [line] (line :: ins) following (by simp) (by simp)
        (by simp [Hunk.block, stretchBlock, insertionBlock, joinWith])
        (by simp [Hunk.block, stretchBlock, insertionBlock])
        (by simp) (by simp)
        (by simp [Hunk.place, Hunk.takesPrevious])
  · by_cases inserts : ins = []
    · -- only deletions: the line behind, else the line before
      subst inserts
      cases following with
      | cons line back =>
        exact Hunk.place_spec_of_lines placed (del ++ [line]) [line] back (by simp) (by simp)
          (by simp [Hunk.block, stretchBlock, deletionBlock, deletes])
          (by simp [Hunk.block, stretchBlock, deletionBlock, deletes, joinWith])
          (by simp) (by simp)
          (by simp [Hunk.place, Hunk.takesPrevious, deletes])
      | nil =>
        rcases List.eq_nil_or_concat placed with
          atStart | ⟨front, line, shown⟩
        · subst atStart
          refine ⟨[], [], ?_, ?_, ?_⟩
          · simp [Hunk.place, Hunk.takesPrevious, closedSegments]
          · simp [Hunk.before, Hunk.block, stretchBlock, deletionBlock, deletes]
          · simp [Hunk.after, Hunk.block, stretchBlock, deletionBlock, deletes, joinWith]
        · rw [List.concat_eq_append] at shown
          subst shown
          exact Hunk.place_spec_of_lines front (line :: del) [line] [] (by simp) (by simp)
            (by simp [Hunk.block, stretchBlock, deletionBlock, deletes])
            (by simp [Hunk.block, stretchBlock, deletionBlock, deletes, joinWith])
            (by simp) (by simp)
            (by simp [Hunk.place, Hunk.takesPrevious])
    · exact Hunk.place_spec_of_lines placed del ins following deletes inserts
        (by simp [Hunk.block, stretchBlock, deletes, inserts])
        (by simp [Hunk.block, stretchBlock, deletes, inserts])
        rfl rfl
        (by simp [Hunk.place, Hunk.takesPrevious, deletes, inserts])

theorem anchored_of_mem_hunksFrom {placed del ins : List Text}
    {ops : List DiffOp} (around : placed ≠ [] ∨ del ≠ [] ∨ oldLines ops ≠ [])
    (member : hunk ∈ hunksFrom placed del ins ops) :
    hunk.Anchored := by
  induction ops generalizing placed del ins with
  | nil =>
    rw [hunksFrom] at member
    by_cases empty : del = [] ∧ ins = []
    · rw [if_pos empty] at member
      cases member
    · rw [if_neg empty, List.mem_singleton] at member
      rw [member]
      exact ⟨not_and_or.mp empty, by simpa [oldLines] using around⟩
  | cons op ops ih =>
    cases op with
    | del line => exact ih (Or.inr (Or.inl (by simp))) member
    | ins line => exact ih around member
    | eq line =>
      rw [hunksFrom, List.mem_append] at member
      rcases member with here | later
      · by_cases empty : del = [] ∧ ins = []
        · rw [if_pos empty] at here
          cases here
        · rw [if_neg empty, List.mem_singleton] at here
          rw [here]
          exact ⟨not_and_or.mp empty, Or.inr (Or.inr (by simp))⟩
      · exact ih (Or.inl (by simp)) later

theorem anchored_of_mem_hunks {base content : Text} (member : hunk ∈ hunks base content) :
    hunk.Anchored := by
  unfold hunks at member
  by_cases same : base = content
  · rw [if_pos same] at member
    cases member
  · rw [if_neg same] at member
    apply anchored_of_mem_hunksFrom _ member
    right
    right
    rw [diffOps, oldLines_alignLines]
    exact splitOn_ne_nil '\n' base

/-- The search text of the hunk's block is not empty, and if it stands
earlier than at the hunk's own place, replacing it there gives the same
text. -/
structure Hunk.InPlace (base content : Text) (hunk : Hunk) : Prop where
  searched : (hunk.block base content).search ≠ []
  earlier : ∀ index, indexOf (hunk.block base content).search hunk.before = some index →
      index < hunk.place → splice hunk.before index (hunk.block base content).search.length
            (hunk.block base content).replace =
          hunk.after

/-- All blocks between two texts are in place. -/
def EditsInPlace (base content : Text) : Prop :=
  ∀ hunk ∈ hunks base content, hunk.InPlace base content

theorem Hunk.inPlace_iff (base content : Text) (anchored : hunk.Anchored) :
    hunk.InPlace base content ↔
      applyBlock hunk.before (hunk.block base content) = some hunk.after := by
  obtain ⟨first, last, place, before, after⟩ :=
    Hunk.place_spec base content anchored
  obtain ⟨index, found, bound⟩ :=
    indexOf_append_le first (hunk.block base content).search last
  rw [← before] at found
  rw [place] at bound
  have exactMatch (searched : (hunk.block base content).search ≠ []) :
      applyBlock hunk.before (hunk.block base content) =
        some (splice hunk.before index (hunk.block base content).search.length
          (hunk.block base content).replace) := by
    unfold applyBlock matchDiffBlock
    simp only [if_neg searched, found]
    rfl
  constructor
  · rintro ⟨searched, earlier⟩
    rw [exactMatch searched]
    rcases Nat.lt_or_eq_of_le bound with lower | own
    · rw [earlier index found lower]
    · rw [before, after, own, ← place, splice_append]
  · intro applies
    have searched : (hunk.block base content).search ≠ [] := by
      intro empty
      rw [applyBlock, matchDiffBlock, if_pos empty] at applies
      cases applies
    rw [exactMatch searched] at applies
    refine ⟨searched, ?_⟩
    intro other foundOther _
    rw [found] at foundOther
    cases foundOther
    exact Option.some.inj applies

/-- The texts that a sequence of blocks goes through. -/
def workingTexts (text : Text) : List DiffBlock → List Text
  | [] => []
  | block :: blocks =>
    let next := (applyBlock text block).getD text
    next :: workingTexts next blocks

theorem inPlace_iff_of_leadFrom (base content : Text) {start target : Text} {steps : List Hunk}
    (anchored : ∀ hunk ∈ steps, hunk.Anchored) (leads : LeadFrom start steps target) :
    (∀ hunk ∈ steps, hunk.InPlace base content) ↔
      applyEach applyBlock start (steps.map (Hunk.block base content)) =
          ⟨target, List.replicate steps.length true⟩ ∧
        workingTexts start (steps.map (Hunk.block base content)) = steps.map Hunk.after := by
  induction steps generalizing start with
  | nil =>
    have same : start = target := leads
    rw [same]
    simp [applyEach, workingTexts]
  | cons hunk steps ih =>
    obtain ⟨from_, leadsOn⟩ := leads
    have here := Hunk.inPlace_iff base content (anchored hunk List.mem_cons_self)
    have later := ih (fun other member => anchored other (List.mem_cons_of_mem hunk member))
      leadsOn
    rw [List.forall_mem_cons, here, later, from_]
    simp only [List.map_cons, applyEach, workingTexts]
    cases applied : applyBlock start (hunk.block base content) with
    | none => simp [List.replicate_succ]
    | some next =>
      simp only [Option.some.injEq, Option.getD_some, List.cons.injEq,
        Applied.mk.injEq, List.length_cons, List.replicate_succ,
        true_and]
      constructor
      · rintro ⟨same, run, texts⟩
        rw [same, run, texts]
        exact ⟨⟨rfl, rfl⟩, rfl, rfl⟩
      · rintro ⟨⟨text, matched⟩, same, texts⟩
        rw [same] at text matched texts
        refine ⟨same, ?_, texts⟩
        rw [← text, ← matched]

theorem editsInPlace_iff (base content : Text) :
    EditsInPlace base content ↔
      applyEach applyBlock base (deriveDiffBlocks base content) = ⟨content,
            List.replicate (deriveDiffBlocks base content).length true⟩ ∧
        workingTexts base (deriveDiffBlocks base content) =
          (hunks base content).map Hunk.after := by
  have spread := inPlace_iff_of_leadFrom base content
    (fun _ member => anchored_of_mem_hunks member)
    (leadFrom_hunks base content)
  rw [deriveDiffBlocks_eq_map_hunks, List.length_map]
  exact spread

/-- The write of the content to a live document with the writer's base. -/
def RoundTrips (stored : Option Text) (args : ReconcileWriteArgs) : Prop :=
  reconcileOrPassThrough (some (writerBase stored args)) stored args =
    (.applied (deriveDiffBlocks (writerBase stored args) args.content).length, some args.content)
  deriving Decidable

theorem withOutcome_replicate (outcome : Bool) (blocks : List DiffBlock) :
    withOutcome outcome blocks (List.replicate blocks.length true) =
      if outcome then blocks else [] := by
  induction blocks with
  | nil => cases outcome <;> rfl
  | cons block blocks ih =>
    rw [List.length_cons, List.replicate_succ, withOutcome, List.zip_cons_cons]
    cases outcome with
    | true =>
      rw [List.filter_cons_of_pos (by simp), List.map_cons]
      exact congrArg (block :: ·) ih
    | false =>
      rw [List.filter_cons_of_neg (by simp)]
      exact ih

theorem roundTrips_of_applyEach {stored : Option Text} {args : ReconcileWriteArgs} (applied :
      applyEach applyBlock (writerBase stored args)
          (deriveDiffBlocks (writerBase stored args) args.content) =
        ⟨args.content, List.replicate
          (deriveDiffBlocks (writerBase stored args) args.content).length
          true⟩) :
    RoundTrips stored args := by
  have transacted := transact_withOutcome (writerBase stored args)
    (deriveDiffBlocks (writerBase stored args) args.content)
  rw [applied, withOutcome_replicate, if_pos rfl] at transacted
  simp only [RoundTrips, reconcileOrPassThrough, applied,
    withOutcome_replicate, if_true, Bool.false_eq_true, if_false,
    List.map_nil, transacted]
  by_cases nothing : deriveDiffBlocks (writerBase stored args) args.content = []
  · rw [if_pos nothing]
    rw [nothing] at transacted
    exact congrArg (fun text => (ReconcileResult.applied _, some text)) transacted
  · rw [if_neg nothing]

theorem length_matched (applyOne : Text → DiffBlock → Option Text)
    (text : Text) (blocks : List DiffBlock) :
    (applyEach applyOne text blocks).matched.length = blocks.length := by
  induction blocks generalizing text with
  | nil => rfl
  | cons block blocks ih =>
    rw [applyEach]
    cases applyOne text block with
    | none => exact congrArg (· + 1) (ih text)
    | some next => exact congrArg (· + 1) (ih next)

theorem eq_replicate_of_withOutcome {blocks : List DiffBlock}
    {matched : List Bool} (lengths : matched.length = blocks.length)
    (noneFailed : withOutcome false blocks matched = []) :
    matched = List.replicate blocks.length true := by
  rw [List.eq_replicate_iff]
  refine ⟨lengths, ?_⟩
  intro outcome member
  obtain ⟨position, bound, rfl⟩ := List.mem_iff_getElem.mp member
  by_contra failed
  have paired : (blocks[position], matched[position]) ∈ blocks.zip matched := by
    rw [List.mem_iff_getElem]
    exact ⟨position, by simp; omega, by simp⟩
  have listed : blocks[position] ∈ withOutcome false blocks matched := by
    rw [withOutcome, List.mem_map]
    exact ⟨_, List.mem_filter.mpr ⟨paired, by simpa using failed⟩, rfl⟩
  rw [noneFailed] at listed
  cases listed

theorem roundTrips_iff (stored : Option Text) (args : ReconcileWriteArgs) :
    RoundTrips stored args ↔ applyEach applyBlock (writerBase stored args)
          (deriveDiffBlocks (writerBase stored args) args.content) = ⟨args.content, List.replicate
          (deriveDiffBlocks (writerBase stored args) args.content).length true⟩ := by
  refine ⟨?_, roundTrips_of_applyEach⟩
  intro trips
  have transacted := transact_withOutcome (writerBase stored args)
    (deriveDiffBlocks (writerBase stored args) args.content)
  simp only [RoundTrips, reconcileOrPassThrough, List.map_eq_nil_iff] at trips
  split at trips
  · next noneFailed =>
      have all := eq_replicate_of_withOutcome (length_matched _ _ _) noneFailed
      have reached := congrArg Prod.snd trips
      simp only [Option.some.injEq] at reached
      have text :
          (applyEach applyBlock (writerBase stored args)
            (deriveDiffBlocks (writerBase stored args) args.content)).text = args.content := by
        split at reached
        · next nothing =>
            rw [nothing] at transacted
            exact transacted.symm.trans reached
        · exact transacted.symm.trans reached
      exact Applied.ext text all
  · cases trips

/-- The write of a content over its base leaves the content, through the
texts of the hunks, exactly when the edits are in place. -/
theorem reconcile_roundTrips_iff (stored : Option Text) (args : ReconcileWriteArgs) :
    EditsInPlace (writerBase stored args) args.content ↔ RoundTrips stored args ∧
        workingTexts (writerBase stored args)
            (deriveDiffBlocks (writerBase stored args) args.content) =
          (hunks (writerBase stored args) args.content).map Hunk.after := by
  rw [roundTrips_iff]
  exact editsInPlace_iff (writerBase stored args) args.content

/-- The anchor of an appended line also stands in the first line. -/
theorem roundTrip_misplaced :
    ¬ RoundTrips none ⟨"a\nb\na\nc".toList, some "a\nb\na".toList⟩ ∧
      ¬ RoundTrips none ⟨"x".toList, some []⟩ := by
  decide

end Aprovan.Doc
