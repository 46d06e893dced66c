import Aprovan.Vfs.ListingPrivacy

/-!
# Pages of `vfs.list`

A caller follows the cursors from the first page.  The limit is a number that
`vfs.list` rounds down.
-/

namespace Aprovan.Vfs

open Aprovan.Library Aprovan.Fs Aprovan.Grants Aprovan.Apps

def ListAnswer.paths : ListAnswer → List Text
  | .session _ entries => entries.map FsEntry.path
  | .commit _ entries => entries.map (·.path)
  | .tree entries _ => entries.map FsEntry.path

/-- The paths on the pages from a cursor on; `none` if a page throws or the
fuel ends. -/
def listPages (collate : Text → Text → Bool) (ctx : ServiceContext)
    (state : ListingState) (args : ListArgs) : Nat → Text → Option (List Text)
  | 0, _ => none
  | fuel + 1, cursor =>
    match vfsList collate ctx state { args with cursor := cursor } with
    | .answered (.tree entries (some next)) =>
      (listPages collate ctx state args fuel next).map (entries.map FsEntry.path ++ ·)
    | .answered answer => some answer.paths
    | _ => none

def ListsCompletely (collate : Text → Text → Bool) (ctx : ServiceContext)
    (state : ListingState) (args : ListArgs) : Prop :=
  (∃ thrown, vfsList collate ctx state { args with cursor := [] } = .refused thrown) ∨
    ∃ fuel paths whole, listPages collate ctx state args fuel [] = some paths ∧
        vfsList collate ctx state { args with limit := none, cursor := [] } = .answered whole ∧
        paths.Perm whole.paths

/-- The live tree is not listed, or the limit keeps a file on a page, or there
is no file. -/
def Pageable (ctx : ServiceContext) (state : ListingState) (args : ListArgs) (limit : Rat) :
    Prop :=
  stagedSession ctx state args.session = .ok none → args.commit = [] →
    ctx.appScope = none → ∀ pathPrefix, listPrefix args.pathPrefix = some pathPrefix →
      ¬ (pathPrefix ≠ [] ∧ isServicePath pathPrefix = true) →
        1 ≤ limit ∨ (0 ≤ limit ∧ state.store.listAll pathPrefix = [])

section

variable {collate : Text → Text → Bool} {ctx : ServiceContext}
  {state : ListingState} {args : ListArgs} {pathPrefix cursor : Text}

theorem selected_past {store : Store} {last : FsEntry}
    (member : last ∈ store.selected pathPrefix cursor) (named : last.path ≠ []) :
    store.selected pathPrefix last.path = (store.selected pathPrefix cursor).filter fun entry =>
        !decide (entry.path ≤ last.path) := by
  have irreflexive : Std.Irrefl fun before after : FsEntry =>
      before.path < after.path := ⟨fun entry => lt_irrefl entry.path⟩
  apply (store.selected_sorted pathPrefix last.path).eq_of_mem_iff
    ((store.selected_sorted pathPrefix cursor).filter _)
  intro entry
  have behind := (Store.mem_selected_iff.mp member).2.2
  rw [List.mem_filter, Store.mem_selected_iff, Store.mem_selected_iff,
    Bool.not_eq_true', decide_eq_false_iff_not, not_le, and_assoc, and_assoc,
    or_iff_right named]
  apply and_congr_right
  intro _
  apply and_congr_right
  intro _
  constructor
  · intro past
    exact ⟨behind.imp_right fun less => less.trans past, past⟩
  · exact And.right

theorem vfsList_unpaged (unpaged : ¬ (stagedSession ctx state args.session = .ok none ∧
      args.commit = [] ∧ ctx.appScope = none)) :
    ∃ reply, (∀ limit cursor, vfsList collate ctx state
        { args with limit := limit, cursor := cursor } = reply) ∧
      ((∃ thrown, reply = .refused thrown) ∨ ∃ answer, reply = .answered answer ∧
          ∀ entries cursor, answer ≠ .tree entries (some cursor)) := by
  refine ⟨vfsList collate ctx state args, fun limit cursor => ?_, ?_⟩
  · unfold vfsList
    simp only
    split
    · rfl
    · rfl
    · next isLive =>
        split
        · rfl
        · next noCommit =>
            cases isScope : ctx.appScope with
            | some scope => rfl
            | none => exact absurd ⟨isLive, not_not.mp noCommit, isScope⟩ unpaged
  · unfold vfsList
    split
    · exact Or.inl ⟨_, rfl⟩
    · unfold listSession
      split
      · exact Or.inl ⟨_, rfl⟩
      · split
        · exact Or.inl ⟨_, rfl⟩
        · exact Or.inr ⟨_, rfl, fun _ _ impossible => by cases impossible⟩
    · next isLive =>
        split
        · unfold listCommit
          split
          · exact Or.inl ⟨_, rfl⟩
          · split
            · exact Or.inl ⟨_, rfl⟩
            · split
              · exact Or.inl ⟨_, rfl⟩
              · exact Or.inr ⟨_, rfl, fun _ _ impossible => by cases impossible⟩
        · next noCommit =>
            cases isScope : ctx.appScope with
            | some scope =>
              simp only [listApp]
              split
              · exact Or.inl ⟨_, rfl⟩
              · exact Or.inr ⟨_, rfl, fun _ _ impossible => by cases impossible⟩
            | none => exact absurd ⟨isLive, not_not.mp noCommit, isScope⟩ unpaged

theorem vfsList_live (live : stagedSession ctx state args.session = .ok none)
    (noCommit : args.commit = []) (noScope : ctx.appScope = none) :
    vfsList collate ctx state args = listTree collate ctx state args := by
  unfold vfsList
  simp only [live, noScope]
  exact if_neg (not_not.mpr noCommit)

theorem paths_shownPage (limit : Option Int) (cursor : Text)
    (shows : Text → Bool) (grants : Option CapabilityGrants) :
    shownPage collate state shows pathPrefix limit cursor grants =
        .crashed ∧ state.store.list pathPrefix limit cursor = none ∨
      ∃ page entries, state.store.list pathPrefix limit cursor = some page ∧
        shownPage collate state shows pathPrefix limit cursor grants =
          .answered (.tree entries page.cursor) ∧
        entries.Perm (page.entries.filter (shownPath shows grants ·.path) ++
          mountsShown state pathPrefix limit cursor grants) := by
  rw [shownPage_eq]
  cases state.store.list pathPrefix limit cursor with
  | none => exact Or.inl ⟨rfl, rfl⟩
  | some page => exact Or.inr ⟨page, _, rfl, rfl, List.perm_insertionSort _ _⟩

theorem listPages_positive {limit : Nat} (positive : 0 < limit)
    (named : ∀ row ∈ state.store.rows, row.path ≠ [])
    (pages : ∀ cursor, vfsList collate ctx state { args with cursor := cursor } =
        shownPage collate state (listedTo ctx.userId) pathPrefix
          (some (limit : Int)) cursor ctx.grants) (cursor : Text) :
    ∃ fuel paths, listPages collate ctx state args fuel cursor = some paths ∧
        paths.Perm ((((state.store.selected pathPrefix cursor).filter
          (shownPath (listedTo ctx.userId) ctx.grants ·.path)) ++
            mountsShown state pathPrefix (some limit) cursor ctx.grants).map FsEntry.path) := by
  generalize count : (state.store.selected pathPrefix cursor).length = size
  induction size using Nat.strong_induction_on generalizing cursor with
  | h size ih =>
    have stored := state.store.list_positive pathPrefix cursor positive
    generalize isRows : state.store.selected pathPrefix cursor = rows at *
    simp only at stored
    obtain ⟨_, missing⟩ | ⟨page, entries, found, answered, permuted⟩ :=
      @paths_shownPage collate state pathPrefix (some limit) cursor
        (listedTo ctx.userId) ctx.grants
    · rw [stored] at missing
      split at missing
      · cases missing
      · cases missing
    · rw [stored] at found
      by_cases more : limit < rows.length
      · rw [if_pos more] at found
        cases found
        have nonempty := take_ne_nil positive more.le
        have isLast := List.getLast?_eq_some_getLast nonempty
        generalize (rows.take limit).getLast nonempty = last at isLast
        have member := List.mem_of_mem_take (List.mem_of_getLast? isLast)
        rw [← isRows] at member
        obtain ⟨row, isRow, _⟩ := (Store.mem_selected_iff.mp member).1
        have lastNamed : last.path ≠ [] := by
          rw [← (Store.mem_of_latest isRow).2]
          exact named row (Store.mem_of_latest isRow).1
        have rest := selected_past member lastNamed
        rw [isRows] at rest
        have sorted := state.store.selected_sorted pathPrefix cursor
        rw [isRows] at sorted
        have front := take_eq_filter_le sorted isLast
        have whole := List.filter_append_perm
          (fun entry : FsEntry => decide (entry.path ≤ last.path)) rows
        rw [← front, ← rest] at whole
        have smaller := whole.length_eq
        rw [List.length_append, List.length_take] at smaller
        obtain ⟨fuel, paths, followed, rearranged⟩ :=
          ih _ (by omega) last.path rfl
        refine ⟨fuel + 1, entries.map FsEntry.path ++ paths, ?_, ?_⟩
        · rw [listPages, pages, answered, isLast]
          simp only [Option.map_some, followed]
        · have noMounts : mountsShown state pathPrefix (some (limit : Int))
              last.path ctx.grants = [] := by
            unfold mountsShown
            rw [if_neg (by simp [lastNamed])]
          rw [noMounts, List.append_nil] at rearranged
          refine ((permuted.map _).append rearranged).trans ?_
          rw [← List.map_append]
          apply List.Perm.map
          refine List.Perm.trans ?_ (List.Perm.append_right _ (whole.filter _))
          rw [List.filter_append, List.append_assoc, List.append_assoc]
          exact List.perm_append_comm.append_left _
      · rw [if_neg more] at found
        cases found
        exact ⟨1, entries.map FsEntry.path, by
          rw [listPages, pages, answered]
          rfl, permuted.map _⟩

theorem listPages_not_positive {limit : Int} (notPositive : limit ≤ 0)
    (some_file : limit = 0 → state.store.listAll pathPrefix ≠ [])
    (pages : ∀ cursor, vfsList collate ctx state { args with cursor := cursor } =
        shownPage collate state (listedTo ctx.userId) pathPrefix (some limit) cursor ctx.grants) :
    ∀ fuel, listPages collate ctx state args fuel [] = none := by
  by_cases zero : limit = 0
  · intro fuel
    cases fuel with
    | zero => rfl
    | succ fuel =>
      have missing := state.store.list_zero pathPrefix []
      rw [if_neg (show state.store.selected pathPrefix [] ≠ [] from
        some_file zero), ← zero] at missing
      rw [listPages, pages, shownPage, missing]
  · suffices ∀ fuel cursor, listPages collate ctx state args fuel cursor = none from
      fun fuel => this fuel []
    intro fuel
    induction fuel with
    | zero => exact fun _ => rfl
    | succ fuel ih =>
      intro cursor
      have stored := @Store.list_negative state.store pathPrefix cursor limit (by omega)
      rw [listPages, pages]
      obtain ⟨crashed, _⟩ | ⟨page, entries, found, answered, _⟩ :=
        @paths_shownPage collate state pathPrefix (some limit) cursor
          (listedTo ctx.userId) ctx.grants
      · rw [crashed]
      · rw [stored] at found
        split at found
        · cases found
        · obtain ⟨last, _, rfl⟩ := Option.map_eq_some_iff.mp found
          rw [answered]
          simp only [ih, Option.map_none]

theorem listsCompletely_live_iff {limit : Int} (named : ∀ row ∈ state.store.rows, row.path ≠ [])
    (pages : ∀ cursor, vfsList collate ctx state { args with cursor := cursor } =
        shownPage collate state (listedTo ctx.userId) pathPrefix
          (some (min limit 10000)) cursor ctx.grants)
    (whole : vfsList collate ctx state { args with limit := none, cursor := [] } =
        shownPage collate state (listedTo ctx.userId) pathPrefix none [] ctx.grants) :
    ListsCompletely collate ctx state args ↔
      1 ≤ limit ∨ (0 ≤ limit ∧ state.store.listAll pathPrefix = []) := by
  obtain ⟨_, missing⟩ | ⟨_, entries, found, answered, all⟩ :=
    @paths_shownPage collate state pathPrefix none [] (listedTo ctx.userId) ctx.grants
  · cases missing
  cases found
  rw [← whole] at answered
  by_cases positive : 1 ≤ limit
  · obtain ⟨size, isSize⟩ := Int.eq_ofNat_of_zero_le (show 0 ≤ min limit 10000 by omega)
    rw [isSize] at pages
    obtain ⟨fuel, paths, followed, permuted⟩ :=
      listPages_positive (show 0 < size by omega) named pages []
    exact iff_of_true (Or.inr ⟨fuel, paths, _, followed, answered,
      permuted.trans (all.map FsEntry.path).symm⟩) (Or.inl positive)
  rw [min_eq_left (by omega)] at pages
  by_cases empty : 0 ≤ limit ∧ state.store.listAll pathPrefix = []
  · have zero : limit = 0 := by omega
    rw [zero] at pages
    have none_selected : state.store.selected pathPrefix [] = [] := empty.2
    have first := state.store.list_zero pathPrefix []
    rw [if_pos none_selected] at first
    obtain ⟨_, missing⟩ | ⟨_, listed, found, isFirst, same⟩ :=
      @paths_shownPage collate state pathPrefix (some 0) [] (listedTo ctx.userId) ctx.grants
    · cases first.symm.trans missing
    · cases first.symm.trans found
      rw [none_selected] at all
      exact iff_of_true (Or.inr ⟨1, listed.map FsEntry.path, _, by
        rw [listPages, pages, isFirst]
        rfl, answered, (same.trans all.symm).map _⟩) (Or.inr empty)
  · have nothing := listPages_not_positive (show limit ≤ 0 by omega)
      (fun zero noFile => empty ⟨by omega, noFile⟩) pages
    refine iff_of_false ?_ (not_or.mpr ⟨positive, empty⟩)
    rintro (⟨thrown, refused⟩ | ⟨fuel, paths, _, followed, _⟩)
    · rw [pages, shownPage_eq] at refused
      split at refused
      · cases refused
      · cases refused
    · rw [nothing fuel] at followed
      cases followed

end

def listAllOf (limit : Option Int) : ListArgs where
  pathPrefix := []
  commit := []
  session := none
  limit := limit
  cursor := []

end Aprovan.Vfs
