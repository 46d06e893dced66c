import Aprovan.Apps.PromoteGuards
import Aprovan.Vfs.Listing

/-!
# Agreement on what may be read

Two states of a workspace look the same to a caller when they agree on all
that the caller may read, whatever else they hold.  The part of a state that
may be read is a state of its own that agrees with the whole.
-/

namespace Aprovan.Vfs

open Aprovan.Library Aprovan.Fs Aprovan.Grants Aprovan.Apps

/-- The guards of `vfs.read` let the caller read at `path`. -/
def MayRead (ctx : ServiceContext) (workspace : Workspace) (path : Text) : Prop :=
  ∃ value, readPath ctx workspace value = .ok path

open Classical in
noncomputable def mayRead (ctx : ServiceContext) (workspace : Workspace) (path : Text) : Bool :=
  decide (MayRead ctx workspace path)

theorem mayRead_eq_true_iff {ctx : ServiceContext} {workspace : Workspace} {path : Text} :
    mayRead ctx workspace path = true ↔ MayRead ctx workspace path := by
  simp [mayRead]

variable (may : Text → Bool)

/-- The part of a session that concerns the paths in question. -/
def ChatSession.restrict (session : ChatSession) : ChatSession :=
  { session with
    base := session.base.map (·.filter (may ·.path))
    overlay := session.overlay.filter (may ·.1)
    shadow := session.shadow.filter (may ·.path) }

def Commit.restrict (commit : Commit) : Commit :=
  { commit with entries := commit.entries.filter (may ·.path) }

/-- Two states agree on the paths in question, and on everything that is not
about a path. -/
structure AgreeOn (first second : ListingState) : Prop where
  backend : first.store.backend = second.store.backend
  files : ∀ path, may path = true → first.store.rows.filter (·.path = path) =
      second.store.rows.filter (·.path = path)
  records : first.records = second.records
  shares : first.shares = second.shares
  mounts : first.mounts = second.mounts
  mountEntries : ∀ pathPrefix, (first.mountEntries pathPrefix).filter (may ·.path) =
      (second.mountEntries pathPrefix).filter (may ·.path)
  sessions : ∀ id, (first.sessions id).map (ChatSession.restrict may) =
      (second.sessions id).map (ChatSession.restrict may)
  commits : ∀ name, (first.commits name).map (Commit.restrict may) =
      (second.commits name).map (Commit.restrict may)
  history : first.history.filter (may ·.change.path) = second.history.filter (may ·.change.path)

def ListingState.restrict (may : Text → Bool) (state : ListingState) : ListingState :=
  { state with
    store := state.store.keep (may ·.path)
    mountEntries := fun pathPrefix => (state.mountEntries pathPrefix).filter (may ·.path)
    sessions := fun id => (state.sessions id).map (ChatSession.restrict may)
    commits := fun name => (state.commits name).map (Commit.restrict may)
    history := state.history.filter (may ·.change.path) }

@[simp]
theorem restrict_restrict_session (session : ChatSession) :
    (session.restrict may).restrict may = session.restrict may := by
  simp [ChatSession.restrict, List.filter_filter, Function.comp_def]

@[simp]
theorem restrict_restrict_commit (commit : Commit) :
    (commit.restrict may).restrict may = commit.restrict may := by
  simp [Commit.restrict, List.filter_filter]

theorem agreeOn_restrict (state : ListingState) : AgreeOn may state (state.restrict may) where
  backend := rfl
  files path readable := by
    simp only [ListingState.restrict, Store.keep, List.filter_filter]
    apply List.filter_congr
    intro row _
    by_cases same : row.path = path
    · simp [same, readable]
    · simp [same]
  records := rfl
  shares := rfl
  mounts := rfl
  mountEntries pathPrefix := by
    simp [ListingState.restrict, List.filter_filter]
  sessions id := by
    simp only [ListingState.restrict]
    cases state.sessions id <;> simp
  commits name := by
    simp only [ListingState.restrict]
    cases state.commits name <;> simp [Except.map]
  history := by
    simp [ListingState.restrict, List.filter_filter]

section

variable {may : Text → Bool} {first second : ListingState}

theorem selected_agree (agree : AgreeOn may first second) (pathPrefix cursor : Text) :
    (first.store.selected pathPrefix cursor).filter (may ·.path) =
      (second.store.selected pathPrefix cursor).filter (may ·.path) := by
  have latestAgree : ∀ path, may path = true →
      first.store.latest path = second.store.latest path := by
    intro path readable
    rw [Store.latest, Store.latest, agree.backend, agree.files path readable]
  have sorted : ∀ store : Store, ((store.selected pathPrefix cursor).filter (may ·.path)).Pairwise
        (fun before after => before.path < after.path) := by
    intro store
    exact (Store.selected_sorted store pathPrefix cursor).filter _
  have members : ∀ entry, entry ∈ (first.store.selected pathPrefix cursor).filter (may ·.path) ↔
        entry ∈ (second.store.selected pathPrefix cursor).filter (may ·.path) := by
    intro entry
    simp only [List.mem_filter, Store.mem_selected_iff, agree.backend]
    constructor
    · rintro ⟨⟨⟨row, found, same⟩, rest⟩, readable⟩
      rw [latestAgree entry.path readable] at found
      exact ⟨⟨⟨row, found, same⟩, rest⟩, readable⟩
    · rintro ⟨⟨⟨row, found, same⟩, rest⟩, readable⟩
      rw [← latestAgree entry.path readable] at found
      exact ⟨⟨⟨row, found, same⟩, rest⟩, readable⟩
  have irreflexive : ∀ entries : List FsEntry,
      entries.Pairwise (fun before after => before.path < after.path) → entries.Nodup := by
    intro entries increasing
    apply increasing.imp
    rintro before after less rfl
    exact lt_irrefl _ less
  have permuted := (List.perm_ext_iff_of_nodup (irreflexive _ (sorted first.store))
    (irreflexive _ (sorted second.store))).mpr members
  exact permuted.eq_of_pairwise
    (fun before after _ _ less greater => absurd (less.trans greater) (lt_irrefl _))
    (sorted first.store) (sorted second.store)

theorem selected_restrict (may : Text → Bool) (state : ListingState) (pathPrefix cursor : Text) :
    (state.restrict may).store.selected pathPrefix cursor =
      (state.store.selected pathPrefix cursor).filter (may ·.path) := by
  rw [selected_agree (agreeOn_restrict may state)]
  symm
  rw [List.filter_eq_self]
  intro entry member
  obtain ⟨⟨row, found, _⟩, _⟩ := Store.mem_selected_iff.mp member
  obtain ⟨inside, same⟩ := Store.mem_of_latest found
  rw [← same]
  exact (List.mem_filter.mp inside).2

end

end Aprovan.Vfs
