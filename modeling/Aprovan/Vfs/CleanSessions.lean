import Aprovan.Vfs.Agreement

/-!
# Listings of a session

A session lists its base snapshot under its overlay, without a filter.
-/

namespace Aprovan.Vfs

open Aprovan.Library Aprovan.Server Aprovan.Fs Aprovan.Apps
open Aprovan.Vcs (SnapshotEntry)

section

variable {may : Text → Bool}

private theorem filterMap_filter_eq {Source Target : Type} {keep : Source → Bool}
    {kept : Target → Bool} {whole part : Source → Option Target}
    (same : ∀ source, keep source = true → part source = whole source)
    (tracks : ∀ source target, whole source = some target → kept target = keep source)
    (sources : List Source) :
    (sources.filter keep).filterMap part = (sources.filterMap whole).filter kept := by
  induction sources with
  | nil => rfl
  | cons source others ih =>
    by_cases inside : keep source = true
    · rw [List.filter_cons_of_pos inside, List.filterMap_cons,
        List.filterMap_cons, same source inside]
      cases image : whole source with
      | none => exact ih
      | some target =>
        have stays : kept target = true := by rw [tracks source target image, inside]
        rw [List.filter_cons_of_pos stays, ih]
    · rw [List.filter_cons_of_neg inside, List.filterMap_cons]
      cases image : whole source with
      | none => exact ih
      | some target =>
        have goes : ¬ kept target = true := by
          rw [tracks source target image]
          exact inside
        rw [List.filter_cons_of_neg goes]
        exact ih

private theorem lookup_filter {overlay : List (Text × Option Text)} {path : Text}
    (readable : may path = true) :
    (overlay.filter (may ·.1)).lookup path = overlay.lookup path := by
  induction overlay with
  | nil => rfl
  | cons row others ih =>
    by_cases same : path = row.1
    · have inside : may row.1 = true := by
        rw [← same]
        exact readable
      rw [List.filter_cons_of_pos (by simpa using inside)]
      simp [List.lookup, same]
    · have different : (path == row.1) = false := beq_false_of_ne same
      by_cases inside : may row.1 = true
      · rw [List.filter_cons_of_pos (by simpa using inside)]
        simp only [List.lookup, different]
        exact ih
      · rw [List.filter_cons_of_neg (by simpa using inside), ih]
        simp only [List.lookup, different]

theorem stagedEntry_restrict (session : ChatSession) {path : Text} (readable : may path = true)
    (hash mimeType : Text) (size : Nat) :
    stagedEntry (session.restrict may) path hash mimeType size =
      stagedEntry session path hash mimeType size := by
  have sameShadow :
      (session.shadow.filter (may ·.path)).find? (·.path = path) =
        session.shadow.find? (·.path = path) := by
    rw [List.find?_filter]
    congr 1
    funext entry
    by_cases same : entry.path = path
    · simp [same, readable]
    · simp [same]
  simp only [stagedEntry, ChatSession.restrict, sameShadow]

@[simp]
theorem stagedEntry_path (session : ChatSession) (path hash mimeType : Text) (size : Nat) :
    (stagedEntry session path hash mimeType size).path = path := by
  unfold stagedEntry
  split <;> rfl

variable {session : ChatSession}

theorem baseEntry_path {entry : SnapshotEntry} {listed : FsEntry}
    (found : baseEntry session entry = some listed) :
    listed.path = entry.path := by
  unfold baseEntry at found
  split at found
  · cases found
  · cases found
    exact stagedEntry_path session _ _ _ _
  · cases found
    rfl

variable {pathPrefix : Text}

theorem addedEntry_path {base : List SnapshotEntry} {staged : Text × Option Text}
    {listed : FsEntry} (found : addedEntry session base pathPrefix staged = some listed) :
    listed.path = staged.1 := by
  unfold addedEntry at found
  split at found
  · cases found
  · split at found
    · cases found
    · cases found
      exact stagedEntry_path session _ _ _ _

theorem sessionEntries_restrict (session : ChatSession) (base : List SnapshotEntry)
    (pathPrefix : Text) :
    sessionEntries (session.restrict may) (base.filter (may ·.path)) pathPrefix =
      (sessionEntries session base pathPrefix).filter (may ·.path) := by
  unfold sessionEntries
  rw [List.filter_append]
  congr 1
  · have commuted :
        (base.filter (may ·.path)).filter (inListing pathPrefix ·.path) =
          (base.filter (inListing pathPrefix ·.path)).filter (may ·.path) := by
      rw [List.filter_filter, List.filter_filter]
      apply List.filter_congr
      intro entry _
      exact Bool.and_comm _ _
    rw [commuted]
    apply filterMap_filter_eq
    · intro entry readable
      have sameStaged :
          (session.restrict may).overlay.lookup entry.path = session.overlay.lookup entry.path :=
        lookup_filter readable
      unfold baseEntry
      rw [sameStaged]
      split
      · rfl
      · rw [stagedEntry_restrict session readable]
      · rfl
    · intro entry listed found
      rw [baseEntry_path found]
  · apply filterMap_filter_eq
    · intro staged readable
      have sameBase :
          staged.1 ∈ (base.filter (may ·.path)).map SnapshotEntry.path ↔
            staged.1 ∈ base.map SnapshotEntry.path := by
        simp only [List.mem_map, List.mem_filter]
        constructor
        · rintro ⟨entry, ⟨member, _⟩, same⟩
          exact ⟨entry, member, same⟩
        · rintro ⟨entry, member, same⟩
          exact ⟨entry, ⟨member, by rw [same]; exact readable⟩, same⟩
      unfold addedEntry
      split
      · rfl
      · simp only [sameBase, stagedEntry_restrict session readable]
    · intro staged listed found
      rw [addedEntry_path found]

/-- The session lists nothing unreadable. -/
def SessionClean (may : Text → Bool) (session : ChatSession) (pathPrefix : Text) : Prop :=
  ∀ base, session.base = some base → ∀ entry ∈ sessionEntries session base pathPrefix,
      may entry.path = true

theorem sessionClean_restrict (session : ChatSession) (pathPrefix : Text) :
    SessionClean may (session.restrict may) pathPrefix := by
  intro base isBase entry member
  cases whole : session.base with
  | none => simp [ChatSession.restrict, whole] at isBase
  | some entries =>
    simp only [ChatSession.restrict, whole, Option.map_some, Option.some.injEq] at isBase
    rw [← isBase, sessionEntries_restrict] at member
    exact (List.mem_filter.mp member).2

section

variable (collate : Text → Text → Bool)

theorem sessionList_restrict_of_clean (clean : SessionClean may session pathPrefix) :
    sessionList collate (session.restrict may) pathPrefix =
      sessionList collate session pathPrefix := by
  unfold sessionList
  cases whole : session.base with
  | none => simp [ChatSession.restrict, whole]
  | some entries =>
    have restricted : (session.restrict may).base = some (entries.filter (may ·.path)) := by
      simp [ChatSession.restrict, whole]
    rw [restricted]
    simp only [sessionEntries_restrict]
    rw [List.filter_eq_self.mpr (clean entries whole)]

theorem sessionList_exposes (dirty : ¬ SessionClean may session pathPrefix) :
    ∃ entries others, sessionList collate session pathPrefix = .ok entries ∧
        sessionList collate (session.restrict may) pathPrefix = .ok others ∧
        others.length < entries.length := by
  unfold SessionClean at dirty
  simp only [not_forall] at dirty
  obtain ⟨base, isBase, entry, member, unreadable⟩ := dirty
  have restricted : (session.restrict may).base = some (base.filter (may ·.path)) := by
    simp [ChatSession.restrict, isBase]
  refine ⟨sortEntries collate (sessionEntries session base pathPrefix), sortEntries collate
      ((sessionEntries session base pathPrefix).filter (may ·.path)),
    ?_, ?_, ?_⟩
  · simp only [sessionList, isBase]
  · simp only [sessionList, restricted, sessionEntries_restrict]
  · rw [length_sortEntries, length_sortEntries, List.length_filter_lt_length_iff_exists]
    exact ⟨entry, member, unreadable⟩

theorem listSession_restrict_of_clean {raw : Text} {invalid : ServiceError}
    (clean : ∀ pathPrefix, listPrefix raw = some pathPrefix →
      SessionClean may session pathPrefix) :
    listSession collate (session.restrict may) raw invalid =
      listSession collate session raw invalid := by
  unfold listSession
  cases named : listPrefix raw with
  | none => rfl
  | some pathPrefix =>
    simp only
    rw [sessionList_restrict_of_clean collate (clean pathPrefix named)]
    rfl

theorem listSession_exposes {raw : Text} {invalid : ServiceError}
    (dirty : ¬ ∀ pathPrefix, listPrefix raw = some pathPrefix →
      SessionClean may session pathPrefix) :
    listSession collate session raw invalid ≠
      listSession collate (session.restrict may) raw invalid := by
  simp only [not_forall] at dirty
  obtain ⟨pathPrefix, named, dirty⟩ := dirty
  obtain ⟨entries, others, listed, restricted, shorter⟩ :=
    sessionList_exposes collate dirty
  simp only [listSession, named, listed, restricted]
  intro same
  simp only [Reply.answered.injEq, ListAnswer.session.injEq] at same
  rw [same.2] at shorter
  exact lt_irrefl _ shorter

end

theorem stagedById_restrict (state : ListingState) (id : Text) :
    stagedById (state.restrict may) id =
      (stagedById state id).map (Option.map (ChatSession.restrict may)) := by
  unfold stagedById
  simp only [ListingState.restrict]
  cases state.sessions id with
  | none => rfl
  | some session =>
    cases staged : session.staged <;>
      simp [ChatSession.restrict, staged, Except.map]

variable {first second : ListingState}

theorem stagedById_agree (agree : AgreeOn may first second) (id : Text) :
    (stagedById first id).map (Option.map (ChatSession.restrict may)) =
      (stagedById second id).map (Option.map (ChatSession.restrict may)) := by
  have same : (first.restrict may).sessions = (second.restrict may).sessions :=
    funext agree.sessions
  rw [← stagedById_restrict, ← stagedById_restrict]
  unfold stagedById
  rw [same]

theorem stagedSession_restrict (ctx : ServiceContext) (state : ListingState)
    (value : Option (Option Text)) :
    stagedSession ctx (state.restrict may) value = (stagedSession ctx state value).map
        (Option.map (ChatSession.restrict may)) := by
  unfold stagedSession
  split
  · rfl
  · rfl
  · cases requireWorkspaceCaller ctx with
    | error thrown => rfl
    | ok _ =>
      simp only [Bind.bind, Except.bind]
      split
      · rfl
      · exact stagedById_restrict state _

theorem stagedSession_agree (agree : AgreeOn may first second)
    (ctx : ServiceContext) (value : Option (Option Text)) :
    (stagedSession ctx first value).map (Option.map (ChatSession.restrict may)) =
      (stagedSession ctx second value).map (Option.map (ChatSession.restrict may)) := by
  unfold stagedSession
  split
  · rfl
  · rfl
  · cases requireWorkspaceCaller ctx with
    | error thrown => rfl
    | ok _ =>
      simp only [Bind.bind, Except.bind]
      split
      · rfl
      · exact stagedById_agree agree _

theorem stagedSessionParam_restrict (state : ListingState) (id : Text) :
    stagedSessionParam (state.restrict may) id = (stagedSessionParam state id).map
        (Option.map (ChatSession.restrict may)) := by
  unfold stagedSessionParam
  split
  · rfl
  · exact stagedById_restrict state id

theorem stagedSessionParam_agree (agree : AgreeOn may first second) (id : Text) :
    (stagedSessionParam first id).map (Option.map (ChatSession.restrict may)) =
      (stagedSessionParam second id).map (Option.map (ChatSession.restrict may)) := by
  unfold stagedSessionParam
  split
  · rfl
  · exact stagedById_agree agree id

/-- Corresponding outcomes of a session argument: the same refusal, no
session, or sessions that agree. -/
theorem session_cases {first second : Outcome (Option ChatSession)}
    (same : first.map (Option.map (ChatSession.restrict may)) =
      second.map (Option.map (ChatSession.restrict may))) :
    (∃ thrown, first = .error thrown ∧ second = .error thrown) ∨
      (first = .ok none ∧ second = .ok none) ∨
      ∃ one two, first = .ok (some one) ∧ second = .ok (some two) ∧
        one.restrict may = two.restrict may := by
  rcases first with thrown | one <;> rcases second with other | two
  · left
    cases same
    exact ⟨thrown, rfl, rfl⟩
  · cases same
  · cases same
  · have inner : one.map (ChatSession.restrict may) = two.map (ChatSession.restrict may) := by
      simpa [Except.map] using same
    cases one with
    | none =>
      cases two with
      | none => exact Or.inr (Or.inl ⟨rfl, rfl⟩)
      | some two => cases inner
    | some one =>
      cases two with
      | none => cases inner
      | some two => exact Or.inr (Or.inr ⟨one, two, rfl, rfl, Option.some.inj inner⟩)

end

end Aprovan.Vfs
