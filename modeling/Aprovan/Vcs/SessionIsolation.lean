import Aprovan.Vcs.SessionMerge

/-!
# Isolation of a staged session

The calls on one staged session, each run alone, between what other members do
to the live tree.  Beside the stores stand the files without the session's
calls, and what the session should see.
-/

namespace Aprovan.Vcs

open Aprovan.Library Aprovan.Fs

structure IsolationState where
  stores : SessionStores
  /-- The files as the other members alone leave them. -/
  untouched : Store
  /-- What the session should see. -/
  view : Text → Option Text

inductive IsolationAct where
  | sessionWrite (path content : Text) (mimeType : Option Text)
  | sessionDelete (path : Text) (recursive : Bool)
  | sessionRead (path : Text)
  | sessionList (pathPrefix : Text)
  | memberWrite (path content mimeType : Text)
  | memberRemove (path : Text)
  | memberRemovePrefix (pathPrefix : Text)
  | tick (elapsed : Nat)

section

variable (services : SessionServices) (id : Text)

def onSession {Value : Type} (call : ChatSessionRecord → SessionCall Value)
    (stores : SessionStores) :
    Finished SessionStatement SessionStores SessionFailure Value :=
  (requireSession id >>= call).run (executeAlone services) stores

def memberEdit (now : Nat) : IsolationAct → Store → Store
  | .memberWrite path content mimeType, files =>
    files.write services.sha256 now path content mimeType none
  | .memberRemove path, files => (files.remove path).2
  | .memberRemovePrefix pathPrefix, files => (files.removePrefix pathPrefix).2
  | _, files => files

/-- The last staged operation that covers a path decides what is seen. -/
def viewAfter (view : Text → Option Text) : IsolationAct → Text → Option Text
  | .sessionWrite path content _, seen =>
    if seen = path then some content else view seen
  | .sessionDelete path recursive, seen =>
    if matchesDelete path recursive seen then none else view seen
  | _, seen => view seen

def sessionEdit (stores : SessionStores) : IsolationAct → SessionStores
  | .sessionWrite path content mimeType =>
    (onSession services id (sessionWrite · path content mimeType) stores).state
  | .sessionDelete path recursive =>
    (onSession services id (sessionDelete · path recursive) stores).state
  | .sessionRead path => (onSession services id (sessionRead · path) stores).state
  | .sessionList pathPrefix =>
    (onSession services id (sessionList services · pathPrefix) stores).state
  | .tick elapsed => { stores with clock := stores.clock + elapsed }
  | _ => stores

/-- Members reach files by their path in normal form, outside the service
state. -/
def isEnabled : IsolationAct → Bool
  | .memberWrite path _ _ => isFilePath path
  | .memberRemove path => isFilePath path
  | .memberRemovePrefix pathPrefix => isFilePath pathPrefix
  | _ => true

def isolationStep (state : IsolationState) (act : IsolationAct) : Option IsolationState :=
  if isEnabled act then
    let edit := memberEdit services state.stores.clock act
    let stores := sessionEdit services id state.stores act
    some {
      stores := { stores with files := edit stores.files }
      untouched := edit state.untouched
      view := viewAfter state.view act }
  else none

def outsideShadow (row : FsRow) : Bool :=
  !(shadowRoot id ++ ['/']).isPrefixOf row.path

def ReadsFile (stores : SessionStores) (path : Text) (file : Option FsRow) : Prop :=
  (onSession services id (sessionRead · path) stores).outcome = .ok file

structure Isolated (state : IsolationState) : Prop where
  spares : state.stores.files.rows.filter (outsideShadow id) =
    state.untouched.rows.filter (outsideShadow id)
  reads : ∀ path, ∃ file, ReadsFile services id state.stores path file ∧
      file.map FsRow.content = state.view path
  lists : ∀ pathPrefix, ∃ entries, (onSession services id (sessionList services · pathPrefix)
        state.stores).outcome = .ok entries ∧
      ∀ path hash, (∃ entry ∈ entries, entry.path = path ∧ entry.hash = hash) ↔
          Vfs.inListing pathPrefix path = true ∧
            ∃ file, ReadsFile services id state.stores path (some file) ∧ file.hash = hash

/-- A staged session as it is created: nothing is staged, and the base lists
files of the live tree, each with a version that is stored. -/
structure IsolationStarts (snapshot : VcsSnapshot)
    (session : ChatSessionRecord) (state : IsolationState) : Prop where
  stored : state.stores.session = some session
  named : session.id = id
  opened : session.status = .opened
  staged : session.mode = .staged
  empty : session.overlay = .empty
  base : baseOf state.stores session = some snapshot
  distinct : (snapshot.entries.map SnapshotEntry.path).Nodup
  live : ∀ entry ∈ snapshot.entries, isServicePath entry.path = false
  hashed : ∀ entry ∈ snapshot.entries, entry.hash ≠ []
  pinned : ∀ entry ∈ snapshot.entries, ∃ file,
    state.stores.files.read entry.path (some entry.hash) = some file
  untouched : state.untouched = state.stores.files
  view : ∀ path, state.view path = (snapshot.entries.find? (·.path = path)).bind fun entry =>
      (state.stores.files.read entry.path (some entry.hash)).map FsRow.content

/-- Where the content of a path is stored for the session, and the hash that
a read is pinned to. -/
def pinOf (entries : List SnapshotEntry) (session : ChatSessionRecord) (path : Text) :
    Option (Text × Text) :=
  match session.overlay.get path with
  | some none => none
  | some (some staged) => some (shadowPath session.id path, staged)
  | none => (entries.find? (·.path = path)).map fun entry => (entry.path, entry.hash)

def pinIn (stores : SessionStores) (path : Text) : Option (Text × Text) :=
  stores.session.bind fun session => pinOf (baseEntries stores session) session path

/-- Staged content is kept with a version, under a key that an object can
have; a member removes no file that the session reads, and writes no content
that has the digest of another. -/
def IsolationCondition (state : IsolationState) : IsolationAct → Prop
  | .sessionWrite path _ _ =>
    state.stores.files.backend = .sqlite ∧ path ≠ PlainObject.prototypeKey
  | .sessionDelete path _ => path = PlainObject.prototypeKey → pinIn state.stores path = none
  | .memberWrite _ content _ =>
    ∀ row ∈ state.stores.files.rows, row.hash = services.sha256 content → row.content = content
  | .memberRemove path => ∀ seen pin, pinIn state.stores seen = some pin → pin.1 ≠ path
  | .memberRemovePrefix pathPrefix =>
    ∀ seen pin, pinIn state.stores seen = some pin →
      Store.clears state.stores.files.backend pathPrefix pin.1 = false
  | _ => True

end

section

variable {services : SessionServices} {id : Text} {stores : SessionStores}
  {snapshot : VcsSnapshot} {session : ChatSessionRecord}

/-- The content under a pin is what should be seen. -/
def Shown (files : Store) (seen : Option Text) : Option (Text × Text) → Prop
  | none => seen = none
  | some (location, hash) => ∃ file,
      files.read location (some hash) = some file ∧ file.hash = hash ∧ seen = some file.content

theorem Shown.congr {files others : Store} {seen : Option Text}
    {pin : Option (Text × Text)} (shown : Shown files seen pin)
    (same : ∀ location hash, pin = some (location, hash) →
      others.read location (some hash) = files.read location (some hash)) :
    Shown others seen pin := by
  cases pin with
  | none => exact shown
  | some pin =>
    obtain ⟨file, found, hashed, content⟩ := shown
    exact ⟨file, (same pin.1 pin.2 rfl).trans found, hashed, content⟩

theorem onSession_eq {Value : Type} (call : ChatSessionRecord → SessionCall Value)
    (stored : stores.session = some session) :
    (onSession services id call stores).outcome =
        ((call session).run (executeAlone services) stores).outcome ∧
      (onSession services id call stores).state =
        ((call session).run (executeAlone services) stores).state := by
  obtain ⟨read, same, _⟩ :=
    @run_requireSession services stores session id stored
  unfold onSession
  rw [run_bind_ok read, same]
  exact ⟨rfl, rfl⟩

theorem run_sessionRead (base : baseOf stores session = some snapshot) (path : Text) :
    ((sessionRead session path).run (executeAlone services) stores).state = stores ∧
      ∃ file, ((sessionRead session path).run (executeAlone services) stores).outcome = .ok file ∧
        ∀ seen, Shown stores.files seen (pinOf snapshot.entries session path) →
          file.map FsRow.content = seen ∧ file.map FsRow.hash =
              (pinOf snapshot.entries session path).map Prod.snd := by
  obtain ⟨read, same⟩ := run_baseSnapshot services stores session
  rw [base] at read
  unfold sessionRead pinOf
  cases overlaid : session.overlay.get path with
  | none =>
    dsimp only
    rw [run_bind_ok read, same]
    cases found : snapshot.entries.find? (·.path = path) with
    | none =>
      refine ⟨rfl, none, rfl, ?_⟩
      intro seen shown
      exact ⟨Eq.symm shown, rfl⟩
    | some entry =>
      have samePath : entry.path = path := by simpa using List.find?_some found
      refine ⟨rfl, stores.files.read path (some entry.hash), rfl, ?_⟩
      rintro seen ⟨file, stored, hashed, content⟩
      rw [samePath] at stored
      rw [stored, content]
      exact ⟨rfl, congrArg some hashed⟩
  | some staged =>
    cases staged with
    | none =>
      refine ⟨rfl, none, rfl, ?_⟩
      intro seen shown
      exact ⟨Eq.symm shown, rfl⟩
    | some staged =>
      refine ⟨rfl, (stores.files.read (shadowPath session.id path)
        (some staged)).map (atPath path), rfl, ?_⟩
      rintro seen ⟨file, stored, hashed, content⟩
      rw [stored, content]
      exact ⟨rfl, congrArg some hashed⟩

theorem run_sessionList (staged : session.mode = .staged)
    (base : baseOf stores session = some snapshot) (pathPrefix : Text) :
    ((sessionList services session pathPrefix).run (executeAlone services) stores).state = stores ∧
      ((sessionList services session pathPrefix).run (executeAlone services) stores).outcome =
        .ok (Vfs.sortEntries services.collate (Vfs.sessionEntries (listingView session snapshot
              (stores.files.listAll (shadowRoot session.id))) snapshot.entries pathPrefix)) := by
  obtain ⟨read, same⟩ := run_baseSnapshot services stores session
  rw [base] at read
  unfold sessionList
  rw [if_neg (by rw [staged]; exact fun different => different rfl), run_bind_ok read, same]
  exact ⟨rfl, rfl⟩

theorem find?_path {entries : List SnapshotEntry}
    (distinct : (entries.map SnapshotEntry.path).Nodup)
    {entry : SnapshotEntry} (member : entry ∈ entries) :
    entries.find? (·.path = entry.path) = some entry := by
  induction entries with
  | nil => cases member
  | cons head tail ih =>
    rw [List.map_cons, List.nodup_cons] at distinct
    rcases List.mem_cons.mp member with rfl | later
    · exact List.find?_cons_of_pos (decide_eq_true rfl)
    · have different : head.path ≠ entry.path := by
        intro same
        rw [same] at distinct
        exact distinct.1 (List.mem_map_of_mem later)
      rw [List.find?_cons_of_neg (by simpa using different)]
      exact ih distinct.2 later

theorem stagedEntry_path (view : Vfs.ChatSession) (path hash mimeType : Text) (size : Nat) :
    (Vfs.stagedEntry view path hash mimeType size).path = path ∧
      (Vfs.stagedEntry view path hash mimeType size).hash = hash := by
  unfold Vfs.stagedEntry
  cases view.shadow.find? (·.path = path) with
  | none => exact ⟨rfl, rfl⟩
  | some shadow => exact ⟨rfl, rfl⟩

theorem baseEntry_eq (session : ChatSessionRecord) (shadow : List FsEntry)
    {entry : SnapshotEntry} (distinct : (snapshot.entries.map SnapshotEntry.path).Nodup)
    (member : entry ∈ snapshot.entries) :
    ((Vfs.baseEntry (listingView session snapshot shadow) entry).map
        fun listed => (listed.path, listed.hash)) =
      (pinOf snapshot.entries session entry.path).map fun pin => (entry.path, pin.2) := by
  have looked : (listingView session snapshot shadow).overlay.lookup
      entry.path = session.overlay.get entry.path :=
    session.overlay.lookup_entries entry.path
  unfold Vfs.baseEntry pinOf
  rw [looked, find?_path distinct member]
  cases session.overlay.get entry.path with
  | none => rfl
  | some staged =>
    cases staged with
    | none => rfl
    | some staged =>
      obtain ⟨path, hash⟩ := stagedEntry_path
        (listingView session snapshot shadow) entry.path staged
        entry.mimeType entry.size
      simp only [Option.map_some, path, hash]

theorem mem_sessionEntries_iff {shadow : List FsEntry} {pathPrefix path hash : Text}
    (distinct : (snapshot.entries.map SnapshotEntry.path).Nodup) :
    (∃ listed ∈ Vfs.sessionEntries (listingView session snapshot shadow)
        snapshot.entries pathPrefix,
        listed.path = path ∧ listed.hash = hash) ↔
      Vfs.inListing pathPrefix path = true ∧
        (pinOf snapshot.entries session path).map Prod.snd = some hash := by
  simp only [Vfs.sessionEntries, List.mem_append, List.mem_filterMap, List.mem_filter]
  constructor
  · rintro ⟨listed, ⟨entry, ⟨member, inside⟩, isListed⟩ |
      ⟨⟨key, staged⟩, member, isListed⟩, rfl, rfl⟩
    · have both := baseEntry_eq session shadow distinct member
      rw [isListed, Option.map_some] at both
      obtain ⟨pin, found, same⟩ := Option.map_eq_some_iff.mp both.symm
      rw [Prod.mk.injEq] at same
      rw [← same.1, ← same.2, found]
      exact ⟨inside, rfl⟩
    · have looked : session.overlay.get key = some staged := PlainObject.mem_entries.mp member
      unfold Vfs.addedEntry at isListed
      cases staged with
      | none => cases isListed
      | some staged =>
        dsimp only at isListed
        split at isListed
        · cases isListed
        · rename_i outside
          cases isListed
          obtain ⟨samePath, sameHash⟩ := stagedEntry_path
            (listingView session snapshot shadow) key staged
            "text/plain".toList 0
          rw [not_or] at outside
          rw [samePath, sameHash, pinOf, looked]
          exact ⟨by simpa using outside.2, rfl⟩
  · rintro ⟨inside, pinned⟩
    by_cases inBase : path ∈ snapshot.entries.map SnapshotEntry.path
    · obtain ⟨entry, member, rfl⟩ := List.mem_map.mp inBase
      have both := baseEntry_eq session shadow distinct member
      obtain ⟨pin, found, rfl⟩ := Option.map_eq_some_iff.mp pinned
      rw [found, Option.map_some] at both
      obtain ⟨listed, isListed, same⟩ := Option.map_eq_some_iff.mp both
      rw [Prod.mk.injEq] at same
      exact ⟨listed, Or.inl ⟨entry, ⟨member, inside⟩, isListed⟩, same.1, same.2⟩
    · have absent : snapshot.entries.find? (·.path = path) = none := by
        rw [List.find?_eq_none]
        intro entry member same
        exact inBase (List.mem_map.mpr ⟨entry, member, by simpa using same⟩)
      unfold pinOf at pinned
      rw [absent] at pinned
      cases looked : session.overlay.get path with
      | none =>
        rw [looked] at pinned
        cases pinned
      | some staged =>
        rw [looked] at pinned
        cases staged with
        | none => cases pinned
        | some staged =>
          cases pinned
          obtain ⟨samePath, sameHash⟩ := stagedEntry_path
            (listingView session snapshot shadow) path staged
            "text/plain".toList 0
          refine ⟨_, Or.inr ⟨(path, some staged),
            PlainObject.mem_entries.mpr looked, ?_⟩, samePath, sameHash⟩
          exact if_neg (by simp [inBase, inside])

end

section

variable {services : SessionServices} {id : Text} {snapshot : VcsSnapshot}
  {session next : ChatSessionRecord} {state : IsolationState}

structure BaseListed (entries : List SnapshotEntry) : Prop where
  distinct : (entries.map SnapshotEntry.path).Nodup
  live : ∀ entry ∈ entries, isServicePath entry.path = false
  hashed : ∀ entry ∈ entries, entry.hash ≠ []

structure IsolationInvariant (id : Text) (snapshot : VcsSnapshot)
    (session : ChatSessionRecord) (state : IsolationState) : Prop where
  stored : state.stores.session = some session
  named : session.id = id
  staged : session.mode = .staged
  base : baseOf state.stores session = some snapshot
  backend : state.stores.files.backend = state.untouched.backend
  spares : state.stores.files.rows.filter (outsideShadow id) =
    state.untouched.rows.filter (outsideShadow id)
  shown : ∀ path, Shown state.stores.files (state.view path) (pinOf snapshot.entries session path)

theorem pinIn_eq (invariant : IsolationInvariant id snapshot session state) (path : Text) :
    pinIn state.stores path = pinOf snapshot.entries session path := by
  rw [pinIn, invariant.stored, Option.bind_some, baseEntries, invariant.base]
  rfl

theorem isolated_of_invariant (listed : BaseListed snapshot.entries)
    (invariant : IsolationInvariant id snapshot session state) :
    Isolated services id state := by
  have reads : ∀ path, ∃ file, ReadsFile services id state.stores path file ∧
        file.map FsRow.content = state.view path ∧ file.map FsRow.hash =
            (pinOf snapshot.entries session path).map Prod.snd := by
    intro path
    obtain ⟨_, file, outcome, answers⟩ :=
      @run_sessionRead services state.stores snapshot session invariant.base path
    have called := @onSession_eq services id state.stores session _
      (sessionRead · path) invariant.stored
    exact ⟨file, called.1.trans outcome, answers _ (invariant.shown path)⟩
  refine ⟨invariant.spares, ?_, ?_⟩
  · intro path
    obtain ⟨file, read, content, _⟩ := reads path
    exact ⟨file, read, content⟩
  · intro pathPrefix
    have outcome := (@run_sessionList services state.stores snapshot session
      invariant.staged invariant.base pathPrefix).2
    have called := @onSession_eq services id state.stores session _
      (sessionList services · pathPrefix) invariant.stored
    refine ⟨_, called.1.trans outcome, ?_⟩
    intro path hash
    simp only [Vfs.sortEntries, List.mem_insertionSort]
    rw [mem_sessionEntries_iff listed.distinct]
    apply and_congr_right
    intro _
    obtain ⟨file, read, _, hashed⟩ := reads path
    rw [← hashed]
    constructor
    · intro pinned
      obtain ⟨found, rfl, same⟩ := Option.map_eq_some_iff.mp pinned
      exact ⟨found, read, same⟩
    · rintro ⟨found, other, same⟩
      have equal : file = some found := by
        rw [ReadsFile] at read other
        rw [read] at other
        exact Except.ok.inj other
      rw [equal, Option.map_some, same]

variable {path : Text}

theorem location_of_pinOf (listed : BaseListed snapshot.entries) {location hash : Text}
    (pinned : pinOf snapshot.entries session path = some (location, hash)) :
    location = shadowPath session.id path ∨
      (location = path ∧ isServicePath path = false ∧ hash ≠ []) := by
  unfold pinOf at pinned
  cases overlaid : session.overlay.get path with
  | none =>
    rw [overlaid] at pinned
    obtain ⟨entry, found, same⟩ := Option.map_eq_some_iff.mp pinned
    rw [Prod.mk.injEq] at same
    have member := List.mem_of_find?_eq_some found
    have samePath : entry.path = path := by simpa using List.find?_some found
    right
    refine ⟨same.1.symm.trans samePath, ?_, ?_⟩
    · rw [← samePath]
      exact listed.live entry member
    · rw [← same.2]
      exact listed.hashed entry member
  | some staged =>
    rw [overlaid] at pinned
    cases staged with
    | none => cases pinned
    | some staged =>
      cases pinned
      exact Or.inl rfl

theorem shadowPath_inj {other : Text} (same : shadowPath id path = shadowPath id other) :
    path = other := by
  rw [shadowPath, shadowPath, List.append_cancel_left_eq, List.cons.injEq] at same
  exact same.2

theorem outsideShadow_shadowPath {row : FsRow} (inside : row.path = shadowPath id path) :
    outsideShadow id row = false := by
  rw [outsideShadow, inside, Bool.not_eq_false', List.isPrefixOf_iff_prefix]
  refine ⟨path, ?_⟩
  rw [shadowPath, List.append_assoc]
  rfl

theorem invariant_files {files untouched : Store}
    (invariant : IsolationInvariant id snapshot session state)
    (backend : files.backend = untouched.backend)
    (spares : files.rows.filter (outsideShadow id) = untouched.rows.filter (outsideShadow id))
    (shown : ∀ path, Shown files (state.view path) (pinOf snapshot.entries session path)) :
    IsolationInvariant id snapshot session {
      stores := { state.stores with files := files }
      untouched := untouched
      view := state.view } where
  stored := invariant.stored
  named := invariant.named
  staged := invariant.staged
  base := invariant.base
  backend := backend
  spares := spares
  shown := shown

theorem shown_memberWrite (listed : BaseListed snapshot.entries)
    {files : Store} {seen : Option Text} {now : Nat}
    {content mimeType other : Text} (live : isServicePath path = false)
    (collisionFree : ∀ row ∈ files.rows,
      row.hash = services.sha256 content → row.content = content)
    (shown : Shown files seen (pinOf snapshot.entries session other)) :
    Shown (files.write services.sha256 now path content mimeType none) seen
      (pinOf snapshot.entries session other) := by
  cases pinned : pinOf snapshot.entries session other with
  | none =>
    rw [pinned] at shown
    exact shown
  | some pin =>
    obtain ⟨location, hash⟩ := pin
    rw [pinned] at shown
    obtain ⟨file, found, hashed, seenContent⟩ := shown
    by_cases same : location = path
    · rcases location_of_pinOf listed pinned with shadow | ⟨_, _, nonempty⟩
      · rw [same] at shadow
        exact absurd shadow.symm (shadowPath_ne session.id other live)
      · rw [same] at found ⊢
        obtain ⟨kept, stillFound, sameContent, sameHash⟩ :=
          @Store.read_write_pinned files path file services.sha256 now
            content mimeType hash collisionFree live nonempty found
        exact ⟨kept, stillFound, sameHash, by rw [sameContent, seenContent]⟩
    · exact ⟨file, (Store.read_write_of_ne same (some hash)).trans found, hashed, seenContent⟩

def written (services : SessionServices) (now : Nat)
    (session : ChatSessionRecord) (path content : Text) :
    ChatSessionRecord := { session with
    overlay := session.overlay.set path (some (services.sha256 content))
    updatedAt := now }

theorem state_sessionWrite (path content : Text) (mimeType : Option Text)
    {stores : SessionStores} (stored : stores.session = some session) :
    sessionEdit services id stores (.sessionWrite path content mimeType) = { stores with
        session := some (written services stores.clock session path content)
        files := stores.files.write services.sha256 stores.clock
          (shadowPath session.id path) content
          (mimeType.getD "text/plain".toList) none } :=
  (onSession_eq (sessionWrite · path content mimeType) stored).2

/-- A staged write is seen, and nothing else changes for the session. -/
theorem invariant_sessionWrite (listed : BaseListed snapshot.entries)
    (invariant : IsolationInvariant id snapshot session state)
    (sqlite : state.stores.files.backend = .sqlite) (plain : path ≠ PlainObject.prototypeKey)
    (content : Text) (mimeType : Option Text) :
    IsolationInvariant id snapshot (written services state.stores.clock session path content) {
        stores := sessionEdit services id state.stores (.sessionWrite path content mimeType)
        untouched := state.untouched
        view := viewAfter state.view (.sessionWrite path content mimeType) } := by
  rw [state_sessionWrite path content mimeType invariant.stored]
  constructor
  · rfl
  · exact invariant.named
  · exact invariant.staged
  · exact invariant.base
  · exact invariant.backend
  · refine Eq.trans ?_ invariant.spares
    apply Store.rows_outside_write
    intro row inside
    rw [← invariant.named]
    exact outsideShadow_shadowPath inside
  · intro other
    dsimp only [viewAfter]
    by_cases same : other = path
    · subst same
      have overlaid := session.overlay.get_set_self (some (services.sha256 content)) plain
      obtain ⟨row, single, hashed, kept⟩ :=
        @Store.rows_write_unversioned state.stores.files
          (shadowPath session.id other) services.sha256 state.stores.clock
          content (mimeType.getD "text/plain".toList)
          (isServicePath_shadowPath session.id other)
      have found := Store.read_of_single single sqlite
      rw [if_pos rfl, pinOf, show (written services state.stores.clock
        session other content).overlay.get other = _ from overlaid]
      rw [hashed] at found
      exact ⟨row, found, hashed, congrArg some kept.symm⟩
    · have pinned : pinOf snapshot.entries
          (written services state.stores.clock session path content) other =
          pinOf snapshot.entries session other := by
        unfold pinOf
        rw [show (written services state.stores.clock session path
          content).overlay.get other = _ from
            session.overlay.get_set_of_ne _ same]
        rfl
      rw [if_neg same, pinned]
      apply (invariant.shown other).congr
      intro location hash found
      apply Store.read_write_of_ne
      rcases location_of_pinOf listed found with shadow | ⟨own, live, _⟩
      · rw [shadow]
        intro equal
        exact same (shadowPath_inj equal)
      · rw [own]
        exact (shadowPath_ne session.id path live).symm

theorem pinOf_isSome_iff {entries : List SnapshotEntry} :
    (pinOf entries session path).isSome ↔ path ∈ entries.map SnapshotEntry.path ++
          session.overlay.entries.map Prod.fst ∧
        session.overlay.get path ≠ some none := by
  have overlaid : path ∈ session.overlay.entries.map Prod.fst ↔
      (session.overlay.get path).isSome := by
    rw [Option.isSome_iff_exists, List.mem_map]
    constructor
    · rintro ⟨⟨key, staged⟩, member, rfl⟩
      exact ⟨staged, PlainObject.mem_entries.mp member⟩
    · rintro ⟨staged, found⟩
      exact ⟨(path, staged), PlainObject.mem_entries.mpr found, rfl⟩
  have based : path ∈ entries.map SnapshotEntry.path ↔ (entries.find? (·.path = path)).isSome := by
    rw [List.find?_isSome, List.mem_map]
    simp only [decide_eq_true_eq]
  rw [List.mem_append, overlaid, based, pinOf]
  cases session.overlay.get path with
  | none => simp
  | some staged => cases staged <;> simp

variable {recursive : Bool}

theorem mem_deleteTargets_iff {target : Text} :
    target ∈ deleteTargets snapshot session.overlay path recursive ↔
      matchesDelete path recursive target = true ∧
        (pinOf snapshot.entries session target).isSome := by
  simp only [deleteTargets, List.mem_filter, List.mem_eraseDups, decide_eq_true_eq]
  rw [pinOf_isSome_iff]
  exact ⟨fun both => ⟨both.1.2, both.1.1, both.2⟩,
    fun both => ⟨⟨both.2.1, both.1⟩, both.2.2⟩⟩

theorem pinOf_tombstoned {seen : Text} (plain : path = PlainObject.prototypeKey →
      pinOf snapshot.entries session path = none)
    (others : next.id = session.id) (overlay : next.overlay =
      (deleteTargets snapshot session.overlay path recursive).foldl
        (fun overlay target => overlay.set target none) session.overlay) :
    pinOf snapshot.entries next seen =
      if matchesDelete path recursive seen then none
      else pinOf snapshot.entries session seen := by
  have spared : PlainObject.prototypeKey ∉
      deleteTargets snapshot session.overlay path recursive := by
    rw [mem_deleteTargets_iff]
    rintro ⟨matched, pinned⟩
    by_cases named : path = PlainObject.prototypeKey
    · rw [← named, plain named] at pinned
      cases pinned
    · rw [matchesDelete_prototypeKey named] at matched
      cases matched
  have tombstones := get_tombstoned session.overlay _ spared seen
  rw [← overlay] at tombstones
  by_cases target : seen ∈ deleteTargets snapshot session.overlay path recursive
  · rw [if_pos target] at tombstones
    rw [if_pos (mem_deleteTargets_iff.mp target).1, pinOf, tombstones]
  · rw [if_neg target] at tombstones
    have unchanged : pinOf snapshot.entries next seen = pinOf snapshot.entries session seen := by
      rw [pinOf, tombstones, others, pinOf]
    rw [unchanged]
    by_cases matched : matchesDelete path recursive seen = true
    · rw [if_pos matched, ← Option.not_isSome_iff_eq_none]
      intro pinned
      exact target (mem_deleteTargets_iff.mpr ⟨matched, pinned⟩)
    · rw [if_neg matched]

def deleted (now : Nat) (snapshot : VcsSnapshot)
    (session : ChatSessionRecord) (path : Text) (recursive : Bool) :
    ChatSessionRecord :=
  let removed := deleteTargets snapshot session.overlay path recursive
  if removed = [] then session else { session with
      overlay := removed.foldl (fun overlay target => overlay.set target none) session.overlay
      updatedAt := now }

theorem state_sessionDelete (path : Text) (recursive : Bool) {stores : SessionStores}
    (stored : stores.session = some session) (base : baseOf stores session = some snapshot) :
    sessionEdit services id stores (.sessionDelete path recursive) = { stores with
        session :=
          some (deleted stores.clock snapshot session path recursive) } := by
  obtain ⟨read, same⟩ := run_baseSnapshot services stores session
  rw [base] at read
  have called := (@onSession_eq services id stores session _
    (sessionDelete · path recursive) stored).2
  refine called.trans ?_
  unfold sessionDelete deleted
  rw [run_bind_ok read, same]
  dsimp only
  by_cases nothing : deleteTargets snapshot session.overlay path recursive = []
  · rw [if_pos nothing, if_pos nothing, ← stored]
    rfl
  · rw [if_neg nothing, if_neg nothing]
    rfl

/-- A delete turns everything that it covers into tombstones; nothing else
changes for the session. -/
theorem invariant_sessionDelete (invariant : IsolationInvariant id snapshot session state)
    (plain : path = PlainObject.prototypeKey → pinOf snapshot.entries session path = none) :
    IsolationInvariant id snapshot (deleted state.stores.clock snapshot session path recursive) {
        stores := sessionEdit services id state.stores (.sessionDelete path recursive)
        untouched := state.untouched
        view := viewAfter state.view (.sessionDelete path recursive) } := by
  rw [state_sessionDelete path recursive invariant.stored invariant.base]
  obtain ⟨named, staged, base, overlay⟩ :
      (deleted state.stores.clock snapshot session path recursive).id = session.id ∧
        (deleted state.stores.clock snapshot session path recursive).mode = session.mode ∧
        (deleted state.stores.clock snapshot session path recursive).base = session.base ∧
        (deleted state.stores.clock snapshot session path recursive).overlay =
          (deleteTargets snapshot session.overlay path recursive).foldl
            (fun overlay target => overlay.set target none)
            session.overlay := by
    unfold deleted
    by_cases nothing : deleteTargets snapshot session.overlay path recursive = []
    · simp only [nothing, if_true, List.foldl_nil, and_self]
    · simp only [nothing, if_false, and_self]
  constructor
  · rfl
  · exact named.trans invariant.named
  · exact staged.trans invariant.staged
  · rw [← invariant.base, baseOf, baseOf, base]
  · exact invariant.backend
  · exact invariant.spares
  · intro seen
    dsimp only [viewAfter]
    rw [pinOf_tombstoned plain named overlay]
    by_cases matched : matchesDelete path recursive seen = true
    · rw [if_pos matched, if_pos matched]
      rfl
    · rw [if_neg matched, if_neg matched]
      exact invariant.shown seen

theorem invariant_of_starts (starts : IsolationStarts id snapshot session state) :
    BaseListed snapshot.entries ∧ IsolationInvariant id snapshot session state := by
  have listed : BaseListed snapshot.entries := ⟨starts.distinct, starts.live, starts.hashed⟩
  refine ⟨listed, starts.stored, starts.named, starts.staged, starts.base, ?_, ?_, ?_⟩
  · rw [starts.untouched]
  · rw [starts.untouched]
  · intro path
    have nothing : session.overlay.get path = none := by
      rw [starts.empty]
      rfl
    rw [starts.view, pinOf, nothing]
    cases found : snapshot.entries.find? (·.path = path) with
    | none => rfl
    | some entry =>
      have member := List.mem_of_find?_eq_some found
      obtain ⟨file, stored⟩ := starts.pinned entry member
      refine ⟨file, stored, ?_, ?_⟩
      · exact Store.hash_of_read (starts.hashed entry member) stored
      · rw [Option.bind_some, stored, Option.map_some]

theorem invariant_isolationStep (listed : BaseListed snapshot.entries)
    {act : IsolationAct} {after : IsolationState}
    (invariant : ∃ session, IsolationInvariant id snapshot session state)
    (condition : IsolationCondition services state act)
    (taken : isolationStep services id state act = some after) :
    ∃ session, IsolationInvariant id snapshot session after := by
  obtain ⟨session, invariant⟩ := invariant
  unfold isolationStep at taken
  split at taken
  swap
  · cases taken
  rename_i enabled
  cases taken
  cases act with
  | sessionWrite path content mimeType =>
    exact ⟨_, invariant_sessionWrite listed invariant condition.1 condition.2 content mimeType⟩
  | sessionDelete path recursive =>
    refine ⟨_, invariant_sessionDelete invariant ?_⟩
    intro named
    rw [← pinIn_eq invariant]
    exact condition named
  | sessionRead path =>
    have called := (@onSession_eq services id state.stores session _
      (sessionRead · path) invariant.stored).2
    have same := (@run_sessionRead services state.stores snapshot session invariant.base path).1
    refine ⟨session, ?_⟩
    dsimp only [sessionEdit, memberEdit, viewAfter]
    rw [called, same]
    exact invariant
  | sessionList pathPrefix =>
    have called := (@onSession_eq services id state.stores session _
      (sessionList services · pathPrefix) invariant.stored).2
    have same := (@run_sessionList services state.stores snapshot session
      invariant.staged invariant.base pathPrefix).1
    refine ⟨session, ?_⟩
    dsimp only [sessionEdit, memberEdit, viewAfter]
    rw [called, same]
    exact invariant
  | memberWrite path content mimeType =>
    rw [isEnabled, isFilePath, Bool.and_eq_true, Bool.not_eq_true'] at enabled
    refine ⟨session, invariant_files invariant invariant.backend ?_ ?_⟩
    · exact Store.filter_write_congr invariant.backend invariant.spares
    · intro seen
      exact shown_memberWrite listed enabled.2 condition (invariant.shown seen)
  | memberRemove path =>
    refine ⟨session, invariant_files invariant invariant.backend ?_ ?_⟩
    · exact Store.filter_keep_congr invariant.spares
    · intro seen
      apply (invariant.shown seen).congr
      intro location hash pinned
      rw [← pinIn_eq invariant] at pinned
      exact Store.read_remove_of_ne (condition seen _ pinned) (some hash)
  | memberRemovePrefix pathPrefix =>
    refine ⟨session, invariant_files invariant invariant.backend ?_ ?_⟩
    · dsimp only [memberEdit, sessionEdit, Store.removePrefix]
      rw [invariant.backend]
      exact Store.filter_keep_congr invariant.spares
    · intro seen
      apply (invariant.shown seen).congr
      intro location hash pinned
      rw [← pinIn_eq invariant] at pinned
      have spared : Store.clears state.stores.files.backend pathPrefix location = false :=
        condition seen _ pinned
      apply Store.read_keep
      intro row _ same
      rw [same]
      show (!Store.clears state.stores.files.backend pathPrefix location) = true
      rw [spared]
      rfl
  | tick elapsed =>
    exact ⟨session, invariant.stored, invariant.named, invariant.staged,
      invariant.base, invariant.backend, invariant.spares,
      invariant.shown⟩

/-- A staged session is isolated as long as its content is kept with
versions under ordinary keys, and members remove nothing that it reads. -/
theorem sessions_isolated {acts : List IsolationAct} {after : IsolationState}
    (starts : IsolationStarts id snapshot session state)
    (meets : StepsMeet (isolationStep services id) (IsolationCondition services) state acts)
    (executed : runFrom (isolationStep services id) state acts = some after) :
    Isolated services id after := by
  obtain ⟨listed, initial⟩ := invariant_of_starts starts
  obtain ⟨final, invariant⟩ := invariant_of_stepsMeet
    (fun state => ∃ session, IsolationInvariant id snapshot session state)
    (fun _ _ _ holds condition taken => invariant_isolationStep listed holds condition taken)
    ⟨session, initial⟩ meets executed
  exact isolated_of_invariant listed invariant

end

def fileTree : VcsSnapshot where
  id := "tree".toList
  pathPrefix := []
  entries := [⟨"a".toList, "hx".toList, "text/plain".toList, 1⟩]

def oneFile (backend : Backend) : Store :=
  Store.write plainServices.sha256 0 ⟨backend, [], Fs.Store.keys_nil⟩
    "a".toList "x".toList "text/plain".toList none

def isolationStart (backend : Backend) : IsolationState where
  stores := { freshStores with
      files := oneFile backend
      history := ⟨[fileTree], [emptyBase], []⟩ }
  untouched := oneFile backend
  view := fun path => if path = "a".toList then some "x".toList else none

theorem isolationStart_starts (backend : Backend) :
    IsolationStarts "s".toList fileTree freshSession (isolationStart backend) where
  stored := rfl
  named := rfl
  opened := rfl
  staged := rfl
  empty := rfl
  base := rfl
  distinct := by decide
  live := by decide +kernel
  hashed := by decide
  pinned := by
    intro entry member
    cases List.mem_singleton.mp member
    rw [← Option.isSome_iff_exists]
    cases backend <;> decide +kernel
  untouched := rfl
  view := by
    intro path
    by_cases same : path = "a".toList
    · subst same
      cases backend <;> decide +kernel
    · have absent : fileTree.entries.find? (·.path = path) = none := by
        rw [List.find?_eq_none]
        intro entry member
        cases List.mem_singleton.mp member
        simpa using Ne.symm same
      rw [absent]
      exact if_neg same

/-- The session stages a change while a member changes the same file, and
deletes it again. -/
def stagingRun : List IsolationAct :=
  [.sessionWrite "a".toList "y".toList none,
    .memberWrite "a".toList "z".toList "text/plain".toList,
    .sessionDelete "a".toList false]

theorem sessions_isolated_staging :
    ∃ after, runFrom (isolationStep plainServices "s".toList)
        (isolationStart .sqlite) stagingRun = some after ∧
      Isolated plainServices "s".toList after := by
  refine ⟨_, rfl, ?_⟩
  refine @sessions_isolated plainServices _ fileTree freshSession _
    stagingRun _ (isolationStart_starts .sqlite) ?_ rfl
  refine ⟨⟨rfl, by decide⟩, ?_⟩
  intro first wrote
  cases wrote
  refine ⟨by simp only [IsolationCondition]; decide +kernel, ?_⟩
  intro second changed
  cases changed
  refine ⟨fun named => absurd named (by decide), ?_⟩
  intro third removed
  trivial

/-- On DSQL staged content has no version, so that the session does not see
what it wrote. -/
theorem sessions_not_isolated :
    ¬ ∀ (services : SessionServices) (id : Text) (snapshot : VcsSnapshot)
        (session : ChatSessionRecord) (state after : IsolationState)
        (acts : List IsolationAct),
      IsolationStarts id snapshot session state →
        runFrom (isolationStep services id) state acts = some after →
          Isolated services id after := by
  intro law
  have isolated := law plainServices "s".toList fileTree freshSession (isolationStart .dsql) _
    [.sessionWrite "a".toList "y".toList none]
    (isolationStart_starts .dsql) rfl
  obtain ⟨file, read, content⟩ := isolated.reads "a".toList
  have nothing : file = none := by
    have answer : Except.ok (none : Option FsRow) =
        (Except.ok file : Except SessionFailure (Option FsRow)) := read
    cases answer
    rfl
  rw [nothing] at content
  cases content

end Aprovan.Vcs
