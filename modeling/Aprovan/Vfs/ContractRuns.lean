import Aprovan.Library.Runs
import Aprovan.Vfs.ContractFiles

/-!
# Calls of files, live and by the contract

An encoding and an entity tag that the dispatch drops, a directory that it does
not list, and a page that it cuts in another order part it from the contract's
implementation in memory.
-/

namespace Aprovan.Vfs

open Aprovan.Library Aprovan.Fs Aprovan.Apps

/-- The two read the same path from an argument, or both refuse it. -/
def readsSamePath (package : VfsPackage) (raw label : Text) : Bool :=
  (package.vfsRelativePath raw label).toOption = normalizeFsPath raw

/-- The clock is not behind the versions of a path, where it orders them. -/
def clockAhead (store : Store) (path : Text) (now : Nat) : Bool :=
  store.backend = .dsql || store.rows.all fun row => row.path ≠ path || row.updatedAt ≤ now

/-- The stored paths under a prefix, with those that the member is not
shown. -/
def storedUnder (store : Store) (pathPrefix : Text) : List Text :=
  store.paths.dedup.filter (inListing pathPrefix)

def onePage (collate : Text → Text → Bool) (stored names : List Text)
    (defaultLimit : Nat) (limit : Option Rat) (cursor : Text) : Bool :=
  cursor = [] && (limit.all fun limit => (stored.length : Rat) ≤ limit && stored.length ≤ 10000) &&
    (names.length : Rat) ≤ limit.getD defaultLimit &&
    names.all fun first => names.all fun second =>
      !collate first second || !collate second first || first = second

/-- The locale sorts the paths by their letters, a limit is given, all that
is stored is shown, and the cursor is a path that is listed or in front of
them. -/
def sameOrder (collate : Text → Text → Bool) (userId : Text)
    (stored names : List Text) (limit : Option Rat) (cursor : Text) : Bool :=
  let sorted := sortPaths collate names
  sorted = names.insertionSort (· ≤ ·) && (limit.any fun limit => limit.floor ≤ 10000) &&
    stored.all (listedTo userId) &&
    (sorted.filter fun path => cursor = [] || cursor < path) =
      sorted.drop (startAfter sorted (some cursor))

def listedAlike (defaults : Bool) (package : VfsPackage) (collate : Text → Text → Bool)
    (userId : Text) (store : Store) (files : MemoryFiles) (pathPrefix : Text) (recursive : Bool)
    (limit : Option Rat) (cursor : Text) : Bool :=
  let stored := storedUnder store pathPrefix
  let names := filesUnder files pathPrefix
  (store.paths.all fun path =>
      (pathPrefix = [] || Store.selects store.backend pathPrefix path) =
        inListing pathPrefix path) &&
    limit.all (1 ≤ ·) &&
    (names = [] || (defaults && names.all fun path =>
      (collapsed pathPrefix recursive path).isNone)) &&
    (onePage collate stored names package.defaultListLimit limit cursor ||
      sameOrder collate userId stored names limit cursor)

/-- The two read the same path; a file that is read has the encoding that a
caller takes for a missing one, an `ifMatch` is met, a deleted file exists,
the path of a `stat` is no directory, and a listing is the same. -/
def servedAlike (defaults : Bool) (package : VfsPackage) (collate : Text → Text → Bool)
    (userId : Text) (store : Store) (files : MemoryFiles) (call : VfsRequest) : Bool :=
  match call.operation with
  | .read raw =>
    readsSamePath package raw pathLabel && (normalizeFsPath raw).all fun path =>
        (files.find? path).all fun file => defaults && file.encoding = .utf8
  | .write raw content encoding ifMatch =>
    (package.validateWriteArgs raw content encoding ifMatch).isOk &&
      readsSamePath package raw pathLabel &&
      (normalizeFsPath raw).all fun path =>
        (ifMatchRefusal files path ifMatch).isNone && clockAhead store path call.now
  | .delete raw =>
    readsSamePath package raw pathLabel &&
      (normalizeFsPath raw).all fun path => (files.find? path).isSome
  | .list pathPrefix recursive limit cursor =>
    let raw := pathPrefix.getD []
    (package.validateListArgs pathPrefix recursive limit cursor).isOk &&
      (raw = [] || readsSamePath package raw prefixLabel) &&
      (listPrefix raw).all fun under =>
        listedAlike defaults package collate userId store files under
          recursive limit (cursor.getD [])
  | .stat raw =>
    readsSamePath package raw pathLabel && (normalizeFsPath raw).all fun path =>
        (files.find? path).isSome || !isDirectory files path

/-- What the member is shown of the store are the files of the backend in
memory. -/
structure SameFiles (userId : Text) (store : Store) (files : MemoryFiles) : Prop where
  contents : ∀ path, listedTo userId path = true → (store.latest path).map FsRow.content =
      (files.find? path).map MemoryFile.content
  shown : ∀ file ∈ files.rows, listedTo userId file.path = true ∧ file.path ≠ []

section

variable {services : VfsServices} {package : VfsPackage} {userId : Text}
  {base : ListingState} {store : Store} {files : MemoryFiles}
  {defaults : Bool} {now : Nat} {raw path : Text}

def AnsweredAlike (defaults : Bool) (userId : Text) (live : Option VfsSeen × Store)
    (contract : Option VfsSeen × MemoryFiles) : Prop :=
  SameSeen defaults live.1 contract.1 ∧ SameFiles userId live.2 contract.2

theorem answeredAlike_refused {call : VfsRequest} (same : SameFiles userId store files)
    (live : liveAnswer services userId base store call = (none, store))
    (contract : contractAnswer package services.collate files call = (none, files)) :
    AnsweredAlike defaults userId (liveAnswer services userId base store call)
      (contractAnswer package services.collate files call) := by
  rw [live, contract]
  exact ⟨Or.inl rfl, same⟩

theorem isOpenPath_of_onOpenPath {call : VfsRequest} (opened : onOpenPath userId base call = true)
    (normal : normalizeFsPath call.operation.named = some path) :
    isOpenPath userId base path = true := by
  simpa [onOpenPath, normal] using opened

theorem path_cases {label : Text} (same : readsSamePath package raw label = true) :
    (∃ path, package.vfsRelativePath raw label = .ok path ∧ normalizeFsPath raw = some path) ∨
    (∃ thrown, package.vfsRelativePath raw label = .error thrown ∧
      normalizeFsPath raw = none) := by
  rw [readsSamePath, decide_eq_true_eq] at same
  cases resolved : package.vfsRelativePath raw label with
  | error thrown =>
    rw [resolved] at same
    exact Or.inr ⟨thrown, rfl, same.symm⟩
  | ok path =>
    rw [resolved] at same
    exact Or.inl ⟨path, rfl, same.symm⟩

theorem content_latest_write {sha256 : Text → Text}
    (ahead : clockAhead store path now = true) (content mimeType : Text) :
    ((store.write sha256 now path content mimeType none).latest path).map FsRow.content =
      some content := by
  rw [clockAhead, Bool.or_eq_true, decide_eq_true_eq] at ahead
  rcases ahead with dsql | older
  · unfold Store.latest
    simp only [Store.write, Store.keep, dsql, List.filter_append,
      List.filter_singleton, decide_true, cond_true, List.foldl_append,
      List.foldl_cons, List.foldl_nil]
    generalize ((List.filter _ _).foldl _ _) = best
    cases best with
    | none => rfl
    | some current => rfl
  · rw [Store.latest_write_self]
    · rfl
    · intro row member own
      rw [List.all_eq_true] at older
      simpa [own] using older row member

section

variable (same : SameFiles userId store files)

include same

theorem SameFiles.write {file : MemoryFile} {sha256 : Text → Text}
    {mimeType : Text} (shown : listedTo userId file.path = true)
    (named : file.path ≠ []) (ahead : clockAhead store file.path now = true) :
    SameFiles userId (store.write sha256 now file.path file.content mimeType none)
      (files.put file) where
  contents := by
    intro path listed
    rw [Keyed.find?_put]
    by_cases own : file.path = path
    · rw [if_pos own, ← own, content_latest_write ahead]
      rfl
    · rw [if_neg own, (Store.SameAt.write_of_ne store (Ne.symm own)).latest]
      exact same.contents path listed
  shown := by
    intro other member
    rcases mem_putUnder.mp member with isNew | kept
    · rw [isNew]
      exact ⟨shown, named⟩
    · exact same.shown other kept.1

theorem SameFiles.remove (path : Text) :
    SameFiles userId (store.remove path).2 (files.erase path) where
  contents := by
    intro other listed
    rw [Keyed.find?_erase]
    by_cases own : path = other
    · rw [if_pos own, ← own, Store.latest_remove_self]
      rfl
    · rw [if_neg own, (Store.SameAt.remove_of_ne store (Ne.symm own)).latest]
      exact same.contents other listed
  shown := by
    intro file member
    exact same.shown file (List.mem_filter.mp member).1

theorem SameFiles.isSome_iff (listed : listedTo userId path = true) :
    (files.find? path).isSome = true ↔ path ∈ store.paths := by
  have both := congrArg Option.isSome (same.contents path listed)
  rw [Option.isSome_map, Option.isSome_map] at both
  rw [← both, ← Store.latest_isSome_iff, Option.isSome_iff_exists]

end

section

variable (unmounted : Unmounted base) (same : SameFiles userId store files)

include unmounted same

theorem answeredAlike_read (opened : onOpenPath userId base ⟨now, .read raw⟩ = true)
    (alike : servedAlike defaults package services.collate userId store files
      ⟨now, .read raw⟩ = true) :
    AnsweredAlike defaults userId (liveAnswer services userId base store ⟨now, .read raw⟩)
      (contractAnswer package services.collate files ⟨now, .read raw⟩) := by
  rw [servedAlike, Bool.and_eq_true] at alike
  obtain ⟨samePath, encoded⟩ := alike
  rcases path_cases samePath with
    ⟨path, resolved, normal⟩ | ⟨thrown, resolved, refused⟩
  · have isOpen := isOpenPath_of_onOpenPath opened normal
    have contents := same.contents path (Bool.and_eq_true_iff.mp isOpen).1
    rw [liveAnswer_read unmounted normal isOpen]
    cases found : files.find? path with
    | none =>
      rw [found, Option.map_none, Option.map_eq_none_iff] at contents
      have contract : contractAnswer package services.collate files
          ⟨now, .read raw⟩ = (none, files) := by
        simp [contractAnswer, createNativeVfs, resolved, memoryVfsBackend, found, Except.toOption]
      rw [contract, contents]
      exact ⟨Or.inl rfl, same⟩
    | some file =>
      rw [found, Option.map_some, Option.map_eq_some_iff] at contents
      obtain ⟨row, stored, content⟩ := contents
      obtain ⟨filled, isUtf8⟩ : defaults = true ∧ file.encoding = .utf8 := by
        simpa [normal, found] using encoded
      have contract : contractAnswer package services.collate files ⟨now, .read raw⟩ =
            (some (.read path file.content (some .utf8)), files) := by
        simp [contractAnswer, createNativeVfs, resolved, memoryVfsBackend,
          found, isUtf8, Except.toOption, VfsResult.seen]
      rw [contract, stored]
      refine ⟨Or.inr ⟨filled, ?_⟩, same⟩
      simp [VfsSeen.withDefaults, content]
  · refine answeredAlike_refused same (liveAnswer_refused refused (Or.inl rfl)) ?_
    simp [contractAnswer, createNativeVfs, resolved, Except.toOption]

theorem answeredAlike_write {content : Text} {encoding : Option VfsEncoding}
    {ifMatch : Option Text} (opened : onOpenPath userId base
      ⟨now, .write raw content encoding ifMatch⟩ = true)
    (alike : servedAlike defaults package services.collate userId store files
      ⟨now, .write raw content encoding ifMatch⟩ = true) :
    AnsweredAlike defaults userId (liveAnswer services userId base store
        ⟨now, .write raw content encoding ifMatch⟩)
      (contractAnswer package services.collate files
        ⟨now, .write raw content encoding ifMatch⟩) := by
  rw [servedAlike, Bool.and_eq_true, Bool.and_eq_true] at alike
  obtain ⟨⟨admitted, samePath⟩, writable⟩ := alike
  cases validated : package.validateWriteArgs raw content encoding ifMatch with
  | error thrown =>
    rw [validated] at admitted
    cases admitted
  | ok admission =>
    rcases path_cases samePath with
      ⟨path, resolved, normal⟩ | ⟨thrown, resolved, refused⟩
    · have isOpen := isOpenPath_of_onOpenPath opened normal
      obtain ⟨met, ahead⟩ : ifMatchRefusal files path ifMatch = none ∧
          clockAhead store path now = true := by
        simpa [normal] using writable
      have named : path ≠ [] := (normalizeFsPath_eq_some_iff.mp normal).2.1
      let file := newFile now path content (encoding.getD .utf8)
      have contract : contractAnswer package services.collate files
          ⟨now, .write raw content encoding ifMatch⟩ = (some (.written path), files.put file) := by
        simp [contractAnswer, createNativeVfs, validated, resolved,
          memoryVfsBackend, met, Except.toOption, VfsResult.seen,
          MemoryFile.stat, newFile, file]
      have stored : SameFiles userId (store.write services.sha256 now
          file.path file.content "text/plain".toList none)
          (files.put file) :=
        same.write (Bool.and_eq_true_iff.mp isOpen).1 named ahead
      rw [contract, liveAnswer_write unmounted normal isOpen]
      exact ⟨Or.inl rfl, stored⟩
    · refine answeredAlike_refused same (liveAnswer_refused refused
        (Or.inr (Or.inr (Or.inr ⟨content, encoding, ifMatch, rfl⟩)))) ?_
      simp [contractAnswer, createNativeVfs, validated, resolved, Except.toOption]

theorem answeredAlike_delete (opened : onOpenPath userId base ⟨now, .delete raw⟩ = true)
    (alike : servedAlike defaults package services.collate userId store files
      ⟨now, .delete raw⟩ = true) :
    AnsweredAlike defaults userId (liveAnswer services userId base store ⟨now, .delete raw⟩)
      (contractAnswer package services.collate files ⟨now, .delete raw⟩) := by
  rw [servedAlike, Bool.and_eq_true] at alike
  obtain ⟨samePath, existing⟩ := alike
  rcases path_cases samePath with
    ⟨path, resolved, normal⟩ | ⟨thrown, resolved, refused⟩
  · have isOpen := isOpenPath_of_onOpenPath opened normal
    have present : (files.find? path).isSome = true := by simpa [normal] using existing
    have stored : path ∈ store.paths :=
      (same.isSome_iff (Bool.and_eq_true_iff.mp isOpen).1).mp present
    have contract : contractAnswer package services.collate files ⟨now, .delete raw⟩ =
          (some (.deleted path true), files.erase path) := by
      simp [contractAnswer, createNativeVfs, resolved, memoryVfsBackend,
        present, Except.toOption, VfsResult.seen]
    rw [contract, liveAnswer_delete unmounted normal isOpen stored]
    exact ⟨Or.inl rfl, same.remove path⟩
  · refine answeredAlike_refused same (liveAnswer_refused refused (Or.inr (Or.inl rfl))) ?_
    simp [contractAnswer, createNativeVfs, resolved, Except.toOption]

end

theorem answeredAlike_stat (same : SameFiles userId store files)
    (opened : onOpenPath userId base ⟨now, .stat raw⟩ = true)
    (alike : servedAlike defaults package services.collate userId store files
      ⟨now, .stat raw⟩ = true) :
    AnsweredAlike defaults userId (liveAnswer services userId base store ⟨now, .stat raw⟩)
      (contractAnswer package services.collate files ⟨now, .stat raw⟩) := by
  rw [servedAlike, Bool.and_eq_true] at alike
  obtain ⟨samePath, noDirectory⟩ := alike
  rcases path_cases samePath with
    ⟨path, resolved, normal⟩ | ⟨thrown, resolved, refused⟩
  · have isOpen := isOpenPath_of_onOpenPath opened normal
    have contents := same.contents path (Bool.and_eq_true_iff.mp isOpen).1
    rw [liveAnswer_stat normal isOpen]
    cases found : files.find? path with
    | none =>
      rw [found, Option.map_none, Option.map_eq_none_iff] at contents
      have nothing : isDirectory files path = false := by simpa [normal, found] using noDirectory
      have contract : contractAnswer package services.collate files
          ⟨now, .stat raw⟩ = (none, files) := by
        simp [contractAnswer, createNativeVfs, resolved, memoryVfsBackend,
          found, nothing, Except.toOption]
      rw [contract, contents]
      exact ⟨Or.inl rfl, same⟩
    | some file =>
      rw [found, Option.map_some, Option.map_eq_some_iff] at contents
      obtain ⟨row, stored, _⟩ := contents
      have own := (Keyed.find?_eq_some_iff.mp found).2
      have contract : contractAnswer package services.collate files
          ⟨now, .stat raw⟩ = (some (.stat path .file), files) := by
        simp [contractAnswer, createNativeVfs, resolved, memoryVfsBackend,
          found, Except.toOption, VfsResult.seen, MemoryFile.stat, own]
      rw [contract, stored]
      exact ⟨Or.inl rfl, same⟩
  · refine answeredAlike_refused same
      (liveAnswer_refused refused (Or.inr (Or.inr (Or.inl rfl)))) ?_
    simp [contractAnswer, createNativeVfs, resolved, Except.toOption]

end

section

variable {services : VfsServices} {package : VfsPackage} {userId : Text}
  {base : ListingState} {store : Store} {files : MemoryFiles}
  {defaults : Bool} {now : Nat} {under cursor path : Text}

theorem mem_filesUnder_iff (same : SameFiles userId store files) :
    path ∈ filesUnder files under ↔
      path ∈ storedUnder store under ∧ listedTo userId path = true := by
  rw [filesUnder, storedUnder, List.mem_filter, List.mem_filter, mem_sortTexts, List.mem_dedup]
  have found : path ∈ files.rows.map MemoryFile.path ↔ (files.find? path).isSome = true := by
    rw [List.mem_map, Option.isSome_iff_exists]
    constructor
    · intro member
      obtain ⟨file, present, own⟩ := member
      exact ⟨file, Keyed.find?_eq_some_iff.mpr ⟨present, own⟩⟩
    · intro known
      obtain ⟨file, located⟩ := known
      exact ⟨file, Keyed.find?_eq_some_iff.mp located⟩
  constructor
  · intro held
    obtain ⟨file, present, own⟩ := List.mem_map.mp held.1
    have listed := (same.shown file present).1
    rw [own] at listed
    exact ⟨⟨(same.isSome_iff listed).mp (found.mp held.1), held.2⟩, listed⟩
  · intro held
    exact ⟨found.mpr ((same.isSome_iff held.2).mpr held.1.1), held.1.2⟩

theorem nodup_filesUnder (files : MemoryFiles) (under : Text) : (filesUnder files under).Nodup :=
  ((List.perm_insertionSort _ _).nodup_iff.mpr files.keys).filter _

theorem ne_nil_of_mem_filesUnder (same : SameFiles userId store files)
    (member : path ∈ filesUnder files under) :
    path ≠ [] := by
  rw [filesUnder, List.mem_filter, mem_sortTexts] at member
  obtain ⟨file, present, own⟩ := List.mem_map.mp member.1
  rw [← own]
  exact (same.shown file present).2

/-- A cursor that is not empty is passed on. -/
theorem getLast?_filter_named {paths : List Text} (named : ∀ path ∈ paths, path ≠ []) :
    paths.getLast?.filter (· ≠ []) = paths.getLast? := by
  apply Option.ext
  intro last
  rw [Option.filter_eq_some_iff, decide_eq_true_eq]
  constructor
  · exact And.left
  · intro isLast
    exact ⟨isLast, named last (List.mem_of_getLast? isLast)⟩

theorem mem_selectedPaths_iff (exactly : ∀ path ∈ store.paths,
      (under = [] || Store.selects store.backend under path) = inListing under path) :
    path ∈ (store.selected under cursor).map FsEntry.path ↔
      path ∈ storedUnder store under ∧ (cursor = [] ∨ cursor < path) := by
  rw [List.mem_map, storedUnder, List.mem_filter, List.mem_dedup]
  constructor
  · intro listed
    obtain ⟨entry, member, own⟩ := listed
    obtain ⟨⟨row, found, _⟩, selected, behind⟩ :=
      Store.mem_selected_iff.mp member
    rw [own] at found selected behind
    have present := Store.latest_isSome_iff.mp ⟨row, found⟩
    refine ⟨⟨present, ?_⟩, behind⟩
    rw [← exactly path present]
    simpa using selected
  · intro held
    obtain ⟨⟨present, below⟩, behind⟩ := held
    obtain ⟨row, found⟩ := Store.latest_isSome_iff.mpr present
    have own : row.entry.path = path := (Store.mem_of_latest found).2
    rw [← exactly path present] at below
    refine ⟨row.entry, Store.mem_selected_iff.mpr ?_, own⟩
    rw [own]
    exact ⟨⟨row, found, rfl⟩, by simpa using below, behind⟩

theorem selectedPaths_sorted (store : Store) (under cursor : Text) :
    ((store.selected under cursor).map FsEntry.path).Pairwise (· < ·) := by
  rw [List.pairwise_map]
  exact store.selected_sorted under cursor

theorem nodup_selectedPaths (store : Store) (under cursor : Text) :
    ((store.selected under cursor).map FsEntry.path).Nodup :=
  (selectedPaths_sorted store under cursor).imp fun less => ne_of_lt less

theorem length_selected (exactly : ∀ path ∈ store.paths,
      (under = [] || Store.selects store.backend under path) = inListing under path) :
    (store.selected under []).length = (storedUnder store under).length := by
  rw [← List.length_map FsEntry.path]
  refine List.Perm.length_eq ((List.perm_ext_iff_of_nodup (nodup_selectedPaths store under [])
    ((List.nodup_dedup store.paths).filter _)).mpr ?_)
  intro path
  rw [mem_selectedPaths_iff exactly]
  simp [storedUnder]

theorem list_limited {limit : Rat} (positive : 1 ≤ limit) :
    store.list under (some (min limit.floor 10000)) cursor =
      let rows := store.selected under cursor
      let kept := (min limit.floor 10000).toNat
      if kept < rows.length then
        some {
          entries := rows.take kept
          cursor := (rows.take kept).getLast?.map FsEntry.path }
      else
        some { entries := rows, cursor := none } := by
  have one : 1 ≤ limit.floor := Rat.le_floor_iff.mpr (by exact_mod_cast positive)
  have whole : ((min limit.floor 10000).toNat : Int) = min limit.floor 10000 := by omega
  have page := @Store.list_positive store under cursor (min limit.floor 10000).toNat (by omega)
  rw [whole] at page
  exact page

theorem listEntries_seen {recursive : Bool} (noDirectory : ∀ path ∈ filesUnder files under,
      collapsed under recursive path = none) :
    (listEntries services.collate files under recursive).map
        (fun entry => (entry.path, some entry.kind)) =
      (sortPaths services.collate (filesUnder files under)).map (·, some VfsKind.file) := by
  have allFiles : (filesUnder files under).filter
      (fun path => (collapsed under recursive path).isNone) = filesUnder files under := by
    rw [List.filter_eq_self]
    intro path member
    rw [noDirectory path member]
    rfl
  have noDirs : (filesUnder files under).filterMap (collapsed under recursive) = [] := by
    rw [List.filterMap_eq_nil_iff]
    exact noDirectory
  have seen : ((filesUnder files under).filterMap fun path =>
      (files.find? path).map MemoryFile.stat).map (fun entry => (entry.path, some entry.kind)) =
      (filesUnder files under).map (·, some VfsKind.file) := by
    rw [List.map_filterMap, ← List.filterMap_eq_map]
    apply List.filterMap_congr
    intro path member
    have listed := (List.mem_filter.mp member).1
    rw [mem_sortTexts] at listed
    obtain ⟨file, present, own⟩ := List.mem_map.mp listed
    rw [Keyed.find?_eq_some_iff.mpr ⟨present, own⟩]
    simp [MemoryFile.stat, own]
  have sorted : ∀ entries : List VfsStat, (sortStats services.collate entries).map
          (fun entry => (entry.path, some entry.kind)) =
        (entries.map fun entry =>
          (entry.path, some entry.kind)).insertionSort
            fun first second => services.collate first.1 second.1 = true := by
    intro entries
    exact List.map_insertionSort _ _ _ _ fun _ _ _ _ => Iff.rfl
  have noTexts : sortTexts [] = [] := rfl
  rw [listEntries]
  simp only [allFiles, noDirs, List.dedup_nil, noTexts, List.map_nil, List.append_nil]
  rw [sorted, seen]
  symm
  exact List.map_insertionSort _ _ _ _ fun _ _ _ _ => Iff.rfl

theorem contractAnswer_list {pathPrefix cursor : Option Text} {recursive : Bool}
    {limit : Option Rat} {sorted : List Text} {start : Nat}
    (validated : package.validateListArgs pathPrefix recursive limit cursor = .ok ())
    (resolved : (if pathPrefix.getD [] = [] then .ok [] else
      package.vfsRelativePath (pathPrefix.getD []) prefixLabel) = .ok under)
    (noDirectory : ∀ path ∈ filesUnder files under, collapsed under recursive path = none)
    (isSorted : sortPaths services.collate (filesUnder files under) = sorted)
    (isStart : startAfter sorted cursor = start) :
    contractAnswer package services.collate files ⟨now, .list pathPrefix recursive limit cursor⟩ =
      (some (.listed ((slice sorted start (start + limit.getD package.defaultListLimit)).map
          (·, some .file))
        (if start + limit.getD package.defaultListLimit < sorted.length then
          (slice sorted start (start + limit.getD package.defaultListLimit)).getLast?.filter
              (· ≠ [])
        else
          none)), files) := by
  have seen := @listEntries_seen services files under recursive noDirectory
  rw [isSorted] at seen
  have paths : (listEntries services.collate files under recursive).map VfsStat.path = sorted := by
    have projected := congrArg (List.map Prod.fst) seen
    simpa [Function.comp_def] using projected
  have count : (listEntries services.collate files under recursive).length = sorted.length := by
    rw [← paths, List.length_map]
  unfold contractAnswer createNativeVfs
  simp only [validated, resolved, memoryVfsBackend, paths, isStart, count,
    Except.toOption, Option.map_some, VfsResult.seen, ← slice_map, seen,
    ← List.getLast?_map]

section

variable {collate : Text → Text → Bool} (order : LocaleOrder collate)

include order

theorem sortPaths_sorted (paths : List Text) :
    (sortPaths collate paths).Pairwise fun first second => collate first second = true := by
  have total : Std.Total fun first second : Text => collate first second = true := ⟨order.total⟩
  have transitive : IsTrans Text fun first second : Text =>
      collate first second = true := ⟨order.trans⟩
  exact List.pairwise_insertionSort _ paths

theorem sortPaths_of_sublist (paths : List Text) {part : List Text}
    (within : part.Sublist (sortPaths collate paths)) :
    sortPaths collate part = part :=
  ((sortPaths_sorted order paths).sublist within).insertionSort_eq

theorem sortPaths_shown (same : SameFiles userId store files) (exactly : ∀ path ∈ store.paths,
      (under = [] || Store.selects store.backend under path) =
        inListing under path) (apart : ∀ first ∈ filesUnder files under,
      ∀ second ∈ filesUnder files under, collate first second = true →
        collate second first = true → first = second) (next : Option Text) :
    sortPaths collate (shownPaths userId ⟨store.selected under [], next⟩) =
      sortPaths collate (filesUnder files under) := by
  have total : Std.Total fun first second : Text => collate first second = true := ⟨order.total⟩
  have transitive : IsTrans Text fun first second : Text =>
      collate first second = true := ⟨order.trans⟩
  have members : ∀ path, path ∈ sortPaths collate (filesUnder files under) ↔
      path ∈ filesUnder files under := by
    intro path
    exact List.mem_insertionSort _
  refine insertionSort_eq_of_mem_iff ((nodup_selectedPaths store under []).filter _)
    ((List.perm_insertionSort _ _).nodup_iff.mpr (nodup_filesUnder files under))
    (sortPaths_sorted order _) ?_ ?_
  · intro first firstMember second secondMember
    exact apart first ((members first).mp firstMember) second ((members second).mp secondMember)
  · intro path
    rw [members, mem_filesUnder_iff same, shownPaths, List.mem_filter,
      mem_selectedPaths_iff exactly]
    simp

end

theorem list_onePage {limit : Option Rat} (exactly : ∀ path ∈ store.paths,
      (under = [] || Store.selects store.backend under path) = inListing under path)
    (positive : ∀ given ∈ limit, 1 ≤ given)
    (enough : ∀ given ∈ limit, ((storedUnder store under).length : Rat) ≤ given ∧
        (storedUnder store under).length ≤ 10000) :
    store.list under (limit.map fun limit => min limit.floor 10000) [] =
      some ⟨store.selected under [], none⟩ := by
  cases limit with
  | none => exact store.list_unlimited under
  | some given =>
    obtain ⟨fits, bounded⟩ := enough given rfl
    have reached : ((storedUnder store under).length : Int) ≤ given.floor :=
      Rat.le_floor_iff.mpr (by exact_mod_cast fits)
    have count := length_selected exactly
    rw [Option.map_some, list_limited (positive given rfl)]
    simp only
    rw [if_neg (by omega)]

theorem selectedPaths_eq_drop {sorted : List Text} {start : Nat}
    (same : SameFiles userId store files)
    (exactly : ∀ path ∈ store.paths, (under = [] || Store.selects store.backend under path) =
        inListing under path)
    (byLetters : sorted = (filesUnder files under).insertionSort (· ≤ ·))
    (allShown : ∀ path ∈ storedUnder store under, listedTo userId path = true)
    (behind : (sorted.filter fun path => cursor = [] || cursor < path) = sorted.drop start) :
    (store.selected under cursor).map FsEntry.path = sorted.drop start := by
  have inOrder : sorted.Pairwise (· ≤ ·) := by
    rw [byLetters]
    exact List.pairwise_insertionSort _ _
  have distinct : sorted.Nodup := by
    rw [byLetters]
    exact (List.perm_insertionSort _ _).nodup_iff.mpr (nodup_filesUnder files under)
  have members : ∀ path, path ∈ sorted ↔ path ∈ filesUnder files under := by
    intro path
    rw [byLetters]
    exact List.mem_insertionSort _
  have selected := (selectedPaths_sorted store under cursor).imp
    fun {first second} (less : first < second) => le_of_lt less
  rw [← behind, ← selected.insertionSort_eq]
  refine insertionSort_eq_of_mem_iff (nodup_selectedPaths store under cursor) (distinct.filter _)
    (inOrder.filter _) ?_ ?_
  · intro first _ second _ forth back
    exact le_antisymm forth back
  · intro path
    rw [mem_selectedPaths_iff exactly, List.mem_filter, members, mem_filesUnder_iff same]
    constructor
    · intro held
      exact ⟨⟨held.1, allShown path held.1⟩, by simpa using held.2⟩
    · intro held
      exact ⟨held.1.1, by simpa using held.2⟩

theorem list_page {limit : Rat} (positive : 1 ≤ limit) (bounded : limit.floor ≤ 10000)
    {rest : List Text} (left : (store.selected under cursor).map FsEntry.path = rest) :
    ∃ page, store.list under (some (min limit.floor 10000)) cursor = some page ∧
      page.entries.map FsEntry.path = rest.take limit.floor.toNat ∧
      page.cursor =
        if limit.floor.toNat < rest.length then (rest.take limit.floor.toNat).getLast?
        else
          none := by
  have kept : (min limit.floor 10000).toNat = limit.floor.toNat := by rw [min_eq_left bounded]
  have count : (store.selected under cursor).length = rest.length := by rw [← left, List.length_map]
  rw [list_limited positive]
  simp only [kept, count]
  by_cases more : limit.floor.toNat < rest.length
  · rw [if_pos more, if_pos more]
    refine ⟨_, rfl, ?_, ?_⟩
    · rw [List.map_take, left]
    · rw [← List.getLast?_map, List.map_take, left]
  · rw [if_neg more, if_neg more]
    refine ⟨_, rfl, ?_, rfl⟩
    rw [List.take_of_length_le (by omega)]
    exact left

end

section

variable {services : VfsServices} {package : VfsPackage} {userId : Text}
  {base : ListingState} {store : Store} {files : MemoryFiles}
  {defaults : Bool} {now : Nat} {under : Text}
  {pathPrefix cursor : Option Text} {recursive : Bool} {limit : Option Rat}

theorem sameSeen_listed {names paths : List Text} (shape : names = [] ∨ defaults = true)
    (part : ∀ path ∈ paths, path ∈ names) (next : Option Text) :
    SameSeen defaults (some (.listed (paths.map (·, none)) next))
      (some (.listed (paths.map (·, some .file)) next)) := by
  rcases shape with nothing | filled
  · have noPaths : paths = [] := by
      rw [List.eq_nil_iff_forall_not_mem]
      intro path member
      have absent := part path member
      rw [nothing] at absent
      cases absent
    rw [noPaths]
    exact Or.inl rfl
  · right
    refine ⟨filled, ?_⟩
    simp [VfsSeen.withDefaults, Function.comp_def]

theorem mem_sortPaths {collate : Text → Text → Bool} {paths : List Text} {path : Text} :
    path ∈ sortPaths collate paths ↔ path ∈ paths :=
  List.mem_insertionSort _

/-- What `listedAlike` says, apart from the pages. -/
structure ListsFiles (defaults : Bool) (store : Store) (files : MemoryFiles)
    (under : Text) (recursive : Bool) (limit : Option Rat) : Prop where
  exactly : ∀ path ∈ store.paths, (under = [] || Store.selects store.backend under path) =
      inListing under path
  positive : ∀ given ∈ limit, 1 ≤ given
  shape : filesUnder files under = [] ∨ defaults = true
  noDirectory : ∀ path ∈ filesUnder files under, collapsed under recursive path = none

theorem listsFiles_of_alike {text : Text}
    (alike : listedAlike defaults package services.collate userId store files
      under recursive limit text = true) :
    ListsFiles defaults store files under recursive limit ∧
      (onePage services.collate (storedUnder store under)
          (filesUnder files under) package.defaultListLimit limit text =
        true ∨
      sameOrder services.collate userId (storedUnder store under)
          (filesUnder files under) limit text = true) := by
  simp only [listedAlike, Bool.and_eq_true, Bool.or_eq_true,
    List.all_eq_true, decide_eq_true_eq, Option.isNone_iff_eq_none] at alike
  obtain ⟨⟨⟨exactly, positive⟩, shape⟩, pages⟩ := alike
  refine ⟨⟨exactly, ?_, shape.imp_right And.left, ?_⟩, pages⟩
  · intro given isGiven
    rw [isGiven] at positive
    exact of_decide_eq_true positive
  · intro path member
    rcases shape with nothing | both
    · rw [nothing] at member
      cases member
    · exact both.2 path member

section

variable (order : LocaleOrder services.collate) (unmounted : Unmounted base)
  (same : SameFiles userId store files)
  (validated : package.validateListArgs pathPrefix recursive limit cursor = .ok ())
  (resolved : (if pathPrefix.getD [] = [] then .ok [] else
    package.vfsRelativePath (pathPrefix.getD []) prefixLabel) = .ok under)
  (normal : listPrefix (pathPrefix.getD []) = some under)
  (notService : under = [] ∨ isServicePath under = false)
  (lists : ListsFiles defaults store files under recursive limit)

include order unmounted same validated resolved normal notService lists

theorem answeredAlike_onePage (fits : onePage services.collate (storedUnder store under)
      (filesUnder files under) package.defaultListLimit limit (cursor.getD []) = true) :
    AnsweredAlike defaults userId (liveAnswer services userId base store
        ⟨now, .list pathPrefix recursive limit cursor⟩)
      (contractAnswer package services.collate files
        ⟨now, .list pathPrefix recursive limit cursor⟩) := by
  simp only [onePage, Bool.and_eq_true, decide_eq_true_eq,
    List.all_eq_true, Option.all_eq_true] at fits
  obtain ⟨⟨⟨noCursor, enough⟩, reached⟩, told⟩ := fits
  have apart : ∀ first ∈ filesUnder files under, ∀ second ∈ filesUnder files under,
        services.collate first second = true →
          services.collate second first = true → first = second := by
    intro first firstMember second secondMember forth back
    simpa [forth, back] using told first firstMember second secondMember
  have page := list_onePage lists.exactly lists.positive enough
  rw [← noCursor] at page
  have start : startAfter (sortPaths services.collate (filesUnder files under)) cursor = 0 := by
    rw [← startAfter_getD, noCursor]
    rfl
  have count : (sortPaths services.collate (filesUnder files under)).length =
      (filesUnder files under).length :=
    List.length_insertionSort _ _
  rw [← count] at reached
  rw [liveAnswer_list unmounted normal notService (Or.inl noCursor) page,
    contractAnswer_list validated resolved lists.noDirectory rfl start,
    noCursor, sortPaths_shown order same lists.exactly apart,
    slice_all reached, if_neg (none_left_behind reached)]
  refine ⟨sameSeen_listed lists.shape ?_ none, same⟩
  intro path member
  exact mem_sortPaths.mp member

theorem answeredAlike_sameOrder
    (ordered : sameOrder services.collate userId (storedUnder store under)
      (filesUnder files under) limit (cursor.getD []) = true) :
    AnsweredAlike defaults userId (liveAnswer services userId base store
        ⟨now, .list pathPrefix recursive limit cursor⟩)
      (contractAnswer package services.collate files
        ⟨now, .list pathPrefix recursive limit cursor⟩) := by
  simp only [sameOrder, Bool.and_eq_true, decide_eq_true_eq, List.all_eq_true] at ordered
  obtain ⟨⟨⟨byLetters, limited⟩, allShown⟩, behind⟩ := ordered
  rw [startAfter_getD] at behind
  cases limit with
  | none => cases limited
  | some given =>
    have bounded : given.floor ≤ 10000 := of_decide_eq_true limited
    have positive := lists.positive given rfl
    have left := selectedPaths_eq_drop same lists.exactly byLetters allShown behind
    obtain ⟨page, found, entries, next⟩ :=
      list_page positive bounded left
    generalize isSorted : sortPaths services.collate (filesUnder files under) = sorted at *
    generalize isStart : startAfter sorted cursor = start at *
    have inside : start ≤ sorted.length := by
      rw [← isStart]
      exact startAfter_le sorted cursor
    have part : ∀ path ∈ (sorted.drop start).take given.floor.toNat,
        path ∈ filesUnder files under := by
      intro path member
      have held := List.mem_of_mem_drop (List.mem_of_mem_take member)
      rw [← isSorted] at held
      exact mem_sortPaths.mp held
    have allSeen : shownPaths userId page = (sorted.drop start).take given.floor.toNat := by
      rw [shownPaths, entries, List.filter_eq_self]
      intro path member
      exact ((mem_filesUnder_iff same).mp (part path member)).2
    have keepsOrder : sortPaths services.collate ((sorted.drop start).take given.floor.toNat) =
          (sorted.drop start).take given.floor.toNat := by
      apply sortPaths_of_sublist order (filesUnder files under)
      rw [isSorted]
      exact (List.take_sublist _ _).trans (List.drop_sublist _ _)
    have kept := getLast?_filter_named fun path member =>
      ne_nil_of_mem_filesUnder same (part path member)
    have notNegative : 0 ≤ given := le_trans (by decide) positive
    rw [liveAnswer_list unmounted normal notService (Or.inr rfl) found,
      contractAnswer_list validated resolved lists.noDirectory isSorted
        isStart, allSeen, keepsOrder, next, Option.getD_some,
        slice_page notNegative, kept]
    simp only [left_behind_iff notNegative inside]
    exact ⟨sameSeen_listed lists.shape part _, same⟩

end

theorem answeredAlike_list (order : LocaleOrder services.collate)
    (unmounted : Unmounted base) (same : SameFiles userId store files)
    (opened : onOpenPath userId base ⟨now, .list pathPrefix recursive limit cursor⟩ = true)
    (alike : servedAlike defaults package services.collate userId store files
      ⟨now, .list pathPrefix recursive limit cursor⟩ = true) :
    AnsweredAlike defaults userId (liveAnswer services userId base store
        ⟨now, .list pathPrefix recursive limit cursor⟩)
      (contractAnswer package services.collate files
        ⟨now, .list pathPrefix recursive limit cursor⟩) := by
  simp only [servedAlike, Bool.and_eq_true, Bool.or_eq_true,
    decide_eq_true_eq, Option.all_eq_true] at alike
  obtain ⟨⟨admitted, samePath⟩, listed⟩ := alike
  cases validated : package.validateListArgs pathPrefix recursive limit cursor with
  | error thrown =>
    rw [validated] at admitted
    cases admitted
  | ok admission =>
    have served : ∀ under, (if pathPrefix.getD [] = [] then .ok [] else
          package.vfsRelativePath (pathPrefix.getD []) prefixLabel) = .ok under →
        listPrefix (pathPrefix.getD []) = some under →
        (under = [] ∨ isServicePath under = false) →
        AnsweredAlike defaults userId (liveAnswer services userId base store
            ⟨now, .list pathPrefix recursive limit cursor⟩)
          (contractAnswer package services.collate files
            ⟨now, .list pathPrefix recursive limit cursor⟩) := by
      intro under resolved normal notService
      obtain ⟨lists, pages⟩ := listsFiles_of_alike (listed under normal)
      rcases pages with fits | ordered
      · exact answeredAlike_onePage order unmounted same validated resolved
          normal notService lists fits
      · exact answeredAlike_sameOrder order unmounted same validated
          resolved normal notService lists ordered
    by_cases isEmpty : pathPrefix.getD [] = []
    · refine served [] ?_ ?_ (Or.inl rfl)
      · rw [if_pos isEmpty]
      · rw [listPrefix, if_pos isEmpty]
    · have named := samePath.resolve_left isEmpty
      have listing : listPrefix (pathPrefix.getD []) =
          normalizeFsPath (pathPrefix.getD []) := if_neg isEmpty
      rcases path_cases named with
        ⟨under, resolved, normal⟩ | ⟨thrown, resolved, refused⟩
      · have isOpen := isOpenPath_of_onOpenPath opened normal
        refine served under ?_ (listing.trans normal) (Or.inr (openPath_iff.mp isOpen).1)
        rw [if_neg isEmpty, resolved]
      · apply answeredAlike_refused same
        · simp [liveAnswer, callVfs, vfsList, stagedSession, listArgs,
            memberContext, listTree, listing, refused, Reply.seen]
        · simp [contractAnswer, createNativeVfs, validated, isEmpty, resolved, Except.toOption]

theorem answeredAlike_call (order : LocaleOrder services.collate)
    (unmounted : Unmounted base) (same : SameFiles userId store files)
    {call : VfsRequest} (opened : onOpenPath userId base call = true)
    (alike : servedAlike defaults package services.collate userId store files call = true) :
    AnsweredAlike defaults userId (liveAnswer services userId base store call)
      (contractAnswer package services.collate files call) := by
  obtain ⟨now, operation⟩ := call
  cases operation with
  | read path => exact answeredAlike_read unmounted same opened alike
  | write path content encoding ifMatch => exact answeredAlike_write unmounted same opened alike
  | delete path => exact answeredAlike_delete unmounted same opened alike
  | list pathPrefix recursive limit cursor =>
    exact answeredAlike_list order unmounted same opened alike
  | stat path => exact answeredAlike_stat same opened alike

/-- The member is shown no file yet. -/
def NothingShown (userId : Text) (store : Store) : Prop :=
  ∀ path ∈ store.paths, listedTo userId path = false

theorem sameFiles_nothing (fresh : NothingShown userId store) :
    SameFiles userId store Keyed.empty where
  contents := by
    intro path listed
    have absent : store.latest path = none := by
      rw [Store.latest_eq_none_iff]
      intro member
      rw [fresh path member] at listed
      cases listed
    rw [absent]
    rfl
  shown := by
    intro file member
    cases member

end

/-- The live dispatch answers a member's calls as the contract's
implementation in memory does, if each of them is served alike. -/
theorem vfs_implements_its_contract {services : VfsServices}
    (order : LocaleOrder services.collate) (package : VfsPackage) {userId : Text}
    {base : ListingState} (unmounted : Unmounted base) {store : Store}
    (fresh : NothingShown userId store) (defaults : Bool) {calls : List VfsRequest}
    (opened : ∀ call ∈ calls, onOpenPath userId base call = true)
    (meets : RequestsMeet (liveAnswer services userId base)
      (contractAnswer package services.collate)
      (fun store files call => servedAlike defaults package services.collate
        userId store files call = true)
      store Keyed.empty calls) :
    List.Forall₂ (SameSeen defaults) (answersFrom (liveAnswer services userId base) store calls)
      (answersFrom (contractAnswer package services.collate) Keyed.empty calls) := by
  refine answers_agree_of_simulation (SameSeen defaults)
    (SameFiles userId) ?_ (sameFiles_nothing fresh)
    (meets.and_of_forall opened)
  intro live files call same both
  exact answeredAlike_call order unmounted same both.1 both.2

def lenientVfsPackage : VfsPackage where
  defaultListLimit := 100
  vfsRelativePath raw label :=
    if raw = [] then .error ⟨label ++ " is required".toList, 400⟩ else .ok raw
  validateWriteArgs _ _ _ _ := .ok ()
  validateListArgs _ _ _ _ := .ok ()

def letterServices : VfsServices where
  sha256 content := content
  collate first second := first ≤ second
  mountRead _ _ := none

def emptyWorkspace : ListingState where
  store := ⟨.sqlite, [], Fs.Store.keys_nil⟩
  records := {
    appInstance := fun _ => none
    installHosting := fun _ _ => none
    isMember := fun _ _ => true
    shares := []
    now := 0 }
  shares := []
  mounts := []
  sessions := fun _ => none
  commits := fun id => .error (unknownSession id)
  mountEntries := fun _ => []
  history := []

theorem letterServices_ordered : LocaleOrder letterServices.collate :=
  localeOrder_le

/-- Two notes are written, one of them twice, and listed on two pages; then
one is read and deleted. -/
def notesCalls : List VfsRequest :=
  let first := "notes/a.md".toList
  let second := "notes/b.md".toList
  [⟨0, .write first "1".toList none none⟩, ⟨1, .write second "2".toList (some .utf8) none⟩,
    ⟨2, .write first "one".toList none (some "etag-1-0".toList)⟩,
    ⟨3, .list (some "notes".toList) false (some 1) none⟩,
    ⟨4, .list none true (some 1) (some first)⟩,
    ⟨5, .read first⟩, ⟨6, .delete first⟩, ⟨7, .read first⟩]

theorem vfs_implements_its_contract_notesCalls :
    (answersFrom (contractAnswer lenientVfsPackage letterServices.collate)
        Keyed.empty notesCalls).drop 3 =
        [some (.listed [("notes/a.md".toList, some .file)] (some "notes/a.md".toList)),
          some (.listed [("notes/b.md".toList, some .file)] none),
          some (.read "notes/a.md".toList "one".toList (some .utf8)),
          some (.deleted "notes/a.md".toList true), none] ∧
      List.Forall₂ (SameSeen true)
        (answersFrom (liveAnswer letterServices "ann".toList emptyWorkspace)
          emptyWorkspace.store notesCalls)
        (answersFrom (contractAnswer lenientVfsPackage letterServices.collate)
          Keyed.empty notesCalls) := by
  have unmounted : Unmounted emptyWorkspace := ⟨rfl, fun _ => rfl⟩
  have fresh : NothingShown "ann".toList emptyWorkspace.store := by
    intro path member
    cases member
  exact ⟨by decide +kernel, vfs_implements_its_contract letterServices_ordered lenientVfsPackage
      unmounted fresh true (by decide +kernel) (by decide +kernel)⟩

/-- The second write is for another version of the note. -/
def staleCalls : List VfsRequest :=
  let path := "notes/a.md".toList
  [⟨0, .write path "1".toList none none⟩,
    ⟨1, .write path "2".toList none (some "etag-9-9".toList)⟩,
    ⟨2, .read path⟩]

theorem vfs_breaks_its_contract :
    ¬ ∀ calls, (∀ call ∈ calls, onOpenPath "ann".toList emptyWorkspace call = true) →
      List.Forall₂ (SameSeen true)
        (answersFrom (liveAnswer letterServices "ann".toList emptyWorkspace)
          emptyWorkspace.store calls)
        (answersFrom (contractAnswer lenientVfsPackage letterServices.collate)
          Keyed.empty calls) := by
  intro claimed
  have live : answersFrom (liveAnswer letterServices "ann".toList emptyWorkspace)
      emptyWorkspace.store staleCalls = [some (.written "notes/a.md".toList),
          some (.written "notes/a.md".toList),
          some (.read "notes/a.md".toList "2".toList none)] := by
    decide +kernel
  have contract : answersFrom (contractAnswer lenientVfsPackage letterServices.collate)
      Keyed.empty staleCalls = [some (.written "notes/a.md".toList), none,
          some (.read "notes/a.md".toList "1".toList (some .utf8))] := by
    decide +kernel
  have alike := claimed staleCalls (by decide +kernel)
  rw [live, contract] at alike
  obtain ⟨_, rest⟩ := List.forall₂_cons.mp alike
  obtain ⟨written, _⟩ := List.forall₂_cons.mp rest
  rcases written with same | ⟨_, same⟩
  · cases same
  · cases same

end Aprovan.Vfs
