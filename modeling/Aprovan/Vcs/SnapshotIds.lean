import Aprovan.Library.Framing
import Aprovan.Library.Runs
import Aprovan.Vcs.History
import Aprovan.Vfs.Context

/-!
# Snapshot ids

The id of a snapshot is the digest of its manifest: a line for each file, one
for each mount and one for the scope.  A path may hold a line break, and then a
manifest can be read as that of another tree; the type of a mount is not in its
line.
-/

namespace Aprovan.Vcs

open Aprovan.Library Aprovan.Server Aprovan.Fs

def isHexLetter (letter : Char) : Bool :=
  letter.isDigit || ('a' ≤ letter && letter ≤ 'f')

/-- A sha256 digest, as it is written. -/
def isDigest (text : Text) : Bool :=
  text.length = 64 && text.all isHexLetter

/-- The version token is absent when it could not be resolved. -/
structure MountLineageEntry where
  pathPrefix : Text
  type : Vfs.MountType
  configHash : Text
  versionToken : Option Text

/-- What a snapshot covers: files under normal paths with the digests of
their contents, mounts under normal prefixes with a digest and a token of hex
letters, and the scope, empty for the whole workspace. -/
structure Manifest where
  entries : List SnapshotEntry
  mounts : List MountLineageEntry
  pathPrefix : Text
  paths : ∀ entry ∈ entries, normalizeFsPath entry.path = some entry.path
  distinct : (entries.map SnapshotEntry.path).Nodup
  hashes : ∀ entry ∈ entries, isDigest entry.hash = true
  mounted : ∀ mount ∈ mounts, normalizeFsPath mount.pathPrefix = some mount.pathPrefix
  configHashes : ∀ mount ∈ mounts, isDigest mount.configHash = true
  tokens : ∀ mount ∈ mounts, ∀ token ∈ mount.versionToken,
    token ≠ [] ∧ token.all isHexLetter = true

def mountWord : Text := ['m', 'o', 'u', 'n', 't']

def scopeWord : Text := ['p', 'r', 'e', 'f', 'i', 'x']

def snapshotLines (manifest : Manifest) : List Text :=
  manifest.entries.map (fun entry => entry.hash ++ ' ' :: entry.path) ++
    manifest.mounts.map (fun mount =>
      mountWord ++ ' ' :: mount.configHash ++ ' ' :: (mount.versionToken.getD ['-']) ++
        ' ' :: mount.pathPrefix) ++
    if manifest.pathPrefix = [] then [] else [scopeWord ++ ' ' :: manifest.pathPrefix]

def snapshotId (sha256 : Text → Text) (manifest : Manifest) : Text :=
  sha256 (joinWith '\n' (snapshotLines manifest))

/-- Files and mounts in the order of `localeCompare`. -/
def Manifest.buildSnapshot (collate : Text → Text → Bool) (manifest : Manifest) : Manifest :=
  { manifest with
    entries := manifest.entries.insertionSort fun first second =>
      collate first.path second.path = true
    mounts := manifest.mounts.insertionSort fun first second =>
      collate first.pathPrefix second.pathPrefix = true
    paths := fun entry member => manifest.paths entry ((List.mem_insertionSort _).mp member)
    distinct := ((List.perm_insertionSort _ _).map _).nodup_iff.mpr manifest.distinct
    hashes := fun entry member => manifest.hashes entry ((List.mem_insertionSort _).mp member)
    mounted := fun mount member => manifest.mounted mount ((List.mem_insertionSort _).mp member)
    configHashes := fun mount member =>
      manifest.configHashes mount ((List.mem_insertionSort _).mp member)
    tokens := fun mount member => manifest.tokens mount ((List.mem_insertionSort _).mp member) }

/-- The same path-to-hash map, the same mounts and the same scope. -/
structure SameTree (first second : Manifest) : Prop where
  files : ∀ path hash, (∃ entry ∈ first.entries, entry.path = path ∧ entry.hash = hash) ↔
      ∃ entry ∈ second.entries, entry.path = path ∧ entry.hash = hash
  mounts : ∀ mount, mount ∈ first.mounts ↔ mount ∈ second.mounts
  scope : first.pathPrefix = second.pathPrefix

inductive LineStart : Text → Prop where
  | file (hash : Text) (digest : isDigest hash = true) : LineStart (hash ++ [' '])
  | mount (configHash token : Text) (digest : isDigest configHash = true)
      (plain : ' ' ∉ token ∧ '\n' ∉ token) :
      LineStart (mountWord ++ ' ' :: configHash ++ ' ' :: token ++ [' '])
  | scope : LineStart (scopeWord ++ [' '])

def fileFrame (entry : SnapshotEntry) : Frame where
  header := entry.hash ++ [' ']
  body := entry.path

def mountFrame (mount : MountLineageEntry) : Frame where
  header := mountWord ++ ' ' :: mount.configHash ++ ' ' :: (mount.versionToken.getD ['-']) ++ [' ']
  body := mount.pathPrefix

def scopeFrame (pathPrefix : Text) : Frame where
  header := scopeWord ++ [' ']
  body := pathPrefix

def frames (manifest : Manifest) : List Frame :=
  manifest.entries.map fileFrame ++ manifest.mounts.map mountFrame ++
    if manifest.pathPrefix = [] then [] else [scopeFrame manifest.pathPrefix]

theorem snapshotLines_eq (manifest : Manifest) :
    snapshotLines manifest = (frames manifest).map Frame.text := by
  have files : ∀ entry : SnapshotEntry, (fileFrame entry).text =
      entry.hash ++ ' ' :: entry.path := by
    intro entry
    simp only [Frame.text, fileFrame, List.append_assoc, List.singleton_append]
  have mounts : ∀ mount : MountLineageEntry, (mountFrame mount).text =
      mountWord ++ ' ' :: mount.configHash ++ ' ' :: (mount.versionToken.getD ['-']) ++
        ' ' :: mount.pathPrefix := by
    intro mount
    rw [Frame.text, mountFrame, List.append_assoc, List.singleton_append]
  rw [snapshotLines, frames, List.map_append, List.map_append, List.map_map, List.map_map]
  congr 1
  · congr 1
    · exact List.map_congr_left fun entry _ => (files entry).symm
    · exact List.map_congr_left fun mount _ => (mounts mount).symm
  · by_cases whole : manifest.pathPrefix = []
    · rw [if_pos whole, if_pos whole]
      rfl
    · rw [if_neg whole, if_neg whole]
      rfl

theorem snapshotId_eq (sha256 : Text → Text) (manifest : Manifest) :
    snapshotId sha256 manifest = sha256 (joinFrames '\n' (frames manifest)) := by
  rw [snapshotId, joinFrames, snapshotLines_eq]

theorem hex_plain {text : Text} (hex : text.all isHexLetter = true) :
    ' ' ∉ text ∧ '\n' ∉ text := by
  rw [List.all_eq_true] at hex
  refine ⟨fun blank => ?_, fun lineBreak => ?_⟩
  · exact absurd (hex ' ' blank) (by decide)
  · exact absurd (hex '\n' lineBreak) (by decide)

theorem digest_plain {text : Text} (digest : isDigest text = true) :
    text.length = 64 ∧ ' ' ∉ text ∧ '\n' ∉ text := by
  simp only [isDigest, Bool.and_eq_true, decide_eq_true_eq] at digest
  exact ⟨digest.1, hex_plain digest.2⟩

theorem parts_eq {letter : Char} {first second restFirst restSecond : Text}
    (plainFirst : letter ∉ first) (plainSecond : letter ∉ second)
    (same : first ++ letter :: restFirst = second ++ letter :: restSecond) :
    first = second ∧ restFirst = restSecond := by
  rcases List.append_eq_append_iff.mp same with
    ⟨more, longer, rest⟩ | ⟨more, longer, rest⟩
  · cases more with
    | nil => exact ⟨by simpa using longer.symm, (List.cons.inj rest).2⟩
    | cons head tail =>
      have inside : letter ∈ second := by
        rw [longer, (List.cons.inj rest).1]
        simp
      exact absurd inside plainSecond
  · cases more with
    | nil => exact ⟨by simpa using longer, (List.cons.inj rest).2.symm⟩
    | cons head tail =>
      have inside : letter ∈ first := by
        rw [longer, (List.cons.inj rest).1]
        simp
      exact absurd inside plainFirst

theorem lineStart_word {header : Text} (starts : LineStart header) :
    ∃ word rest, header = word ++ ' ' :: rest ∧ ' ' ∉ word ∧ ((word.length = 64 ∧ rest = []) ∨
        (word = mountWord ∧ ∃ configHash token, rest = configHash ++ ' ' :: token ++ [' '] ∧
            ' ' ∉ configHash ∧ ' ' ∉ token) ∨
        (word = scopeWord ∧ rest = [])) := by
  cases starts with
  | file hash digest =>
    obtain ⟨length, plain, _⟩ := digest_plain digest
    exact ⟨hash, [], rfl, plain, Or.inl ⟨length, rfl⟩⟩
  | mount configHash token digest plain =>
    obtain ⟨_, plainHash, _⟩ := digest_plain digest
    refine ⟨mountWord, configHash ++ ' ' :: token ++ [' '], ?_,
      by decide, Or.inr (Or.inl ⟨rfl, configHash, token, rfl, plainHash, plain.1⟩)⟩
    simp only [List.append_assoc, List.cons_append]
  | scope => exact ⟨scopeWord, [], rfl, by decide, Or.inr (Or.inr ⟨rfl, rfl⟩)⟩

theorem framing_lineStart : Framing '\n' LineStart where
  nonempty := by
    intro header starts
    obtain ⟨word, rest, rfl, _⟩ := lineStart_word starts
    simp
  unbroken := by
    intro header starts
    cases starts with
    | file hash digest => simpa using (digest_plain digest).2.2
    | mount configHash token digest plain =>
      have absent := (digest_plain digest).2.2
      have word : '\n' ∉ mountWord := by decide
      simp [absent, plain.2, word]
    | scope => decide
  prefixFree := by
    intro first second restFirst restSecond startsFirst startsSecond same
    obtain ⟨word, rest, rfl, plain, kind⟩ := lineStart_word startsFirst
    obtain ⟨otherWord, otherRest, rfl, otherPlain, otherKind⟩ :=
      lineStart_word startsSecond
    rw [List.append_assoc, List.append_assoc, List.cons_append, List.cons_append] at same
    obtain ⟨rfl, rests⟩ := parts_eq plain otherPlain same
    rcases kind with ⟨length, rfl⟩ | ⟨rfl, configHash, token, rfl,
        plainHash, plainToken⟩ | ⟨rfl, rfl⟩
    · rcases otherKind with ⟨_, rfl⟩ | ⟨rfl, _⟩ | ⟨rfl, _⟩
      · rfl
      · exact absurd length (by decide)
      · exact absurd length (by decide)
    · rcases otherKind with ⟨length, _⟩ | ⟨_, otherHash, otherToken, rfl,
          otherPlainHash, otherPlainToken⟩ | ⟨other, _⟩
      · exact absurd length (by decide)
      · simp only [List.append_assoc, List.cons_append, List.nil_append] at rests
        obtain ⟨rfl, tokens⟩ := parts_eq plainHash otherPlainHash rests
        obtain ⟨rfl, _⟩ := parts_eq plainToken otherPlainToken tokens
        rfl
      · exact absurd other (by decide)
    · rcases otherKind with ⟨length, _⟩ | ⟨other, _⟩ | ⟨_, rfl⟩
      · exact absurd length (by decide)
      · exact absurd other (by decide)
      · rfl

/-- No line break in a path, a mount or the scope has the start of a line
behind it. -/
structure SeparatesLines (manifest : Manifest) : Prop where
  files : ∀ entry ∈ manifest.entries, Unambiguous '\n' LineStart entry.path
  mounts : ∀ mount ∈ manifest.mounts, Unambiguous '\n' LineStart mount.pathPrefix
  scope : Unambiguous '\n' LineStart manifest.pathPrefix

/-- No line break in the paths. -/
structure Unbroken (manifest : Manifest) : Prop where
  files : ∀ entry ∈ manifest.entries, '\n' ∉ entry.path
  mounts : ∀ mount ∈ manifest.mounts, '\n' ∉ mount.pathPrefix
  scope : '\n' ∉ manifest.pathPrefix

instance (manifest : Manifest) : Decidable (Unbroken manifest) :=
  decidable_of_iff ((∀ entry ∈ manifest.entries, '\n' ∉ entry.path) ∧
      (∀ mount ∈ manifest.mounts, '\n' ∉ mount.pathPrefix) ∧ '\n' ∉ manifest.pathPrefix)
    ⟨fun all => ⟨all.1, all.2.1, all.2.2⟩, fun unbroken =>
      ⟨unbroken.files, unbroken.mounts, unbroken.scope⟩⟩

theorem separatesLines_of_unbroken {manifest : Manifest} (unbroken : Unbroken manifest) :
    SeparatesLines manifest where
  files entry member :=
    unambiguous_of_not_mem (unbroken.files entry member)
  mounts mount member :=
    unambiguous_of_not_mem (unbroken.mounts mount member)
  scope := unambiguous_of_not_mem unbroken.scope

def TypesAgree (first second : Manifest) : Prop :=
  ∀ mount ∈ first.mounts, ∀ other ∈ second.mounts, mount.pathPrefix = other.pathPrefix →
      mount.configHash = other.configHash →
        mount.versionToken = other.versionToken → mount.type = other.type

section

variable {manifest first second : Manifest} {mount : MountLineageEntry}

theorem token_plain (member : mount ∈ manifest.mounts) :
    ' ' ∉ mount.versionToken.getD ['-'] ∧ '\n' ∉ mount.versionToken.getD ['-'] := by
  cases found : mount.versionToken with
  | none => decide
  | some token => exact hex_plain (manifest.tokens mount member token found).2

theorem mem_frames_iff {frame : Frame} :
    frame ∈ frames manifest ↔ (∃ entry ∈ manifest.entries, fileFrame entry = frame) ∨
        (∃ mount ∈ manifest.mounts, mountFrame mount = frame) ∨
        (manifest.pathPrefix ≠ [] ∧ scopeFrame manifest.pathPrefix = frame) := by
  rw [frames, List.mem_append, List.mem_append, List.mem_map, List.mem_map, or_assoc]
  refine or_congr_right (or_congr_right ?_)
  by_cases whole : manifest.pathPrefix = []
  · simp [whole]
  · simp [whole, eq_comm]

theorem forall_frames {holds : Frame → Prop} (files : ∀ entry ∈ manifest.entries,
      holds (fileFrame entry))
    (mounts : ∀ mount ∈ manifest.mounts, holds (mountFrame mount))
    (scope : holds (scopeFrame manifest.pathPrefix)) : ∀ frame ∈ frames manifest, holds frame := by
  intro frame member
  rcases mem_frames_iff.mp member with ⟨entry, stored, rfl⟩ | ⟨mount, stored, rfl⟩ | ⟨_, rfl⟩
  · exact files entry stored
  · exact mounts mount stored
  · exact scope

theorem known_frames (manifest : Manifest) : ∀ frame ∈ frames manifest, LineStart frame.header :=
  @forall_frames manifest (fun frame => LineStart frame.header)
    (fun entry stored => .file _ (manifest.hashes entry stored))
    (fun entry stored => .mount _ _ (manifest.configHashes entry stored) (token_plain stored))
    .scope

theorem plain_frames (separates : SeparatesLines manifest) (frame : Frame)
    (member : frame ∈ frames manifest) : frame.Plain '\n' LineStart where
  header := known_frames manifest frame member
  body := @forall_frames manifest (fun frame => Unambiguous '\n' LineStart frame.body)
    separates.files separates.mounts separates.scope frame member

theorem mountWord_header (mount : MountLineageEntry) :
    (mountFrame mount).header = mountWord ++ ' ' :: (mount.configHash ++
        ' ' :: (mount.versionToken.getD ['-'] ++ [' '])) := by
  simp only [mountFrame, List.append_assoc, List.cons_append]

theorem mountFrame_ne_file (mount : MountLineageEntry) {hash path : Text}
    (digest : isDigest hash = true) : mountFrame mount ≠ ⟨hash ++ [' '], path⟩ := by
  intro same
  obtain ⟨length, plain, _⟩ := digest_plain digest
  have headers := congrArg Frame.header same
  rw [mountWord_header] at headers
  have words := (parts_eq (by decide) plain headers).1
  rw [← words] at length
  exact absurd length (by decide)

theorem scopeFrame_ne_file {pathPrefix hash path : Text} (digest : isDigest hash = true) :
    scopeFrame pathPrefix ≠ ⟨hash ++ [' '], path⟩ := by
  intro same
  have length := (digest_plain digest).1
  rw [← List.append_cancel_right (congrArg Frame.header same)] at length
  exact absurd length (by decide)

theorem mountFrame_ne_scopeFrame {pathPrefix : Text} : mountFrame mount ≠ scopeFrame pathPrefix := by
  intro same
  have headers := congrArg Frame.header same
  rw [mountWord_header] at headers
  exact absurd (parts_eq (by decide) (by decide) headers).1 (by decide)

theorem mem_frames_file_iff {hash path : Text} (digest : isDigest hash = true) :
    ⟨hash ++ [' '], path⟩ ∈ frames manifest ↔ ∃ entry ∈ manifest.entries, entry.path = path ∧
        entry.hash = hash := by
  rw [mem_frames_iff]
  constructor
  · rintro (⟨entry, stored, same⟩ | ⟨mount, _, same⟩ | ⟨_, same⟩)
    · obtain ⟨headers, paths⟩ := Frame.mk.inj same
      exact ⟨entry, stored, paths, List.append_cancel_right headers⟩
    · exact absurd same (mountFrame_ne_file mount digest)
    · exact absurd same (scopeFrame_ne_file digest)
  · rintro ⟨entry, stored, rfl, rfl⟩
    exact Or.inl ⟨entry, stored, rfl⟩

theorem mem_frames_mount_iff :
    mountFrame mount ∈ frames manifest ↔
      ∃ other ∈ manifest.mounts, mountFrame other = mountFrame mount := by
  rw [mem_frames_iff]
  constructor
  · rintro (⟨entry, stored, same⟩ | known | ⟨_, same⟩)
    · exact absurd same.symm (mountFrame_ne_file mount (manifest.hashes entry stored))
    · exact known
    · exact absurd same.symm mountFrame_ne_scopeFrame
  · intro known
    exact Or.inr (Or.inl known)

theorem mem_frames_scope_iff {pathPrefix : Text} :
    scopeFrame pathPrefix ∈ frames manifest ↔
      pathPrefix ≠ [] ∧ manifest.pathPrefix = pathPrefix := by
  rw [mem_frames_iff]
  constructor
  · rintro (⟨entry, stored, same⟩ | ⟨mount, _, same⟩ | ⟨narrowed, same⟩)
    · exact absurd same.symm (scopeFrame_ne_file (manifest.hashes entry stored))
    · exact absurd same mountFrame_ne_scopeFrame
    · obtain rfl : manifest.pathPrefix = pathPrefix := congrArg Frame.body same
      exact ⟨narrowed, rfl⟩
  · rintro ⟨narrowed, rfl⟩
    exact Or.inr (Or.inr ⟨narrowed, rfl⟩)

/-- A mount is told by its line, up to its type. -/
theorem eq_of_mountFrame_eq {other : MountLineageEntry} (member : mount ∈ first.mounts)
    (stored : other ∈ second.mounts) (agree : TypesAgree first second)
    (same : mountFrame mount = mountFrame other) : mount = other := by
  have headers := congrArg Frame.header same
  have prefixes : mount.pathPrefix = other.pathPrefix := congrArg Frame.body same
  rw [mountWord_header, mountWord_header] at headers
  have rests := (parts_eq (by decide) (by decide) headers).2
  obtain ⟨hashes, tails⟩ := parts_eq (digest_plain (first.configHashes mount member)).2.1
    (digest_plain (second.configHashes other stored)).2.1 rests
  have texts := List.append_cancel_right tails
  have tokens : mount.versionToken = other.versionToken := by
    cases one : mount.versionToken with
    | none =>
      cases two : other.versionToken with
      | none => rfl
      | some token =>
        rw [one, two] at texts
        have hex := (second.tokens other stored token two).2
        rw [← show ['-'] = token from texts] at hex
        exact absurd hex (by decide)
    | some token =>
      cases two : other.versionToken with
      | none =>
        rw [one, two] at texts
        have hex := (first.tokens mount member token one).2
        rw [show token = ['-'] from texts] at hex
        exact absurd hex (by decide)
      | some _ =>
        rw [one, two] at texts
        exact congrArg some texts
  have types := agree mount member other stored prefixes hashes tokens
  cases mount
  cases other
  simp_all

theorem sameTree_of_frames (agree : TypesAgree first second)
    (same : frames first = frames second) : SameTree first second := by
  refine ⟨?_, ?_, ?_⟩
  · intro path hash
    by_cases digest : isDigest hash = true
    · rw [← mem_frames_file_iff digest, same, mem_frames_file_iff digest]
    · constructor
      · rintro ⟨entry, stored, _, rfl⟩
        exact absurd (first.hashes entry stored) digest
      · rintro ⟨entry, stored, _, rfl⟩
        exact absurd (second.hashes entry stored) digest
  · intro mount
    constructor
    · intro member
      have line : mountFrame mount ∈ frames second := by
        rw [← same, mem_frames_mount_iff]
        exact ⟨mount, member, rfl⟩
      obtain ⟨other, stored, equal⟩ := mem_frames_mount_iff.mp line
      rw [eq_of_mountFrame_eq member stored agree equal.symm]
      exact stored
    · intro member
      have line : mountFrame mount ∈ frames first := by
        rw [same, mem_frames_mount_iff]
        exact ⟨mount, member, rfl⟩
      obtain ⟨other, stored, equal⟩ := mem_frames_mount_iff.mp line
      rw [← eq_of_mountFrame_eq stored member agree equal]
      exact stored
  · by_cases whole : second.pathPrefix = []
    · by_contra different
      have narrowed : first.pathPrefix ≠ [] := by
        rw [whole] at different
        exact different
      have line : scopeFrame first.pathPrefix ∈ frames second := by
        rw [← same, mem_frames_scope_iff]
        exact ⟨narrowed, rfl⟩
      exact narrowed ((mem_frames_scope_iff.mp line).2 ▸ whole)
    · have line : scopeFrame second.pathPrefix ∈ frames first := by
        rw [same, mem_frames_scope_iff]
        exact ⟨whole, rfl⟩
      exact (mem_frames_scope_iff.mp line).2

/-- Two trees are the same, or no way to take line breaks in paths for ends
of lines leads from both manifests to the same lines. -/
def ToldApart (first second : Manifest) : Prop :=
  SameTree first second ∨ ¬ReadAlike '\n' LineStart (frames first) (frames second)

/-- Ids are equal if and only if the manifests read alike. -/
theorem snapshotId_eq_iff {sha256 : Text → Text} (injective : Function.Injective sha256) :
    snapshotId sha256 first = snapshotId sha256 second ↔
      ReadAlike '\n' LineStart (frames first) (frames second) := by
  rw [snapshotId_eq, snapshotId_eq, injective.eq_iff]
  exact joinFrames_eq_iff framing_lineStart (known_frames first) (known_frames second)

theorem sameTree_of_snapshotId_iff {sha256 : Text → Text} (injective : Function.Injective sha256) :
    (snapshotId sha256 first = snapshotId sha256 second → SameTree first second) ↔
      ToldApart first second := by
  rw [snapshotId_eq_iff injective, ToldApart, or_comm, imp_iff_not_or]

theorem toldApart_of_separatesLines (separatesFirst : SeparatesLines first)
    (separatesSecond : SeparatesLines second) (agree : TypesAgree first second) :
    ToldApart first second := by
  by_cases alike : ReadAlike '\n' LineStart (frames first) (frames second)
  · obtain ⟨pieces, cuts, otherCuts⟩ := alike
    have same := eq_of_plain_of_cuts (plain_frames separatesFirst) cuts
    have others := eq_of_plain_of_cuts (plain_frames separatesSecond) otherCuts
    exact Or.inl (sameTree_of_frames agree (same.symm.trans others))
  · exact Or.inr alike

end

structure SavedTree where
  id : Text
  tree : Manifest

/-- What is learned about a tree: that it is as its parent's, or that it is
saved in place of what had its id. -/
inductive TreeEvent where
  | unchanged (tree : Manifest) (parent : Option Manifest)
  | saved (tree : Manifest) (before : Option Manifest)

/-- The records of a workspace's history, with what was learned. -/
structure TreeHistory where
  snapshots : List SavedTree := []
  commits : List VcsCommit := []
  refs : List VcsRef := []
  log : List TreeEvent := []

structure TreeServices where
  collate : Text → Text → Bool
  sha256 : Text → Text
  commitId : CommitBody → Text
  now : Nat

namespace TreeHistory

variable (history : TreeHistory)

def readSnapshot (id : Text) : Option Manifest :=
  (history.snapshots.find? (·.id = id)).map SavedTree.tree

def readCommit (id : Text) : Option VcsCommit :=
  if id = [] then none else history.commits.find? (·.id = id)

def readRef (name : Text) : Option VcsRef :=
  history.refs.find? (·.name = name)

def saveSnapshot (services : TreeServices) (history : TreeHistory) (tree : Manifest) :
    TreeHistory :=
  let id := snapshotId services.sha256 tree
  { history with
    snapshots := history.snapshots.filter (·.id ≠ id) ++ [⟨id, tree⟩]
    log := history.log ++ [.saved tree (history.readSnapshot id)] }

def writeCommit (commit : VcsCommit) : TreeHistory := { history with
    commits := history.commits.filter (·.id ≠ commit.id) ++ [commit] }

def writeRef (name commit : Text) : TreeHistory := { history with
    refs := history.refs.filter (·.name ≠ name) ++ [{ name := name, commit := commit }] }

def createCommit (services : TreeServices) (history : TreeHistory)
    (tree : Manifest) (parents : List Text) (message author : Text) :
    VcsCommit × TreeHistory :=
  let parentTree := do
    let parent ← parents.head?
    let commit ← history.readCommit parent
    history.readSnapshot commit.snapshot
  let body : CommitBody := {
    snapshot := snapshotId services.sha256 tree
    pathPrefix := tree.pathPrefix
    parents := parents
    message := message
    author := author
    createdAt := services.now
    stats := diffStats ((parentTree.map Manifest.entries).getD []) tree.entries }
  let commit : VcsCommit := {
    toCommitBody := body
    id := services.commitId body }
  (commit, history.writeCommit commit)

end TreeHistory

structure TreeCommit where
  (message author ref : Text)
  parents : Option (List Text)

/-- Commit what `visibleEntries` and `collectMountLineage` have found, unless
the head of the ref has it already. -/
def TreeHistory.commitTree (services : TreeServices)
    (history : TreeHistory) (found : Manifest) (options : TreeCommit) :
    Outcome TreeHistory := do
  let refKey ← refName options.ref
  let tree := found.buildSnapshot services.collate
  let head := do
    let ref ← history.readRef refKey
    history.readCommit ref.commit
  let parents := options.parents.getD (head.map VcsCommit.id).toList
  match head.filter fun commit =>
      commit.snapshot = snapshotId services.sha256 tree && options.parents.isNone with
  | some commit =>
    .ok { history with
      log := history.log ++ [.unchanged tree (history.readSnapshot commit.snapshot)] }
  | none =>
    let (commit, next) :=
      (history.saveSnapshot services tree).createCommit services tree
        parents options.message options.author
    .ok (next.writeRef refKey commit.id)

inductive TreeAct where
  | commitTree (found : Manifest) (options : TreeCommit)
  /-- An old release is given a snapshot of its own. -/
  | migrateRelease (found : Manifest) (parents : List Text)
      (message author : Text)
  | writeRef (name commit : Text)

def treeStep (services : TreeServices) (history : TreeHistory) : TreeAct → Option TreeHistory
  | .commitTree found options =>
    match history.commitTree services found options with
    | .ok next => some next
    | .error _ => some history
  | .migrateRelease found parents message author =>
    let tree := found.buildSnapshot services.collate
    some ((history.saveSnapshot services tree).createCommit services tree parents message author).2
  | .writeRef name commit => some (history.writeRef name commit)

def TreeAct.found : TreeAct → Option Manifest
  | .commitTree found _ => some found
  | .migrateRelease found _ _ _ => some found
  | .writeRef _ _ => none

def TellsApart (services : TreeServices) (history : TreeHistory) (act : TreeAct) : Prop :=
  ∀ found, act.found = some found → ∀ saved ∈ history.snapshots,
    ToldApart saved.tree (found.buildSnapshot services.collate)

/-- An unchanged tree is that of its parent, and a saved tree takes no other
one's place. -/
def TreeEvent.Right : TreeEvent → Prop
  | .unchanged tree parent => ∃ stored, parent = some stored ∧ SameTree stored tree
  | .saved tree before => ∀ stored, before = some stored → SameTree stored tree

/-- Trees are saved under their ids, the snapshots of commits are saved, and
what was learned is right. -/
structure Consistent (services : TreeServices) (history : TreeHistory) : Prop where
  identified : ∀ saved ∈ history.snapshots, saved.id = snapshotId services.sha256 saved.tree
  kept : ∀ commit ∈ history.commits, ∃ saved ∈ history.snapshots, saved.id = commit.snapshot
  right : ∀ event ∈ history.log, event.Right

section

variable {services : TreeServices} {history next : TreeHistory}

theorem saved_of_readSnapshot {id : Text} {tree : Manifest}
    (stored : history.readSnapshot id = some tree) :
    ∃ saved ∈ history.snapshots, saved.id = id ∧ saved.tree = tree := by
  obtain ⟨saved, found, rfl⟩ := Option.map_eq_some_iff.mp stored
  exact ⟨saved, List.mem_of_find?_eq_some found,
    by simpa using List.find?_some found, rfl⟩

theorem exists_readSnapshot {saved : SavedTree} (member : saved ∈ history.snapshots) :
    ∃ tree, history.readSnapshot saved.id = some tree := by
  have found : (history.snapshots.find? (·.id = saved.id)).isSome := by
    rw [List.find?_isSome]
    exact ⟨saved, member, by simp⟩
  obtain ⟨other, found⟩ := Option.isSome_iff_exists.mp found
  exact ⟨other.tree, by rw [TreeHistory.readSnapshot, found]; rfl⟩

section

variable {tree : Manifest} (injective : Function.Injective services.sha256)
  (consistent : Consistent services history)
  (apart : ∀ saved ∈ history.snapshots, ToldApart saved.tree tree)

include injective consistent apart

theorem sameTree_of_stored {stored : Manifest}
    (found : history.readSnapshot (snapshotId services.sha256 tree) =
      some stored) : SameTree stored tree := by
  obtain ⟨saved, member, id, rfl⟩ := saved_of_readSnapshot found
  rw [consistent.identified saved member] at id
  exact (sameTree_of_snapshotId_iff injective).mpr (apart saved member) id

theorem consistent_saveSnapshot : Consistent services (history.saveSnapshot services tree) where
  identified := by
    intro saved member
    simp only [TreeHistory.saveSnapshot, List.mem_append, List.mem_filter,
      List.mem_singleton] at member
    rcases member with ⟨older, _⟩ | rfl
    · exact consistent.identified saved older
    · rfl
  kept := by
    intro commit member
    obtain ⟨saved, stored, id⟩ := consistent.kept commit member
    by_cases replaced : saved.id = snapshotId services.sha256 tree
    · refine ⟨⟨snapshotId services.sha256 tree, tree⟩, ?_, ?_⟩
      · simp [TreeHistory.saveSnapshot]
      · rw [← id, replaced]
    · refine ⟨saved, ?_, id⟩
      simp [TreeHistory.saveSnapshot, stored, replaced]
  right := by
    intro event member
    simp only [TreeHistory.saveSnapshot, List.mem_append, List.mem_singleton] at member
    rcases member with older | rfl
    · exact consistent.right event older
    · intro stored found
      exact sameTree_of_stored injective consistent apart found

end

theorem consistent_createCommit (consistent : Consistent services history)
    {tree : Manifest} {parents : List Text} {message author : Text}
    (stored : ∃ saved ∈ history.snapshots, saved.id = snapshotId services.sha256 tree) :
    Consistent services (history.createCommit services tree parents message author).2 where
  identified := consistent.identified
  kept := by
    intro commit member
    simp only [TreeHistory.createCommit, TreeHistory.writeCommit,
      List.mem_append, List.mem_filter, List.mem_singleton] at member
    rcases member with ⟨older, _⟩ | rfl
    · exact consistent.kept commit older
    · exact stored
  right := consistent.right

theorem consistent_record (injective : Function.Injective services.sha256)
    (consistent : Consistent services history) {tree : Manifest}
    (apart : ∀ saved ∈ history.snapshots, ToldApart saved.tree tree)
    (parents : List Text) (message author : Text) :
    Consistent services ((history.saveSnapshot services tree).createCommit
      services tree parents message author).2 := by
  have saved := consistent_saveSnapshot injective consistent apart
  refine consistent_createCommit saved ⟨⟨snapshotId services.sha256 tree, tree⟩, ?_, rfl⟩
  simp [TreeHistory.saveSnapshot]

theorem consistent_writeRef (consistent : Consistent services history) (name commit : Text) :
    Consistent services (history.writeRef name commit) where
  identified := consistent.identified
  kept := consistent.kept
  right := consistent.right

theorem consistent_commitTree (injective : Function.Injective services.sha256)
    (consistent : Consistent services history) {found : Manifest} {options : TreeCommit}
    (apart : ∀ saved ∈ history.snapshots,
      ToldApart saved.tree (found.buildSnapshot services.collate))
    (taken : history.commitTree services found options = .ok next) :
    Consistent services next := by
  obtain ⟨refKey, _, taken⟩ := bind_eq_ok_iff.mp taken
  dsimp only at taken
  split at taken
  · next commit unchanged =>
      obtain ⟨head, same⟩ := Option.filter_eq_some_iff.mp unchanged
      obtain ⟨ref, _, read⟩ := Option.bind_eq_some_iff.mp head
      have member : commit ∈ history.commits := by
        unfold TreeHistory.readCommit at read
        split at read
        · cases read
        · exact List.mem_of_find?_eq_some read
      simp only [Bool.and_eq_true, decide_eq_true_eq] at same
      obtain ⟨id, _⟩ := same
      obtain ⟨saved, stored, savedId⟩ := consistent.kept commit member
      obtain ⟨parent, parentRead⟩ := exists_readSnapshot stored
      rw [savedId] at parentRead
      cases taken
      refine ⟨consistent.identified, consistent.kept, ?_⟩
      intro event learned
      rcases List.mem_append.mp learned with older | latest
      · exact consistent.right event older
      · rw [List.mem_singleton.mp latest]
        refine ⟨parent, parentRead, ?_⟩
        rw [id] at parentRead
        exact sameTree_of_stored injective consistent apart parentRead
  · cases taken
    exact consistent_writeRef (consistent_record injective consistent apart _ _ _) _ _

theorem consistent_treeStep (injective : Function.Injective services.sha256)
    (consistent : Consistent services history) {act : TreeAct}
    (apart : TellsApart services history act)
    (taken : treeStep services history act = some next) :
    Consistent services next := by
  cases act with
  | commitTree found options =>
    cases committed : history.commitTree services found options with
    | ok other =>
      simp only [treeStep, committed, Option.some.injEq] at taken
      subst taken
      exact consistent_commitTree injective consistent (apart found rfl) committed
    | error refused =>
      simp only [treeStep, committed, Option.some.injEq] at taken
      subst taken
      exact consistent
  | migrateRelease found parents message author =>
    cases taken
    exact consistent_record injective consistent (apart found rfl) _ _ _
  | writeRef name commit =>
    cases taken
    exact consistent_writeRef consistent name commit

theorem saved_of_treeStep {act : TreeAct} {saved : SavedTree}
    (taken : treeStep services history act = some next) (member : saved ∈ next.snapshots) :
    saved ∈ history.snapshots ∨ ∃ found, act.found = some found ∧
      saved.tree = found.buildSnapshot services.collate := by
  have recorded : ∀ tree : Manifest, saved ∈ (history.saveSnapshot services tree).snapshots →
        saved ∈ history.snapshots ∨ saved.tree = tree := by
    intro tree stored
    simp only [TreeHistory.saveSnapshot, List.mem_append, List.mem_filter,
      List.mem_singleton] at stored
    rcases stored with ⟨older, _⟩ | rfl
    · exact Or.inl older
    · exact Or.inr rfl
  cases act with
  | commitTree found options =>
    cases committed : history.commitTree services found options with
    | ok other =>
      simp only [treeStep, committed, Option.some.injEq] at taken
      subst taken
      obtain ⟨refKey, _, committed⟩ := bind_eq_ok_iff.mp committed
      dsimp only at committed
      split at committed
      · cases committed
        exact Or.inl member
      · cases committed
        exact (recorded _ member).imp_right fun same => ⟨found, rfl, same⟩
    | error refused =>
      simp only [treeStep, committed, Option.some.injEq] at taken
      subst taken
      exact Or.inl member
  | migrateRelease found parents message author =>
    cases taken
    exact (recorded _ member).imp_right fun same => ⟨found, rfl, same⟩
  | writeRef name commit =>
    cases taken
    exact Or.inl member

theorem stepsMeet_of_toldApart {Known : Manifest → Prop}
    (apart : ∀ first second, Known first → Known second → ToldApart first second)
    {acts : List TreeAct}
    (known : ∀ act ∈ acts, ∀ found, act.found = some found →
      Known (found.buildSnapshot services.collate)) :
    StepsMeet (treeStep services) (TellsApart services) {} acts := by
  apply stepsMeet_of_invariant (fun history => ∀ saved ∈ history.snapshots, Known saved.tree)
    (fun act => ∀ found, act.found = some found → Known (found.buildSnapshot services.collate))
  · intro history act stored committed found present saved member
    exact apart _ _ (stored saved member) (committed found present)
  · intro history act next stored committed taken saved member
    rcases saved_of_treeStep taken member with older | ⟨found, present, same⟩
    · exact stored saved older
    · rw [same]
      exact committed found present
  · intro saved absent
    cases absent
  · exact known

end

/-- Two snapshots have different ids, unless they are the same tree, if and
only if they are told apart.  While every tree is told apart from those that
are saved, a tree is only found unchanged when it is that of its parent, and
no tree is saved in place of another one. -/
theorem snapshotIds_injective (services : TreeServices)
    (injective : Function.Injective services.sha256) :
    (∀ first second : Manifest,
      (snapshotId services.sha256 (first.buildSnapshot services.collate) =
          snapshotId services.sha256 (second.buildSnapshot services.collate) →
        SameTree (first.buildSnapshot services.collate) (second.buildSnapshot services.collate)) ↔
        ToldApart (first.buildSnapshot services.collate) (second.buildSnapshot services.collate)) ∧
      ∀ acts history, StepsMeet (treeStep services) (TellsApart services) {} acts →
          runFrom (treeStep services) {} acts = some history →
            ∀ event ∈ history.log, event.Right := by
  constructor
  · intro first second
    exact sameTree_of_snapshotId_iff injective
  · intro acts history meets executed
    have empty : Consistent services {} :=
      ⟨fun _ absent => (nomatch absent), fun _ absent => (nomatch absent),
        fun _ absent => (nomatch absent)⟩
    have consistent := invariant_of_stepsMeet (Consistent services)
      (fun _ _ _ held apart taken => consistent_treeStep injective held apart taken)
      empty meets executed
    exact consistent.right

def helloHash : Text :=
  "2cf24dba5fb0a30e26e83b2ac5b9e29e1b161e5c1fa7425e73043362938b9824".toList

def worldHash : Text :=
  "486ea46224d1bb4fb680f34f7c9ad96a8f24ec88be73ea8e5a6c65260e9cb8a7".toList

def filesTree (entries : List SnapshotEntry) (paths : ∀ entry ∈ entries,
      normalizeFsPath entry.path = some entry.path)
    (distinct : (entries.map SnapshotEntry.path).Nodup)
    (hashes : ∀ entry ∈ entries, isDigest entry.hash = true) :
    Manifest where
  entries := entries
  mounts := []
  pathPrefix := []
  paths := paths
  distinct := distinct
  hashes := hashes
  mounted := by simp
  configHashes := by simp
  tokens := by simp

def textEntry (path hash : Text) : SnapshotEntry :=
  ⟨path, hash, "text/plain".toList, 5⟩

def singleFile : Manifest :=
  filesTree [textEntry ['a'] helloHash] (by decide) (by decide) (by decide)

def twoFiles : Manifest :=
  filesTree [textEntry ['a'] helloHash, textEntry ['b'] worldHash]
    (by decide) (by decide) (by decide)

def lineBreakFile : Manifest :=
  filesTree [textEntry ('a' :: '\n' :: worldHash ++ [' ', 'b']) helloHash]
    (by decide) (by decide) (by decide)

def singleFileDigest : Text :=
  "f5882fc22a68e4fda61ac7909fbb0395d2b4e03b54b44466e4cbfbc9c2dbf3d0".toList

def twoFilesDigest : Text :=
  "845ab584df75ec4d6baddc0c90422abb41e3b5dd7ce24f1f3c553c7edddbdfaf".toList

def digestOf (first firstDigest second secondDigest text : Text) : Text :=
  if text = first then firstDigest
  else if text = second then secondDigest
  else 'x' :: text

theorem digestOf_injective {first firstDigest second secondDigest : Text}
    (different : firstDigest ≠ secondDigest) (firstKnown : firstDigest.head? ≠ some 'x')
    (secondKnown : secondDigest.head? ≠ some 'x') :
    Function.Injective (digestOf first firstDigest second secondDigest) := by
  intro one two same
  have firstElse : ∀ rest, firstDigest ≠ 'x' :: rest := by
    rintro rest rfl
    exact firstKnown rfl
  have secondElse : ∀ rest, secondDigest ≠ 'x' :: rest := by
    rintro rest rfl
    exact secondKnown rfl
  by_cases oneKnown : one = first ∨ one = second <;>
    by_cases twoKnown : two = first ∨ two = second <;> grind [digestOf]

/-- The digests of `singleFile` and `twoFiles` are the real ones. -/
def sha256Sample : Text → Text :=
  digestOf (joinWith '\n' (snapshotLines singleFile)) singleFileDigest
    (joinWith '\n' (snapshotLines twoFiles)) twoFilesDigest

def sampleServices : TreeServices where
  collate := fun first second => decide (first ≤ second)
  sha256 := sha256Sample
  commitId := fun body => 'c' :: body.snapshot
  now := 1

def sampleOptions : TreeCommit where
  message := ['m']
  author := ['u']
  ref := []
  parents := none

def sampleRun : List TreeAct :=
  [.commitTree singleFile sampleOptions, .commitTree singleFile sampleOptions,
    .commitTree twoFiles sampleOptions]

theorem toldApart_samples {first second : Manifest} (knownFirst : first ∈
      [singleFile, twoFiles].map (·.buildSnapshot sampleServices.collate))
    (knownSecond : second ∈ [singleFile, twoFiles].map (·.buildSnapshot sampleServices.collate)) :
    ToldApart first second := by
  have plain : ∀ tree ∈ [singleFile, twoFiles].map (·.buildSnapshot sampleServices.collate),
      Unbroken tree ∧ tree.mounts = [] := by
    decide
  obtain ⟨unbrokenFirst, none⟩ := plain first knownFirst
  obtain ⟨unbrokenSecond, _⟩ := plain second knownSecond
  apply toldApart_of_separatesLines (separatesLines_of_unbroken unbrokenFirst)
    (separatesLines_of_unbroken unbrokenSecond)
  intro mount member
  rw [none] at member
  cases member

theorem snapshotIds_injective_samples :
    (snapshotId sampleServices.sha256 (singleFile.buildSnapshot sampleServices.collate) =
        snapshotId sampleServices.sha256 (twoFiles.buildSnapshot sampleServices.collate) →
      SameTree (singleFile.buildSnapshot sampleServices.collate)
        (twoFiles.buildSnapshot sampleServices.collate)) ∧
      ∃ history, runFrom (treeStep sampleServices) {} sampleRun = some history ∧
          history.log.length = 3 ∧ ∀ event ∈ history.log, event.Right := by
  have separate := snapshotIds_injective sampleServices
    (digestOf_injective (by decide) (by decide) (by decide))
  constructor
  · exact (separate.1 singleFile twoFiles).mpr (toldApart_samples (by simp) (by simp))
  · have executed : (runFrom (treeStep sampleServices) {} sampleRun).map
        (·.log.length) = some 3 := by
      decide +kernel
    obtain ⟨history, executed, events⟩ := Option.map_eq_some_iff.mp executed
    refine ⟨history, executed, events, ?_⟩
    refine separate.2 sampleRun history ?_ executed
    apply stepsMeet_of_toldApart fun _ _ => toldApart_samples
    intro act member found present
    simp only [sampleRun, List.mem_cons, List.not_mem_nil, or_false] at member
    rcases member with rfl | rfl | rfl <;> cases present <;> simp

/-- The two manifests are one text. -/
theorem snapshotIds_collide :
    ¬∀ sha256 : Text → Text, Function.Injective sha256 →
      snapshotId sha256 (lineBreakFile.buildSnapshot sampleServices.collate) =
          snapshotId sha256 (twoFiles.buildSnapshot sampleServices.collate) →
        SameTree (lineBreakFile.buildSnapshot sampleServices.collate)
          (twoFiles.buildSnapshot sampleServices.collate) := by
  intro separate
  have same := separate id Function.injective_id (by decide +kernel)
  have inside := (same.files ['b'] worldHash).mpr (by decide +kernel)
  exact absurd inside (by decide +kernel)

end Aprovan.Vcs
