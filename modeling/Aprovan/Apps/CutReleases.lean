import Aprovan.Apps.InstallTrees
import Aprovan.Library.Runs

/-!
# Cut releases

Where the tree has not changed a release is cut on the app's head, so that
several releases lie on one commit; notes are read back from its message.
Saving the manifest does not fail.
-/

namespace Aprovan.Apps

open Aprovan.Library Aprovan.Server Aprovan.Fs Aprovan.Vcs
open Aprovan.Vfs (appRoot)

/-- `newReleaseId`: base 36, a hyphen and hexadecimal digits. -/
structure ReleaseId where
  text : Text
  nonempty : text ≠ []
  plain : ∀ letter ∈ text, isRefLetter letter = true

/-- A letter that `.` does not match. -/
def isLineEnd (letter : Char) : Bool :=
  letter = '\n' || letter = '\r' || letter.toNat = 0x2028 || letter.toNat = 0x2029

/-- `(?::\s*(.+))?$`, trimmed: `.` stops at the end of a line. -/
def notesTail : Text → Option Text
  | ':' :: tail =>
    let notes := tail.dropWhile isSpace
    if notes.any isLineEnd then none else some (trim notes) |>.filter (· ≠ [])
  | _ => none

/-- `/^Release [^\n:]+(?::\s*(.+))?$/u` on the trimmed message. -/
def notesFromMessage (message : Text) : Option Text :=
  let message := trim message
  if "Release ".toList.isPrefixOf message then
    let rest := message.drop 8
    let named := fun letter : Char => letter ≠ '\n' && letter ≠ ':'
    if rest.takeWhile named = [] then none else notesTail (rest.dropWhile named)
  else none

/-- Up to surrounding white space, and without notes none are read. -/
def SameNotes (read notes : Option Text) : Prop :=
  trim (read.getD []) = trim (notes.getD [])

theorem not_isSpace_of_isRefLetter {letter : Char}
    (plain : isRefLetter letter = true) : isSpace letter = false := by
  have range : 45 ≤ letter.toNat ∧ letter.toNat ≤ 122 := by
    simp only [isRefLetter, Char.isAlphanum, Char.isAlpha, Char.isUpper,
      Char.isLower, Char.isDigit, Bool.or_eq_true, Bool.and_eq_true,
      decide_eq_true_eq, ge_iff_le, UInt32.le_iff_toNat_le] at plain
    rcases plain with (((upper | lower) | digit) | rfl) | rfl
    · exact ⟨le_trans (by decide) upper.1, le_trans upper.2 (by decide)⟩
    · exact ⟨le_trans (by decide) lower.1, le_trans lower.2 (by decide)⟩
    · exact ⟨le_trans (by decide) digit.1, le_trans digit.2 (by decide)⟩
    · decide
    · decide
  simp only [isSpace, Bool.or_eq_false_iff, Bool.and_eq_false_iff, decide_eq_false_iff_not]
  omega

theorem head?_dropWhile_isSpace (text : Text) :
    ∀ letter ∈ (text.dropWhile isSpace).head?, isSpace letter = false := by
  intro letter isHead
  have stopped := List.head?_dropWhile_not isSpace text
  rw [Option.mem_def.mp isHead] at stopped
  simpa using stopped

theorem dropWhile_isSpace_eq {text : Text}
    (first : ∀ letter ∈ text.head?, isSpace letter = false) :
    text.dropWhile isSpace = text := by
  cases text with
  | nil => rfl
  | cons letter rest =>
    have plain := first letter rfl
    rw [List.dropWhile_cons_of_neg (by simp [plain])]

/-- A text that begins and ends with something else than white space. -/
theorem trim_eq_self {text : Text} (first : ∀ letter ∈ text.head?, isSpace letter = false)
    (last : ∀ letter ∈ text.getLast?, isSpace letter = false) :
    trim text = text := by
  rw [← List.head?_reverse] at last
  rw [trim, dropWhile_isSpace_eq first, dropWhile_isSpace_eq last, List.reverse_reverse]

theorem trim_ends (text : Text) :
    (∀ letter ∈ (trim text).head?, isSpace letter = false) ∧
      ∀ letter ∈ (trim text).getLast?, isSpace letter = false := by
  constructor
  · intro letter isHead
    obtain ⟨cut, same⟩ : ((text.dropWhile isSpace).reverse).dropWhile
        isSpace <:+ (text.dropWhile isSpace).reverse :=
      List.dropWhile_suffix isSpace
    have inner := congrArg List.reverse same
    rw [List.reverse_append, List.reverse_reverse] at inner
    apply head?_dropWhile_isSpace text letter
    rw [← inner]
    exact List.mem_head?_append_of_mem_head? isHead
  · rw [trim, List.getLast?_reverse]
    exact head?_dropWhile_isSpace _

theorem notesFromMessage_of_parts (id : ReleaseId) {tail : Text}
    (stops : ∀ letter ∈ tail.head?, letter = ':')
    (last : ∀ letter ∈ (id.text ++ tail).getLast?, isSpace letter = false) :
    notesFromMessage ("Release ".toList ++ (id.text ++ tail)) = notesTail tail := by
  have named : ∀ letter ∈ id.text, (letter ≠ '\n' && letter ≠ ':') = true := by
    intro letter member
    have plain := id.plain letter member
    by_cases lineEnd : letter = '\n'
    · rw [lineEnd] at plain
      cases plain
    · by_cases colon : letter = ':'
      · rw [colon] at plain
        cases plain
      · simp [lineEnd, colon]
  have trimmed : trim ("Release ".toList ++ (id.text ++ tail)) =
      "Release ".toList ++ (id.text ++ tail) := by
    apply trim_eq_self
    · intro letter isHead
      cases isHead
      decide
    · rw [List.getLast?_append_of_ne_nil _ (by simp [id.nonempty])]
      exact last
  have stopped : tail.takeWhile (fun letter : Char =>
      letter ≠ '\n' && letter ≠ ':') = [] ∧
      tail.dropWhile (fun letter : Char =>
        letter ≠ '\n' && letter ≠ ':') = tail := by
    cases tail with
    | nil => exact ⟨rfl, rfl⟩
    | cons colon body =>
      rw [stops colon rfl]
      exact ⟨rfl, rfl⟩
  unfold notesFromMessage
  simp only [trimmed]
  rw [if_pos (by simp), show (("Release ".toList ++ (id.text ++ tail)).drop 8)
    = id.text ++ tail from rfl, List.takeWhile_append_of_pos named,
    List.dropWhile_append_of_pos named, stopped.1, stopped.2,
    List.append_nil, if_neg id.nonempty]

/-- The notes of a new commit come back unless they run over a line. -/
theorem sameNotes_releaseMessage_iff (id : ReleaseId) (notes : Option Text) :
    SameNotes (notesFromMessage (releaseMessage id.text notes)) notes ↔
      (trim (notes.getD [])).any isLineEnd = false := by
  obtain ⟨first, last⟩ := trim_ends (notes.getD [])
  unfold SameNotes releaseMessage
  cases isNotes : trim (notes.getD []) with
  | nil =>
    have read := @notesFromMessage_of_parts id [] nofun (by
      intro letter isLast
      rw [List.append_nil] at isLast
      exact not_isSpace_of_isRefLetter (id.plain letter (List.mem_of_mem_getLast? isLast)))
    rw [List.append_nil] at read
    rw [read]
    exact iff_of_true rfl rfl
  | cons start others =>
    rw [isNotes] at first last
    have read := @notesFromMessage_of_parts id
      (": ".toList ++ (start :: others)) (by simp) (by
        rw [← List.append_assoc, List.getLast?_append_of_ne_nil _ (List.cons_ne_nil _ _)]
        exact last)
    have body : (' ' :: start :: others).dropWhile isSpace = start :: others := by
      rw [List.dropWhile_cons_of_pos (by decide), dropWhile_isSpace_eq first]
    have trimmed := trim_eq_self first last
    have tail : notesTail (": ".toList ++ (start :: others)) =
        if (start :: others).any isLineEnd then none else some (start :: others) := by
      show notesTail (':' :: ' ' :: start :: others) = _
      simp only [notesTail, body, trimmed]
      rfl
    simp only [List.append_assoc, read, tail]
    by_cases lineEnd : (start :: others).any isLineEnd = true
    · rw [if_pos lineEnd, lineEnd]
      exact iff_of_false nofun nofun
    · rw [if_neg lineEnd]
      exact iff_of_true trimmed (Bool.eq_false_iff.mpr lineEnd)

/-- No digest is empty. -/
structure CutServices extends VcsServices where
  commitIds : ∀ body, commitId body ≠ []

structure CutOptions where
  releaseId : ReleaseId
  channel : Text
  (notes createdBy : Option Text)

/-- What is committed for a release, and whether the commit is a new one. -/
structure CutCommit where
  channel : Text
  manifest : AppManifest
  commit : VcsCommit
  created : Bool
  history : History

def headOf (history : History) (ref : Text) : Option VcsCommit :=
  (history.readRef ref).bind fun ref => history.readCommit ref.commit

def noManifest (appId : Text) : ServiceError where
  message := "Unknown app: ".toList ++ appId
  status := 404

namespace Origin

variable (origin : Origin) (services : VcsServices) (appId : Text)

/-- `commitTree` of a subtree. -/
def commitTree (pathPrefix message author ref : Text) : Outcome (VcsCommit × Bool × History) := do
  let refKey ← refName ref
  let snapshot := buildSnapshot services (visibleEntries origin.store pathPrefix) pathPrefix
  let head := headOf origin.history refKey
  match head.filter (·.snapshot = snapshot.id) with
  | some head => return (head, false, origin.history)
  | none =>
    let (commit, history) := createCommit services (origin.history.saveSnapshot snapshot) snapshot
      (head.map VcsCommit.id).toList message author
    return (commit, true, history.writeRef refKey commit.id)

def commitApp (options : CutOptions) : Outcome CutCommit :=
  match origin.readApp appId with
  | none => .error (noManifest appId)
  | some manifest => do
      let channel ← channelName options.channel
      let pathPrefix ← appRoot manifest.appPaths
      let (commit, created, history) ← origin.commitTree services pathPrefix
        (releaseMessage options.releaseId.text options.notes)
        (options.createdBy.getD "system".toList) (appRefName appId)
      return {
        channel := channel
        manifest := manifest
        commit := commit
        created := created
        history := history }

/-- `pointChannel`, which answers with the channel. -/
def pointChannel (manifest : AppManifest)
    (channel releaseId commitId : Text) : Outcome Text × Origin :=
  match moveChannel origin.history (channelRefName manifest.appId channel) commitId with
  | .error thrown => (.error thrown, origin)
  | .ok moved =>
    let next := { manifest with
        channels := manifest.channels.filter (·.1 ≠ channel) ++ [(channel, releaseId)] }
    (.ok channel, { origin with
        history := moved
        apps := origin.apps.map fun app =>
          if app.appId = next.appId then next else app })

/-- `cutRelease`, which answers with the channel it was cut for. -/
def cutRelease (options : CutOptions) : Outcome Text × Origin :=
  match migrateLegacyReleasesIfNeeded services origin appId with
  | (.error thrown, reached) => (.error thrown, reached)
  | (.ok _, reached) =>
    match reached.commitApp services appId options with
    | .error thrown => (.error thrown, reached)
    | .ok made =>
      let committed := { reached with history := made.history }
      match writeTag made.history (tagRefName appId options.releaseId.text) made.commit.id with
      | .error thrown => (.error thrown, committed)
      | .ok tagged =>
        { committed with history := tagged }.pointChannel
          made.manifest made.channel options.releaseId.text
          made.commit.id

/-- Point a channel at the commit of a release, which has been looked up. -/
def pointRelease (channel releaseId : Text) : Outcome Text × Origin :=
  match migrateLegacyReleasesIfNeeded services origin appId with
  | (.error thrown, reached) => (.error thrown, reached)
  | (.ok _, reached) =>
    match channelName channel, reached.readApp appId,
        headOf reached.history (tagRefName appId releaseId) with
    | .ok channel, some manifest, some commit =>
      reached.pointChannel manifest channel releaseId commit.id
    | .error thrown, _, _ => (.error thrown, reached)
    | _, _, _ => (.error (noManifest appId), reached)

end Origin

section

variable {history : History} {appId channel releaseId commitId : Text}

/-- A channel at the commit is served as the release: no tag is named like
the channel, and none on the commit sorts later. -/
def ServedAs (history : History) (appId channel releaseId commitId : Text) : Prop :=
  channel = releaseId ∨ (history.readRef (tagRefName appId channel) = none ∧
      ∀ id, ⟨tagRefName appId id, commitId⟩ ∈ history.refs → id ≤ releaseId)

theorem tagRefName_ne {id name : Text} {letter : Char}
    (start : name.head? = some letter) (other : letter ≠ 't') :
    tagRefName appId id ≠ name := by
  intro same
  rw [← same] at start
  exact other (Option.some.inj start).symm

theorem servedAs_writeRef_iff {name commit : Text}
    (tags : ∀ id, tagRefName appId id = name → id = releaseId) :
    ServedAs (history.writeRef name commit) appId channel releaseId commitId ↔
      ServedAs history appId channel releaseId commitId := by
  by_cases same : channel = releaseId
  · exact iff_of_true (Or.inl same) (Or.inl same)
  · unfold ServedAs
    rw [readRef_writeRef_of_ne fun isName => same (tags _ isName)]
    apply or_congr_right
    apply and_congr_right
    intro _
    apply forall_congr'
    intro id
    by_cases isName : tagRefName appId id = name
    · rw [tags id isName]
      exact iff_of_true (fun _ => le_rfl) fun _ => le_rfl
    · simp [History.writeRef, isName]

theorem mem_names_iff {root id : Text} :
    id ∈ (((history.listRefs root).filter (·.commit = commitId)).filterMap fun ref =>
          if (root ++ ['/']).isPrefixOf ref.name then some (ref.name.drop (root ++ ['/']).length)
          else none).filter (· ≠ []) ↔
      id ≠ [] ∧ ⟨root ++ '/' :: id, commitId⟩ ∈ history.refs := by
  rw [List.mem_filter, List.mem_filterMap, and_comm, decide_eq_true_iff]
  apply and_congr_right
  intro _
  constructor
  · rintro ⟨⟨name, commit⟩, member, isId⟩
    simp only [List.mem_filter, decide_eq_true_eq, History.listRefs] at member
    split at isId
    · next isBelow =>
        obtain ⟨rest, rfl⟩ := List.isPrefixOf_iff_prefix.mp isBelow
        rw [List.drop_left, Option.some.injEq] at isId
        rw [← isId, ← member.2]
        simpa using member.1.1
    · cases isId
  · intro member
    have under : underPath (root ++ '/' :: id) root = true := isUnder_iff.mpr (Or.inr ⟨id, rfl⟩)
    refine ⟨_, List.mem_filter.mpr ⟨List.mem_filter.mpr ⟨member, under⟩, decide_eq_true rfl⟩, ?_⟩
    have named : root ++ '/' :: id = root ++ ['/'] ++ id := by simp
    show (if _ then some ((root ++ '/' :: id).drop _) else none) = _
    rw [named, if_pos (List.isPrefixOf_iff_prefix.mpr (List.prefix_append _ _)), List.drop_left]

theorem mem_of_readRef {name : Text} {ref : VcsRef} (found : history.readRef name = some ref) :
    ⟨name, ref.commit⟩ ∈ history.refs := by
  unfold History.readRef at found
  have named := List.find?_some found
  rw [← of_decide_eq_true named]
  exact List.mem_of_find?_eq_some found

/-- The tags of a commit are read back, and the last of them names it. -/
theorem releaseIdForCommit_of_tagged (nonempty : releaseId ≠ [])
    (tagged : ⟨tagRefName appId releaseId, commitId⟩ ∈ history.refs) :
    ∃ last, releaseIdForCommit history appId commitId = some last ∧
      last ≠ [] ∧ ⟨tagRefName appId last, commitId⟩ ∈ history.refs ∧
      ∀ id, id ≠ [] → ⟨tagRefName appId id, commitId⟩ ∈ history.refs → id ≤ last := by
  unfold releaseIdForCommit tagRefName at *
  have hit := @mem_names_iff history commitId ("tag/app/".toList ++ appId)
  simp only
  generalize "tag/app/".toList ++ appId = root at *
  generalize List.filter _ _ = ids at *
  have ordered := List.pairwise_insertionSort (· ≤ ·) ids
  have member := (List.mem_insertionSort (· ≤ ·)).mpr (hit.mpr ⟨nonempty, tagged⟩)
  generalize isSorted : ids.insertionSort (· ≤ ·) = sorted at *
  have found := List.getLast?_eq_some_getLast (List.ne_nil_of_mem member)
  have isHit : ∀ id, id ∈ sorted ↔ id ≠ [] ∧ ⟨root ++ '/' :: id, commitId⟩ ∈ history.refs := by
    intro id
    rw [← isSorted, List.mem_insertionSort, hit]
  have last := (isHit _).mp (List.getLast_mem (List.ne_nil_of_mem member))
  exact ⟨_, found, last.1, last.2, fun id kept other =>
    ordered.rel_getLast ((isHit id).mpr ⟨kept, other⟩)⟩

def releaseNotes (history : History) (release : ResolvedRelease) : Option Text :=
  (history.readCommit release.commitId).bind fun commit => notesFromMessage commit.message

/-- A name is resolved to a release with such notes. -/
def Resolves (services : VcsServices) (fuel : Nat) (origin : Origin)
    (appId name releaseId : Text) (reads : Option Text → Prop) : Prop :=
  ∃ release reached, resolveRelease services fuel origin appId name =
        (.answered (some release), reached) ∧
      release.releaseId = releaseId ∧
      reads (releaseNotes reached.history release)

variable {services : VcsServices} {fuel : Nat} {origin : Origin}
  {commit : VcsCommit} {reads : Option Text → Prop}

theorem resolves_tag_iff (settled : origin.legacyOf appId = []) (nonempty : releaseId ≠ [])
    (tagged : headOf origin.history (tagRefName appId releaseId) = some commit) :
    Resolves services (fuel + 1) origin appId releaseId releaseId reads ↔
      reads (notesFromMessage commit.message) := by
  obtain ⟨ref, isRef, isCommit⟩ := Option.bind_eq_some_iff.mp tagged
  have named := (readCommit_eq_some isCommit).2
  have resolved : resolveRelease services (fuel + 1) origin appId releaseId =
      (.answered (some ⟨releaseId, commit.id, commit.snapshot⟩), origin) := by
    rw [resolveRelease, migrateLegacyReleasesIfNeeded]
    simp [settled, lookupRelease, nonempty, isRef, isCommit]
  unfold Resolves
  simp [resolved, releaseNotes, named, isCommit]

theorem resolves_channel_iff (settled : origin.legacyOf appId = [])
    (nonempty : releaseId ≠ []) (named : channel ≠ [])
    (tagged : headOf origin.history (tagRefName appId releaseId) = some commit)
    (pointed : headOf origin.history (channelRefName appId channel) = some commit) :
    Resolves services (fuel + 1) origin appId channel releaseId reads ↔
      ServedAs origin.history appId channel releaseId commit.id ∧
        reads (notesFromMessage commit.message) := by
  by_cases same : channel = releaseId
  · rw [same, resolves_tag_iff settled nonempty tagged]
    exact (and_iff_right (Or.inl rfl)).symm
  obtain ⟨tag, isTag, tagCommit⟩ := Option.bind_eq_some_iff.mp tagged
  obtain ⟨ref, isRef, isCommit⟩ := Option.bind_eq_some_iff.mp pointed
  have sameId := (readCommit_eq_some isCommit).2.symm
  rw [sameId] at isCommit
  have isMember := mem_of_readRef isTag
  rw [← (readCommit_eq_some tagCommit).2] at isMember
  obtain ⟨last, isLast, kept, lastTag, latest⟩ :=
    releaseIdForCommit_of_tagged nonempty isMember
  have resolved : resolveRelease services (fuel + 1) origin appId channel =
      (lookupRelease origin appId (fuel + 1) channel, origin) := by
    rw [resolveRelease, migrateLegacyReleasesIfNeeded, if_pos settled]
  unfold Resolves ServedAs
  rw [resolved, lookupRelease, if_neg named]
  cases other : origin.history.readRef (tagRefName appId channel) with
  | some found =>
    cases kept : origin.history.readCommit found.commit <;>
      simp [kept, same]
  | none =>
    have served : last = releaseId ↔ ∀ id,
        ⟨tagRefName appId id, commit.id⟩ ∈ origin.history.refs → id ≤ releaseId := by
      constructor
      · rintro rfl id other
        by_cases empty : id = []
        · rw [empty]
          exact not_lt.mp (List.not_lt_nil _)
        · exact latest id empty other
      · intro all
        exact le_antisymm (all _ lastTag) (latest _ nonempty isMember)
    simp [isRef, isCommit, isLast, kept, same, releaseNotes, served, sameId]

end

section

variable {origin last : Origin} {appId channel releaseId : Text}

theorem eq_of_refName {name key : Text} (nonempty : name ≠ [])
    (named : refName name = .ok key) : key = name := by
  rw [refName, if_neg nonempty] at named
  split at named
  · cases named
    rfl
  · cases named

theorem channelName_ne_nil {value : Text}
    (named : channelName value = .ok channel) : channel ≠ [] := by
  unfold channelName at named
  split at named
  · cases named
    decide
  · next nonempty =>
      split at named
      · cases named
        exact nonempty
      · cases named

theorem appId_of_readApp {manifest : AppManifest} (found : origin.readApp appId = some manifest) :
    manifest.appId = appId := by
  unfold Origin.readApp at found
  have named := List.find?_some found
  exact of_decide_eq_true named

theorem readCommit_writeCommit {history : History} {commit : VcsCommit}
    (nonempty : commit.id ≠ []) :
    (history.writeCommit commit).readCommit commit.id = some commit := by
  rw [History.readCommit, if_neg nonempty, History.writeCommit,
    List.find?_append, List.find?_eq_none.mpr, Option.none_or,
    List.find?_cons_of_pos (by simp)]
  intro other member
  simpa using (List.mem_filter.mp member).2

theorem tagRefName_ne_nil : tagRefName appId releaseId ≠ [] :=
  List.append_ne_nil_of_right_ne_nil _ (List.cons_ne_nil _ _)

theorem channelRefName_ne_nil : channelRefName appId channel ≠ [] :=
  List.append_ne_nil_of_right_ne_nil _ (List.cons_ne_nil _ _)

theorem writeTag_eq_ok {history tagged : History} {commitId : Text}
    (written : writeTag history (tagRefName appId releaseId) commitId = .ok tagged) :
    tagged = history.writeRef (tagRefName appId releaseId) commitId := by
  rw [writeTag, bind_eq_ok_iff] at written
  obtain ⟨key, named, rest⟩ := written
  rw [eq_of_refName tagRefName_ne_nil named] at rest
  split at rest
  · cases rest
  · split at rest
    · cases rest
    · cases rest
      rfl

theorem pointChannel_eq_ok {manifest : AppManifest} {commitId answered : Text}
    (pointed : origin.pointChannel manifest channel releaseId commitId = (.ok answered, last)) :
    answered = channel ∧ last.legacy = origin.legacy ∧ last.history = origin.history.writeRef
        (channelRefName manifest.appId channel) commitId := by
  unfold Origin.pointChannel at pointed
  split at pointed
  · cases pointed
  · next moved =>
      rw [moveChannel, bind_eq_ok_iff] at moved
      obtain ⟨key, named, rest⟩ := moved
      rw [eq_of_refName channelRefName_ne_nil named] at rest
      split at rest
      · cases rest
      · cases rest
        cases pointed
        exact ⟨rfl, rfl, rfl⟩

/-- A tree is committed without touching a tag. -/
theorem commitTree_eq_ok {services : CutServices}
    {pathPrefix message author : Text} {commit : VcsCommit}
    {created : Bool} {history : History}
    (made : origin.commitTree services.toVcsServices pathPrefix message
      author (appRefName appId) = .ok (commit, created, history)) :
    history.readCommit commit.id = some commit ∧ (created = true → commit.message = message) ∧
      ∀ channel releaseId commitId, ServedAs history appId channel releaseId commitId ↔
          ServedAs origin.history appId channel releaseId commitId := by
  obtain ⟨key, named, rest⟩ := bind_eq_ok_iff.mp made
  rw [eq_of_refName (by simp [appRefName]) named] at rest
  simp only at rest
  split at rest
  · next head isHead =>
      cases rest
      obtain ⟨ref, _, found⟩ :=
        Option.bind_eq_some_iff.mp (Option.filter_eq_some_iff.mp isHead).1
      refine ⟨?_, nofun, fun _ _ _ => Iff.rfl⟩
      rw [(readCommit_eq_some found).2]
      exact found
  · cases rest
    refine ⟨?_, fun _ => rfl, fun _ _ _ =>
      (servedAs_writeRef_iff fun id impossible => ?_).trans Iff.rfl⟩
    · exact readCommit_writeCommit (services.commitIds _)
    · exact absurd impossible (tagRefName_ne rfl (by decide : 'a' ≠ 't'))

/-- The message of the landed commit gives the notes back. -/
def CutCommit.KeepsNotes (made : CutCommit) (notes : Option Text) : Prop :=
  if made.created then (trim (notes.getD [])).any isLineEnd = false
  else SameNotes (notesFromMessage made.commit.message) notes

theorem commitApp_eq_ok {services : CutServices} {options : CutOptions} {made : CutCommit}
    (landed : origin.commitApp services.toVcsServices appId options = .ok made) :
    made.manifest.appId = appId ∧ made.channel ≠ [] ∧
      made.history.readCommit made.commit.id = some made.commit ∧
      (SameNotes (notesFromMessage made.commit.message) options.notes ↔
        made.KeepsNotes options.notes) ∧
      ∀ channel releaseId commitId, ServedAs made.history appId channel releaseId commitId ↔
          ServedAs origin.history appId channel releaseId commitId := by
  unfold Origin.commitApp at landed
  split at landed
  · cases landed
  · next manifest found =>
      obtain ⟨channel, named, rest⟩ := bind_eq_ok_iff.mp landed
      obtain ⟨pathPrefix, _, rest⟩ := bind_eq_ok_iff.mp rest
      obtain ⟨⟨commit, created, history⟩, tree, rest⟩ :=
        bind_eq_ok_iff.mp rest
      obtain ⟨kept, message, tags⟩ := commitTree_eq_ok tree
      cases rest
      refine ⟨appId_of_readApp found, channelName_ne_nil named, kept, ?_, tags⟩
      unfold CutCommit.KeepsNotes
      cases created with
      | false => rfl
      | true =>
        rw [message rfl]
        exact sameNotes_releaseMessage_iff options.releaseId options.notes

theorem resolves_pointed_iff {manifest : AppManifest}
    {commit : VcsCommit} {answered : Text} (services : VcsServices)
    (fuel : Nat) (reads : Option Text → Prop)
    (settled : origin.legacyOf appId = []) (isApp : manifest.appId = appId)
    (nonempty : releaseId ≠ []) (named : channel ≠ [])
    (tagged : headOf origin.history (tagRefName appId releaseId) = some commit)
    (pointed : origin.pointChannel manifest channel releaseId commit.id = (.ok answered, last)) :
    (Resolves services (fuel + 1) last appId answered releaseId reads ↔
      ServedAs origin.history appId channel releaseId commit.id ∧
        reads (notesFromMessage commit.message)) ∧
    (Resolves services (fuel + 1) last appId releaseId releaseId reads ↔
      reads (notesFromMessage commit.message)) := by
  obtain ⟨rfl, legacy, history⟩ := pointChannel_eq_ok pointed
  rw [isApp] at history
  have untouched : ∀ id, tagRefName appId id ≠ channelRefName appId answered :=
    fun _ => tagRefName_ne rfl (by decide : 'c' ≠ 't')
  obtain ⟨ref, isRef, isCommit⟩ := Option.bind_eq_some_iff.mp tagged
  have sameId := (readCommit_eq_some isCommit).2
  have keepsTag : headOf last.history (tagRefName appId releaseId) = some commit := by
    rw [headOf, history, readRef_writeRef_of_ne (untouched _)]
    exact tagged
  have points : headOf last.history (channelRefName appId answered) = some commit := by
    rw [headOf, history, readRef_writeRef_self, sameId]
    exact isCommit
  have lastSettled : last.legacyOf appId = [] := by
    rw [Origin.legacyOf, legacy]
    exact settled
  rw [resolves_channel_iff lastSettled nonempty named keepsTag points,
    resolves_tag_iff lastSettled nonempty keepsTag, history,
    servedAs_writeRef_iff fun id same => absurd same (untouched id)]
  exact ⟨Iff.rfl, Iff.rfl⟩

end

inductive ReleaseAct where
  | edit (files : Store)
  | cut (now : Nat) (options : CutOptions)
  | point (now : Nat) (channel : Text) (releaseId : ReleaseId)

def CutServices.at (services : CutServices) (now : Nat) : CutServices := {
  services with now := now }

def releaseStep (services : CutServices) (appId : Text) (origin : Origin) :
    ReleaseAct → Option Origin
  | .edit files => some { origin with store := files }
  | .cut now options => some (origin.cutRelease (services.at now).toVcsServices appId options).2
  | .point now channel releaseId =>
    some (origin.pointRelease (services.at now).toVcsServices appId channel releaseId.text).2

/-- What was cut is resolved by its channel and by its id, with its notes,
and what a channel was pointed at is resolved by the channel. -/
def RoundTrips (services : CutServices) (fuel : Nat) (appId : Text)
    (origin : Origin) : ReleaseAct → Prop
  | .edit _ => True
  | .cut now options => ∀ channel last,
      origin.cutRelease (services.at now).toVcsServices appId options = (.ok channel, last) →
        ∀ name ∈ [channel, options.releaseId.text],
          Resolves services.toVcsServices fuel last appId name
            options.releaseId.text (SameNotes · options.notes)
  | .point now channel releaseId => ∀ named last,
      origin.pointRelease (services.at now).toVcsServices appId channel
          releaseId.text = (.ok named, last) →
        Resolves services.toVcsServices fuel last appId named releaseId.text fun _ => True

/-- No other tag takes the commit or the channel, and the message of the
commit gives the notes. -/
def TagsAgree (services : CutServices) (appId : Text) (origin : Origin) : ReleaseAct → Prop
  | .edit _ => True
  | .cut now options =>
    let services := (services.at now).toVcsServices
    let reached :=
      (migrateLegacyReleasesIfNeeded services origin appId).2
    ∀ channel last, origin.cutRelease services appId options = (.ok channel, last) →
      ∀ made, reached.commitApp services appId options = .ok made →
        ServedAs reached.history appId made.channel options.releaseId.text made.commit.id ∧
          made.KeepsNotes options.notes
  | .point now channel releaseId =>
    let services := (services.at now).toVcsServices
    let reached :=
      (migrateLegacyReleasesIfNeeded services origin appId).2
    ∀ named last, origin.pointRelease services appId channel releaseId.text = (.ok named, last) →
      ∀ commit, headOf reached.history (tagRefName appId releaseId.text) = some commit →
        ServedAs reached.history appId named releaseId.text commit.id

section

variable {services : CutServices} {appId : Text} {origin : Origin}

theorem cutRelease_exact {options : CutOptions} {channel : Text}
    {last : Origin} (later : VcsServices) (fuel : Nat)
    (cut : origin.cutRelease services.toVcsServices appId options = (.ok channel, last)) :
    ∃ made, (migrateLegacyReleasesIfNeeded services.toVcsServices origin
          appId).2.commitApp services.toVcsServices appId options = .ok made ∧
        ((∀ name ∈ [channel, options.releaseId.text], Resolves later (fuel + 1) last appId name
            options.releaseId.text (SameNotes · options.notes)) ↔
          ServedAs (migrateLegacyReleasesIfNeeded services.toVcsServices
              origin appId).2.history appId made.channel
              options.releaseId.text made.commit.id ∧
            made.KeepsNotes options.notes) := by
  unfold Origin.cutRelease at cut
  split at cut
  · cases cut
  next reached migrated =>
  split at cut
  · cases cut
  next made landed =>
  simp only at cut
  split at cut
  · cases cut
  next tagged written =>
  obtain ⟨isApp, named, kept, notes, same⟩ := commitApp_eq_ok landed
  have isTagged := writeTag_eq_ok written
  have found : headOf tagged (tagRefName appId options.releaseId.text) = some made.commit := by
    rw [headOf, isTagged, readRef_writeRef_self]
    exact kept
  have settled := legacyOf_migrated migrated
  have stillSettled : { reached with history := tagged }.legacyOf appId = [] := settled
  obtain ⟨byChannel, byId⟩ := resolves_pointed_iff later fuel
    (SameNotes · options.notes) stillSettled isApp options.releaseId.nonempty
    named found cut
  have served : ServedAs tagged appId made.channel options.releaseId.text
      made.commit.id ↔ ServedAs reached.history appId made.channel
        options.releaseId.text made.commit.id := by
    rw [isTagged, ← same]
    apply servedAs_writeRef_iff
    intro id isId
    exact (List.cons.inj (List.append_cancel_left isId)).2
  rw [migrated]
  refine ⟨made, landed, ?_⟩
  rw [List.forall_mem_cons, List.forall_mem_singleton, byChannel, byId,
    notes, served, and_assoc, and_self_iff]

theorem pointRelease_exact {channel named : Text} {releaseId : ReleaseId}
    {last : Origin} (later : VcsServices) (fuel : Nat)
    (pointed : origin.pointRelease services.toVcsServices appId channel
      releaseId.text = (.ok named, last)) :
    ∃ commit, headOf (migrateLegacyReleasesIfNeeded services.toVcsServices origin
          appId).2.history (tagRefName appId releaseId.text) = some commit ∧
        (Resolves later (fuel + 1) last appId named releaseId.text (fun _ => True) ↔
          ServedAs (migrateLegacyReleasesIfNeeded services.toVcsServices
            origin appId).2.history appId named releaseId.text
            commit.id) := by
  unfold Origin.pointRelease at pointed
  split at pointed
  · cases pointed
  next reached migrated =>
  split at pointed
  · next target manifest commit isChannel found isHead =>
      obtain ⟨rfl, _, _⟩ := pointChannel_eq_ok pointed
      have exactly := resolves_pointed_iff later fuel (fun _ => True)
        (legacyOf_migrated migrated) (appId_of_readApp found)
        releaseId.nonempty
        (channelName_ne_nil isChannel) isHead pointed
      rw [migrated]
      exact ⟨commit, isHead, exactly.1.trans (and_iff_left trivial)⟩
  · cases pointed
  · cases pointed

theorem roundTrips_iff (fuel : Nat) (act : ReleaseAct) :
    RoundTrips services (fuel + 1) appId origin act ↔ TagsAgree services appId origin act := by
  cases act with
  | edit files => rfl
  | cut now options =>
    apply forall_congr'
    intro channel
    apply forall_congr'
    intro last
    apply forall_congr'
    intro cut
    obtain ⟨made, landed, exactly⟩ := cutRelease_exact _ fuel cut
    refine exactly.trans ⟨fun holds other otherLanded => ?_, fun all => all made landed⟩
    cases landed.symm.trans otherLanded
    exact holds
  | point now channel releaseId =>
    apply forall_congr'
    intro named
    apply forall_congr'
    intro last
    apply forall_congr'
    intro pointed
    obtain ⟨commit, isHead, exactly⟩ := pointRelease_exact _ fuel pointed
    refine exactly.trans ⟨fun holds other isOther => ?_, fun all => all commit isHead⟩
    cases isHead.symm.trans isOther
    exact holds

/-- In every run, releases round trip exactly where the tags agree. -/
theorem releases_roundTrip_iff (services : CutServices) (fuel : Nat)
    (appId : Text) (origin : Origin) (acts : List ReleaseAct) :
    StepsMeet (releaseStep services appId) (RoundTrips services (fuel + 1) appId) origin acts ↔
      StepsMeet (releaseStep services appId) (TagsAgree services appId)
        origin acts := by
  constructor
  · exact StepsMeet.weaken (fun _ => True) (fun _ _ _ _ _ _ => trivial)
      (fun _ act _ => (roundTrips_iff fuel act).mp) trivial
  · exact StepsMeet.weaken (fun _ => True) (fun _ _ _ _ _ _ => trivial)
      (fun _ act _ => (roundTrips_iff fuel act).mpr) trivial

end

def exampleCutServices : CutServices := { exampleInstallServices with
    commitId := fun body => 'c' :: body.snapshot
    commitIds := fun _ => List.cons_ne_nil _ _ }

def cutWith (releaseId : ReleaseId) (notes : Text) : CutOptions where
  releaseId := releaseId
  channel := []
  notes := some notes
  createdBy := none

def readsNotes (notes : Text) : Ended (Option ResolvedRelease) × Origin → Bool
  | (.answered (some release), reached) =>
    trim ((releaseNotes reached.history release).getD []) = trim notes
  | _ => false

/-- The second release of an unchanged tree is given the notes of the
first. -/
theorem releases_not_roundTrip :
    ¬ StepsMeet (releaseStep exampleCutServices "01NOTES".toList)
      (RoundTrips exampleCutServices 1 "01NOTES".toList) annsOrigin
      [.cut 1 (cutWith ⟨"r1".toList, by decide, List.all_eq_true.mp rfl⟩ "first".toList),
        .cut 2 (cutWith ⟨"r2".toList, by decide, List.all_eq_true.mp rfl⟩ "second".toList)] := by
  intro meets
  obtain ⟨release, reached, resolved, _, notes⟩ := (meets.2 _ rfl).1
    defaultChannel _ (Prod.ext (by decide +kernel) rfl) defaultChannel
    List.mem_cons_self
  have seen := congrArg (readsNotes "second".toList) resolved
  have same : readsNotes "second".toList (.answered (some release),
      reached) = true := decide_eq_true notes
  rw [same] at seen
  exact absurd seen (by decide +kernel)

end Aprovan.Apps
