import Aprovan.Vfs.CleanPages
import Aprovan.Vfs.CleanSessions

/-!
# The change feed

A poll is answered from the journal, or anew when the ring does not reach
back far enough.  Cursors number all mutations, so two states compare polls
from the same moment: the same readable mutations came after it.
-/

namespace Aprovan.Vfs

open Aprovan.Library Aprovan.Fs Aprovan.Apps

section

variable {may : Text → Bool} {first second state : ListingState}
  {args other : ChangesArgs}

/-- The cursor was handed out in this server's life. -/
def Issued (state : ListingState) (cursor : Int) : Prop :=
  0 ≤ cursor ∧ cursor ≤ state.history.length
  deriving Decidable

def ListingState.after (state : ListingState) (cursor : Int) : List JournalEntry :=
  state.history.drop cursor.toNat

/-- Cursors of two states stand for the same moment: the same readable
mutations came after it.  Of a cursor that was not handed out nothing is
known. -/
def SameMoment (may : Text → Bool) (first second : ListingState) (cursor other : Option Int) :
    Prop :=
  match cursor, other with
  | none, none => True
  | some cursor, some other =>
    (Issued first cursor ↔ Issued second other) ∧ (Issued first cursor →
        (first.after cursor).filter (may ·.change.path) =
          (second.after other).filter (may ·.change.path))
  | _, _ => False

/-- Two polls that differ in the numbering of the mutations only. -/
structure SamePoll (may : Text → Bool) (first second : ListingState)
    (args other : ChangesArgs) : Prop where
  ifNoneMatch : SameMoment may first second args.ifNoneMatch other.ifNoneMatch
  session : args.session = other.session
  since : SameMoment may first second args.since other.since

def Idle (state : ListingState) (args : ChangesArgs) : Prop :=
  args.ifNoneMatch = some (state.journal.cursor : Int)

theorem idle_iff :
    Idle state args ↔ ∃ cursor, args.ifNoneMatch = some cursor ∧ Issued state cursor ∧
        state.after cursor = [] := by
  simp only [Idle, ListingState.journal, Journal.ofHistory_cursor, Issued,
    ListingState.after, List.drop_eq_nil_iff]
  constructor
  · intro quoted
    exact ⟨_, quoted, by omega, by omega⟩
  · rintro ⟨cursor, quoted, issued, nothing⟩
    rw [quoted, Option.some.injEq]
    omega

theorem changesSince_eq (state : ListingState) (scope : Text) (cursor : Int) :
    state.journal.changesSince scope (some cursor) =
      if Issued state cursor ∧ (state.after cursor).length ≤ ringCapacity then
        some (((state.after cursor).filter (Journal.reported scope)).map JournalEntry.change)
      else
        none := by
  rw [ListingState.journal, Journal.changesSince_ofHistory]
  have same :
      (0 ≤ cursor ∧ cursor ≤ state.history.length ∧ state.history.length ≤ cursor + ringCapacity) ↔
        Issued state cursor ∧ (state.after cursor).length ≤ ringCapacity := by
    simp only [Issued, ListingState.after, List.length_drop]
    omega
  by_cases answered : Issued state cursor ∧ (state.after cursor).length ≤ ringCapacity
  · rw [if_pos (same.mpr answered), if_pos answered]
    rfl
  · rw [if_neg (fun holds => answered (same.mp holds)), if_neg answered]

def FullClean (may : Text → Bool) (sub : Text) (state : ListingState)
    (session : Option ChatSession) : Prop :=
  match session with
  | none =>
    ShownClean may (listedTo sub) (state.store.listAll []) ∧
      ∀ entry ∈ state.mountEntries [], may entry.path = true
  | some session => SessionClean may session []

/-- What came after the cursor is clean: when the ring still holds it,
nothing unreadable is reported; when it does not, the readable mutations
alone overflow it, and the full listing is clean. -/
def DeltaClean (may : Text → Bool) (sub : Text) (state : ListingState)
    (session : Option ChatSession) (cursor : Int) : Prop :=
  if (state.after cursor).length ≤ ringCapacity then
    ∀ entry ∈ state.after cursor,
      Journal.reported ((session.map ChatSession.id).getD []) entry = true →
        may entry.change.path = true
  else
    ringCapacity < ((state.after cursor).filter (may ·.change.path)).length ∧
      FullClean may sub state session

/-- What an answer about the changes since a cursor is read from is
clean. -/
def ReplyClean (may : Text → Bool) (sub : Text) (state : ListingState)
    (session : Option ChatSession) (since : Option Int) : Prop :=
  match since with
  | none => FullClean may sub state session
  | some cursor =>
    if Issued state cursor then DeltaClean may sub state session cursor
    else FullClean may sub state session

/-- What `GET /fs/changes` is read from is clean.  That nothing happened
must not depend on unreadable mutations either. -/
structure PollClean (may : Text → Bool) (sub : Text) (state : ListingState)
    (args : ChangesArgs) : Prop where
  idle : ∀ cursor, args.ifNoneMatch = some cursor → Issued state cursor →
    (state.after cursor).filter (may ·.change.path) = [] → state.after cursor = []
  reply : ¬ Idle state args → ∀ session, stagedSessionParam state args.session = .ok session →
      ReplyClean may sub state session args.since

variable {sub : Text}

theorem fullListing_agree (agree : AgreeOn may first second)
    (cleanFirst : FullClean may sub first none) (cleanSecond : FullClean may sub second none) :
    fullListing sub first = fullListing sub second := by
  have mounted := agree.mountEntries []
  rw [List.filter_eq_self.mpr cleanFirst.2, List.filter_eq_self.mpr cleanSecond.2] at mounted
  have listed :
      (first.store.listAll []).filter (listedTo sub ·.path) =
        (second.store.listAll []).filter (listedTo sub ·.path) :=
    shown_eq_of_agree (selected_agree agree [] []) cleanFirst.1 cleanSecond.1
  rw [fullListing, fullListing, mounted, listed]

variable {session otherSession : Option ChatSession}

theorem resetChanges_agree (collate : Text → Text → Bool) (agree : AgreeOn may first second)
    (same : session.map (ChatSession.restrict may) = otherSession.map (ChatSession.restrict may))
    (cleanFirst : FullClean may sub first session)
    (cleanSecond : FullClean may sub second otherSession) :
    resetChanges collate sub first session = resetChanges collate sub second otherSession := by
  cases session with
  | none =>
    cases otherSession with
    | some otherSession => cases same
    | none =>
      simp only [resetChanges]
      rw [fullListing_agree agree cleanFirst cleanSecond]
  | some session =>
    cases otherSession with
    | none => cases same
    | some otherSession =>
      have restricted := Option.some.inj same
      simp only [resetChanges]
      rw [← sessionList_restrict_of_clean collate cleanFirst,
        ← sessionList_restrict_of_clean collate cleanSecond,
        restricted]

theorem idle_agree (samePoll : SamePoll may first second args other)
    (cleanSecond : PollClean may sub second other) (idle : Idle first args) :
    Idle second other := by
  obtain ⟨cursor, quoted, issued, nothing⟩ := idle_iff.mp idle
  have same := samePoll.ifNoneMatch
  rw [quoted] at same
  cases quotedOther : other.ifNoneMatch with
  | none =>
    rw [quotedOther] at same
    exact same.elim
  | some otherCursor =>
    rw [quotedOther] at same
    have issuedOther := same.1.mp issued
    have readable := same.2 issued
    rw [nothing, List.filter_nil] at readable
    exact idle_iff.mpr ⟨otherCursor, quotedOther, issuedOther,
      cleanSecond.idle otherCursor quotedOther issuedOther readable.symm⟩

theorem samePoll_symm (samePoll : SamePoll may first second args other) :
    SamePoll may second first other args := by
  have swap : ∀ cursor other : Option Int, SameMoment may first second cursor other →
        SameMoment may second first other cursor := by
    intro cursor other same
    cases cursor with
    | none =>
      cases other with
      | none => trivial
      | some other => exact same.elim
    | some cursor =>
      cases other with
      | none => exact same.elim
      | some other =>
        exact ⟨same.1.symm,
          fun issued => (same.2 (same.1.mpr issued)).symm⟩
  exact {
    ifNoneMatch := swap _ _ samePoll.ifNoneMatch
    session := samePoll.session.symm
    since := swap _ _ samePoll.since }

variable {cursor : Int}

theorem retained_of_clean {otherCursor : Int}
    (same : (first.after cursor).filter (may ·.change.path) =
      (second.after otherCursor).filter (may ·.change.path))
    (cleanSecond : DeltaClean may sub second otherSession otherCursor)
    (retained : (first.after cursor).length ≤ ringCapacity) :
    (second.after otherCursor).length ≤ ringCapacity := by
  by_contra evicted
  unfold DeltaClean at cleanSecond
  rw [if_neg evicted, ← same] at cleanSecond
  have bound := List.length_filter_le (fun entry : JournalEntry => may entry.change.path)
    (first.after cursor)
  omega

theorem reported_of_clean {entries : List JournalEntry} {scope : Text}
    (clean : ∀ entry ∈ entries, Journal.reported scope entry = true →
      may entry.change.path = true) :
    entries.filter (Journal.reported scope) = (entries.filter (may ·.change.path)).filter
        (Journal.reported scope) := by
  rw [List.filter_filter]
  apply List.filter_congr
  intro entry member
  cases reported : Journal.reported scope entry with
  | false => rfl
  | true => simp [clean entry member reported]

section

variable (collate : Text → Text → Bool)

theorem changesReply_issued (sub : Text) (session : Option ChatSession)
    (issued : Issued state cursor) :
    changesReply collate sub state session (some cursor) =
      if (state.after cursor).length ≤ ringCapacity then
        .answered (.changes false (((state.after cursor).filter
          (Journal.reported ((session.map ChatSession.id).getD []))).map JournalEntry.change))
      else
        resetChanges collate sub state session := by
  simp only [changesReply, changesSince_eq]
  by_cases retained : (state.after cursor).length ≤ ringCapacity
  · rw [if_pos ⟨issued, retained⟩, if_pos retained]
  · rw [if_neg (fun both => retained both.2), if_neg retained]

theorem changesReply_not_issued (sub : Text) (session : Option ChatSession)
    (notIssued : ¬ Issued state cursor) :
    changesReply collate sub state session (some cursor) =
      resetChanges collate sub state session := by
  simp only [changesReply, changesSince_eq]
  rw [if_neg (fun both => notIssued both.1)]

theorem changesReply_agree {since otherSince : Option Int} (agree : AgreeOn may first second)
    (same : session.map (ChatSession.restrict may) = otherSession.map (ChatSession.restrict may))
    (moment : SameMoment may first second since otherSince)
    (cleanFirst : ReplyClean may sub first session since)
    (cleanSecond : ReplyClean may sub second otherSession otherSince) :
    changesReply collate sub first session since =
      changesReply collate sub second otherSession otherSince := by
  have sameScope : session.map ChatSession.id = otherSession.map ChatSession.id := by
    have ids := congrArg (Option.map ChatSession.id) same
    rw [Option.map_map, Option.map_map] at ids
    exact ids
  cases since with
  | none =>
    cases otherSince with
    | some otherCursor => exact moment.elim
    | none => exact resetChanges_agree collate agree same cleanFirst cleanSecond
  | some cursor =>
    cases otherSince with
    | none => exact moment.elim
    | some otherCursor =>
      simp only [ReplyClean] at cleanFirst cleanSecond
      by_cases issued : Issued first cursor
      · have issuedOther := moment.1.mp issued
        have readable := moment.2 issued
        rw [if_pos issued] at cleanFirst
        rw [if_pos issuedOther] at cleanSecond
        rw [changesReply_issued _ _ _ issued, changesReply_issued _ _ _ issuedOther]
        by_cases retained : (first.after cursor).length ≤ ringCapacity
        · have retainedOther := retained_of_clean readable cleanSecond retained
          unfold DeltaClean at cleanFirst cleanSecond
          rw [if_pos retained] at cleanFirst
          rw [if_pos retainedOther, ← sameScope] at cleanSecond
          rw [if_pos retained, if_pos retainedOther, ← sameScope, reported_of_clean cleanFirst,
            reported_of_clean cleanSecond, readable]
        · have evictedOther : ¬ (second.after otherCursor).length ≤ ringCapacity :=
            fun retainedOther => retained
              (retained_of_clean readable.symm cleanFirst retainedOther)
          unfold DeltaClean at cleanFirst cleanSecond
          rw [if_neg retained] at cleanFirst
          rw [if_neg evictedOther] at cleanSecond
          rw [if_neg retained, if_neg evictedOther]
          exact resetChanges_agree collate agree same cleanFirst.2 cleanSecond.2
      · have notIssuedOther : ¬ Issued second otherCursor :=
          fun issuedOther => issued (moment.1.mpr issuedOther)
        rw [if_neg issued] at cleanFirst
        rw [if_neg notIssuedOther] at cleanSecond
        rw [changesReply_not_issued _ _ _ issued, changesReply_not_issued _ _ _ notIssuedOther]
        exact resetChanges_agree collate agree same cleanFirst cleanSecond

theorem changesRoute_of_idle (sub : Text) (idle : Idle state args) :
    changesRoute collate sub state args = .answered .notModified :=
  if_pos idle

theorem changesRoute_of_busy (sub : Text) (busy : ¬ Idle state args) :
    changesRoute collate sub state args =
      match stagedSessionParam state args.session with
      | .error thrown => .refused thrown
      | .ok session => changesReply collate sub state session args.since :=
  if_neg busy

/-- Clean agreeing states answer a poll from the same moment alike. -/
theorem changesRoute_agree (agree : AgreeOn may first second)
    (samePoll : SamePoll may first second args other) (cleanFirst : PollClean may sub first args)
    (cleanSecond : PollClean may sub second other) :
    changesRoute collate sub first args = changesRoute collate sub second other := by
  by_cases idle : Idle first args
  · have idleOther := idle_agree samePoll cleanSecond idle
    rw [changesRoute_of_idle _ _ idle, changesRoute_of_idle _ _ idleOther]
  · have busyOther : ¬ Idle second other :=
      fun idleOther => idle (idle_agree (samePoll_symm samePoll) cleanFirst idleOther)
    rw [changesRoute_of_busy _ _ idle, changesRoute_of_busy _ _ busyOther, ← samePoll.session]
    have replyFirst := cleanFirst.reply idle
    have replySecond := cleanSecond.reply busyOther
    rw [← samePoll.session] at replySecond
    have sessions := stagedSessionParam_agree agree args.session
    rcases one : stagedSessionParam first args.session with
      thrown | session <;>
      rcases two : stagedSessionParam second args.session with
        refusal | otherSession
    · rw [one, two] at sessions
      cases sessions
      rfl
    · rw [one, two] at sessions
      cases sessions
    · rw [one, two] at sessions
      cases sessions
    · rw [one, two] at sessions
      exact changesReply_agree collate agree (Except.ok.inj sessions)
        samePoll.since (replyFirst session one)
        (replySecond otherSession two)

end

/-! A poll that is not clean is answered differently by the readable part of
the state, from the same moment. -/

/-- The cursor of the same moment when only the readable mutations had been
counted. -/
def readableCursor (may : Text → Bool) (state : ListingState) (cursor : Int) : Int :=
  if Issued state cursor then ((state.history.take cursor.toNat).filter (may ·.change.path)).length
  else -1

def readablePoll (may : Text → Bool) (state : ListingState) (args : ChangesArgs) :
    ChangesArgs where
  ifNoneMatch := args.ifNoneMatch.map (readableCursor may state)
  session := args.session
  since := args.since.map (readableCursor may state)

theorem issued_readableCursor :
    Issued (state.restrict may) (readableCursor may state cursor) ↔ Issued state cursor := by
  unfold readableCursor
  constructor
  · intro issued
    by_contra notIssued
    rw [if_neg notIssued] at issued
    exact absurd issued.1 (by omega)
  · intro issued
    have shorter := ((List.take_sublist cursor.toNat state.history).filter
      (fun entry => may entry.change.path)).length_le
    rw [if_pos issued]
    exact ⟨by omega, Int.ofNat_le.mpr shorter⟩

theorem after_readableCursor (issued : Issued state cursor) :
    (state.restrict may).after (readableCursor may state cursor) =
      (state.after cursor).filter (may ·.change.path) := by
  have split :
      state.history.filter (may ·.change.path) =
        (state.history.take cursor.toNat).filter (may ·.change.path) ++
          (state.after cursor).filter (may ·.change.path) := by
    rw [← List.filter_append, ListingState.after, List.take_append_drop]
  rw [readableCursor, if_pos issued, ListingState.after, Int.toNat_natCast]
  simp only [ListingState.restrict]
  rw [split, List.drop_left]

theorem samePoll_readable (state : ListingState) (args : ChangesArgs) :
    SamePoll may state (state.restrict may) args (readablePoll may state args) := by
  have moment : ∀ cursor : Option Int, SameMoment may state (state.restrict may) cursor
        (cursor.map (readableCursor may state)) := by
    intro cursor
    cases cursor with
    | none => trivial
    | some cursor =>
      refine ⟨issued_readableCursor.symm, ?_⟩
      intro issued
      rw [after_readableCursor issued, List.filter_filter]
      simp
  exact {
    ifNoneMatch := moment _
    session := rfl
    since := moment _ }

theorem fullClean_restrict (sub : Text) (session : Option ChatSession) :
    FullClean may sub (state.restrict may) (session.map (ChatSession.restrict may)) := by
  cases session with
  | some session => exact sessionClean_restrict session []
  | none =>
    constructor
    · intro entry member _
      unfold Store.listAll at member
      rw [selected_restrict] at member
      exact (List.mem_filter.mp member).2
    · intro entry member
      exact (List.mem_filter.mp member).2

theorem pollClean_readable (sub : Text) (args : ChangesArgs) :
    PollClean may sub (state.restrict may) (readablePoll may state args) where
  idle cursor quoted issued nothing := by
    obtain ⟨original, _, rfl⟩ := Option.map_eq_some_iff.mp quoted
    have issuedOriginal := issued_readableCursor.mp issued
    rw [after_readableCursor issuedOriginal] at nothing ⊢
    simpa [List.filter_filter] using nothing
  reply _ session found := by
    rw [stagedSessionParam_restrict] at found
    have restricted : ∃ original : Option ChatSession,
        session = original.map (ChatSession.restrict may) := by
      cases original : stagedSessionParam state (readablePoll may state args).session with
      | error thrown =>
        rw [original] at found
        cases found
      | ok staged =>
        rw [original] at found
        cases found
        exact ⟨staged, rfl⟩
    obtain ⟨original, rfl⟩ := restricted
    have full : FullClean may sub (state.restrict may) (original.map (ChatSession.restrict may)) :=
      fullClean_restrict sub original
    simp only [readablePoll]
    cases args.since with
    | none => exact full
    | some cursor =>
      simp only [Option.map_some, ReplyClean]
      split
      · next issued =>
          have whole :
              (state.restrict may).after (readableCursor may state cursor) =
                (state.after cursor).filter (may ·.change.path) :=
            after_readableCursor (issued_readableCursor.mp issued)
          unfold DeltaClean
          rw [whole]
          split
          · intro entry member _
            exact (List.mem_filter.mp member).2
          · next evicted =>
              refine ⟨?_, full⟩
              rw [List.filter_filter]
              simpa using evicted
      · exact full

variable (collate : Text → Text → Bool)

theorem resetChanges_exposes (dirty : ¬ FullClean may sub state session) :
    resetChanges collate sub state session ≠ resetChanges collate sub (state.restrict may)
        (session.map (ChatSession.restrict may)) := by
  intro same
  cases session with
  | some session =>
    obtain ⟨entries, others, listed, restricted, shorter⟩ :=
      sessionList_exposes collate dirty
    simp only [resetChanges, Option.map_some, listed, restricted,
      Reply.answered.injEq, ChangesAnswer.changes.injEq] at same
    have lengths := congrArg List.length same.2
    simp only [asUpdates, List.length_map] at lengths
    omega
  | none =>
    simp only [resetChanges, Option.map_none, Reply.answered.injEq,
      ChangesAnswer.changes.injEq] at same
    have lengths := congrArg List.length same.2
    have stored :
        (state.restrict may).store.listAll [] = (state.store.listAll []).filter (may ·.path) :=
      selected_restrict may state [] []
    simp only [asUpdates, fullListing, List.length_map, List.length_append, stored] at lengths
    have fewerMounts : ((state.restrict may).mountEntries []).length ≤
        (state.mountEntries []).length :=
      List.length_filter_le _ _
    have fewerFiles :
        (((state.store.listAll []).filter (may ·.path)).filter (listedTo sub ·.path)).length ≤
          ((state.store.listAll []).filter (listedTo sub ·.path)).length :=
      (List.filter_sublist.filter _).length_le
    apply dirty
    constructor
    · apply shownClean_of_length_le
      omega
    · apply List.length_filter_eq_length_iff.mp
      have restrictedMounts :
          (state.restrict may).mountEntries [] = (state.mountEntries []).filter (may ·.path) := rfl
      rw [restrictedMounts] at lengths fewerMounts
      omega

theorem resetChanges_ne_delta (sub : Text) (session : Option ChatSession)
    (changes : List FsChange) :
    resetChanges collate sub state session ≠ .answered (.changes false changes) := by
  intro same
  unfold resetChanges at same
  split at same
  · cases same
  · split at same <;> cases same

theorem scope_restrict (session : Option ChatSession) :
    ((session.map (ChatSession.restrict may)).map ChatSession.id).getD [] =
      (session.map ChatSession.id).getD [] := by
  cases session <;> rfl

theorem changesReply_exposes {since : Option Int}
    (dirty : ¬ ReplyClean may sub state session since) :
    changesReply collate sub state session since ≠ changesReply collate sub (state.restrict may)
        (session.map (ChatSession.restrict may))
        (since.map (readableCursor may state)) := by
  cases since with
  | none => exact resetChanges_exposes collate dirty
  | some cursor =>
    simp only [ReplyClean] at dirty
    rw [Option.map_some]
    by_cases issued : Issued state cursor
    · rw [if_pos issued] at dirty
      rw [changesReply_issued _ _ _ issued,
        changesReply_issued _ _ _ (issued_readableCursor.mpr issued),
        after_readableCursor issued]
      have fewer := List.length_filter_le (fun entry : JournalEntry => may entry.change.path)
        (state.after cursor)
      unfold DeltaClean at dirty
      by_cases retained : (state.after cursor).length ≤ ringCapacity
      · rw [if_pos retained] at dirty
        rw [if_pos retained, if_pos (by omega)]
        intro same
        simp only [Reply.answered.injEq, ChangesAnswer.changes.injEq] at same
        have lengths := congrArg List.length same.2
        rw [List.length_map, List.length_map, scope_restrict, List.filter_filter] at lengths
        apply dirty
        intro entry member reported
        have all : ∀ other ∈ (state.after cursor).filter
            (Journal.reported ((session.map ChatSession.id).getD [])),
            may other.change.path = true := by
          apply List.length_filter_eq_length_iff.mp
          rw [List.filter_filter, lengths]
          congr 1
          apply List.filter_congr
          intro other _
          exact Bool.and_comm _ _
        exact all entry (List.mem_filter.mpr ⟨member, reported⟩)
      · rw [if_neg retained] at dirty
        rw [if_neg retained]
        by_cases overflows : ringCapacity <
            ((state.after cursor).filter (may ·.change.path)).length
        · rw [if_neg (by omega)]
          exact resetChanges_exposes collate (fun full => dirty ⟨overflows, full⟩)
        · rw [if_pos (by omega)]
          exact resetChanges_ne_delta collate sub session _
    · rw [if_neg issued] at dirty
      have notIssued : ¬ Issued (state.restrict may) (readableCursor may state cursor) :=
        fun holds => issued (issued_readableCursor.mp holds)
      rw [changesReply_not_issued _ _ _ issued, changesReply_not_issued _ _ _ notIssued]
      exact resetChanges_exposes collate dirty

theorem changesRoute_busy_ne (sub : Text) (busy : ¬ Idle state args) :
    changesRoute collate sub state args ≠ .answered .notModified := by
  intro same
  rw [changesRoute_of_busy _ _ busy] at same
  split at same
  · cases same
  · unfold changesReply at same
    simp only at same
    split at same
    · cases same
    · unfold resetChanges at same
      split at same
      · cases same
      · split at same <;> cases same

theorem changesRoute_exposes (dirty : ¬ PollClean may sub state args) :
    changesRoute collate sub state args ≠ changesRoute collate sub (state.restrict may)
        (readablePoll may state args) := by
  by_cases quiet : ∀ cursor, args.ifNoneMatch = some cursor → Issued state cursor →
      (state.after cursor).filter (may ·.change.path) = [] → state.after cursor = []
  · by_cases idle : Idle state args
    · exact absurd ⟨quiet, fun busy => absurd idle busy⟩ dirty
    · have busyReadable : ¬ Idle (state.restrict may) (readablePoll may state args) := by
        intro idleReadable
        obtain ⟨cursor, quoted, issued, nothing⟩ :=
          idle_iff.mp idleReadable
        obtain ⟨original, quotedOriginal, rfl⟩ :=
          Option.map_eq_some_iff.mp quoted
        have issuedOriginal := issued_readableCursor.mp issued
        rw [after_readableCursor issuedOriginal] at nothing
        exact idle (idle_iff.mpr ⟨original, quotedOriginal, issuedOriginal,
          quiet original quotedOriginal issuedOriginal nothing⟩)
      rw [changesRoute_of_busy _ _ idle, changesRoute_of_busy _ _ busyReadable]
      simp only [readablePoll, stagedSessionParam_restrict]
      cases found : stagedSessionParam state args.session with
      | error thrown =>
        apply absurd _ dirty
        refine ⟨quiet, ?_⟩
        intro _ session isSession
        rw [found] at isSession
        cases isSession
      | ok session =>
        apply changesReply_exposes collate
        intro clean
        apply dirty
        refine ⟨quiet, ?_⟩
        intro _ other isOther
        rw [found] at isOther
        cases isOther
        exact clean
  · simp only [not_forall] at quiet
    obtain ⟨cursor, quoted, issued, nothing, something⟩ := quiet
    have idleReadable : Idle (state.restrict may) (readablePoll may state args) := by
      refine idle_iff.mpr ⟨readableCursor may state cursor, ?_,
        issued_readableCursor.mpr issued, ?_⟩
      · simp only [readablePoll, quoted, Option.map_some]
      · rw [after_readableCursor issued, nothing]
    have busy : ¬ Idle state args := by
      intro idle
      obtain ⟨other, quotedOther, _, empty⟩ := idle_iff.mp idle
      rw [quoted] at quotedOther
      cases quotedOther
      exact something empty
    rw [changesRoute_of_idle _ _ idleReadable]
    exact changesRoute_busy_ne collate sub busy

end

end Aprovan.Vfs
