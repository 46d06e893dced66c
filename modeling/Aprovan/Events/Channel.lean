import Aprovan.Vcs.ChatSessions

/-!
# Event channels

A channel is a scope of the record store with one row an event.  The core
service and the native dispatch count on from the last key, each with its own
width.  The rows past the newest five hundred are deleted in the background,
later or never.
-/

namespace Aprovan.Events

open Aprovan.Library

/-- An event: its id, and whatever else its emitter records. -/
structure EventRecord where
  (id content : Text)

/-- The service `events` of the core, and the native dispatch. -/
inductive Emitter where
  | core
  | native

/-- `parseSeqKey` of the native dispatch; only keys of digits occur. -/
def parseNativeKey (key : Text) : Option (Nat × Text) :=
  let ordinal := key.takeWhile (· ≠ '#')
  if ordinal ≠ [] ∧ '#' ∈ key ∧ ordinal.all Char.isDigit then
    some (Nat.ofDigitChars 10 ordinal 0, key.drop (ordinal.length + 1))
  else none

def Emitter.seqKey (emitter : Emitter) (seq : Nat) (id : Text) : Text :=
  match emitter with
  | .core => Vcs.seqKey seq id
  | .native => padded 16 seq ++ '#' :: id

def Emitter.parseSeqKey (emitter : Emitter) (key : Text) : Option (Nat × Text) :=
  match emitter with
  | .core => Vcs.parseSeqKey key
  | .native => parseNativeKey key

/-- Numbers are exact up to `2 ^ 53`, and adding one there changes nothing. -/
def successor (seq : Nat) : Nat :=
  if seq < 2 ^ 53 then seq + 1 else seq

def eventsMaxRetained : Nat := 500

structure EventRow where
  key : Text
  record : EventRecord

inductive ListRequest where
  | core (limit : Int)
  | native (after cursor : Text) (limit : Nat)

/-- What was asked and listed, with what was stored and what had been
emitted. -/
structure ListReply where
  request : ListRequest
  page : List EventRecord
  cursor : Option Text
  (retained emitted : List Text)

/-- The rows of a channel and the deletions that are on their way, with the
ids in the order of emission and the lists so far. -/
structure EventChannel where
  rows : List EventRow := []
  stale : List Text := []
  emitted : List Text := []
  replies : List ListReply := []

namespace EventChannel

def keys (channel : EventChannel) : List Text :=
  (channel.rows.map EventRow.key).insertionSort (· ≤ ·)

def get (channel : EventChannel) (key : Text) : Option EventRecord :=
  (channel.rows.find? (·.key = key)).map EventRow.record

/-- Count on from the last key, if it can be read. -/
def nextSeq (emitter : Emitter) (channel : EventChannel) : Nat :=
  match channel.keys.getLast?.bind emitter.parseSeqKey with
  | some (seq, _) => successor seq
  | none => 0

def emit (emitter : Emitter) (channel : EventChannel) (record : EventRecord) : EventChannel :=
  let key := emitter.seqKey (channel.nextSeq emitter) record.id
  { channel with
    rows := channel.rows.filter (·.key ≠ key) ++ [⟨key, record⟩]
    stale := channel.stale ++ channel.keys.take (channel.keys.length + 1 - eventsMaxRetained)
    emitted := channel.emitted ++ [record.id] }

def delete (channel : EventChannel) (key : Text) : EventChannel :=
  { channel with rows := channel.rows.filter (·.key ≠ key) }

def events (channel : EventChannel) (keys : List Text) : List EventRecord :=
  keys.filterMap channel.get

end EventChannel

/-- `keys.slice(-limit)`. -/
def sliceBack (keys : List Text) (limit : Int) : List Text :=
  if 0 < limit then keys.rtake limit.toNat else keys.drop (-limit).toNat

/-- `Math.min(limit || 50, 500)`. -/
def coreLimit (limit : Int) : Int :=
  min (if limit = 0 then 50 else limit) eventsMaxRetained

def nativeLimit (defaultLimit limit : Nat) : Nat :=
  if limit = 0 then defaultLimit else limit

/-- Where the page starts: behind the event that the consumer names. -/
def startOf (events : List EventRecord) (after cursor : Text) : Nat :=
  if after ≠ [] then
    match events.findIdx? (·.id = after) with
    | some index => index + 1
    | none => events.length
  else if cursor ≠ [] then
    match events.findIdx? (·.id = cursor) with
    | some index => index + 1
    | none => 0
  else 0

def listPage (defaultLimit : Nat) (channel : EventChannel) :
    ListRequest → List EventRecord × Option Text
  | .core limit => (channel.events (sliceBack channel.keys (coreLimit limit)), none)
  | .native after cursor limit =>
    let events := channel.events channel.keys
    let start := startOf events after cursor
    let page := (events.drop start).take (nativeLimit defaultLimit limit)
    (page,
      if start + page.length < events.length then page.getLast?.map EventRecord.id
      else none)

inductive EventAct where
  /-- The id is a new UUID. -/
  | emit (emitter : Emitter) (record : EventRecord)
  | prune (position : Nat)
  /-- The deletion is refused, and not made again. -/
  | keep (position : Nat)
  | list (request : ListRequest)

def eventStep (defaultLimit : Nat) (channel : EventChannel) : EventAct → Option EventChannel
  | .emit emitter record =>
    if record.id ≠ [] ∧ record.id ∉ channel.emitted then some (channel.emit emitter record)
    else none
  | .prune position => do
      let key ← channel.stale[position]?
      some { channel.delete key with
        stale := channel.stale.eraseIdx position }
  | .keep position => some { channel with stale := channel.stale.eraseIdx position }
  | .list request =>
    let (page, cursor) := listPage defaultLimit channel request
    some { channel with
      replies := channel.replies ++ [{
        request := request
        page := page
        cursor := cursor
        retained := channel.rows.map (·.record.id)
        emitted := channel.emitted }] }

def laterThan (id : Text) (emitted : List Text) : List Text :=
  (emitted.dropWhile (· ≠ id)).tail

/-- Events are listed in the order of their emission, and the events after
one that was emitted are those still stored, up to the limit of the page. -/
structure ListReply.Right (defaultLimit : Nat) (reply : ListReply) : Prop where
  ordered : (reply.page.map EventRecord.id).Sublist reply.emitted
  complete : ∀ after cursor limit,
    reply.request = .native after cursor limit → after ∈ reply.emitted →
      reply.page.map EventRecord.id =
        ((laterThan after reply.emitted).filter (· ∈ reply.retained)).take
          (nativeLimit defaultLimit limit)

/-- Below it an ordinal stays within the width and is exact. -/
def Emitter.bound : Emitter → Nat
  | .core => 10 ^ 10
  | .native => 2 ^ 53 + 1

def Emitter.wrote (emitter : Emitter) (row : EventRow) : Bool :=
  match emitter.parseSeqKey row.key with
  | some (seq, id) => row.key = emitter.seqKey seq id && seq + 1 < emitter.bound
  | none => false

/-- An emitter finds only its own rows.  A consumer names an event that is
stored, or after which none is. -/
def canFollow (channel : EventChannel) : EventAct → Bool
  | .emit emitter _ => channel.rows.all emitter.wrote
  | .list (.native after _ _) =>
    after ∉ channel.emitted || after ∈ channel.rows.map (·.record.id) ||
        (laterThan after channel.emitted).all (· ∉ channel.rows.map (·.record.id))
  | _ => true

theorem seqKey_lt {emitter : Emitter} {first second : Nat} (less : first < second)
    (short : second < emitter.bound) (firstId secondId : Text) :
    emitter.seqKey first firstId < emitter.seqKey second secondId := by
  cases emitter with
  | core =>
    have fits : second < 10 ^ 10 := short
    exact padded_append_lt (by omega) less fits _ _
  | native =>
    have exactNumbers : second < 2 ^ 53 + 1 := short
    have fits : second < 10 ^ 16 := by omega
    exact padded_append_lt (by omega) less fits _ _

theorem eq_filter_of_sublist {ids emitted : List Text}
    (distinct : emitted.Nodup) (within : ids.Sublist emitted) :
    ids = emitted.filter (· ∈ ids) := by
  induction within with
  | slnil => rfl
  | @cons part whole id within ih =>
    obtain ⟨new, distinct⟩ := List.nodup_cons.mp distinct
    have absent : id ∉ part := fun member => new (within.subset member)
    rw [List.filter_cons_of_neg (by simpa using absent)]
    exact ih distinct
  | @cons_cons part whole id within ih =>
    obtain ⟨new, distinct⟩ := List.nodup_cons.mp distinct
    rw [List.filter_cons_of_pos (by simp)]
    have same : whole.filter (· ∈ id :: part) = whole.filter (· ∈ part) := by
      apply List.filter_congr
      intro other member
      have different : other ≠ id := fun equal => new (equal ▸ member)
      simp [different]
    rw [same, ← ih distinct]

theorem laterThan_filter {id : Text} {keeps : Text → Bool}
    (kept : keeps id = true) (emitted : List Text) :
    laterThan id (emitted.filter keeps) = (laterThan id emitted).filter keeps := by
  unfold laterThan
  induction emitted with
  | nil => rfl
  | cons head rest ih =>
    by_cases same : head = id
    · subst same
      rw [List.filter_cons_of_pos kept, List.dropWhile_cons_of_neg (by simp),
        List.dropWhile_cons_of_neg (by simp)]
      rfl
    · rw [List.dropWhile_cons_of_pos (by simpa using same)]
      by_cases keep : keeps head = true
      · rw [List.filter_cons_of_pos keep, List.dropWhile_cons_of_pos (by simpa using same)]
        exact ih
      · rw [List.filter_cons_of_neg keep]
        exact ih

theorem drop_findIdx {events : List EventRecord} {id : Text}
    (member : id ∈ events.map EventRecord.id) :
    ∃ index, events.findIdx? (·.id = id) = some index ∧
      (events.drop (index + 1)).map EventRecord.id = laterThan id (events.map EventRecord.id) := by
  induction events with
  | nil => cases member
  | cons event rest ih =>
    by_cases same : event.id = id
    · refine ⟨0, ?_, ?_⟩
      · simp [List.findIdx?_cons, same]
      · simp [laterThan, same]
    · have inside : id ∈ rest.map EventRecord.id := by
        rcases List.mem_cons.mp member with head | later
        · exact absurd head.symm same
        · exact later
      obtain ⟨index, found, behind⟩ := ih inside
      refine ⟨index + 1, ?_, ?_⟩
      · simp [List.findIdx?_cons, same, found]
      · rw [List.drop_succ_cons, behind, laterThan, laterThan,
          List.map_cons, List.dropWhile_cons_of_pos (by simpa using same)]

/-- Rows stand in the order of their keys and of their emission. -/
structure InOrder (defaultLimit : Nat) (channel : EventChannel) : Prop where
  sorted : channel.rows.Pairwise fun first second => first.key < second.key
  kept : (channel.rows.map (·.record.id)).Sublist channel.emitted
  distinct : channel.emitted.Nodup
  named : ∀ id ∈ channel.emitted, id ≠ []
  right : ∀ reply ∈ channel.replies, reply.Right defaultLimit

section

variable {defaultLimit : Nat} {channel next : EventChannel} {emitter : Emitter}

section

variable
  (sorted : channel.rows.Pairwise fun first second => first.key < second.key)

include sorted

theorem keys_eq : channel.keys = channel.rows.map EventRow.key := by
  apply List.Pairwise.insertionSort_eq
  rw [List.pairwise_map]
  exact sorted.imp fun less => le_of_lt less

theorem get_of_mem {row : EventRow} (member : row ∈ channel.rows) :
    channel.get row.key = some row.record := by
  have single : channel.rows.find? (·.key = row.key) = some row := by
    generalize channel.rows = rows at sorted member
    induction rows with
    | nil => cases member
    | cons head rest ih =>
      obtain ⟨first, sorted⟩ := List.pairwise_cons.mp sorted
      rcases List.mem_cons.mp member with rfl | later
      · rw [List.find?_cons_of_pos (by simp)]
      · have different : head.key ≠ row.key := ne_of_lt (first row later)
        rw [List.find?_cons_of_neg (by simpa using different)]
        exact ih sorted later
  rw [EventChannel.get, single, Option.map_some]

theorem events_map_key {part : List EventRow} (within : part.Sublist channel.rows) :
    channel.events (part.map EventRow.key) = part.map EventRow.record := by
  rw [EventChannel.events, List.filterMap_map, ← List.filterMap_eq_map]
  apply List.filterMap_congr
  intro row member
  exact get_of_mem sorted (within.subset member)

end

theorem sliceBack_sublist (keys : List Text) (limit : Int) :
    (sliceBack keys limit).Sublist keys := by
  unfold sliceBack
  split
  · exact List.drop_sublist _ _
  · exact List.drop_sublist _ _

section

variable (inOrder : InOrder defaultLimit channel)

include inOrder

/-- The ids of a page are those of stored rows, in the order of emission. -/
theorem ordered_listPage (request : ListRequest) :
    ((listPage defaultLimit channel request).1.map EventRecord.id).Sublist channel.emitted := by
  have keys := keys_eq inOrder.sorted
  have shown : ∀ part : List EventRow, part.Sublist channel.rows →
      ((part.map EventRow.record).map EventRecord.id).Sublist
        channel.emitted := by
    intro part within
    rw [List.map_map]
    exact (within.map _).trans inOrder.kept
  cases request with
  | core limit =>
    have within := sliceBack_sublist channel.keys (coreLimit limit)
    rw [keys] at within
    obtain ⟨part, within, sliced⟩ := List.sublist_map_iff.mp within
    rw [listPage, keys, sliced, events_map_key inOrder.sorted within]
    exact shown part within
  | native after cursor limit =>
    have all := events_map_key inOrder.sorted (List.Sublist.refl _)
    simp only [listPage, keys, all]
    refine List.Sublist.trans (List.Sublist.map _ ?_) (shown channel.rows (List.Sublist.refl _))
    exact (List.take_sublist _ _).trans (List.drop_sublist _ _)

theorem complete_listPage {after cursor : Text} {limit : Nat}
    (follows : canFollow channel (.list (.native after cursor limit)) = true)
    (nonempty : after ≠ []) (member : after ∈ channel.emitted) :
    (listPage defaultLimit channel (.native after cursor limit)).1.map EventRecord.id =
      ((laterThan after channel.emitted).filter (· ∈ channel.rows.map (·.record.id))).take
          (nativeLimit defaultLimit limit) := by
  have keys := keys_eq inOrder.sorted
  have all := events_map_key inOrder.sorted (List.Sublist.refl channel.rows)
  have ids : (channel.rows.map EventRow.record).map EventRecord.id =
      channel.rows.map (·.record.id) := by
    rw [List.map_map]
    rfl
  have filtered := eq_filter_of_sublist inOrder.distinct inOrder.kept
  simp only [listPage, keys, all, List.map_take]
  congr 1
  rw [startOf, if_pos nonempty]
  by_cases stored : after ∈ channel.rows.map (·.record.id)
  · rw [← ids] at stored
    obtain ⟨index, found, behind⟩ := drop_findIdx stored
    rw [found]
    dsimp only
    rw [behind, ids]
    rw [ids] at stored
    conv_lhs => rw [filtered]
    exact laterThan_filter (by simpa using stored) channel.emitted
  · have absent : (channel.rows.map EventRow.record).findIdx? (·.id = after) = none := by
      rw [List.findIdx?_eq_none_iff]
      intro event inside
      have other : event.id ≠ after := by
        intro same
        apply stored
        rw [← ids, ← same]
        exact List.mem_map_of_mem inside
      simpa using other
    have none_later : (laterThan after channel.emitted).all
        (· ∉ channel.rows.map (·.record.id)) = true := by
      simpa [canFollow, member, stored] using follows
    rw [absent]
    dsimp only
    rw [List.drop_length, List.map_nil, eq_comm, List.filter_eq_nil_iff]
    intro id later
    simpa using List.all_eq_true.mp none_later id later

theorem right_listPage {request : ListRequest}
    (follows : canFollow channel (.list request) = true) :
    ListReply.Right defaultLimit {
      request := request
      page := (listPage defaultLimit channel request).1
      cursor := (listPage defaultLimit channel request).2
      retained := channel.rows.map (·.record.id)
      emitted := channel.emitted } where
  ordered := ordered_listPage inOrder request
  complete := by
    rintro after cursor limit rfl member
    exact complete_listPage inOrder follows (inOrder.named after member) member

theorem inOrder_delete (key : Text) : InOrder defaultLimit (channel.delete key) where
  sorted := inOrder.sorted.sublist List.filter_sublist
  kept := (List.filter_sublist.map _).trans inOrder.kept
  distinct := inOrder.distinct
  named := inOrder.named
  right := inOrder.right

end

theorem wrote_iff {row : EventRow} :
    emitter.wrote row = true ↔ ∃ seq id, emitter.parseSeqKey row.key = some (seq, id) ∧
        row.key = emitter.seqKey seq id ∧ seq + 1 < emitter.bound := by
  unfold Emitter.wrote
  cases parsed : emitter.parseSeqKey row.key with
  | none => simp
  | some pair =>
    obtain ⟨seq, id⟩ := pair
    simp

theorem successor_eq {seq : Nat} (short : seq + 1 < emitter.bound) : successor seq = seq + 1 := by
  have exactNumbers : seq < 2 ^ 53 := by
    cases emitter with
    | core =>
      have fits : seq + 1 < 10 ^ 10 := short
      omega
    | native =>
      have fits : seq + 1 < 2 ^ 53 + 1 := short
      omega
  rw [successor, if_pos exactNumbers]

theorem lt_nextKey (sorted : channel.rows.Pairwise fun first second => first.key < second.key)
    (own : channel.rows.all emitter.wrote = true) (id : Text)
    {row : EventRow} (member : row ∈ channel.rows) :
    row.key < emitter.seqKey (channel.nextSeq emitter) id := by
  rw [List.all_eq_true] at own
  obtain ⟨seq, rowId, _, rowKey, rowShort⟩ := wrote_iff.mp (own row member)
  rcases List.eq_nil_or_concat channel.rows with empty | ⟨before, last, split⟩
  · rw [empty] at member
    cases member
  rw [List.concat_eq_append] at split
  have lastMember : last ∈ channel.rows := by
    rw [split]
    simp
  obtain ⟨lastSeq, lastId, parsed, lastKey, short⟩ :=
    wrote_iff.mp (own last lastMember)
  have next : channel.nextSeq emitter = lastSeq + 1 := by
    have found : channel.keys.getLast? = some last.key := by
      rw [keys_eq sorted, split]
      simp
    rw [EventChannel.nextSeq, found, Option.bind_some, parsed]
    exact successor_eq short
  have below : seq ≤ lastSeq := by
    by_contra above
    have less : last.key < row.key := by
      rw [lastKey, rowKey]
      exact seqKey_lt (by omega) (by omega) _ _
    rw [split] at member sorted
    rcases List.mem_append.mp member with earlier | same
    · have greater := (List.pairwise_append.mp sorted).2.2 row earlier last
        (List.mem_singleton.mpr rfl)
      exact lt_irrefl _ (less.trans greater)
    · rw [List.mem_singleton.mp same] at less
      exact lt_irrefl _ less
  rw [rowKey, next]
  exact seqKey_lt (by omega) short _ _

theorem inOrder_emit (inOrder : InOrder defaultLimit channel) {record : EventRecord}
    (follows : canFollow channel (.emit emitter record) = true)
    (named : record.id ≠ []) (new : record.id ∉ channel.emitted) :
    InOrder defaultLimit (channel.emit emitter record) := by
  have after : ∀ row ∈ channel.rows, row.key <
      emitter.seqKey (channel.nextSeq emitter) record.id :=
    fun row member => lt_nextKey inOrder.sorted follows record.id member
  have others : channel.rows.filter (·.key ≠ emitter.seqKey (channel.nextSeq emitter) record.id) =
        channel.rows := by
    rw [List.filter_eq_self]
    intro row member
    simpa using ne_of_lt (after row member)
  refine ⟨?_, ?_, ?_, ?_, inOrder.right⟩
  · rw [EventChannel.emit, others, List.pairwise_append]
    refine ⟨inOrder.sorted, List.pairwise_singleton _ _, ?_⟩
    intro row member last single
    rw [List.mem_singleton.mp single]
    exact after row member
  · rw [EventChannel.emit, others, List.map_append]
    exact inOrder.kept.append (List.Sublist.refl _)
  · rw [EventChannel.emit, List.nodup_append]
    refine ⟨inOrder.distinct, List.nodup_singleton _, ?_⟩
    intro id member other single
    rw [List.mem_singleton.mp single]
    intro same
    exact new (same ▸ member)
  · intro id member
    rcases List.mem_append.mp member with older | latest
    · exact inOrder.named id older
    · rw [List.mem_singleton.mp latest]
      exact named

theorem inOrder_eventStep (inOrder : InOrder defaultLimit channel)
    {act : EventAct} (follows : canFollow channel act = true)
    (taken : eventStep defaultLimit channel act = some next) :
    InOrder defaultLimit next := by
  cases act with
  | emit emitter record =>
    rw [eventStep] at taken
    by_cases fresh : record.id ≠ [] ∧ record.id ∉ channel.emitted
    · rw [if_pos fresh] at taken
      cases taken
      exact inOrder_emit inOrder follows fresh.1 fresh.2
    · rw [if_neg fresh] at taken
      cases taken
  | prune position =>
    obtain ⟨key, _, taken⟩ := Option.bind_eq_some_iff.mp taken
    cases taken
    have deleted := inOrder_delete inOrder key
    exact ⟨deleted.sorted, deleted.kept, deleted.distinct, deleted.named, deleted.right⟩
  | keep position =>
    cases taken
    exact ⟨inOrder.sorted, inOrder.kept, inOrder.distinct, inOrder.named, inOrder.right⟩
  | list request =>
    cases taken
    refine ⟨inOrder.sorted, inOrder.kept, inOrder.distinct, inOrder.named, ?_⟩
    intro reply member
    rcases List.mem_append.mp member with older | latest
    · exact inOrder.right reply older
    · rw [List.mem_singleton.mp latest]
      exact right_listPage inOrder follows

end

/-- Consumers miss nothing that is stored, as long as every emitter finds
only its own rows and every consumer names an event that is stored or that no
stored event follows. -/
theorem consumers_miss_nothing (defaultLimit : Nat) {acts : List EventAct} {channel : EventChannel}
    (meets : StepsMeet (eventStep defaultLimit)
      (fun channel act => canFollow channel act = true) {} acts)
    (executed : runFrom (eventStep defaultLimit) {} acts = some channel) :
    ∀ reply ∈ channel.replies, reply.Right defaultLimit := by
  have empty : InOrder defaultLimit {} :=
    ⟨List.Pairwise.nil, List.Sublist.refl _, List.nodup_nil,
      fun _ absent => (nomatch absent), fun _ absent => (nomatch absent)⟩
  exact (invariant_of_stepsMeet (InOrder defaultLimit)
    (fun _ _ _ inOrder follows taken => inOrder_eventStep inOrder follows taken)
    empty meets executed).right

def eventNamed (id : Text) : EventRecord :=
  ⟨id, "{}".toList⟩

/-- Two events, the first of which the consumer has seen. -/
def nativeEvents : List EventAct :=
  [.emit .native (eventNamed "a".toList), .list (.native [] [] 1),
    .emit .native (eventNamed "b".toList),
    .list (.native "a".toList [] 0)]

theorem consumers_miss_nothing_native :
    ∃ channel, runFrom (eventStep 100) {} nativeEvents = some channel ∧
      (channel.replies.map fun reply => reply.page.map EventRecord.id) =
        [["a".toList], ["b".toList]] ∧
      ∀ reply ∈ channel.replies, reply.Right 100 := by
  have executed : (runFrom (eventStep 100) {} nativeEvents).map
      (fun channel => channel.replies.map fun reply => reply.page.map EventRecord.id) =
      some [["a".toList], ["b".toList]] := by
    decide +kernel
  obtain ⟨channel, executed, pages⟩ := Option.map_eq_some_iff.mp executed
  exact ⟨channel, executed, pages, consumers_miss_nothing 100 (by decide +kernel) executed⟩

/-- The core service does not read the key of the native dispatch, and counts
from zero again. -/
def mixedEvents : List EventAct :=
  [.emit .core (eventNamed "a".toList), .emit .native (eventNamed "b".toList),
    .emit .core (eventNamed "c".toList),
    .list (.native [] [] 0)]

theorem consumers_miss_order :
    ¬∀ channel, runFrom (eventStep 100) {} mixedEvents = some channel →
      ∀ reply ∈ channel.replies, reply.Right 100 := by
  intro right
  have executed : (runFrom (eventStep 100) {} mixedEvents).map
      (fun channel => channel.replies.map fun reply =>
        (reply.page.map EventRecord.id, reply.emitted)) =
      some [(["a".toList, "c".toList, "b".toList], ["a".toList, "b".toList, "c".toList])] := by
    decide +kernel
  obtain ⟨channel, executed, pages⟩ := Option.map_eq_some_iff.mp executed
  cases replies : channel.replies with
  | nil =>
    rw [replies] at pages
    cases pages
  | cons reply rest =>
    rw [replies, List.map_cons] at pages
    obtain ⟨page, emitted⟩ := Prod.mk.inj (List.cons.inj pages).1
    have ordered := (right channel executed reply (by simp [replies])).ordered
    rw [page, emitted] at ordered
    exact absurd ordered (by decide)

end Aprovan.Events
