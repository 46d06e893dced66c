import Aprovan.Vcs.ChatSessions

/-!
# The transcript of a session

Batches of messages are appended one after the other, and the rows are read in
the order of their keys.
-/

namespace Aprovan.Vcs

open Aprovan.Library

/-- `readMessages`: the keys in their order, and what is under each. -/
def readMessages (stores : SessionStores) : List ChatMessage :=
  (stores.messages.names.insertionSort (· ≤ ·)).filterMap stores.messages.get

/-- A message replaces the one with its id in place, or it comes last. -/
def upsert (transcript : List ChatMessage) (message : ChatMessage) : List ChatMessage :=
  if messageIdOf message ≠ none ∧ messageIdOf message ∈ transcript.map messageIdOf then
    transcript.map fun old =>
      if messageIdOf old = messageIdOf message then message else old
  else transcript ++ [message]

def appendBatches (services : SessionServices) (id : Text)
    (stores : SessionStores) (batches : List (List ChatMessage)) :
    SessionStores :=
  batches.foldl (fun stores batch =>
    ((appendMessages id batch).settle (executeAlone services) stores).2) stores

def unwritten (stores : SessionStores) (record : ChatSessionRecord) : SessionStores :=
  { stores with
    session := some { record with messageCount := 0 }
    messages := .empty }

section

variable {uuids : List Text} {rows : List (Text × Option Text)}
  {key id : Text}

/-- The key of a row is made of the id of its message, or of a drawn one. -/
def KeyId (uuids : List Text) (messageId : Option Text) (id : Text) : Prop :=
  messageId = some id ∨ (messageId = none ∧ id ∈ [] :: uuids)

/-- The keys of rows and the ids of their messages, in the order in which the
rows came. -/
inductive Stored (uuids : List Text) : List (Text × Option Text) → Prop
  | nil : Stored uuids []
  | concat {rows : List (Text × Option Text)} {messageId : Option Text}
      {id : Text} (older : Stored uuids rows)
      (owns : KeyId uuids messageId id)
      (new : messageId ∈ rows.map Prod.snd → messageId = none) :
      Stored uuids (rows ++ [(seqKey rows.length id, messageId)])

theorem Stored.key_of_mem (stored : Stored uuids rows)
    {row : Text × Option Text} (member : row ∈ rows) :
    ∃ seq < rows.length, ∃ id, row.1 = seqKey seq id ∧ KeyId uuids row.2 id := by
  induction stored with
  | nil => cases member
  | concat older owns _ ih =>
    rw [List.length_append, List.length_singleton]
    rcases List.mem_append.mp member with earlier | last
    · obtain ⟨seq, early, id, isKey, isId⟩ := ih earlier
      exact ⟨seq, by omega, id, isKey, isId⟩
    · obtain rfl := List.mem_singleton.mp last
      exact ⟨_, by omega, _, rfl, owns⟩

theorem Stored.eq_of_id (stored : Stored uuids rows) {first second : Text}
    (one : (first, some id) ∈ rows) (other : (second, some id) ∈ rows) :
    first = second := by
  induction stored with
  | nil => cases one
  | concat older _ new ih =>
    rcases List.mem_append.mp one with early | last
    · rcases List.mem_append.mp other with earlier | latter
      · exact ih early earlier
      · cases List.mem_singleton.mp latter
        cases new (List.mem_map_of_mem early)
    · cases List.mem_singleton.mp last
      rcases List.mem_append.mp other with earlier | latter
      · cases new (List.mem_map_of_mem earlier)
      · cases List.mem_singleton.mp latter
        rfl

theorem Stored.sorted (stored : Stored uuids rows) (few : rows.length ≤ 10 ^ 10) :
    (rows.map Prod.fst).Pairwise (· < ·) := by
  induction stored with
  | nil => exact List.Pairwise.nil
  | concat older _ _ ih =>
    rw [List.length_append, List.length_singleton] at few
    rw [List.map_append, List.pairwise_append]
    refine ⟨ih (by omega), List.pairwise_singleton _ _, ?_⟩
    intro earlier listed last isLast
    obtain ⟨row, member, rfl⟩ := List.mem_map.mp listed
    obtain rfl := List.mem_singleton.mp isLast
    obtain ⟨seq, early, id, isKey, _⟩ := older.key_of_mem member
    rw [isKey]
    exact padded_append_lt (by omega) early (by omega) _ _

/-- What an append knows of the rows; ids that were drawn do not matter. -/
structure Knows (uuids : List Text) (rows : List (Text × Option Text))
    (state : AppendState) : Prop where
  nextSeq : state.nextSeq = rows.length
  keyById : ∀ id key, id ≠ [] → id ∉ uuids → ((id, key) ∈ state.keyById ↔ (key, some id) ∈ rows)

variable {state : AppendState}

theorem Knows.concat {after : AppendState} (knows : Knows uuids rows state)
    {messageId : Option Text} (nextSeq : after.nextSeq = state.nextSeq + 1)
    (known : ∀ other ≠ [], other ∉ uuids → ∀ found,
      (other, found) ∈ after.keyById ↔ (other, found) ∈ state.keyById ∨
        (messageId = some other ∧ found = key)) :
    Knows uuids (rows ++ [(key, messageId)]) after := by
  refine ⟨?_, ?_⟩
  · rw [nextSeq, knows.nextSeq, List.length_append, List.length_singleton]
  · intro other found named undrawn
    rw [known other named undrawn, knows.keyById other found named undrawn,
      List.mem_append, List.mem_singleton, Prod.mk.injEq,
      eq_comm (b := messageId)]
    exact or_congr_right and_comm

theorem Stored.knows_counted (stored : Stored uuids rows)
    (few : rows.length ≤ 10 ^ 10) (count : Nat) :
    Knows uuids rows ((rows.map Prod.fst).foldl countKey ⟨[], 0, count⟩) ∧
      ((rows.map Prod.fst).foldl countKey ⟨[], 0, count⟩).count = count := by
  induction stored with
  | nil => exact ⟨⟨rfl, by simp⟩, rfl⟩
  | @concat rows messageId id older owns _ ih =>
    rw [List.length_append, List.length_singleton] at few
    obtain ⟨knows, counted⟩ := ih (by omega)
    rw [List.map_append, List.foldl_append]
    generalize (rows.map Prod.fst).foldl countKey _ = state at *
    have parsed := parseSeqKey_seqKey (by omega : rows.length < 10 ^ 10) id
    simp only [List.map_singleton, List.foldl_cons, List.foldl_nil, countKey, parsed]
    refine ⟨knows.concat ?_ ?_, counted⟩
    · simp [knows.nextSeq]
    · intro other named undrawn found
      have isOwn : messageId = some other ↔ id = other := by
        rcases owns with rfl | ⟨rfl, drawn⟩
        · exact Option.some_inj
        · refine ⟨nofun, ?_⟩
          rintro rfl
          exact absurd drawn (by simp [named, undrawn])
      rw [isOwn]
      by_cases unnamed : id = []
      · simp [unnamed, Ne.symm named]
      · simp [unnamed, eq_comm]

theorem knows_listedState (stored : Stored uuids rows) (few : rows.length ≤ 10 ^ 10) :
    Knows uuids rows (listedState (rows.map Prod.fst)) ∧
      (listedState (rows.map Prod.fst)).count = rows.length := by
  obtain ⟨knows, count⟩ := stored.knows_counted few (rows.map Prod.fst).length
  exact ⟨knows, count.trans (List.length_map _)⟩

theorem keyOf_eq_some (knows : Knows uuids rows state) (named : id ≠ [])
    (undrawn : id ∉ uuids) (found : state.keyOf id = some key) :
    (key, some id) ∈ rows := by
  obtain ⟨entry, first, rfl⟩ := Option.map_eq_some_iff.mp found
  have own : entry.1 = id := by simpa using List.find?_some first
  rw [← knows.keyById _ _ named undrawn, ← own]
  exact List.mem_reverse.mp (List.mem_of_find?_eq_some first)

theorem keyOf_eq_none (knows : Knows uuids rows state) (named : id ≠ [])
    (undrawn : id ∉ uuids) (missing : state.keyOf id = none) :
    some id ∉ rows.map Prod.snd := by
  intro listed
  obtain ⟨row, member, same⟩ := List.mem_map.mp listed
  have known := (knows.keyById id row.1 named undrawn).mpr (same ▸ member)
  have unfound := List.find?_eq_none.mp (Option.map_eq_none_iff.mp missing) _
    (List.mem_reverse.mpr known)
  exact unfound (by simp)

end

section

variable {services : SessionServices} {uuids : List Text}
  {transcript : List ChatMessage} {stores : SessionStores}
  {message : ChatMessage} {state : AppendState} {id key : Text}

def keyedRows (messages : Table ChatMessage) : List (Text × Option Text) :=
  messages.rows.map fun row => (row.1, messageIdOf row.2)

structure Holds (uuids : List Text) (transcript : List ChatMessage)
    (stores : SessionStores) : Prop where
  stored : Stored uuids (keyedRows stores.messages)
  values : stores.messages.rows.map Prod.snd = transcript
  drawn : ∀ id ∈ stores.uuids, id ∈ uuids

theorem Holds.ids (holds : Holds uuids transcript stores) :
    (keyedRows stores.messages).map Prod.snd = transcript.map messageIdOf := by
  rw [← holds.values, keyedRows, List.map_map, List.map_map]
  rfl

theorem Holds.length (holds : Holds uuids transcript stores) :
    (keyedRows stores.messages).length = transcript.length := by
  have lengths := congrArg List.length holds.ids
  simpa using lengths

theorem rows_put_known {messages : Table ChatMessage}
    (stored : Stored uuids (keyedRows messages)) (row : (key, some id) ∈ keyedRows messages)
    (named : messageIdOf message = some id) :
    keyedRows (messages.put key message) = keyedRows messages ∧
      (messages.put key message).rows.map Prod.snd =
        upsert (messages.rows.map Prod.snd) message := by
  obtain ⟨old, member, same⟩ := List.mem_map.mp row
  obtain ⟨rfl, isId⟩ := Prod.mk.inj same
  have rows : (messages.put old.1 message).rows = messages.rows.map fun row =>
      if row.1 = old.1 then (old.1, message) else row :=
    if_pos (List.mem_map_of_mem member)
  have own : ∀ row ∈ messages.rows, row.1 = old.1 ↔ messageIdOf row.2 = messageIdOf message := by
    intro other inRows
    rw [named]
    constructor
    · intro sameKey
      rw [List.inj_on_of_nodup_map messages.keys inRows member sameKey]
      exact isId
    · intro sameId
      apply stored.eq_of_id _ row
      rw [← sameId]
      exact List.mem_map.mpr ⟨other, inRows, rfl⟩
  constructor
  · rw [keyedRows, rows, List.map_map]
    apply List.map_congr_left
    intro other inRows
    by_cases found : other.1 = old.1
    · simp [found, (own other inRows).mp found]
    · simp [found]
  · rw [upsert, if_pos, rows, List.map_map, List.map_map]
    · apply List.map_congr_left
      intro other inRows
      by_cases found : other.1 = old.1
      · simp [found, (own other inRows).mp found]
      · simp [found, mt (own other inRows).mpr found]
    · refine ⟨by simp [named], List.mem_map.mpr ⟨old.2, ?_, ?_⟩⟩
      · exact List.mem_map_of_mem member
      · exact isId.trans named.symm

def Appended (uuids : List Text) (transcript : List ChatMessage)
    (session : Option ChatSessionRecord)
    (outcome : Except SessionFailure AppendState) (after : SessionStores) :
    Prop :=
  ∃ state, outcome = .ok state ∧ Holds uuids transcript after ∧
    Knows uuids (keyedRows after.messages) state ∧
    state.count = transcript.length ∧ after.session = session

section

variable (holds : Holds uuids transcript stores)
  (knows : Knows uuids (keyedRows stores.messages) state)
  (count : state.count = transcript.length)

include holds knows count

theorem appended_new (owns : KeyId uuids (messageIdOf message) id)
    (new : messageIdOf message ∈ transcript.map messageIdOf →
      messageIdOf message = none) {left : List Text} (drawn : ∀ id ∈ left, id ∈ uuids) :
    Appended uuids (upsert transcript message) stores.session (.ok ⟨match messageIdOf message with
        | some id => state.keyById ++ [(id, seqKey state.nextSeq id)]
        | none => state.keyById, state.nextSeq + 1, state.count + 1⟩)
      { stores with
        uuids := left
        messages := stores.messages.put (seqKey state.nextSeq id) message } := by
  have last : upsert transcript message = transcript ++ [message] :=
    if_neg fun known => known.1 (new known.2)
  have nextSeq := knows.nextSeq
  have unknown : seqKey state.nextSeq id ∉ stores.messages.names := by
    intro listed
    obtain ⟨row, member, same⟩ := List.mem_map.mp listed
    obtain ⟨seq, early, other, isKey, _⟩ := holds.stored.key_of_mem (List.mem_map_of_mem member)
    have ordinals := congrArg (List.takeWhile (· ≠ '#')) (isKey.symm.trans same)
    rw [takeWhile_seqKey, takeWhile_seqKey] at ordinals
    have numbers := congrArg (Nat.ofDigitChars 10 · 0) ordinals
    simp only [ofDigitChars_padded] at numbers
    omega
  have rows : (stores.messages.put (seqKey state.nextSeq id) message).rows =
      stores.messages.rows ++ [(seqKey state.nextSeq id, message)] :=
    if_neg unknown
  have keyed : keyedRows (stores.messages.put (seqKey state.nextSeq id)
      message) = keyedRows stores.messages ++
        [(seqKey state.nextSeq id, messageIdOf message)] := by
    rw [keyedRows, rows, List.map_append]
    rfl
  refine ⟨_, rfl, ⟨?_, ?_, drawn⟩, ?_, ?_, rfl⟩
  · rw [keyed, nextSeq]
    exact holds.stored.concat owns (holds.ids ▸ new)
  · rw [rows, List.map_append, holds.values, last]
    rfl
  · rw [keyed]
    refine knows.concat rfl ?_
    intro other named undrawn found
    rcases owns with same | ⟨same, _⟩
    · simp [same, eq_comm]
    · simp [same]
  · simp [last, count]

theorem settles_upsertRow (undrawn : ∀ id ∈ messageIdOf message, id ∉ uuids) :
    Settles (executeAlone services) (upsertRow state message) stores
      (Appended uuids (upsert transcript message) stores.session) := by
  unfold upsertRow appendRow
  have appended id owns new left drawn :=
    @appended_new uuids transcript stores message state id holds knows count owns new left drawn
  cases named : messageIdOf message with
  | none =>
    simp only [named] at appended
    refine appended (stores.uuids.headD []) (.inr ⟨rfl, ?_⟩)  (by simp) stores.uuids.tail ?_
    · cases isUuids : stores.uuids with
      | nil => exact List.mem_cons_self
      | cons uuid left => exact List.mem_cons_of_mem _ (holds.drawn _ (by simp [isUuids]))
    · exact fun id member => holds.drawn id (List.mem_of_mem_tail member)
  | some id =>
    have apart : id ≠ [] := by
      rintro rfl
      cases (Option.filter_eq_some_iff.mp named).2
    rw [Option.bind_some]
    cases found : state.keyOf id with
    | some key =>
      have row := keyOf_eq_some knows apart (undrawn id named) found
      obtain ⟨keyed, values⟩ := rows_put_known holds.stored row named
      have replaced : Holds uuids (upsert transcript message)
          { stores with messages := stores.messages.put key message } := by
        refine ⟨keyed.symm ▸ holds.stored, ?_, holds.drawn⟩
        rw [← holds.values]
        exact values
      refine ⟨state, rfl, replaced, keyed.symm ▸ knows, ?_, rfl⟩
      rw [count, ← holds.length, ← replaced.length, keyed]
    | none =>
      have new := keyOf_eq_none knows apart (undrawn id named) found
      simp only [named] at appended
      refine appended id (.inl rfl) (fun listed => ?_) stores.uuids holds.drawn
      exact absurd (holds.ids ▸ listed) new

theorem settles_upsertRows {messages : List ChatMessage}
    (undrawn : ∀ message ∈ messages, ∀ id ∈ messageIdOf message, id ∉ uuids) :
    Settles (executeAlone services) (messages.foldlM upsertRow state) stores
      (Appended uuids (messages.foldl upsert transcript) stores.session) := by
  induction messages generalizing transcript stores state with
  | nil => exact ⟨state, rfl, holds, knows, count, rfl⟩
  | cons message rest ih =>
    have own := undrawn message List.mem_cons_self
    refine settles_bind ((settles_upsertRow holds knows count own).weaken ?_)
    rintro _ after ⟨known, rfl, held, knowing, counted, same⟩
    rw [← same]
    exact ih held knowing counted fun other member => undrawn other (List.mem_cons_of_mem _ member)

end

section

variable (holds : Holds uuids transcript stores)

include holds

theorem Holds.sorted (few : transcript.length ≤ 10 ^ 10) :
    stores.messages.names.insertionSort (· ≤ ·) = (keyedRows stores.messages).map Prod.fst := by
  have names : stores.messages.names = (keyedRows stores.messages).map Prod.fst := by
    rw [keyedRows, List.map_map]
    rfl
  rw [names]
  apply List.Pairwise.insertionSort_eq
  rw [← holds.length] at few
  exact (holds.stored.sorted few).imp fun less => le_of_lt less

theorem settles_appendMessages {messages : List ChatMessage} {record : ChatSessionRecord}
    (session : stores.session = some record) (few : transcript.length ≤ 10 ^ 10)
    (undrawn : ∀ message ∈ messages, ∀ id ∈ messageIdOf message, id ∉ uuids) :
    Settles (executeAlone services) (appendMessages id messages) stores
      fun _ after => Holds uuids (messages.foldl upsert transcript) after ∧
        after.session.map ChatSessionRecord.messageCount =
          some (messages.foldl upsert transcript).length := by
  obtain ⟨knows, count⟩ := knows_listedState holds.stored (holds.length.trans_le few)
  rw [← holds.sorted few] at knows count
  obtain ⟨outcome, same, _⟩ := run_requireSession services id session
  have required : Settles (executeAlone services) (requireSession id) stores
      fun outcome after => outcome = .ok record ∧ after = stores :=
    ⟨outcome, same⟩
  refine settles_bind (required.weaken ?_)
  rintro _ stores ⟨rfl, rfl⟩
  have listed : Settles (executeAlone services) (ask .listMessageKeys) stores
      fun outcome after =>
        outcome = .ok (stores.messages.names.insertionSort (· ≤ ·)) ∧ after = stores :=
    ⟨rfl, rfl⟩
  refine settles_bind (listed.weaken ?_)
  rintro _ stores ⟨rfl, rfl⟩
  refine settles_bind ((settles_upsertRows holds knows
    (count.trans holds.length) undrawn).weaken ?_)
  rintro _ after ⟨known, rfl, held, _, counted, _⟩
  exact ⟨⟨held.stored, held.values, held.drawn⟩, congrArg some counted⟩

theorem readMessages_of_holds (few : transcript.length ≤ 10 ^ 10) :
    readMessages stores = transcript := by
  rw [readMessages, holds.sorted few, keyedRows, List.map_map,
    List.filterMap_map, ← holds.values, ← List.filterMap_eq_map]
  apply List.filterMap_congr
  intro row member
  exact Table.get_eq_some_iff.mpr member

end

theorem length_le_upsert (transcript : List ChatMessage) (messages : List ChatMessage) :
    transcript.length ≤ (messages.foldl upsert transcript).length := by
  induction messages generalizing transcript with
  | nil => rfl
  | cons message rest ih =>
    refine Nat.le_trans ?_ (ih _)
    unfold upsert
    split <;> simp

theorem holds_appendBatches {batches : List (List ChatMessage)}
    (holds : Holds uuids transcript stores)
    (counted : stores.session.map ChatSessionRecord.messageCount = some transcript.length)
    (few : (batches.flatten.foldl upsert transcript).length ≤ 10 ^ 10)
    (undrawn : ∀ message ∈ batches.flatten, ∀ id ∈ messageIdOf message, id ∉ uuids) :
    let after := appendBatches services id stores batches
    Holds uuids (batches.flatten.foldl upsert transcript) after ∧
      after.session.map ChatSessionRecord.messageCount =
        some (batches.flatten.foldl upsert transcript).length := by
  induction batches generalizing transcript stores with
  | nil => exact ⟨holds, counted⟩
  | cons batch rest ih =>
    rw [List.flatten_cons] at few undrawn ⊢
    rw [List.foldl_append] at few ⊢
    have fewer := (length_le_upsert _ rest.flatten).trans few
    obtain ⟨record, session, _⟩ := Option.map_eq_some_iff.mp counted
    obtain ⟨held, count⟩ := @settles_appendMessages services _ _ _ id holds _
      _ session ((length_le_upsert _ batch).trans fewer)
      fun message member => undrawn message (List.mem_append_left _ member)
    exact ih held count few fun message member => undrawn message (List.mem_append_right _ member)

theorem holds_unwritten (stores : SessionStores) (record : ChatSessionRecord) :
    Holds stores.uuids [] (unwritten stores record) :=
  ⟨.nil, rfl, fun _ member => member⟩

end

/-- The transcript of a session is its messages upserted one after the other.
An array holds fewer messages than ten digits number, and an id that
`randomUUID` draws is fresh. -/
theorem appends_refine_upserts (services : SessionServices) (id : Text) (stores : SessionStores)
    (record : ChatSessionRecord) (batches : List (List ChatMessage))
    (few : (batches.flatten.foldl upsert []).length ≤ 10 ^ 10)
    (undrawn : ∀ message ∈ batches.flatten, ∀ messageId ∈ messageIdOf message,
      messageId ∉ stores.uuids) :
    let after := appendBatches services id (unwritten stores record) batches
    readMessages after = batches.flatten.foldl upsert [] ∧
      after.session.map ChatSessionRecord.messageCount =
        some (batches.flatten.foldl upsert []).length := by
  obtain ⟨holds, counted⟩ := @holds_appendBatches services _ _ _ id _
    (holds_unwritten stores record) rfl few undrawn
  exact ⟨readMessages_of_holds holds few, counted⟩

theorem appends_refine_upserts_resent :
    let first : ChatMessage := ⟨some "m1".toList, "draft".toList⟩
    let second : ChatMessage := ⟨none, "reply".toList⟩
    let again : ChatMessage := ⟨some "m1".toList, "final".toList⟩
    let batches := [[first, second], [again]]
    (batches.flatten.foldl upsert []).length ≤ 10 ^ 10 ∧
      readMessages (appendBatches plainServices "s".toList
        (unwritten freshStores freshSession) batches) = [again, second] := by
  refine ⟨by decide, ?_⟩
  exact (appends_refine_upserts plainServices "s".toList freshStores
    freshSession _ (by decide) (by simp [freshStores])).1

end Aprovan.Vcs
