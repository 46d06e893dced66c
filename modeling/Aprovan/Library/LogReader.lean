import Mathlib

/-!
# Readers of a log

A log numbers its items by their positions.  A reader takes the items from a
number on, each once and in their order, up to the first final one.  What it
is given are stretches of the log, which may overlap, and which reach what it
has taken so far.
-/

namespace Aprovan.Library

universe u

variable {Item : Type u}

/-- The items are numbered by their positions. -/
def Gapless (seq : Item → Nat) (log : List Item) : Prop :=
  log.map seq = List.range log.length

section

variable {seq : Item → Nat} {log : List Item}

theorem gapless_nil : Gapless seq [] :=
  rfl

theorem Gapless.append (gapless : Gapless seq log) {more : List Item}
    (continued : more.map seq = List.range' log.length more.length) :
    Gapless seq (log ++ more) := by
  have joined := @List.range'_append_1 0 log.length more.length
  unfold Gapless at gapless ⊢
  rw [List.map_append, gapless, continued, List.length_append,
    List.range_eq_range', List.range_eq_range', ← joined, Nat.zero_add]

theorem seq_head_of_numbered {first : Nat} {item : Item} {rest : List Item}
    (numbered : (item :: rest).map seq = List.range' first (item :: rest).length) :
    seq item = first ∧ rest.map seq = List.range' (first + 1) rest.length := by
  rw [List.map_cons, List.length_cons, List.range'_succ] at numbered
  exact List.cons.inj numbered

/-- The number of the first item of a rest. -/
theorem Gapless.seq_of_drop (gapless : Gapless seq log) {position : Nat} {item : Item}
    {rest : List Item} (located : log.drop position = item :: rest) :
    seq item = position := by
  have numbered : (log.drop position).map seq =
      List.range' position (log.drop position).length := by
    unfold Gapless at gapless
    rw [List.map_drop, gapless, List.range_eq_range', List.drop_range', List.length_drop]
    simp
  rw [located] at numbered
  exact (seq_head_of_numbered numbered).1

theorem filter_of_numbered {first : Nat} (numbered : log.map seq = List.range' first log.length)
    (start : Nat) :
    log.filter (fun item => start ≤ seq item) = log.drop (start - first) := by
  induction log generalizing first with
  | nil => simp
  | cons item rest ih =>
    obtain ⟨headNumber, restNumbers⟩ := seq_head_of_numbered numbered
    have restFiltered := ih restNumbers
    by_cases wanted : start ≤ first
    · have whole : start - (first + 1) = 0 := by omega
      rw [whole, List.drop_zero] at restFiltered
      have none : start - first = 0 := by omega
      rw [List.filter_cons_of_pos (by simpa [headNumber] using wanted),
        restFiltered, none, List.drop_zero]
    · have skipped : start - first = start - (first + 1) + 1 := by omega
      rw [List.filter_cons_of_neg (by simpa [headNumber] using wanted),
        restFiltered, skipped, List.drop_succ_cons]

/-- The items from a number on are a rest. -/
theorem Gapless.filter_le (gapless : Gapless seq log) (start : Nat) :
    log.filter (fun item => start ≤ seq item) = log.drop start := by
  unfold Gapless at gapless
  rw [List.range_eq_range'] at gapless
  exact filter_of_numbered gapless start

end

def throughFirst (isFinal : Item → Bool) : List Item → List Item
  | [] => []
  | item :: rest =>
    if isFinal item then [item] else item :: throughFirst isFinal rest

attribute [local simp] throughFirst

section

variable {isFinal : Item → Bool} {items : List Item}

/-- Items that are not final are taken before the others. -/
theorem throughFirst_append_of_none (unfinished : ∀ item ∈ items, isFinal item = false)
    (more : List Item) :
    throughFirst isFinal (items ++ more) = items ++ throughFirst isFinal more := by
  induction items with
  | nil => rfl
  | cons item rest ih =>
    have headUnfinished := unfinished item List.mem_cons_self
    have restKept := ih fun other member => unfinished other (List.mem_cons_of_mem item member)
    simp [throughFirst, headUnfinished, restKept]

/-- Behind a final item nothing is taken. -/
theorem throughFirst_append_of_final (finished : ∃ item ∈ items, isFinal item = true)
    (more : List Item) :
    throughFirst isFinal (items ++ more) = throughFirst isFinal items := by
  induction items with
  | nil =>
    obtain ⟨item, member, _⟩ := finished
    cases member
  | cons item rest ih =>
    by_cases final : isFinal item = true
    · simp [throughFirst, final]
    · obtain ⟨last, member, lastFinal⟩ := finished
      have later : last ∈ rest := by
        rcases List.mem_cons.mp member with same | later
        · rw [same] at lastFinal
          exact absurd lastFinal final
        · exact later
      have restTaken := ih ⟨last, later, lastFinal⟩
      simp [throughFirst, final, restTaken]

theorem throughFirst_within (items : List Item) : throughFirst isFinal items <+: items := by
  induction items with
  | nil => exact List.prefix_rfl
  | cons item rest ih =>
    by_cases final : isFinal item = true
    · simp [throughFirst, final]
    · simpa [throughFirst, final] using ih

end

structure LogReader (Item : Type u) where
  start : Nat
  /-- The number that the reader waits for. -/
  next : Nat
  taken : List Item
  closed : Bool

namespace LogReader

def opened (start : Nat) : LogReader Item :=
  ⟨start, start, [], false⟩

def close (reader : LogReader Item) : LogReader Item :=
  { reader with closed := true }

section

variable (seq : Item → Nat) (isFinal : Item → Bool)

/-- Take an item that was not taken; a final one closes the reader. -/
def receive (reader : LogReader Item) (item : Item) : LogReader Item :=
  if reader.closed then reader
  else if seq item < reader.start ∨ seq item < reader.next then reader
  else
    { reader with
        next := seq item + 1
        taken := reader.taken ++ [item]
        closed := isFinal item }

def receiveAll (reader : LogReader Item) (items : List Item) : LogReader Item :=
  items.foldl (receive seq isFinal) reader

end

/-- An open reader has taken the log up to the number that it waits for, and
nothing final. -/
structure Reading (isFinal : Item → Bool) (log : List Item) (reader : LogReader Item) : Prop where
  isOpen : reader.closed = false
  taken : reader.taken = (log.take reader.next).drop reader.start
  unfinished : ∀ item ∈ reader.taken, isFinal item = false
  startLe : reader.start ≤ reader.next
  bounded : reader.next ≤ log.length ∨ reader.next = reader.start

/-- A reader that a final item has closed has taken everything up to it. -/
structure Finished (isFinal : Item → Bool) (log : List Item) (reader : LogReader Item) : Prop where
  isClosed : reader.closed = true
  taken : reader.taken = throughFirst isFinal (log.drop reader.start)
  final : ∃ item ∈ reader.taken, isFinal item = true

section

variable {seq : Item → Nat} {isFinal : Item → Bool} {log : List Item}
  {reader : LogReader Item}

theorem reading_opened (log : List Item) (start : Nat) : Reading isFinal log (opened start) where
  isOpen := rfl
  taken := by
    simp [opened]
  unfinished := by
    simp [opened]
  startLe := Nat.le_refl start
  bounded := Or.inr rfl

theorem receive_of_closed (seq : Item → Nat) (isFinal : Item → Bool)
    (isClosed : reader.closed = true) (item : Item) :
    reader.receive seq isFinal item = reader := by
  rw [receive, if_pos isClosed]

theorem receiveAll_of_closed (seq : Item → Nat) (isFinal : Item → Bool)
    (isClosed : reader.closed = true) (items : List Item) :
    reader.receiveAll seq isFinal items = reader := by
  induction items with
  | nil => rfl
  | cons item rest ih =>
    rw [receiveAll, List.foldl_cons, receive_of_closed seq isFinal isClosed]
    exact ih

@[simp]
theorem start_receive (reader : LogReader Item) (item : Item) :
    (reader.receive seq isFinal item).start = reader.start := by
  unfold receive
  split
  · rfl
  · split <;> rfl

@[simp]
theorem start_receiveAll (reader : LogReader Item) (items : List Item) :
    (reader.receiveAll seq isFinal items).start = reader.start := by
  induction items generalizing reader with
  | nil => rfl
  | cons item rest ih =>
    rw [receiveAll, List.foldl_cons]
    exact (ih _).trans (start_receive reader item)

section

variable (reading : Reading isFinal log reader)

include reading

/-- What an open reader has taken is no more than what it should take. -/
theorem Reading.throughFirst_eq :
    throughFirst isFinal (log.drop reader.start) =
      reader.taken ++ throughFirst isFinal (log.drop reader.next) := by
  have split : log.drop reader.start = reader.taken ++ log.drop reader.next := by
    rw [reading.taken]
    rcases reading.bounded with inside | untouched
    · have parts := List.take_append_drop reader.next log
      have long : reader.start ≤ (log.take reader.next).length := by
        rw [List.length_take, Nat.min_eq_left inside]
        exact reading.startLe
      rw [← List.drop_append_of_le_length long, parts]
    · rw [untouched, List.drop_take_self, List.nil_append]
  rw [split, throughFirst_append_of_none reading.unfinished]

theorem Reading.taken_within : reader.taken <+: throughFirst isFinal (log.drop reader.start) := by
  rw [reading.throughFirst_eq]
  exact List.prefix_append _ _

/-- An open reader that has everything has taken what it should take. -/
theorem Reading.taken_eq (everything : log.length ≤ reader.next) :
    reader.taken = throughFirst isFinal (log.drop reader.start) := by
  rw [reading.throughFirst_eq, List.drop_of_length_le everything, throughFirst, List.append_nil]

end

theorem Reading.mem_taken (gapless : Gapless seq log) (reading : Reading isFinal log reader)
    (everything : log.length ≤ reader.next) {item : Item}
    (member : item ∈ log) (wanted : reader.start ≤ seq item) :
    item ∈ reader.taken := by
  rw [reading.taken, List.take_of_length_le everything, ← gapless.filter_le reader.start]
  exact List.mem_filter.mpr ⟨member, by simpa using wanted⟩

theorem Reading.append (reading : Reading isFinal log reader) (more : List Item) :
    Reading isFinal (log ++ more) reader where
  isOpen := reading.isOpen
  taken := by
    rw [reading.taken]
    rcases reading.bounded with inside | untouched
    · rw [List.take_append_of_le_length inside]
    · rw [untouched, List.drop_take_self, List.drop_take_self]
  unfinished := reading.unfinished
  startLe := reading.startLe
  bounded := by
    have longer := reading.bounded
    rw [List.length_append]
    omega

theorem Finished.append (finished : Finished isFinal log reader) (more : List Item) :
    Finished isFinal (log ++ more) reader where
  isClosed := finished.isClosed
  taken := by
    obtain ⟨item, member, final⟩ := finished.final
    have known : item ∈ log.drop reader.start := by
      rw [finished.taken] at member
      exact (throughFirst_within _).subset member
    have inside : reader.start ≤ log.length := by
      by_contra outside
      rw [List.drop_of_length_le (by omega)] at known
      cases known
    rw [List.drop_append_of_le_length inside,
      throughFirst_append_of_final ⟨item, known, final⟩, finished.taken]
  final := finished.final

/-- The item that a reader waits for closes it, or it goes on. -/
theorem Reading.receive_next (reading : Reading isFinal log reader) {item : Item}
    {rest : List Item} (located : log.drop reader.next = item :: rest) :
    let after : LogReader Item :=
      { reader with
          next := reader.next + 1
          taken := reader.taken ++ [item]
          closed := isFinal item }
    Finished isFinal log after ∨ Reading isFinal log after := by
  intro after
  have inside : reader.next < log.length := by
    by_contra outside
    rw [List.drop_of_length_le (by omega)] at located
    cases located
  by_cases final : isFinal item = true
  · refine Or.inl ⟨final, ?_, item, by simp [after], final⟩
    have whole := reading.throughFirst_eq
    rw [located] at whole
    simp only [throughFirst, final, if_true] at whole
    exact whole.symm
  · have notFinal : isFinal item = false := by
      simpa using final
    have found : log[reader.next]? = some item := by
      rw [← List.head?_drop, located, List.head?_cons]
    have long : reader.start ≤ (log.take reader.next).length := by
      have ordered := reading.startLe
      rw [List.length_take]
      omega
    refine Or.inr ⟨notFinal, ?_, ?_, ?_, Or.inl inside⟩
    · show reader.taken ++ [item] = (log.take (reader.next + 1)).drop reader.start
      rw [List.take_add_one, found, Option.toList_some,
        List.drop_append_of_le_length long, reading.taken]
    · intro other member
      rcases List.mem_append.mp member with older | new
      · exact reading.unfinished other older
      · rw [List.mem_singleton.mp new]
        exact notFinal
    · exact Nat.le_succ_of_le reading.startLe

theorem Reading.receive (gapless : Gapless seq log) (reading : Reading isFinal log reader)
    {position : Nat} {item : Item} {rest : List Item}
    (located : log.drop position = item :: rest) (reached : position ≤ reader.next) :
    Finished isFinal log (reader.receive seq isFinal item) ∨
      (Reading isFinal log (reader.receive seq isFinal item) ∧
        position + 1 ≤ (reader.receive seq isFinal item).next ∧
        reader.next ≤ (reader.receive seq isFinal item).next) := by
  have number := gapless.seq_of_drop located
  have stillOpen : ¬ reader.closed = true := by simp [reading.isOpen]
  by_cases known : position < reader.next
  · have skipped : reader.receive seq isFinal item = reader := by
      rw [LogReader.receive, if_neg stillOpen, if_pos (Or.inr (number ▸ known))]
    rw [skipped]
    exact Or.inr ⟨reading, known, Nat.le_refl reader.next⟩
  · have waited : position = reader.next := by
      omega
    have wanted : ¬ (seq item < reader.start ∨ seq item < reader.next) := by
      have ordered := reading.startLe
      omega
    have takes : reader.receive seq isFinal item =
        { reader with
            next := reader.next + 1
            taken := reader.taken ++ [item]
            closed := isFinal item } := by
      rw [LogReader.receive, if_neg stillOpen, if_neg wanted, number, waited]
    rw [waited] at located
    rw [takes]
    rcases reading.receive_next located with finished | still
    · exact Or.inl finished
    · refine Or.inr ⟨still, ?_, Nat.le_succ reader.next⟩
      exact Nat.succ_le_succ reached

/-- A stretch of the log that reaches what was taken is taken, up to the
first final item. -/
theorem Reading.receiveAll (gapless : Gapless seq log) (reading : Reading isFinal log reader)
    {items : List Item} {position : Nat} (located : items <+: log.drop position)
    (reached : position ≤ reader.next) :
    Finished isFinal log (reader.receiveAll seq isFinal items) ∨
      (Reading isFinal log (reader.receiveAll seq isFinal items) ∧
        position + items.length ≤ (reader.receiveAll seq isFinal items).next ∧
        reader.next ≤ (reader.receiveAll seq isFinal items).next) := by
  induction items generalizing reader position with
  | nil => exact Or.inr ⟨reading, reached, Nat.le_refl reader.next⟩
  | cons item others ih =>
    obtain ⟨behind, split⟩ := located
    have first : log.drop position = item :: (others ++ behind) := split.symm
    have later : others <+: log.drop (position + 1) := by
      rw [← List.drop_drop, first]
      exact List.prefix_append others behind
    rw [LogReader.receiveAll, List.foldl_cons]
    rcases reading.receive gapless first reached with
      finished | ⟨still, further, grown⟩
    · have unchanged := receiveAll_of_closed seq isFinal finished.isClosed others
      unfold LogReader.receiveAll at unchanged
      rw [unchanged]
      exact Or.inl finished
    · rcases ih still later further with
        finished | ⟨read, reachedLast, grownLast⟩
      · exact Or.inl finished
      · refine Or.inr ⟨read, ?_, Nat.le_trans grown grownLast⟩
        rw [List.length_cons]
        unfold LogReader.receiveAll at reachedLast
        omega

end

end LogReader

end Aprovan.Library
