import Aprovan.Library.Text

/-!
# The change journal

A bounded ring of mutations per workspace, numbered by one cursor.  A reader
asks for what happened since the cursor it holds; when the ring no longer
reaches back that far, the journal answers that it has to be reset.
-/

namespace Aprovan.Vfs

open Aprovan.Library

inductive ChangeKind where
  | update
  | delete
  deriving DecidableEq

structure FsChange where
  path : Text
  kind : ChangeKind
  deriving DecidableEq

/-- A recorded mutation.  The empty scope is the live tree; a session id
scopes it to that session's readers. -/
structure JournalEntry where
  change : FsChange
  scope : Text

def ringCapacity : Nat := 1000

/-- The journal of one workspace: the highest cursor issued, and the
retained entries, oldest first.  Every mutation takes the next cursor, so
the retained ones carry the last consecutive cursors and need not store
them. -/
structure Journal where
  cursor : Nat
  entries : List JournalEntry
  issued : entries.length ≤ cursor
  bounded : entries.length ≤ ringCapacity

namespace Journal

def empty : Journal where
  cursor := 0
  entries := []
  issued := Nat.le_refl 0
  bounded := Nat.zero_le _

/-- `recordChange`: the oldest entries make room. -/
def recordChange (journal : Journal) (entry : JournalEntry) : Journal where
  cursor := journal.cursor + 1
  entries :=
    (journal.entries ++ [entry]).drop (journal.entries.length + 1 - ringCapacity)
  issued := by
    have issued := journal.issued
    simp only [List.length_drop, List.length_append, List.length_singleton]
    omega
  bounded := by
    simp only [List.length_drop, List.length_append, List.length_singleton]
    omega

/-- The cursor of the oldest retained entry, or the next one to be
issued. -/
def oldestRetained (journal : Journal) : Int :=
  journal.cursor + 1 - journal.entries.length

def reported (scope : Text) (entry : JournalEntry) : Bool :=
  entry.scope = [] || entry.scope = scope

/-- `changesSince`: the changes after the cursor, or `none` for a reset.
`since` is absent when it is missing or not a number. -/
def changesSince (journal : Journal) (scope : Text) (since : Option Int) :
    Option (List FsChange) :=
  match since with
  | none => none
  | some since =>
    if since < 0 ∨ journal.cursor < since then none
    else if since < journal.oldestRetained - 1 then none
    else
      let past := journal.entries.drop (since - (journal.oldestRetained - 1)).toNat
      some ((past.filter (reported scope)).map JournalEntry.change)

/-- Seen from the newest mutation, the answer depends on the retained
entries alone: a cursor `behind` mutations back is answered when the ring
holds that many. -/
theorem changesSince_behind (journal : Journal) (scope : Text) (behind : Int) :
    journal.changesSince scope (some (journal.cursor - behind)) =
      if 0 ≤ behind ∧ behind ≤ journal.entries.length then
        some (((journal.entries.drop (journal.entries.length - behind.toNat)).filter
            (reported scope)).map JournalEntry.change)
      else
        none := by
  have issued := journal.issued
  have oldest : journal.oldestRetained = journal.cursor + 1 - journal.entries.length := rfl
  simp only [changesSince]
  by_cases answered : 0 ≤ behind ∧ behind ≤ journal.entries.length
  · have offset :
        ((journal.cursor : Int) - behind - (journal.oldestRetained - 1)).toNat =
          journal.entries.length - behind.toNat := by
      omega
    rw [if_neg (by omega), if_neg (by omega), if_pos answered, offset]
  · rw [if_neg answered]
    split
    · rfl
    · rw [if_pos (by omega)]

/-- The journal after a history of mutations, oldest first. -/
def ofHistory (history : List JournalEntry) : Journal :=
  history.foldl recordChange empty

variable (history : List JournalEntry)

@[simp]
theorem ofHistory_concat (entry : JournalEntry) :
    ofHistory (history ++ [entry]) = (ofHistory history).recordChange entry := by
  simp [ofHistory]

@[simp]
theorem ofHistory_cursor : (ofHistory history).cursor = history.length := by
  induction history using List.reverseRecOn with
  | nil => rfl
  | append_singleton history entry ih => simp [recordChange, ih]

theorem ofHistory_entries :
    (ofHistory history).entries = history.drop (history.length - ringCapacity) := by
  induction history using List.reverseRecOn with
  | nil => rfl
  | append_singleton history entry ih =>
    rw [ofHistory_concat]
    simp only [recordChange, ih, List.length_drop, List.length_append, List.length_singleton]
    by_cases room : history.length < ringCapacity
    · have keepsAll : history.length - ringCapacity = 0 := by
        omega
      have evictsNone :
          history.length - (history.length - ringCapacity) + 1 - ringCapacity = 0 := by
        omega
      have sameStart : history.length + 1 - ringCapacity = 0 := by omega
      rw [evictsNone, sameStart, keepsAll, List.drop_zero, List.drop_zero, List.drop_zero]
    · have evictsOne :
          history.length - (history.length - ringCapacity) + 1 - ringCapacity = 1 := by
        have capacity : ringCapacity = 1000 := rfl
        omega
      have nextStart : history.length + 1 - ringCapacity = history.length - ringCapacity + 1 := by
        omega
      have apart :
          (history ++ [entry]).drop (history.length - ringCapacity) =
            history.drop (history.length - ringCapacity) ++ [entry] :=
        List.drop_append_of_le_length (by omega)
      rw [evictsOne, nextStart, ← List.drop_drop, apart]

/-- A reader gets what happened after its cursor, as long as the ring
reaches back that far. -/
theorem changesSince_ofHistory (scope : Text) (since : Int) :
    (ofHistory history).changesSince scope (some since) =
      if 0 ≤ since ∧ since ≤ history.length ∧ history.length ≤ since + ringCapacity then
        some (((history.drop since.toNat).filter (reported scope)).map JournalEntry.change)
      else
        none := by
  have behind := changesSince_behind (ofHistory history) scope (history.length - since)
  have cancel : (history.length : Int) - (history.length - since) = since := by omega
  rw [ofHistory_cursor, cancel] at behind
  rw [behind, ofHistory_entries, List.length_drop]
  have capacity : ringCapacity = 1000 := rfl
  by_cases answered : 0 ≤ since ∧ since ≤ history.length ∧ history.length ≤ since + ringCapacity
  · rw [if_pos answered, if_pos (by omega), List.drop_drop]
    have start :
        history.length - ringCapacity + (history.length - (history.length - ringCapacity) -
              ((history.length : Int) - since).toNat) =
          since.toNat := by
      omega
    rw [start]
  · rw [if_neg answered, if_neg (by omega)]

end Journal

end Aprovan.Vfs
