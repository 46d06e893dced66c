import Aprovan.Library.Text

/-!
# Comma-separated values

A reader of the grammar of RFC 4180 that takes a line feed, with or without a
carriage return, for the end of a row, and cells in quotes that are put only
around those with a quote, a comma or a line feed.
-/

namespace Aprovan.Library

inductive CsvState
  | record
  | field
  | bare
  | quoted
  | closed
  | returned
  deriving DecidableEq

/-- The first cell, with a text in front of its letters. -/
def extendCell (text : Text) : List (List Text) → List (List Text)
  | (cell :: row) :: rows => ((text ++ cell) :: row) :: rows
  | rows => rows

/-- The first row, with a cell in front of its cells. -/
def addCell (cell : Text) : List (List Text) → List (List Text)
  | row :: rows => (cell :: row) :: rows
  | [] => []

/-- The table that a text is read as from a state on: its first cell is what
is left of the current one. -/
def readCsvFrom : CsvState → Text → Option (List (List Text))
  | .record, [] => some []
  | .quoted, [] => none
  | .returned, [] => none
  | _, [] => some [[[]]]
  | .quoted, letter :: rest =>
    if letter = '"' then readCsvFrom .closed rest
    else (readCsvFrom .quoted rest).map (extendCell [letter])
  | .returned, letter :: rest =>
    if letter = '\n' then (readCsvFrom .record rest).map ([[]] :: ·) else none
  | state, letter :: rest =>
    if letter = ',' then (readCsvFrom .field rest).map (addCell [])
    else if letter = '\n' then (readCsvFrom .record rest).map ([[]] :: ·)
    else if letter = '\r' then readCsvFrom .returned rest
    else if letter = '"' then
      match state with
      | .bare => none
      | .closed => (readCsvFrom .quoted rest).map (extendCell ['"'])
      | _ => readCsvFrom .quoted rest
    else if state = .closed then none
    else (readCsvFrom .bare rest).map (extendCell [letter])

def readCsv (text : Text) : Option (List (List Text)) :=
  readCsvFrom .record text

/-- `/[",\n]/u.test(text)`. -/
def needsQuotes (text : Text) : Bool :=
  text.any (· ∈ ['"', ',', '\n'])

/-- Every quote is doubled. -/
def doubleQuotes (text : Text) : Text :=
  text.flatMap fun letter => if letter = '"' then ['"', '"'] else [letter]

def writeCell (text : Text) : Text :=
  if needsQuotes text then '"' :: doubleQuotes text ++ ['"'] else text

def writeRow (cells : List Text) : Text :=
  joinWith ',' (cells.map writeCell)

/-- A carriage return is only read within quotes. -/
def survives (text : Text) : Bool :=
  needsQuotes text || '\r' ∉ text

attribute [local simp] readCsvFrom

theorem extendCell_nil : extendCell [] = id := by
  funext table
  unfold extendCell
  split <;> rfl

theorem extendCell_append (first second : Text) (table : List (List Text)) :
    extendCell first (extendCell second table) = extendCell (first ++ second) table := by
  match table with
  | [] => rfl
  | [] :: _ => rfl
  | (cell :: row) :: rows => simp [extendCell]

section

variable {state : CsvState} {text rest : Text} {ending : Char}

/-- A state in which a cell may go on without quotes. -/
def CsvState.isStart (state : CsvState) : Prop :=
  state = .record ∨ state = .field ∨ state = .bare

theorem readCsvFrom_quoted (text rest : Text) :
    readCsvFrom .quoted (doubleQuotes text ++ '"' :: rest) =
      (readCsvFrom .closed rest).map (extendCell text) := by
  induction text with
  | nil => simp [doubleQuotes, readCsvFrom, extendCell_nil]
  | cons letter later ih =>
    have split : doubleQuotes (letter :: later) =
        (if letter = '"' then ['"', '"'] else [letter]) ++ doubleQuotes later :=
      List.flatMap_cons
    rw [split, List.append_assoc]
    by_cases quote : letter = '"'
    · simp [quote, readCsvFrom, ih, Function.comp_def, extendCell_append]
    · simp [quote, readCsvFrom, ih, Function.comp_def, extendCell_append]

theorem readCsvFrom_ending (start : state.isStart)
    (ends : ending = ',' ∨ ending = '\n' ∨ ending = '\r') (rest : Text) :
    readCsvFrom state (ending :: rest) = readCsvFrom .bare (ending :: rest) := by
  rcases start with rfl | rfl | rfl <;> rcases ends with rfl | rfl | rfl <;> rfl

theorem readCsvFrom_plain (start : state.isStart) (plain : needsQuotes text = false)
    (noReturn : '\r' ∉ text) (ends : ending = ',' ∨ ending = '\n' ∨ ending = '\r') :
    readCsvFrom state (text ++ ending :: rest) =
      (readCsvFrom .bare (ending :: rest)).map (extendCell text) := by
  induction text generalizing state with
  | nil => simp [extendCell_nil, readCsvFrom_ending start ends]
  | cons letter later ih =>
    rw [needsQuotes, List.any_cons, Bool.or_eq_false_iff] at plain
    obtain ⟨own, plainLater⟩ := plain
    obtain ⟨notQuote, notComma, notLine⟩ : letter ≠ '"' ∧ letter ≠ ',' ∧ letter ≠ '\n' := by
      simpa using own
    rw [List.mem_cons, not_or] at noReturn
    have next := ih (Or.inr (Or.inr rfl)) plainLater noReturn.2
    rcases start with rfl | rfl | rfl <;>
      simp [readCsvFrom, notQuote, notComma, notLine, Ne.symm noReturn.1, next,
        Function.comp_def, extendCell_append]

theorem readCsvFrom_writeCell (start : state = .record ∨ state = .field)
    (ends : ending = ',' ∨ ending = '\n') (survived : survives text = true) :
    readCsvFrom state (writeCell text ++ ending :: rest) =
      (readCsvFrom .bare (ending :: rest)).map (extendCell text) := by
  unfold writeCell
  split
  · have closed : readCsvFrom .closed (ending :: rest) = readCsvFrom .bare (ending :: rest) := by
      rcases ends with rfl | rfl <;> rfl
    have quoted := readCsvFrom_quoted text (ending :: rest)
    rw [closed] at quoted
    rw [← quoted]
    rcases start with rfl | rfl <;> simp [readCsvFrom]
  · next bare =>
      rw [Bool.not_eq_true] at bare
      apply readCsvFrom_plain (start.imp_right Or.inl) bare _ (ends.imp_right Or.inl)
      simpa [survives, bare] using survived

/-- A cell that does not survive is cut short at the end of a row. -/
theorem readCsvFrom_of_not_survives (start : state = .record ∨ state = .field)
    (ends : ending = ',' ∨ ending = '\n') (lost : survives text = false)
    {table : List (List Text)}
    (found : readCsvFrom state (writeCell text ++ ending :: rest) = some table) :
    '\r' ∈ text ∧ ∃ last rows, '\r' ∉ last ∧ table = [last] :: rows := by
  obtain ⟨bare, returned⟩ : needsQuotes text = false ∧ '\r' ∈ text := by
    simpa [survives] using lost
  refine ⟨returned, ?_⟩
  obtain ⟨last, after, rfl, noReturn⟩ := List.eq_append_cons_of_mem returned
  have parts : needsQuotes last = false ∧ needsQuotes after = false := by
    simp [needsQuotes] at bare ⊢
    tauto
  rw [writeCell, bare, if_neg Bool.false_ne_true, List.append_assoc,
    List.cons_append, readCsvFrom_plain (start.imp_right Or.inl) parts.1 noReturn
      (Or.inr (Or.inr rfl))] at found
  cases after with
  | cons letter later =>
    have notLine : letter ≠ '\n' := by
      rintro rfl
      simp [needsQuotes] at parts
    simp [readCsvFrom, notLine] at found
  | nil =>
    rcases ends with rfl | rfl
    · simp [readCsvFrom] at found
    · simp only [readCsvFrom, List.nil_append] at found
      cases later : readCsvFrom .record rest with
      | none => simp [later] at found
      | some rows =>
        refine ⟨last, rows, noReturn, ?_⟩
        simpa [later, extendCell, eq_comm] using found

theorem writeRow_cons_cons (cell next : Text) (others : List Text) (rest : Text) :
    writeRow (cell :: next :: others) ++ rest =
      writeCell cell ++ ',' :: (writeRow (next :: others) ++ rest) := by
  simp [writeRow, joinWith]

theorem readCsvFrom_writeRow (start : state = .record ∨ state = .field)
    {cells : List Text} (filled : cells ≠ []) (rest : Text)
    (survived : ∀ cell ∈ cells, survives cell = true) :
    readCsvFrom state (writeRow cells ++ '\n' :: rest) =
      (readCsvFrom .record rest).map (cells :: ·) := by
  induction cells generalizing state with
  | nil => exact absurd rfl filled
  | cons cell later ih =>
    have own := survived cell List.mem_cons_self
    cases later with
    | nil =>
      refine (readCsvFrom_writeCell start (Or.inr rfl) own).trans ?_
      simp [readCsvFrom, Function.comp_def, extendCell]
    | cons next others =>
      have more := ih (Or.inr rfl) (List.cons_ne_nil _ _)
        fun other member => survived other (List.mem_cons_of_mem _ member)
      rw [writeRow_cons_cons, readCsvFrom_writeCell start (Or.inl rfl) own]
      simp [readCsvFrom, more, Function.comp_def, extendCell, addCell]

/-- Written rows are read as they are. -/
theorem readCsv_writeRows {rows : List (List Text)} (filled : ∀ row ∈ rows, row ≠ [])
    (survived : ∀ row ∈ rows, ∀ cell ∈ row, survives cell = true) :
    readCsv (rows.flatMap fun row => writeRow row ++ ['\n']) = some rows := by
  induction rows with
  | nil => rfl
  | cons row later ih =>
    have more := ih (fun other member => filled other (List.mem_cons_of_mem _ member))
      fun other member => survived other (List.mem_cons_of_mem _ member)
    rw [List.flatMap_cons, List.append_assoc, List.singleton_append, readCsv,
      readCsvFrom_writeRow (Or.inl rfl) (filled row List.mem_cons_self) _
        (survived row List.mem_cons_self)]
    exact congrArg (Option.map (row :: ·)) more

/-- A written row is read as it is, or it is cut short in the first cell that
does not survive. -/
theorem row_of_readCsvFrom (start : state = .record ∨ state = .field)
    {cells : List Text} (filled : cells ≠ []) {table : List (List Text)}
    (found : readCsvFrom state (writeRow cells ++ '\n' :: rest) = some table) :
    (∀ cell ∈ cells, survives cell = true) ∨ ∃ good bad later last rows,
      cells = good ++ bad :: later ∧ table = (good ++ [last]) :: rows ∧
        survives bad = false ∧ '\r' ∈ bad ∧ '\r' ∉ last := by
  induction cells generalizing state table with
  | nil => exact absurd rfl filled
  | cons cell later ih =>
    have lost : ∀ ending rest, ending = ',' ∨ ending = '\n' → survives cell = false →
        readCsvFrom state (writeCell cell ++ ending :: rest) = some table →
        ∃ good bad others last rows, cell :: later = good ++ bad :: others ∧
          table = (good ++ [last]) :: rows ∧ survives bad = false ∧ '\r' ∈ bad ∧ '\r' ∉ last := by
      intro ending rest ends notOwn read
      obtain ⟨returned, last, rows, noReturn, same⟩ :=
        readCsvFrom_of_not_survives start ends notOwn read
      exact ⟨[], cell, later, last, rows, rfl, same, notOwn, returned, noReturn⟩
    cases own : survives cell with
    | false =>
      right
      cases later with
      | nil => exact lost '\n' rest (Or.inr rfl) own found
      | cons next others =>
        rw [writeRow_cons_cons] at found
        exact lost ',' _ (Or.inl rfl) own found
    | true =>
      cases later with
      | nil => exact Or.inl (by simpa using own)
      | cons next others =>
        rw [writeRow_cons_cons, readCsvFrom_writeCell start (Or.inl rfl) own] at found
        simp only [readCsvFrom, if_pos, Option.map_map, Option.map_eq_some_iff] at found
        obtain ⟨inner, read, rfl⟩ := found
        rcases ih (Or.inr rfl) (List.cons_ne_nil _ _) read with
          all | ⟨good, bad, after, last, rows, cut, rfl, isLost, returned, noReturn⟩
        · exact Or.inl (List.forall_mem_cons.mpr ⟨own, all⟩)
        · right
          refine ⟨cell :: good, bad, after, last, rows, ?_, ?_, isLost, returned, noReturn⟩
          · rw [cut, List.cons_append]
          · simp [extendCell, addCell]

end

end Aprovan.Library
