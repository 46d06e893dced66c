import Mathlib

/-!
# Rows under a key

A table of rows holds at most one row a key, in the order in which the keys
were first put.  Whether a row replaces another one depends on the key; two
tables that are put the same rows under different keys hold the same rows as
long as both keys tell the same rows apart.
-/

namespace Aprovan.Library

universe u v w

section

variable {Row : Type u} {Key : Type v} [DecidableEq Key]

/-- The row in place of the one with its key, or behind the others. -/
def putUnder (key : Row → Key) (rows : List Row) (row : Row) : List Row :=
  if key row ∈ rows.map key then rows.map fun old => if key old = key row then row else old
  else rows ++ [row]

variable {key : Row → Key}

theorem keys_replaced (key : Row → Key) (rows : List Row) (row : Row) :
    (rows.map fun old => if key old = key row then row else old).map key = rows.map key := by
  rw [List.map_map]
  apply List.map_congr_left
  intro old _
  by_cases same : key old = key row
  · simp [same]
  · simp [same]

variable {rows : List Row}

theorem nodup_putUnder (keys : (rows.map key).Nodup) (row : Row) :
    ((putUnder key rows row).map key).Nodup := by
  unfold putUnder
  by_cases known : key row ∈ rows.map key
  · rw [if_pos known, keys_replaced]
    exact keys
  · rw [if_neg known, List.map_append, List.nodup_append]
    refine ⟨keys, List.nodup_singleton (key row), ?_⟩
    intro old member new isNew same
    rw [same, List.mem_singleton.mp isNew] at member
    exact known member

variable {row : Row}

theorem mem_putUnder {other : Row} :
    other ∈ putUnder key rows row ↔ other = row ∨ (other ∈ rows ∧ key other ≠ key row) := by
  unfold putUnder
  by_cases known : key row ∈ rows.map key
  · rw [if_pos known, List.mem_map]
    constructor
    · intro replaced
      obtain ⟨old, member, same⟩ := replaced
      by_cases own : key old = key row
      · rw [if_pos own] at same
        exact Or.inl same.symm
      · rw [if_neg own] at same
        rw [← same]
        exact Or.inr ⟨member, own⟩
    · intro found
      cases found with
      | inl same =>
        obtain ⟨old, member, own⟩ := List.mem_map.mp known
        rw [same]
        exact ⟨old, member, if_pos own⟩
      | inr kept => exact ⟨other, kept.1, if_neg kept.2⟩
  · rw [if_neg known, List.mem_append, List.mem_singleton]
    constructor
    · intro found
      cases found with
      | inl member =>
        apply Or.inr
        refine ⟨member, ?_⟩
        intro same
        rw [← same] at known
        exact known (List.mem_map_of_mem member)
      | inr same => exact Or.inl same
    · intro found
      cases found with
      | inl same => exact Or.inr same
      | inr kept => exact Or.inl kept.1

section

variable {Seen : Type w} {Name : Type v} [DecidableEq Name]
  {name : Seen → Name} {view : Row → Option Seen} {rows : List Row}

/-- A view of a table follows a row that it shows, if the keys of the view
tell the row from the same rows. -/
theorem filterMap_putUnder {seen : Seen} (shown : view row = some seen)
    (separated : ∀ old ∈ rows, key old = key row ↔
      ∃ other, view old = some other ∧ name other = name seen) :
    (putUnder key rows row).filterMap view = putUnder name (rows.filterMap view) seen := by
  have known : key row ∈ rows.map key ↔ name seen ∈ (rows.filterMap view).map name := by
    constructor
    · intro member
      obtain ⟨old, present, own⟩ := List.mem_map.mp member
      obtain ⟨other, visible, same⟩ := (separated old present).mp own
      rw [← same]
      exact List.mem_map_of_mem (List.mem_filterMap.mpr ⟨old, present, visible⟩)
    · intro member
      obtain ⟨other, present, same⟩ := List.mem_map.mp member
      obtain ⟨old, held, visible⟩ := List.mem_filterMap.mp present
      rw [← (separated old held).mpr ⟨other, visible, same⟩]
      exact List.mem_map_of_mem held
  by_cases present : key row ∈ rows.map key
  · rw [putUnder, putUnder, if_pos present, if_pos (known.mp present),
      List.filterMap_map, List.map_filterMap]
    apply List.filterMap_congr
    intro old held
    by_cases own : key old = key row
    · obtain ⟨other, visible, same⟩ := (separated old held).mp own
      simp [own, shown, visible, same]
    · have unlike : ∀ other, view old = some other → name other ≠ name seen := by
        intro other visible same
        exact own ((separated old held).mpr ⟨other, visible, same⟩)
      cases visible : view old with
      | none => simp [own, visible]
      | some other => simp [own, visible, unlike other visible]
  · have absent : name seen ∉ (rows.filterMap view).map name := by
      intro member
      exact present (known.mpr member)
    rw [putUnder, putUnder, if_neg present, if_neg absent, List.filterMap_append]
    simp [shown]

/-- A view does not follow a row that it does not show. -/
theorem filterMap_putUnder_of_hidden (hidden : view row = none)
    (replaced : ∀ old ∈ rows, key old = key row → view old = none) :
    (putUnder key rows row).filterMap view = rows.filterMap view := by
  unfold putUnder
  by_cases known : key row ∈ rows.map key
  · rw [if_pos known, List.filterMap_map]
    apply List.filterMap_congr
    intro old member
    by_cases own : key old = key row
    · simp [own, hidden, replaced old member own]
    · simp [own]
  · rw [if_neg known, List.filterMap_append]
    simp [hidden]

theorem filterMap_filter_of_agree {kept : Row → Bool} {keptSeen : Seen → Bool}
    (agree : ∀ old ∈ rows, ∀ seen, view old = some seen → kept old = keptSeen seen) :
    (rows.filter kept).filterMap view = (rows.filterMap view).filter keptSeen := by
  rw [List.filterMap_filter, List.filter_filterMap]
  apply List.filterMap_congr
  intro old member
  cases visible : view old with
  | none => simp
  | some seen =>
    rw [agree old member seen visible]
    rfl

theorem map_putUnder {project : Row → Seen}
    (reads : ∀ old, key old = key row ↔ name (project old) = name (project row)) :
    (putUnder key rows row).map project = putUnder name (rows.map project) (project row) := by
  have followed := @filterMap_putUnder _ _ _ key row _ _ _ name
    (fun old => some (project old)) rows (project row) rfl
  simp only [List.filterMap_eq_map'] at followed
  apply followed
  intro old _
  rw [reads old]
  simp

end

section

variable {order : Row → Row → Prop} [DecidableRel order]

/-- Neither row comes first. -/
def tied (order : Row → Row → Prop) [DecidableRel order] (row other : Row) : Bool :=
  order row other ∧ order other row

/-- Sorting is stable. -/
theorem filter_tied_insertionSort [IsTrans Row order] (rows : List Row) (row : Row) :
    (rows.insertionSort order).filter (tied order row) = rows.filter (tied order row) := by
  have sorted : (rows.filter (tied order row)).Pairwise order := by
    apply List.pairwise_of_forall_mem_list
    intro first member second secondMember
    have before := of_decide_eq_true (List.mem_filter.mp member).2
    have after := of_decide_eq_true (List.mem_filter.mp secondMember).2
    exact IsTrans.trans first row second before.2 after.1
  have within := (List.sublist_insertionSort sorted List.filter_sublist).filter (tied order row)
  rw [List.filter_filter] at within
  simp only [Bool.and_self] at within
  exact (within.eq_of_length ((List.perm_insertionSort order rows).filter _).length_eq.symm).symm

/-- Rows in order are determined by those that tie. -/
theorem eq_of_filter_tied [Std.Total order] {others : List Row} (inOrder : rows.Pairwise order)
    (othersInOrder : others.Pairwise order)
    (same : ∀ row, rows.filter (tied order row) = others.filter (tied order row)) :
    rows = others := by
  have itself : ∀ row, tied order row row = true := by
    intro row
    have reflexive := (Std.Total.total (r := order) row row).elim id id
    exact decide_eq_true ⟨reflexive, reflexive⟩
  have first_le : ∀ {first second : Row} {more : List Row}, (second :: more).Pairwise order →
      first ∈ second :: more → order second first := by
    intro first second more sorted member
    rcases List.mem_cons.mp member with rfl | later
    · exact (of_decide_eq_true (itself first)).1
    · exact (List.pairwise_cons.mp sorted).1 first later
  have mem_other : ∀ {row : Row} {one two : List Row}, one.filter (tied order row) =
      two.filter (tied order row) → row ∈ one → row ∈ two := by
    intro row one two agree member
    exact (List.mem_filter.mp (agree ▸ List.mem_filter.mpr ⟨member, itself row⟩)).1
  induction rows generalizing others with
  | nil =>
    cases others with
    | nil => rfl
    | cons second more =>
      exact absurd (mem_other (same second).symm List.mem_cons_self) List.not_mem_nil
  | cons first rest ih =>
    cases others with
    | nil => exact absurd (mem_other (same first) List.mem_cons_self) List.not_mem_nil
    | cons second more =>
      have forth := first_le inOrder (mem_other (same second).symm List.mem_cons_self)
      have back := first_le othersInOrder (mem_other (same first) List.mem_cons_self)
      have ties : tied order first second = true := decide_eq_true ⟨forth, back⟩
      have heads := same first
      rw [List.filter_cons_of_pos (itself first), List.filter_cons_of_pos ties] at heads
      obtain ⟨rfl, _⟩ := List.cons.inj heads
      refine congrArg (first :: ·) (ih inOrder.of_cons othersInOrder.of_cons ?_)
      intro row
      have both := same row
      by_cases ties : tied order row first = true
      · rw [List.filter_cons_of_pos ties, List.filter_cons_of_pos ties] at both
        exact (List.cons.inj both).2
      · rw [List.filter_cons_of_neg ties, List.filter_cons_of_neg ties] at both
        exact both

end

theorem insertionSort_eq_of_mem_iff {Row : Type u} {order : Row → Row → Prop}
    [DecidableRel order] [Std.Total order] [IsTrans Row order] {rows sorted : List Row}
    (distinct : rows.Nodup) (sortedDistinct : sorted.Nodup) (inOrder : sorted.Pairwise order)
    (apart : ∀ first ∈ sorted, ∀ second ∈ sorted,
      order first second → order second first → first = second)
    (same : ∀ row, row ∈ rows ↔ row ∈ sorted) :
    rows.insertionSort order = sorted := by
  have rearranged : (rows.insertionSort order).Perm sorted :=
    (List.perm_insertionSort order rows).trans
      ((List.perm_ext_iff_of_nodup distinct sortedDistinct).mpr same)
  apply rearranged.eq_of_pairwise _ (List.pairwise_insertionSort order rows) inOrder
  intro first second firstMember secondMember forth back
  exact apart first (rearranged.mem_iff.mp firstMember) second secondMember forth back

theorem sum_filter_not_add_find? (weight : Row → Nat) {picks : Row → Bool}
    (single : rows.countP picks ≤ 1) :
    ((rows.filter (!picks ·)).map weight).sum + ((rows.find? picks).map weight).getD 0 =
      (rows.map weight).sum := by
  induction rows with
  | nil => rfl
  | cons row rest ih =>
    rw [List.countP_cons] at single
    by_cases picked : picks row = true
    · rw [if_pos picked] at single
      have others : ∀ other ∈ rest, (!picks other) = true := by
        intro other member
        have absent : rest.countP picks = 0 := by omega
        rw [List.countP_eq_zero] at absent
        simpa using absent other member
      rw [List.filter_cons_of_neg (by simp [picked]),
        List.filter_eq_self.mpr others, List.find?_cons_of_pos picked]
      simp only [Option.map_some, Option.getD_some, List.map_cons, List.sum_cons]
      omega
    · rw [if_neg picked] at single
      have remaining := ih (by omega)
      rw [List.filter_cons_of_pos (by simpa using picked), List.find?_cons_of_neg picked]
      simp only [List.map_cons, List.sum_cons]
      omega

end

/-- Rows with pairwise different keys. -/
structure Keyed {Row : Type u} {Key : Type v} (key : Row → Key) where
  rows : List Row
  keys : (rows.map key).Nodup

namespace Keyed

variable {Row : Type u} {Key : Type v} {key : Row → Key}

def empty : Keyed key :=
  ⟨[], List.nodup_nil⟩

def keep (table : Keyed key) (kept : Row → Bool) : Keyed key where
  rows := table.rows.filter kept
  keys := table.keys.sublist (List.filter_sublist.map key)

def revise (table : Keyed key) (change : Row → Row) (keeps : ∀ row, key (change row) = key row) :
    Keyed key where
  rows := table.rows.map change
  keys := by
    have same : key ∘ change = key := funext keeps
    rw [List.map_map, same]
    exact table.keys

variable {table : Keyed key} {row : Row}

theorem mem_rows_revise {change : Row → Row} (keeps : ∀ row, key (change row) = key row) :
    row ∈ (table.revise change keeps).rows ↔ ∃ old ∈ table.rows, change old = row :=
  List.mem_map

variable [DecidableEq Key]

def find? (table : Keyed key) (value : Key) : Option Row :=
  table.rows.find? fun row => key row = value

def put (table : Keyed key) (row : Row) : Keyed key :=
  ⟨putUnder key table.rows row, nodup_putUnder table.keys row⟩

def upsert (table : Keyed key) (row : Row) (change : Row → Row) : Keyed key :=
  table.put ((table.find? (key row)).elim row change)

def erase (table : Keyed key) (value : Key) : Keyed key :=
  table.keep fun row => key row ≠ value

omit [DecidableEq Key] in
@[ext]
theorem ext {first second : Keyed key} (same : first.rows = second.rows) : first = second := by
  cases first
  cases second
  cases same
  rfl

omit [DecidableEq Key] in
theorem eq_of_key_eq (table : Keyed key) {first second : Row} (firstMember : first ∈ table.rows)
    (secondMember : second ∈ table.rows) (same : key first = key second) :
    first = second :=
  List.inj_on_of_nodup_map table.keys firstMember secondMember same

variable {value : Key}

theorem find?_eq_some_iff :
    table.find? value = some row ↔ row ∈ table.rows ∧ key row = value := by
  constructor
  · intro found
    exact ⟨List.mem_of_find?_eq_some found,
      by simpa using List.find?_some found⟩
  · intro held
    obtain ⟨member, same⟩ := held
    cases found : table.find? value with
    | none =>
      have absent := List.find?_eq_none.mp found row member
      simp [same] at absent
    | some other =>
      have present : other ∈ table.rows := List.mem_of_find?_eq_some found
      have own : key other = value := by simpa using List.find?_some found
      rw [table.eq_of_key_eq present member (own.trans same.symm)]

theorem find?_eq_none_iff : table.find? value = none ↔ ∀ row ∈ table.rows, key row ≠ value := by
  simp [find?]

@[simp]
theorem find?_put_self (table : Keyed key) (row : Row) :
    (table.put row).find? (key row) = some row :=
  find?_eq_some_iff.mpr ⟨mem_putUnder.mpr (Or.inl rfl), rfl⟩

theorem find?_put_of_ne (table : Keyed key) (other : key row ≠ value) :
    (table.put row).find? value = table.find? value := by
  apply Option.ext
  intro found
  rw [find?_eq_some_iff, find?_eq_some_iff]
  constructor
  · intro held
    rcases mem_putUnder.mp held.1 with same | kept
    · rw [same] at held
      exact absurd held.2 other
    · exact ⟨kept.1, held.2⟩
  · intro held
    refine ⟨mem_putUnder.mpr (Or.inr ⟨held.1, ?_⟩), held.2⟩
    intro same
    exact other (same.symm.trans held.2)

theorem find?_put (table : Keyed key) (row : Row) (value : Key) :
    (table.put row).find? value = if key row = value then some row else table.find? value := by
  by_cases own : key row = value
  · rw [if_pos own, ← own, find?_put_self]
  · rw [if_neg own, find?_put_of_ne table own]

theorem find?_keep_eq_some_iff {table : Keyed key} {kept : Row → Bool} {value : Key} {row : Row} :
    (table.keep kept).find? value = some row ↔ table.find? value = some row ∧ kept row = true := by
  rw [find?_eq_some_iff, find?_eq_some_iff, keep, List.mem_filter]
  constructor
  · intro held
    exact ⟨⟨held.1.1, held.2⟩, held.1.2⟩
  · intro held
    exact ⟨⟨held.1.1, held.2⟩, held.1.2⟩

theorem find?_keep_key (table : Keyed key) (kept : Key → Bool) (value : Key) :
    (table.keep fun row => kept (key row)).find? value =
      if kept value then table.find? value else none := by
  apply Option.ext
  intro row
  rw [find?_keep_eq_some_iff]
  by_cases stays : kept value = true
  · rw [if_pos stays]
    constructor
    · exact fun held => held.1
    · intro found
      refine ⟨found, ?_⟩
      rw [(find?_eq_some_iff.mp found).2]
      exact stays
  · rw [if_neg stays]
    constructor
    · intro held
      rw [(find?_eq_some_iff.mp held.1).2] at held
      exact absurd held.2 stays
    · intro impossible
      cases impossible

@[simp]
theorem find?_erase_self (table : Keyed key) (value : Key) :
    (table.erase value).find? value = none := by
  rw [find?_eq_none_iff]
  intro row member
  exact of_decide_eq_true (List.mem_filter.mp member).2

theorem find?_erase_of_ne (table : Keyed key) {erased : Key} (other : erased ≠ value) :
    (table.erase erased).find? value = table.find? value := by
  apply Option.ext
  intro row
  rw [erase, find?_keep_eq_some_iff]
  constructor
  · exact fun held => held.1
  · intro found
    refine ⟨found, decide_eq_true ?_⟩
    rw [(find?_eq_some_iff.mp found).2]
    exact other.symm

theorem find?_erase (table : Keyed key) (erased value : Key) :
    (table.erase erased).find? value = if erased = value then none else table.find? value := by
  by_cases own : erased = value
  · rw [if_pos own, own, find?_erase_self]
  · rw [if_neg own, find?_erase_of_ne table own]

variable {Name : Type v}

theorem map_find?_congr {Other : Type u} {Seen : Type w} [DecidableEq Name] {name : Other → Name}
    {other : Keyed name} {project : Row → Seen} {projectOther : Other → Seen}
    (same : table.rows.map project = other.rows.map projectOther) {label : Name}
    (isFound : Seen → Bool) (reads : ∀ row, isFound (project row) ↔ key row = value)
    (readsOther : ∀ row, isFound (projectOther row) ↔ name row = label) :
    (table.find? value).map project = (other.find? label).map projectOther := by
  have first : (isFound ∘ project) = fun row => decide (key row = value) := by
    funext row
    rw [Bool.eq_iff_iff, decide_eq_true_iff]
    exact reads row
  have second : (isFound ∘ projectOther) = fun row => decide (name row = label) := by
    funext row
    rw [Bool.eq_iff_iff, decide_eq_true_iff]
    exact readsOther row
  have found := congrArg (List.find? isFound) same
  rw [List.find?_map, List.find?_map, first, second] at found
  exact found

variable {name : Row → Name} {other : Keyed name}

theorem find?_congr [DecidableEq Name] (same : table.rows = other.rows) {label : Name}
    (reads : ∀ row ∈ table.rows, key row = value ↔ name row = label) :
    table.find? value = other.find? label := by
  apply Option.ext
  intro row
  rw [find?_eq_some_iff, find?_eq_some_iff, ← same]
  constructor
  · intro held
    exact ⟨held.1, (reads row held.1).mp held.2⟩
  · intro held
    exact ⟨held.1, (reads row held.1).mpr held.2⟩

@[simp]
theorem rows_put (table : Keyed key) (row : Row) :
    (table.put row).rows = putUnder key table.rows row :=
  rfl

theorem rows_put_congr [DecidableEq Name] (same : table.rows = other.rows)
    (reads : ∀ old ∈ table.rows, key old = key row ↔ name old = name row) :
    (table.put row).rows = (other.put row).rows := by
  have followed := @filterMap_putUnder _ _ _ key row _ _ _ name some
    table.rows row rfl (by simpa using reads)
  simp only [List.filterMap_some] at followed
  rw [rows_put, rows_put, followed, same]

theorem rows_erase_congr [DecidableEq Name] (same : table.rows = other.rows) {label : Name}
    (reads : ∀ row ∈ table.rows, key row = value ↔ name row = label) :
    (table.erase value).rows = (other.erase label).rows := by
  show table.rows.filter _ = other.rows.filter _
  rw [← same]
  apply List.filter_congr
  intro row member
  rw [Bool.eq_iff_iff, decide_eq_true_iff, decide_eq_true_iff]
  exact not_congr (reads row member)

theorem erase_of_absent (absent : table.find? value = none) : table.erase value = table := by
  apply ext
  show table.rows.filter _ = table.rows
  apply List.filter_eq_self.mpr
  intro row member
  exact decide_eq_true (find?_eq_none_iff.mp absent row member)

theorem countP_pos_iff :
    0 < table.rows.countP (fun row => key row = value) ↔ (table.find? value).isSome := by
  rw [List.countP_pos_iff, find?, List.find?_isSome]

theorem mem_rows_put {other : Row} :
    other ∈ (table.put row).rows ↔ other = row ∨ (other ∈ table.rows ∧ key other ≠ key row) :=
  mem_putUnder

theorem find?_revise (table : Keyed key) (change : Row → Row)
    (keeps : ∀ row, key (change row) = key row) (value : Key) :
    (table.revise change keeps).find? value = (table.find? value).map change := by
  show (table.rows.map change).find? _ = (table.rows.find? _).map change
  rw [List.find?_map]
  congr 2
  funext row
  simp only [Function.comp_apply, keeps]

theorem mem_rows_erase : row ∈ (table.erase value).rows ↔ row ∈ table.rows ∧ key row ≠ value := by
  simp [erase, keep]

end Keyed

end Aprovan.Library
