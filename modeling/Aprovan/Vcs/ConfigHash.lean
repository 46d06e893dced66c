import Aprovan.Library.Json
import Aprovan.Library.PlainObject
import Aprovan.Vfs.Listing

/-!
# Hashes of mount configurations

The hash of a configuration is the digest of its JSON text, with the keys in
the order of `localeCompare`.  Only the keys of the configuration itself are
sorted: those of the objects in it stay in the order in which they were sent.
-/

namespace Aprovan.Vcs

open Aprovan.Library

variable (sha256 : Text → Text) (collate : Text → Text → Bool)

def inKeyOrder (first second : Text × Json) : Prop :=
  collate first.1 second.1 = true

instance : DecidableRel (inKeyOrder collate) :=
  fun first second => inferInstanceAs (Decidable (collate first.1 second.1 = true))

variable (config : PlainObject Json)

/-- `Object.fromEntries(Object.entries(config).sort(([a], [b]) => a.localeCompare(b)))`. -/
def sortedConfig : PlainObject Json where
  rows := config.entries.insertionSort (inKeyOrder collate)
  keys := ((List.perm_insertionSort _ _).map Prod.fst).nodup_iff.mpr config.nodup_entries

def canonicalText : Text :=
  stringify (.object (sortedConfig collate config).entries)

def canonicalConfigHash : Text :=
  sha256 (canonicalText collate config)

/-- The same JSON, up to the order of the members of objects at any depth. -/
inductive SameJson : Json → Json → Prop
  | refl (value : Json) : SameJson value value
  | trans {first second third : Json} (forth : SameJson first second)
      (further : SameJson second third) : SameJson first third
  | reorder {members others : List (Text × Json)} (same : members.Perm others) :
      SameJson (.object members) (.object others)
  | member {before after : List (Text × Json)} {key : Text} {value other : Json}
      (same : SameJson value other) :
      SameJson (.object (before ++ (key, value) :: after)) (.object (before ++ (key, other) :: after))
  | item {before after : List Json} {value other : Json} (same : SameJson value other) :
      SameJson (.array (before ++ value :: after)) (.array (before ++ other :: after))

def SameConfig (first second : PlainObject Json) : Prop :=
  SameJson (.object first.entries) (.object second.entries)

/-- The hash tells apart what differs by more than the order of keys. -/
def CanonicalFor (first second : PlainObject Json) : Prop :=
  (SameConfig first second →
    canonicalConfigHash sha256 collate first = canonicalConfigHash sha256 collate second) ∧
  (¬SameConfig first second → canonicalText collate first ≠ canonicalText collate second)

/-- The members under keys that are no array indices. -/
def namedMembers : List (Text × Json) :=
  config.rows.filter fun row => (PlainObject.arrayIndex? row.1).isNone

/-- Each key has the same JSON, with the members of the objects in it in the
same order, and so are the keys that the collation cannot tell apart. -/
structure OrderedAlike (first second : PlainObject Json) : Prop where
  values : ∀ key, first.get key = second.get key
  ties : ∀ row, (namedMembers first).filter (tied (inKeyOrder collate) row) =
    (namedMembers second).filter (tied (inKeyOrder collate) row)

theorem get_sortedConfig (key : Text) : (sortedConfig collate config).get key = config.get key := by
  apply Option.ext
  intro value
  refine Iff.trans ?_ PlainObject.mem_entries
  show (sortedConfig collate config).toTable.get key = some value ↔ _
  rw [Table.get_eq_some_iff]
  exact List.mem_insertionSort _

theorem namedMembers_of_entries : namedMembers config =
    config.entries.filter fun row => (PlainObject.arrayIndex? row.1).isNone := by
  rw [PlainObject.entries, List.filter_append, List.filter_filter, List.filter_eq_nil_iff.mpr]
  · simp [namedMembers]
  · intro row member
    have index := (List.mem_filter.mp ((List.mem_insertionSort _).mp member)).2
    cases found : PlainObject.arrayIndex? row.1 <;> simp_all

variable {sha256 collate}

theorem tied_sortedConfig [IsTrans _ (inKeyOrder collate)] (row : Text × Json) :
    (namedMembers (sortedConfig collate config)).filter (tied (inKeyOrder collate) row) =
      (namedMembers config).filter (tied (inKeyOrder collate) row) := by
  rw [namedMembers_of_entries config, namedMembers, List.filter_comm, sortedConfig,
    filter_tied_insertionSort, List.filter_comm]

variable {first second : PlainObject Json}

theorem entries_eq_of_get (values : ∀ key, first.get key = second.get key)
    (named : namedMembers first = namedMembers second) : first.entries = second.entries := by
  have members : ∀ row, row ∈ first.rows ↔ row ∈ second.rows := by
    intro row
    have held : first.get row.1 = some row.2 ↔ row ∈ first.rows := Table.get_eq_some_iff
    rw [← held, values]
    exact Table.get_eq_some_iff
  have distinct : ∀ object : PlainObject Json, (object.rows.filter fun row =>
      (PlainObject.arrayIndex? row.1).isSome).Nodup :=
    fun object => (List.Nodup.of_map Prod.fst object.keys).filter _
  refine congrArg₂ (· ++ ·) ?_ named
  refine insertionSort_eq_of_mem_iff (distinct first)
    ((List.perm_insertionSort _ _).nodup_iff.mpr (distinct second))
    (List.pairwise_insertionSort _ _) ?_ ?_
  · intro one oneMember two twoMember forth back
    obtain ⟨known, index⟩ := List.mem_filter.mp ((List.mem_insertionSort _).mp oneMember)
    obtain ⟨otherKnown, otherIndex⟩ := List.mem_filter.mp ((List.mem_insertionSort _).mp twoMember)
    obtain ⟨place, found⟩ := Option.isSome_iff_exists.mp index
    obtain ⟨otherPlace, otherFound⟩ := Option.isSome_iff_exists.mp otherIndex
    rw [found, otherFound] at forth back
    have place_eq : place = otherPlace := Nat.le_antisymm forth back
    apply List.inj_on_of_nodup_map second.keys known otherKnown
    rw [PlainObject.eq_of_arrayIndex found, PlainObject.eq_of_arrayIndex otherFound, place_eq]
  · intro row
    rw [List.mem_insertionSort, List.mem_filter, List.mem_filter, members row]

theorem canonicalText_eq_iff (order : Vfs.LocaleOrder collate) :
    canonicalText collate first = canonicalText collate second ↔
      OrderedAlike collate first second := by
  have total : Std.Total (inKeyOrder collate) := ⟨fun one two => order.total one.1 two.1⟩
  have transitive : IsTrans _ (inKeyOrder collate) :=
    ⟨fun one two three => order.trans one.1 two.1 three.1⟩
  constructor
  · intro same
    have entries : (sortedConfig collate first).entries = (sortedConfig collate second).entries :=
      Json.object.inj (stringify_inj same)
    constructor
    · intro key
      rw [← get_sortedConfig collate first, ← get_sortedConfig collate second,
        ← PlainObject.lookup_entries, entries, PlainObject.lookup_entries]
    · intro row
      rw [← tied_sortedConfig first, ← tied_sortedConfig second, namedMembers_of_entries,
        entries, ← namedMembers_of_entries]
  · intro alike
    have sorted : ∀ config, (namedMembers (sortedConfig collate config)).Pairwise
        (inKeyOrder collate) :=
      fun config => (List.pairwise_insertionSort _ _).sublist List.filter_sublist
    have named : namedMembers (sortedConfig collate first) =
        namedMembers (sortedConfig collate second) := by
      apply eq_of_filter_tied (sorted first) (sorted second)
      intro row
      rw [tied_sortedConfig, tied_sortedConfig, alike.ties]
    unfold canonicalText
    rw [entries_eq_of_get _ named]
    intro key
    rw [get_sortedConfig, get_sortedConfig, alike.values]

/-- What is written the same is the same. -/
theorem sameConfig_of_canonicalText (same : canonicalText collate first =
    canonicalText collate second) : SameConfig first second := by
  have rearranged : ∀ config : PlainObject Json,
      (sortedConfig collate config).entries.Perm config.entries :=
    fun config => (PlainObject.entries_perm _).trans (List.perm_insertionSort _ _)
  apply SameJson.reorder
  refine (rearranged first).symm.trans ?_
  rw [Json.object.inj (stringify_inj same)]
  exact rearranged second

/-- The hash is canonical for two configurations exactly if, where they are
the same up to the order of keys, only keys of their own that the collation
tells apart stand in another order. -/
theorem canonicalFor_iff (order : Vfs.LocaleOrder collate) (noCollision :
    sha256 (canonicalText collate first) = sha256 (canonicalText collate second) →
      canonicalText collate first = canonicalText collate second) :
    CanonicalFor sha256 collate first second ↔
      (SameConfig first second → OrderedAlike collate first second) := by
  constructor
  · rintro ⟨sameHash, _⟩ same
    exact (canonicalText_eq_iff order).mp (noCollision (sameHash same))
  · intro alike
    constructor
    · intro same
      exact congrArg sha256 ((canonicalText_eq_iff order).mpr (alike same))
    · intro different same
      exact different (sameConfig_of_canonicalText same)

def chartsConfig (labels : List (Text × Json)) : PlainObject Json where
  rows := [("repo".toList, .string "org/charts".toList), ("labels".toList, .object labels)]
  keys := (by decide : ["repo".toList, "labels".toList].Nodup)

def lettersInOrder (first second : Text) : Bool :=
  first ≤ second

theorem canonicalFor_keyOrder :
    CanonicalFor id lettersInOrder
      ⟨⟨[("repo".toList, .string ['a']), ("ref".toList, .null)], by decide⟩⟩
      ⟨⟨[("ref".toList, .null), ("repo".toList, .string ['a'])], by decide⟩⟩ :=
  (canonicalFor_iff Vfs.localeOrder_le id).mpr fun _ =>
    (canonicalText_eq_iff Vfs.localeOrder_le).mp (by decide +kernel)

/-- Labels in another order. -/
theorem canonicalFor_nested :
    ¬CanonicalFor id lettersInOrder
      (chartsConfig [(['a'], .bool true), (['b'], .null)])
      (chartsConfig [(['b'], .null), (['a'], .bool true)]) := by
  intro canonical
  have same : SameConfig (chartsConfig [(['a'], .bool true), (['b'], .null)])
      (chartsConfig [(['b'], .null), (['a'], .bool true)]) :=
    @SameJson.member [_] [] _ _ _ (SameJson.reorder (List.Perm.swap _ _ _))
  exact absurd (canonical.1 same) (by decide +kernel)

end Aprovan.Vcs
