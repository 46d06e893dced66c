import Aprovan.Sandboxes.Transfer

/-!
# What the manifests list

A manifest is a table from relative paths to hashes: of the newest versions
below the source, of what the host listed, or the old base with the settled
paths replaced.
-/

namespace Aprovan.Sandboxes

open Aprovan.Library Aprovan.Fs Aprovan.Grants Aprovan.Vcs

section

variable {table entries : List (Text × Text)} {value : Text → Text}
  {entry : Text × Text}

theorem lookup_replaced_self (known : table.any (·.1 = entry.1) = true) : (table.map fun row =>
      if row.1 = entry.1 then entry else row).lookup entry.1 = some entry.2 := by
  induction table with
  | nil => cases known
  | cons head tail ih =>
    by_cases same : head.1 = entry.1
    · rw [List.map_cons, if_pos same]
      exact List.lookup_cons_self
    · rw [List.any_cons, Bool.or_eq_true, decide_eq_true_eq] at known
      have different : (entry.1 == head.1) = false := beq_eq_false_iff_ne.mpr (Ne.symm same)
      rw [List.map_cons, if_neg same, List.lookup_cons, different]
      exact ih (known.resolve_left same)

theorem lookup_replaced_of_ne {key : Text} (other : key ≠ entry.1) : (table.map fun row =>
      if row.1 = entry.1 then entry else row).lookup key = table.lookup key := by
  have notEntry : (key == entry.1) = false := beq_eq_false_iff_ne.mpr other
  induction table with
  | nil => rfl
  | cons head tail ih =>
    rw [List.map_cons, List.lookup_cons, List.lookup_cons, ih]
    by_cases same : head.1 = entry.1
    · rw [if_pos same, same, notEntry]
    · rw [if_neg same]

theorem lookup_setKey (entry : Text × Text) (key : Text) :
    (setKey table entry).lookup key =
      if key = entry.1 then some entry.2 else table.lookup key := by
  unfold setKey
  by_cases known : table.any (·.1 = entry.1) = true
  · rw [if_pos known]
    by_cases found : key = entry.1
    · rw [if_pos found, found]
      exact lookup_replaced_self known
    · rw [if_neg found]
      exact lookup_replaced_of_ne found
  · rw [if_neg known, List.lookup_append]
    by_cases found : key = entry.1
    · have absent : table.lookup key = none := by
        rw [List.lookup_eq_none_iff]
        intro row member
        have unknown := List.any_eq_false.mp (Bool.eq_false_iff.mpr known) row member
        rw [decide_eq_true_eq] at unknown
        rw [bne_iff_ne, found]
        exact Ne.symm unknown
      rw [if_pos found, absent, Option.none_or, found]
      exact List.lookup_cons_self
    · have notEntry : (key == entry.1) = false := beq_eq_false_iff_ne.mpr found
      rw [if_neg found, List.lookup_cons, notEntry, List.lookup_nil, Option.or_none]

theorem lookup_foldl_setKey (agree : ∀ entry ∈ entries, entry.2 = value entry.1) (key : Text) :
    (entries.foldl setKey table).lookup key =
      if key ∈ entries.map Prod.fst then some (value key) else table.lookup key := by
  induction entries generalizing table with
  | nil => rfl
  | cons head tail ih =>
    rw [List.foldl_cons, ih (fun entry member =>
      agree entry (List.mem_cons_of_mem head member)), lookup_setKey]
    by_cases later : key ∈ tail.map Prod.fst
    · have named : key ∈ (head :: tail).map Prod.fst := List.mem_cons_of_mem _ later
      rw [if_pos later, if_pos named]
    · rw [if_neg later]
      by_cases first : key = head.1
      · have named : key ∈ (head :: tail).map Prod.fst := by
          rw [first]
          exact List.mem_cons_self
        have isHead := agree head List.mem_cons_self
        rw [if_pos first, if_pos named, isHead, first]
      · have unnamed : key ∉ (head :: tail).map Prod.fst := by
          intro member
          rcases List.mem_cons.mp member with isFirst | inTail
          · exact first isFirst
          · exact later inTail
        rw [if_neg first, if_neg unnamed]

theorem lookup_manifestOf (agree : ∀ entry ∈ entries, entry.2 = value entry.1) (key : Text) :
    (manifestOf entries).lookup key =
      if key ∈ entries.map Prod.fst then some (value key) else none :=
  lookup_foldl_setKey agree key

theorem lookup_isSome_iff_mem (key : Text) :
    (table.lookup key).isSome = true ↔ key ∈ table.map Prod.fst := by
  rw [List.lookup_isSome_iff, List.mem_map]
  simp only [beq_iff_eq]
  constructor
  · intro found
    obtain ⟨entry, member, same⟩ := found
    exact ⟨entry, member, same.symm⟩
  · intro found
    obtain ⟨entry, member, same⟩ := found
    exact ⟨entry, member, same.symm⟩

theorem mem_of_lookup {key hash : Text} (found : table.lookup key = some hash) :
    (key, hash) ∈ table := by
  obtain ⟨before, after, split, _⟩ := List.lookup_eq_some_iff.mp found
  rw [split]
  exact List.mem_append_right _ List.mem_cons_self

theorem lookup_filter_key (kept : Text → Bool) (key : Text) :
    (table.filter fun entry => kept entry.1).lookup key =
      if kept key = true then table.lookup key else none := by
  induction table with
  | nil => rw [List.filter_nil, List.lookup_nil, ite_self]
  | cons head tail ih =>
    obtain ⟨name, old⟩ := head
    by_cases same : key = name
    · subst same
      by_cases stays : kept key = true
      · rw [List.filter_cons, if_pos stays, if_pos stays,
          List.lookup_cons_self, List.lookup_cons_self]
      · rw [List.filter_cons, if_neg stays, ih, if_neg stays, if_neg stays]
    · have different : (key == name) = false := beq_eq_false_iff_ne.mpr same
      rw [List.lookup_cons, different, ← ih]
      by_cases stays : kept name = true
      · rw [List.filter_cons, if_pos stays, List.lookup_cons, different]
      · rw [List.filter_cons, if_neg stays]

theorem mem_of_mem_manifestOf (listed : entry ∈ manifestOf entries) : entry ∈ entries := by
  have grows : ∀ (rest : List (Text × Text)) table,
      entry ∈ rest.foldl setKey table → entry ∈ table ∨ entry ∈ rest := by
    intro rest
    induction rest with
    | nil =>
      intro table held
      exact Or.inl held
    | cons head tail ih =>
      intro table held
      rw [List.foldl_cons] at held
      rcases ih _ held with inTable | later
      · have older : entry ∈ table ∨ entry = head := by
          unfold setKey at inTable
          split at inTable
          · obtain ⟨row, rowMember, same⟩ := List.mem_map.mp inTable
            split at same
            · exact Or.inr same.symm
            · exact Or.inl (same ▸ rowMember)
          · rcases List.mem_append.mp inTable with old | new
            · exact Or.inl old
            · exact Or.inr (List.mem_singleton.mp new)
        rcases older with old | own
        · exact Or.inl old
        · exact Or.inr (own ▸ List.mem_cons_self)
      · exact Or.inr (List.mem_cons_of_mem head later)
  rcases grows entries [] listed with impossible | member
  · cases impossible
  · exact member

end

/-- A path that a host may report below a mount. -/
def RelativePath (rel : Text) : Prop :=
  rel ≠ [] ∧ Char.ofNat 92 ∉ rel ∧ ∀ segment ∈ splitOn '/' rel,
      segment ≠ ['.'] ∧ segment ≠ ['.', '.']

section

variable {mount : SandboxMount}

theorem mem_of_mem_cut {condition : Prop} [Decidable condition] {text : Text} {count : Nat}
    {letter : Char} (member : letter ∈ if condition then text.drop count else text) :
    letter ∈ text := by
  split at member
  · exact List.mem_of_mem_drop member
  · exact member

variable {workdir : Text}

theorem mem_listedPath {raw : Text} {letter : Char} (member : letter ∈ listedPath workdir raw) :
    letter ≠ Char.ofNat 92 := by
  unfold listedPath at member
  have inPlain := (List.dropWhile_sublist _).subset member
  have inSlashed := mem_of_mem_cut (mem_of_mem_cut inPlain)
  obtain ⟨original, _, same⟩ := List.mem_map.mp inSlashed
  split at same
  · rw [← same]
    decide
  · next other =>
      intro backslash
      rw [same, backslash] at other
      exact other (by decide)

theorem listedPath_of_mountRelative {raw rel : Text}
    (found : mountRelative mount workdir raw = some rel) :
    (¬(rel = [] || (splitOn '/' rel).any fun segment =>
        segment = ['.'] || segment = ['.', '.']) = true) ∧
      (listedPath workdir raw = sandboxPathFor mount rel ∨
        listedPath workdir raw = rel ∧ isUnder '/' rel mount.path = false) := by
  unfold mountRelative at found
  dsimp only at found
  generalize listedPath workdir raw = path at found ⊢
  by_cases whole : path = mount.path
  · rw [if_pos whole] at found
    cases found
  rw [if_neg whole] at found
  by_cases below : (mount.path ++ ['/']).isPrefixOf path = true
  · rw [if_pos below] at found
    obtain ⟨rest, rfl⟩ := List.isPrefixOf_iff_prefix.mp below
    split at found
    · cases found
    · next proper =>
        rw [Option.some.inj found] at proper
        refine ⟨proper, Or.inl ?_⟩
        rw [← Option.some.inj found, sandboxPathFor, List.drop_append]
        simp
  · rw [if_neg below] at found
    split at found
    · cases found
    · next proper =>
        cases Option.some.inj found
        refine ⟨proper, Or.inr ⟨rfl, ?_⟩⟩
        rw [Bool.eq_false_iff, Ne, isUnder, Bool.or_eq_true, decide_eq_true_eq, not_or]
        exact ⟨whole, below⟩

theorem relativePath_of_mountRelative {raw rel : Text}
    (found : mountRelative mount workdir raw = some rel) :
    RelativePath rel := by
  obtain ⟨proper, listed⟩ := listedPath_of_mountRelative found
  rw [Bool.or_eq_true, not_or, decide_eq_true_eq] at proper
  refine ⟨proper.1, fun member => @mem_listedPath workdir raw _ ?_ rfl, ?_⟩
  · rcases listed with below | ⟨bare, _⟩
    · exact below ▸ List.mem_append_right _ (List.mem_cons_of_mem _ member)
    · exact bare ▸ member
  · intro segment member
    have other := List.any_eq_false.mp (Bool.eq_false_iff.mpr proper.2) segment member
    rw [Bool.or_eq_true, decide_eq_true_eq, decide_eq_true_eq, not_or] at other
    exact other

theorem isMountPath_letters {path : Text} (named : isMountPath path = true) :
    (∃ first rest, path = first :: rest ∧ isWordLetter first = true) ∧ Char.ofNat 92 ∉ path := by
  have segments : ∀ segment ∈ splitOn '/' path, ∃ first rest,
      segment = first :: rest ∧ isWordLetter first = true ∧ rest.all isNameLetter = true := by
    intro segment member
    have inOrder := List.all_eq_true.mp named segment member
    cases segment with
    | nil => cases inOrder
    | cons first rest =>
      obtain ⟨isWord, areNames⟩ := Bool.and_eq_true_iff.mp inOrder
      exact ⟨first, rest, rfl, isWord, areNames⟩
  constructor
  · cases path with
    | nil =>
      obtain ⟨first, rest, same, _⟩ := segments [] (by simp [splitOn])
      cases same
    | cons first rest =>
      refine ⟨first, rest, rfl, ?_⟩
      by_cases slash : first = '/'
      · obtain ⟨other, others, same, _⟩ := segments [] (by
          simp [splitOn, slash])
        cases same
      · cases parts : splitOn '/' rest with
        | nil => exact absurd parts (splitOn_ne_nil '/' rest)
        | cons start others =>
          obtain ⟨other, tail, same, isWord, _⟩ :=
            segments (first :: start) (by
              simp [splitOn, slash, parts])
          cases same
          exact isWord
  · intro member
    obtain ⟨segment, inside, inSegment⟩ :=
      exists_mem_splitOn member (by decide : Char.ofNat 92 ≠ '/')
    obtain ⟨first, rest, rfl, isWord, areNames⟩ := segments segment inside
    rcases List.mem_cons.mp inSegment with same | later
    · rw [← same] at isWord
      revert isWord
      decide
    · have isName := List.all_eq_true.mp areNames _ later
      revert isName
      decide

theorem listedPath_of_plain {raw path : Text} (plain : Char.ofNat 92 ∉ raw)
    (inside : (if (stripTrailingSlashes workdir ++ ['/']).isPrefixOf raw then
        raw.drop (stripTrailingSlashes workdir ++ ['/']).length
      else raw) = path)
    (notDot : "./".toList.isPrefixOf path = false) (notSlash : path.head? ≠ some '/') :
    listedPath workdir raw = path := by
  have slashed : (raw.map fun letter => if letter.toNat = 92 then '/' else letter) = raw := by
    refine (List.map_congr_left ?_).trans (List.map_id _)
    intro letter member
    rw [if_neg]
    · rfl
    · intro code
      have same : letter = Char.ofNat 92 := by rw [← code, Char.ofNat_toNat]
      exact plain (same ▸ member)
  unfold listedPath
  dsimp only
  rw [slashed, inside, notDot, if_neg (by decide)]
  cases path with
  | nil => rfl
  | cons first rest => exact List.dropWhile_cons_of_neg (by simpa using notSlash)

theorem stripped_subset {text : Text} {letter : Char}
    (member : letter ∈ stripTrailingSlashes text) : letter ∈ text := by
  have inReverse := (List.dropWhile_sublist _).subset (List.mem_reverse.mp member)
  exact List.mem_reverse.mp inReverse

theorem noDots_of_relative {rel : Text} (relative : RelativePath rel) :
    (splitOn '/' rel).any (fun segment =>
      segment = ['.'] || segment = ['.', '.']) = false := by
  rw [List.any_eq_false]
  intro segment member
  simp [relative.2.2 segment member]

theorem notDot_of_relative {rel : Text} (relative : RelativePath rel) :
    "./".toList.isPrefixOf rel = false := by
  rw [Bool.eq_false_iff]
  intro dotted
  obtain ⟨rest, rfl⟩ := List.isPrefixOf_iff_prefix.mp dotted
  exact (relative.2.2 ['.'] (by
    show ['.'] ∈ splitOn '/' (['.'] ++ '/' :: rest)
    rw [splitOn_append_separator]
    exact List.mem_append_left _ (by decide))).1 rfl

theorem mountRelative_of_listed {raw rel : Text} (relative : RelativePath rel)
    (listed : listedPath workdir raw = sandboxPathFor mount rel) :
    mountRelative mount workdir raw = some rel := by
  have below : (mount.path ++ ['/']).isPrefixOf (sandboxPathFor mount rel) = true := by
    rw [List.isPrefixOf_iff_prefix]
    exact ⟨rel, by simp [sandboxPathFor]⟩
  have cut : (sandboxPathFor mount rel).drop (mount.path.length + 1) = rel := by
    rw [sandboxPathFor, List.drop_append, List.drop_eq_nil_of_le (by omega)]
    simp
  have other : sandboxPathFor mount rel ≠ mount.path := by
    intro same
    have lengths := congrArg List.length same
    rw [sandboxPathFor, List.length_append, List.length_cons] at lengths
    omega
  unfold mountRelative
  dsimp only
  rw [listed, if_neg other, if_pos below, cut, noDots_of_relative relative]
  simp [relative.1]

section

variable {rel : Text} (named : isMountPath mount.path = true)

include named

theorem sandboxPathFor_start (rel : Text) :
    "./".toList.isPrefixOf (sandboxPathFor mount rel) = false ∧
      (sandboxPathFor mount rel).head? ≠ some '/' := by
  obtain ⟨⟨first, others, split, isWord⟩, _⟩ := isMountPath_letters named
  rw [sandboxPathFor, split, List.cons_append]
  constructor
  · rw [Bool.eq_false_iff]
    intro dotted
    obtain ⟨rfl, _⟩ := List.cons_prefix_cons.mp (List.isPrefixOf_iff_prefix.mp dotted)
    revert isWord
    decide
  · intro slash
    cases slash
    revert isWord
    decide

theorem plain_sandboxPathFor (relative : RelativePath rel) :
    Char.ofNat 92 ∉ sandboxPathFor mount rel := by
  intro member
  rcases List.mem_append.mp member with inPath | later
  · exact (isMountPath_letters named).2 inPath
  · rcases List.mem_cons.mp later with same | inRel
    · exact absurd same (by decide)
    · exact relative.2.1 inRel

theorem mountRelative_absolute (plain : Char.ofNat 92 ∉ workdir) (relative : RelativePath rel) :
    mountRelative mount workdir
      (stripTrailingSlashes workdir ++ '/' :: sandboxPathFor mount rel) = some rel := by
  obtain ⟨notDot, notSlash⟩ := sandboxPathFor_start named rel
  have split : stripTrailingSlashes workdir ++ '/' :: sandboxPathFor mount rel =
      (stripTrailingSlashes workdir ++ ['/']) ++ sandboxPathFor mount rel := by
    rw [List.append_assoc]
    rfl
  refine mountRelative_of_listed relative (listedPath_of_plain ?_ ?_ notDot notSlash)
  · intro member
    rcases List.mem_append.mp member with inRoot | later
    · exact plain (stripped_subset inRoot)
    · rcases List.mem_cons.mp later with same | inPath
      · exact absurd same (by decide)
      · exact plain_sandboxPathFor named relative inPath
  · rw [split, if_pos, List.drop_left]
    exact List.isPrefixOf_iff_prefix.mpr (List.prefix_append _ _)

end

section

variable {root rel : Text} (absolute : stripTrailingSlashes workdir ++ ['/'] = '/' :: root)

include absolute

theorem mountRelative_sandboxPathFor (named : isMountPath mount.path = true)
    (relative : RelativePath rel) :
    mountRelative mount workdir (sandboxPathFor mount rel) = some rel := by
  obtain ⟨notDot, notSlash⟩ := sandboxPathFor_start named rel
  refine mountRelative_of_listed relative
    (listedPath_of_plain (plain_sandboxPathFor named relative) (if_neg ?_) notDot notSlash)
  rw [absolute, List.isPrefixOf_iff_prefix]
  rintro ⟨rest, same⟩
  rw [← same] at notSlash
  exact notSlash rfl

/-! ### Spellings of a path

The docstring of `mountRelative`: a listing echoes the requested path, an
absolute path, or a bare relative one. -/

def mountSpellings (mount : SandboxMount) (workdir rel : Text) : List Text :=
  [stripTrailingSlashes workdir ++ '/' :: sandboxPathFor mount rel, sandboxPathFor mount rel, rel]

/-- Each spelling of a path below a mount is read as this path. -/
def SpellingsAgree (mount : SandboxMount) (workdir rel : Text) : Prop :=
  ∀ raw ∈ mountSpellings mount workdir rel, mountRelative mount workdir raw = some rel

theorem listedPath_bare (relative : RelativePath rel) (notSlash : rel.head? ≠ some '/') :
    listedPath workdir rel = rel := by
  refine listedPath_of_plain relative.2.1 (if_neg ?_) (notDot_of_relative relative) notSlash
  rw [absolute, List.isPrefixOf_iff_prefix]
  rintro ⟨rest, same⟩
  rw [← same] at notSlash
  exact notSlash rfl

theorem length_listedPath (rest : Text) :
    (listedPath workdir ('/' :: rest)).length ≤ rest.length := by
  have slash : (if '/'.toNat = 92 then '/' else '/') = '/' := by decide
  unfold listedPath
  dsimp only
  rw [absolute, List.map_cons, slash]
  split
  · refine (List.dropWhile_sublist _).length_le.trans ?_
    split <;> simp
  · rw [if_neg (by simp [List.isPrefixOf]), List.dropWhile_cons_of_pos (by decide)]
    refine (List.dropWhile_sublist _).length_le.trans ?_
    rw [List.length_map]

/-- What is read from a bare path is shorter if it starts with a slash. -/
theorem head_of_mountRelative (bare : mountRelative mount workdir rel = some rel) :
    rel.head? ≠ some '/' := by
  intro slash
  obtain ⟨rest, rfl⟩ := List.head?_eq_some_iff.mp slash
  have shorter := length_listedPath absolute rest
  rcases (listedPath_of_mountRelative bare).2 with listed | ⟨listed, _⟩
  · rw [listed, sandboxPathFor, List.length_append, List.length_cons, List.length_cons] at shorter
    omega
  · rw [listed, List.length_cons] at shorter
    omega

theorem mountRelative_bare_iff (relative : RelativePath rel) (notSlash : rel.head? ≠ some '/') :
    mountRelative mount workdir rel = some rel ↔ isUnder '/' rel mount.path = false := by
  have listed := listedPath_bare absolute relative notSlash
  constructor
  · intro bare
    rcases (listedPath_of_mountRelative bare).2 with below | ⟨_, outside⟩
    · have lengths := congrArg List.length (listed.symm.trans below)
      rw [sandboxPathFor, List.length_append, List.length_cons] at lengths
      omega
    · exact outside
  · intro outside
    rw [Bool.eq_false_iff, Ne, isUnder, Bool.or_eq_true, decide_eq_true_eq, not_or] at outside
    unfold mountRelative
    dsimp only
    rw [listed, if_neg outside.1, if_neg outside.2, noDots_of_relative relative]
    simp [relative.1]

/-- The spellings agree exactly for the relative paths that do not lie below
a directory of the mount's own path. -/
theorem spellingsAgree_iff (named : isMountPath mount.path = true)
    (plain : Char.ofNat 92 ∉ workdir) :
    SpellingsAgree mount workdir rel ↔
      RelativePath rel ∧ rel.head? ≠ some '/' ∧ isUnder '/' rel mount.path = false := by
  constructor
  · intro agree
    have bare := agree rel (by simp [mountSpellings])
    have relative := relativePath_of_mountRelative bare
    have notSlash := head_of_mountRelative absolute bare
    exact ⟨relative, notSlash, (mountRelative_bare_iff absolute relative notSlash).mp bare⟩
  · rintro ⟨relative, notSlash, outside⟩ raw spelling
    simp only [mountSpellings, List.mem_cons, List.not_mem_nil, or_false] at spelling
    rcases spelling with rfl | rfl | rfl
    · exact mountRelative_absolute named plain relative
    · exact mountRelative_sandboxPathFor absolute named relative
    · exact (mountRelative_bare_iff absolute relative notSlash).mpr outside

end

def sourceMount : SandboxMount where
  path := "src".toList
  source := none
  kind := .vfs
  repo := none
  mode := .ro
  track := false
  base := []

theorem spellingsAgree_readme :
    SpellingsAgree sourceMount "/work/".toList "README.md".toList ↔
      RelativePath "README.md".toList ∧ "README.md".toList.head? ≠ some '/' ∧
        isUnder '/' "README.md".toList sourceMount.path = false :=
  @spellingsAgree_iff sourceMount _ _ _ rfl rfl (by decide)

/-- The directory `src` of the mount `src` is taken for the mount. -/
theorem spellings_disagree :
    ¬ SpellingsAgree sourceMount "/work/".toList "src/main.ts".toList := by
  intro agree
  have bare := agree "src/main.ts".toList (by simp [mountSpellings])
  exact absurd bare (by decide)

end

section

variable {store : Store} {source : Text}

theorem relativeTo_workspacePathFor (source rel : Text) :
    relativeTo source (workspacePathFor source rel) = rel := by
  have longer : workspacePathFor source rel ≠ source := by
    intro same
    have lengths := congrArg List.length same
    rw [workspacePathFor, List.length_append, List.length_cons] at lengths
    omega
  rw [relativeTo, if_neg longer, workspacePathFor, List.drop_append,
    List.drop_eq_nil_of_le (by omega)]
  simp

theorem workspacePathFor_inj {rel other : Text}
    (same : workspacePathFor source rel = workspacePathFor source other) :
    rel = other := by
  have both := congrArg (relativeTo source) same
  rw [relativeTo_workspacePathFor, relativeTo_workspacePathFor] at both
  exact both

/-- Of the files that a manifest may list, the listing statement selects
those below the source. -/
def ListsSubtree (store : Store) (source : Text) : Prop :=
  ∀ path ∈ store.paths, isServicePath path = false → isHiddenDataPath path = false →
      Store.selects store.backend source path = underPath path source

theorem mem_listed_iff (lists : ListsSubtree store source)
    (nonempty : source ≠ []) {pair : Text × Text} :
    pair ∈ ((visibleEntries store source).map fun entry =>
        (relativeTo source entry.path, entry.hash)).filter (·.1 ≠ []) ↔
      pair.1 ≠ [] ∧ isServicePath (workspacePathFor source pair.1) = false ∧
        isHiddenDataPath (workspacePathFor source pair.1) = false ∧
        (store.latest (workspacePathFor source pair.1)).map FsRow.hash = some pair.2 := by
  rw [List.mem_filter, decide_eq_true_eq, and_comm]
  apply and_congr_right
  intro proper
  rw [List.mem_map]
  constructor
  · intro listed
    obtain ⟨entry, shown, same⟩ := listed
    obtain ⟨inListing, isVisible⟩ := List.mem_filter.mp shown
    obtain ⟨⟨row, found, isEntry⟩, selected, _⟩ :=
      Store.mem_selected_iff.mp inListing
    rw [Bool.and_eq_true, Bool.not_eq_true', Bool.not_eq_true'] at isVisible
    have under : underPath entry.path source = true := by
      have stored : entry.path ∈ store.paths := Store.latest_isSome_iff.mp ⟨row, found⟩
      rw [← lists entry.path stored isVisible.1 isVisible.2]
      exact selected.resolve_left nonempty
    have isPath : workspacePathFor source pair.1 = entry.path := by
      rw [← same] at proper ⊢
      rcases isUnder_iff.mp under with whole | ⟨rest, below⟩
      · exact absurd (if_pos whole) proper
      · have path : entry.path = workspacePathFor source rest := below
        rw [path, relativeTo_workspacePathFor]
    rw [isPath, found, ← same, ← isEntry]
    rw [← isEntry] at isVisible
    exact ⟨isVisible.1, isVisible.2, rfl⟩
  · intro shown
    obtain ⟨service, visible, newest⟩ := shown
    obtain ⟨row, found, hash⟩ := Option.map_eq_some_iff.mp newest
    have entryPath : row.entry.path = workspacePathFor source pair.1 :=
      (Store.mem_of_latest found).2
    have stored : workspacePathFor source pair.1 ∈ store.paths :=
      Store.latest_isSome_iff.mp ⟨row, found⟩
    refine ⟨row.entry, List.mem_filter.mpr ⟨?_, ?_⟩, ?_⟩
    · show row.entry ∈ store.selected source []
      rw [Store.mem_selected_iff, entryPath, lists _ stored service visible]
      exact ⟨⟨row, found, rfl⟩, Or.inr (workspacePathFor_below source _), Or.inl rfl⟩
    · rw [entryPath, service, visible]
      rfl
    · rw [entryPath, relativeTo_workspacePathFor]
      exact Prod.ext rfl hash

theorem lookup_workspaceManifest (lists : ListsSubtree store source) (nonempty : source ≠ [])
    {rel : Text} (proper : rel ≠ [])
    (service : isServicePath (workspacePathFor source rel) = false)
    (visible : isHiddenDataPath (workspacePathFor source rel) = false) :
    (workspaceManifest store source).lookup rel =
      (store.latest (workspacePathFor source rel)).map FsRow.hash := by
  let newest := fun rel => ((store.latest (workspacePathFor source rel)).map FsRow.hash).getD []
  have agree : ∀ entry ∈ ((visibleEntries store source).map fun entry =>
      (relativeTo source entry.path, entry.hash)).filter (·.1 ≠ []),
      entry.2 = newest entry.1 := by
    intro entry member
    have listed := (mem_listed_iff lists nonempty).mp member
    show entry.2 = ((store.latest _).map FsRow.hash).getD []
    rw [listed.2.2.2]
    rfl
  unfold workspaceManifest
  rw [lookup_manifestOf agree]
  cases found : (store.latest (workspacePathFor source rel)).map FsRow.hash with
  | none =>
    apply if_neg
    intro member
    obtain ⟨entry, inListing, isRel⟩ := List.mem_map.mp member
    have listed := (mem_listed_iff lists nonempty).mp inListing
    rw [isRel, found] at listed
    cases listed.2.2.2
  | some hash =>
    have isNewest : newest rel = hash := by
      show ((store.latest _).map FsRow.hash).getD [] = hash
      rw [found]
      rfl
    rw [if_pos, isNewest]
    exact List.mem_map.mpr ⟨(rel, hash), (mem_listed_iff lists nonempty).mpr
        ⟨proper, service, visible, found⟩, rfl⟩

theorem isServicePath_below (plain : ".services".toList.isPrefixOf source = false) (rel : Text) :
    isServicePath (workspacePathFor source rel) = false := by
  rw [Bool.eq_false_iff]
  intro service
  have begins : ".services".toList <+: workspacePathFor source rel := by
    rcases isUnder_iff.mp service with same | ⟨rest, same⟩
    · rw [same]
      exact List.prefix_rfl
    · rw [same]
      exact List.prefix_append _ _
  have notPrefix : ¬ ".services".toList <+: source := by
    rw [← List.isPrefixOf_iff_prefix, plain]
    exact Bool.false_ne_true
  have sourceBegins : source <+: workspacePathFor source rel := List.prefix_append source _
  rcases List.prefix_or_prefix_of_prefix begins sourceBegins with
    inSource | ⟨rest, split⟩
  · exact notPrefix inSource
  · cases rest with
    | nil =>
      rw [List.append_nil] at split
      exact notPrefix (split ▸ List.prefix_rfl)
    | cons letter rest =>
      obtain ⟨more, same⟩ := begins
      rw [← split, workspacePathFor, List.append_assoc] at same
      have letters := List.append_cancel_left same
      rw [List.cons_append, List.cons.injEq] at letters
      have slash : '/' ∈ ".services".toList := by
        rw [← split, letters.1]
        exact List.mem_append_right _ List.mem_cons_self
      exact absurd slash (by decide)

theorem nonempty_of_workspaceSource {mount : SandboxMount}
    (named : mount.workspaceSource = some source) : source ≠ [] := by
  unfold SandboxMount.workspaceSource at named
  split at named
  · cases named
  · exact of_decide_eq_true (Option.filter_eq_some_iff.mp named).2

end

section

variable {base live : List (Text × Text)} {value : Text → Text}

theorem mem_changed_iff (agree : ∀ entry ∈ live, entry.2 = value entry.1) {rel : Text} :
    rel ∈ (diffManifests base live).added ++ (diffManifests base live).modified ↔
      live.lookup rel ≠ none ∧ base.lookup rel ≠ live.lookup rel := by
  have looked : ∀ entry ∈ live, live.lookup entry.1 = some entry.2 := by
    intro entry member
    have found : (live.lookup entry.1).isSome = true :=
      (lookup_isSome_iff_mem entry.1).mpr (List.mem_map_of_mem member)
    obtain ⟨hash, isHash⟩ := Option.isSome_iff_exists.mp found
    have same := agree _ (mem_of_lookup isHash)
    rw [isHash, agree entry member]
    exact congrArg some same
  rw [List.mem_append, diffManifests]
  simp only [mem_sortTexts, List.mem_map, List.mem_filter]
  constructor
  · intro changed
    rcases changed with ⟨entry, ⟨member, isNew⟩, rfl⟩ |
      ⟨entry, ⟨member, differs⟩, rfl⟩
    · rw [looked entry member, Option.isNone_iff_eq_none.mp isNew]
      exact ⟨Option.some_ne_none _, (Option.some_ne_none _).symm⟩
    · rw [Bool.and_eq_true, decide_eq_true_eq] at differs
      rw [looked entry member]
      exact ⟨Option.some_ne_none _, differs.2⟩
  · intro changed
    obtain ⟨given, differs⟩ := changed
    have inLive := (lookup_isSome_iff_mem rel).mp (Option.isSome_iff_ne_none.mpr given)
    obtain ⟨entry, member, rfl⟩ := List.mem_map.mp inLive
    rw [looked entry member] at differs
    cases known : base.lookup entry.1 with
    | none =>
      left
      exact ⟨entry, ⟨member, by rw [known]; rfl⟩, rfl⟩
    | some hash =>
      right
      refine ⟨entry, ⟨member, ?_⟩, rfl⟩
      rw [known] at differs
      simp [known, differs]

theorem mem_removed_iff {rel : Text} :
    rel ∈ (diffManifests base live).removed ↔ base.lookup rel ≠ none ∧ live.lookup rel = none := by
  rw [diffManifests]
  simp only [mem_sortTexts, List.mem_map, List.mem_filter, Option.isNone_iff_eq_none]
  constructor
  · intro removed
    obtain ⟨entry, ⟨member, gone⟩, rfl⟩ := removed
    have found : (base.lookup entry.1).isSome = true :=
      (lookup_isSome_iff_mem entry.1).mpr (List.mem_map_of_mem member)
    exact ⟨Option.isSome_iff_ne_none.mp found, gone⟩
  · intro removed
    obtain ⟨given, gone⟩ := removed
    have inBase := (lookup_isSome_iff_mem rel).mp (Option.isSome_iff_ne_none.mpr given)
    obtain ⟨entry, member, rfl⟩ := List.mem_map.mp inBase
    exact ⟨entry, ⟨member, gone⟩, rfl⟩

/-- The base of the next commit is what is live where the commit landed, and
the old base elsewhere. -/
theorem lookup_settledBase {source : Text} {compared : Comparison}
    (agree : ∀ entry ∈ compared.live, entry.2 = value entry.1)
    (result : MountCommitResult) (rel : Text) :
    (settledBase source compared
        (diffManifests compared.base compared.live).removed result).lookup rel =
      if workspacePathFor source rel ∈ result.written ∨
          workspacePathFor source rel ∈ result.removed then
        compared.live.lookup rel
      else
        compared.base.lookup rel := by
  let settled := fun rel =>
    decide (workspacePathFor source rel ∈ result.written) ||
      decide (workspacePathFor source rel ∈ result.removed)
  let dropped := fun rel =>
    !(decide (rel ∈ (diffManifests compared.base compared.live).removed) && settled rel)
  have landed : settled rel = true ↔ workspacePathFor source rel ∈ result.written ∨
        workspacePathFor source rel ∈ result.removed := by
    simp only [settled, Bool.or_eq_true, decide_eq_true_eq]
  have live : ∀ entry ∈ compared.live.filter fun entry => settled entry.1,
      entry.2 = value entry.1 := by
    intro entry member
    exact agree entry (List.mem_filter.mp member).1
  have inLive : rel ∈ (compared.live.filter fun entry =>
      settled entry.1).map Prod.fst ↔ settled rel = true ∧ compared.live.lookup rel ≠ none := by
    rw [← lookup_isSome_iff_mem, lookup_filter_key settled]
    by_cases isSettled : settled rel = true
    · rw [if_pos isSettled, Option.isSome_iff_ne_none, and_iff_right isSettled]
    · simp [isSettled]
  have whole : settledBase source compared
      (diffManifests compared.base compared.live).removed result =
        ((compared.live.filter fun entry => settled entry.1).foldl setKey
          compared.base).filter fun entry => dropped entry.1 :=
    rfl
  rw [whole, lookup_filter_key dropped, lookup_foldl_setKey live]
  by_cases isSettled : settled rel = true
  · rw [if_pos (landed.mp isSettled)]
    cases found : compared.live.lookup rel with
    | none =>
      have notLive : ¬ rel ∈ (compared.live.filter fun entry =>
          settled entry.1).map Prod.fst := by
        rw [inLive]
        exact fun both => both.2 found
      rw [if_neg notLive]
      by_cases given : compared.base.lookup rel = none
      · rw [given, ite_self]
      · have gone : dropped rel ≠ true := by
          have removed := mem_removed_iff.mpr ⟨given, found⟩
          simp [dropped, removed, isSettled]
        rw [if_neg gone]
    | some hash =>
      have isLive : rel ∈ (compared.live.filter fun entry =>
          settled entry.1).map Prod.fst := by
        rw [inLive, found]
        exact ⟨isSettled, Option.some_ne_none hash⟩
      have stays : dropped rel = true := by
        have notRemoved : rel ∉ (diffManifests compared.base compared.live).removed := by
          intro removed
          rw [mem_removed_iff, found] at removed
          cases removed.2
        simp [dropped, notRemoved]
      have isValue : value rel = hash := (agree _ (mem_of_lookup found)).symm
      rw [if_pos stays, if_pos isLive, isValue]
  · have notLive : ¬ rel ∈ (compared.live.filter fun entry =>
        settled entry.1).map Prod.fst := by
      rw [inLive]
      exact fun both => isSettled both.1
    have stays : dropped rel = true := by simp [dropped, isSettled]
    rw [if_neg (fun lands => isSettled (landed.mpr lands)), if_pos stays, if_neg notLive]

end

end Aprovan.Sandboxes
