import Aprovan.Vfs.Agreement

/-!
# Pages of the live tree

The listings of the live tree filter after they paginate.  A page is clean
when no unreadable file has an influence on it; clean pages of agreeing
states are the same, and a page that is not clean differs from the page of
the readable files.
-/

namespace Aprovan.Vfs

open Aprovan.Library Aprovan.Fs Aprovan.Grants Aprovan.Apps

section

variable {may shown : Text → Bool} {rows others : List FsEntry}

/-- Nothing that may not be read is shown by an unpaginated listing. -/
def ShownClean (may shown : Text → Bool) (rows : List FsEntry) : Prop :=
  ∀ entry ∈ rows, shown entry.path = true → may entry.path = true

/-- The rows behind a page cut off at the limit: nothing unreadable lies on
the page, and the readable rows alone would be cut off too. -/
def CutClean (may shown : Text → Bool) (rows : List FsEntry) (limit : Int) : Prop :=
  if limit < rows.length then
    (∀ entry ∈ rows.take limit.toNat, may entry.path = true) ∧
      limit < (rows.filter (may ·.path)).length
  else ShownClean may shown rows

/-- The rows behind a page that drops entries from the end: what is dropped
and the last one left are readable, and nothing unreadable is shown. -/
def DropClean (may shown : Text → Bool) (rows : List FsEntry) (dropped : Nat) : Prop :=
  dropped < rows.length → (∃ last, (rows.take (rows.length - dropped)).getLast? = some last ∧
      may last.path = true) ∧
    (∀ entry ∈ rows.drop (rows.length - dropped), may entry.path = true) ∧
    ShownClean may shown (rows.take (rows.length - dropped))

/-- The rows behind a listing are clean, for the limit it is called with. -/
def PageClean (may shown : Text → Bool) (backend : Backend)
    (rows : List FsEntry) (limit : Option Int) : Prop :=
  match limit with
  | none => ShownClean may shown rows
  | some limit =>
    if 0 < limit then CutClean may shown rows limit
    else if limit = 0 then rows ≠ [] → ∃ entry ∈ rows, may entry.path = true
    else ¬ (limit = -1 ∨ backend = .dsql) → DropClean may shown rows (-limit).toNat

theorem take_ne_nil {limit : Nat} {entries : List FsEntry}
    (positive : 0 < limit) (enough : limit ≤ entries.length) :
    entries.take limit ≠ [] := by
  intro empty
  have lengths := congrArg List.length empty
  rw [List.length_take, List.length_nil] at lengths
  omega

theorem filter_shown_of_clean (clean : ShownClean may shown rows) :
    rows.filter (shown ·.path) = (rows.filter (may ·.path)).filter (shown ·.path) := by
  rw [List.filter_filter]
  apply List.filter_congr
  intro entry member
  cases visible : shown entry.path with
  | false => rfl
  | true => simp [clean entry member visible]

theorem take_eq_of_clean {limit : Nat} (front : ∀ entry ∈ rows.take limit, may entry.path = true)
    (enough : limit ≤ rows.length) :
    rows.take limit = (rows.filter (may ·.path)).take limit := by
  have split : (rows.filter (may ·.path)) =
      rows.take limit ++ (rows.drop limit).filter (may ·.path) := by
    conv => lhs; rw [← List.take_append_drop limit rows]
    rw [List.filter_append, List.filter_eq_self.mpr front]
  rw [split, List.take_left']
  rw [List.length_take]
  omega

theorem length_lt_of_not_clean (dirty : ¬ ShownClean may shown rows) :
    ((rows.filter (may ·.path)).filter (shown ·.path)).length <
      (rows.filter (shown ·.path)).length := by
  rw [List.filter_filter]
  unfold ShownClean at dirty
  simp only [not_forall, Bool.not_eq_true] at dirty
  obtain ⟨entry, member, visible, unreadable⟩ := dirty
  have smaller :
      ((rows.filter (shown ·.path)).filter (may ·.path)).length <
        (rows.filter (shown ·.path)).length := by
    rw [List.length_filter_lt_length_iff_exists]
    exact ⟨entry, List.mem_filter.mpr ⟨member, visible⟩,
      by simp [unreadable]⟩
  rw [List.filter_filter] at smaller
  have same :
      rows.filter (fun entry => shown entry.path && may entry.path) =
        rows.filter (fun entry => may entry.path && shown entry.path) := by
    apply List.filter_congr
    intro other _
    exact Bool.and_comm _ _
  rw [same]
  exact smaller

section

variable {limit : Nat} {last : FsEntry}
  (sorted : rows.Pairwise fun before after => before.path < after.path)
  (isLast : (rows.take limit).getLast? = some last)

include sorted isLast

/-- In a sorted listing the last path of a front decides what lies on it. -/
theorem take_eq_filter_le : rows.take limit = rows.filter (·.path ≤ last.path) := by
  have split := List.take_append_drop limit rows
  have front : ∀ entry ∈ rows.take limit, entry.path ≤ last.path := by
    intro entry member
    obtain ⟨before, whole⟩ := List.getLast?_eq_some_iff.mp isLast
    rw [whole] at member
    have increasing := sorted.sublist (List.take_sublist limit rows)
    rw [whole, List.pairwise_append] at increasing
    rcases List.mem_append.mp member with earlier | same
    · exact (increasing.2.2 entry earlier last List.mem_cons_self).le
    · rw [List.mem_singleton.mp same]
  have back : ∀ entry ∈ rows.drop limit, ¬ entry.path ≤ last.path := by
    intro entry member
    have inFront : last ∈ rows.take limit := List.mem_of_getLast? isLast
    rw [← split, List.pairwise_append] at sorted
    exact not_le_of_gt (sorted.2.2 last inFront entry member)
  conv => rhs; rw [← split]
  rw [List.filter_append,
    List.filter_eq_self.mpr (fun entry member => by
      simpa using front entry member),
    List.filter_eq_nil_iff.mpr (fun entry member => by
      simpa using back entry member),
    List.append_nil]

theorem front_readable_of_same_last {other : FsEntry} (isOther :
      ((rows.filter (may ·.path)).take limit).getLast? = some other)
    (samePath : last.path = other.path)
    (enough : limit ≤ (rows.filter (may ·.path)).length) :
    ∀ entry ∈ rows.take limit, may entry.path = true := by
  have front := take_eq_filter_le sorted isLast
  have readable := take_eq_filter_le (sorted.filter _) isOther
  have counted : ((rows.take limit).filter (may ·.path)).length = (rows.take limit).length := by
    have swapped :
        (rows.take limit).filter (may ·.path) = (rows.filter (may ·.path)).take limit := by
      rw [front, readable, samePath, List.filter_filter, List.filter_filter]
      apply List.filter_congr
      intro entry _
      exact Bool.and_comm _ _
    rw [swapped, List.length_take, List.length_take]
    have bound := List.length_filter_le (fun entry : FsEntry => may entry.path) rows
    omega
  intro entry member
  have all := List.length_filter_eq_length_iff.mp counted
  exact all entry member

end

theorem shownClean_of_length_le (enough : (rows.filter (shown ·.path)).length ≤
      ((rows.filter (may ·.path)).filter (shown ·.path)).length) :
    ShownClean may shown rows := by
  by_contra dirty
  have less := length_lt_of_not_clean dirty
  omega

theorem shown_eq_of_agree (agree : rows.filter (may ·.path) = others.filter (may ·.path))
    (clean : ShownClean may shown rows) (cleanOthers : ShownClean may shown others) :
    rows.filter (shown ·.path) = others.filter (shown ·.path) := by
  rw [filter_shown_of_clean clean, filter_shown_of_clean cleanOthers, agree]

theorem filter_front_of_back {dropped : Nat} (inside : dropped ≤ rows.length)
    (back : ∀ entry ∈ rows.drop (rows.length - dropped), may entry.path = true) :
    (rows.take (rows.length - dropped)).filter (may ·.path) = (rows.filter (may ·.path)).take
        ((rows.filter (may ·.path)).length - dropped) := by
  have split :
      rows.filter (may ·.path) = (rows.take (rows.length - dropped)).filter (may ·.path) ++
          rows.drop (rows.length - dropped) := by
    conv => lhs; rw [← List.take_append_drop (rows.length - dropped) rows]
    rw [List.filter_append, List.filter_eq_self.mpr back]
  have backLength : (rows.drop (rows.length - dropped)).length = dropped := by
    rw [List.length_drop]
    omega
  rw [split, List.length_append, backLength, Nat.add_sub_cancel, List.take_left]

theorem getLast?_filter_of_last {last : FsEntry} {entries : List FsEntry}
    (isLast : entries.getLast? = some last) (readable : may last.path = true) :
    (entries.filter (may ·.path)).getLast? = some last := by
  obtain ⟨before, whole⟩ := List.getLast?_eq_some_iff.mp isLast
  have kept : [last].filter (may ·.path) = [last] := by simp [readable]
  rw [whole, List.filter_append, kept]
  exact List.getLast?_concat

theorem fronts_agree {dropped : Nat}
    (agree : rows.filter (may ·.path) = others.filter (may ·.path))
    (clean : DropClean may shown rows dropped)
    (cleanOthers : DropClean may shown others dropped) :
    (rows.take (rows.length - dropped)).getLast? =
        (others.take (others.length - dropped)).getLast? ∧
      (rows.take (rows.length - dropped)).filter (shown ·.path) =
        (others.take (others.length - dropped)).filter (shown ·.path) := by
  have longer : ∀ some other : List FsEntry, some.filter (may ·.path) = other.filter (may ·.path) →
      DropClean may shown some dropped →
      dropped < some.length → dropped < other.length := by
    intro some other same cleanSome more
    obtain ⟨⟨last, isLast, readable⟩, back, _⟩ := cleanSome more
    have front := filter_front_of_back more.le back
    have found := getLast?_filter_of_last isLast readable
    have nonempty :
        (some.filter (may ·.path)).take ((some.filter (may ·.path)).length - dropped) ≠ [] := by
      rw [← front]
      intro empty
      rw [empty] at found
      cases found
    have positive := List.length_pos_iff.mpr nonempty
    rw [List.length_take, same] at positive
    have bound := List.length_filter_le (fun entry : FsEntry => may entry.path) other
    omega
  by_cases more : dropped < rows.length
  · have moreOthers := longer rows others agree clean more
    obtain ⟨⟨last, isLast, readable⟩, back, shownFront⟩ := clean more
    obtain ⟨⟨other, isOther, readableOther⟩, backOther, shownOther⟩ :=
      cleanOthers moreOthers
    have fronts :
        (rows.take (rows.length - dropped)).filter (may ·.path) =
          (others.take (others.length - dropped)).filter (may ·.path) := by
      rw [filter_front_of_back more.le back, filter_front_of_back moreOthers.le backOther, agree]
    constructor
    · rw [isLast, isOther, ← getLast?_filter_of_last isLast readable,
        ← getLast?_filter_of_last isOther readableOther, fronts]
    · exact shown_eq_of_agree fronts shownFront shownOther
  · have noMoreOthers : ¬ dropped < others.length :=
      fun moreOthers => more (longer others rows agree.symm cleanOthers moreOthers)
    have nothing : rows.length - dropped = 0 := by omega
    have nothingOthers : others.length - dropped = 0 := by omega
    rw [nothing, nothingOthers]
    exact ⟨rfl, rfl⟩

theorem pageClean_of_readable (backend : Backend) (limit : Option Int)
    (all : ∀ entry ∈ rows, may entry.path = true) :
    PageClean may shown backend rows limit := by
  unfold PageClean
  split
  · exact fun entry member _ => all entry member
  · split
    · unfold CutClean
      split
      · next more =>
          refine ⟨fun entry member => all entry (List.mem_of_mem_take member), ?_⟩
          rw [List.filter_eq_self.mpr all]
          exact more
      · exact fun entry member _ => all entry member
    · split
      · intro nonempty
        obtain ⟨entry, member⟩ := List.exists_mem_of_ne_nil _ nonempty
        exact ⟨entry, member, all entry member⟩
      · next size _ _ =>
        intro _ more
        have nonempty : rows.take (rows.length - (-size).toNat) ≠ [] :=
          take_ne_nil (by omega) (by omega)
        have isLast := List.getLast?_eq_some_getLast nonempty
        refine ⟨⟨_, isLast, all _ ?_⟩, ?_, ?_⟩
        · exact List.mem_of_mem_take (List.mem_of_getLast? isLast)
        · exact fun entry member => all entry (List.mem_of_mem_drop member)
        · exact fun entry member _ => all entry (List.mem_of_mem_take member)

/-- Two pages that nobody tells apart: both fail, or they end at the same
cursor and the second one shows at least as much. -/
def LooksAlike (shown : Text → Bool) (page other : Option Store.FsListPage) : Prop :=
  match page, other with
  | none, none => True
  | some page, some other =>
    page.cursor = other.cursor ∧ (page.entries.filter (shown ·.path)).length ≤
        (other.entries.filter (shown ·.path)).length
  | _, _ => False

theorem cutClean_of_looksAlike {limit : Nat}
    (sorted : rows.Pairwise fun before after => before.path < after.path) (positive : 0 < limit)
    (alike : LooksAlike shown (if limit < rows.length then
        some {
          entries := rows.take limit
          cursor := (rows.take limit).getLast?.map FsEntry.path }
      else some { entries := rows, cursor := none })
      (if limit < (rows.filter (may ·.path)).length then
        some {
          entries := (rows.filter (may ·.path)).take limit
          cursor := ((rows.filter (may ·.path)).take limit).getLast?.map FsEntry.path }
      else some { entries := rows.filter (may ·.path), cursor := none })) :
    CutClean may shown rows limit := by
  have count := List.length_filter_le (fun entry : FsEntry => may entry.path) rows
  simp only [CutClean, Int.toNat_natCast, Int.ofNat_lt]
  by_cases more : limit < rows.length
  · rw [if_pos more] at alike ⊢
    have isLast := List.getLast?_eq_some_getLast (take_ne_nil positive more.le)
    by_cases moreReadable : limit < (rows.filter (may ·.path)).length
    · rw [if_pos moreReadable] at alike
      have isOther := List.getLast?_eq_some_getLast (take_ne_nil positive moreReadable.le)
      have sameCursor := alike.1
      simp only [isLast, isOther, Option.map_some, Option.some.injEq] at sameCursor
      exact ⟨front_readable_of_same_last sorted isLast isOther sameCursor
        moreReadable.le, moreReadable⟩
    · rw [if_neg moreReadable] at alike
      have sameCursor := alike.1
      simp only [isLast, Option.map_some] at sameCursor
      cases sameCursor
  · rw [if_neg more] at alike ⊢
    rw [if_neg (by omega)] at alike
    exact shownClean_of_length_le alike.2

theorem dropClean_of_looksAlike {dropped : Nat}
    (sorted : rows.Pairwise fun before after => before.path < after.path)
    (alike : LooksAlike shown ((rows.take (rows.length - dropped)).getLast?.map fun last => {
        entries := rows.take (rows.length - dropped)
        cursor := some last.path })
      (((rows.filter (may ·.path)).take ((rows.filter (may ·.path)).length - dropped)).getLast?.map
          fun last => {
            entries := (rows.filter (may ·.path)).take
              ((rows.filter (may ·.path)).length - dropped)
            cursor := some last.path })) :
    DropClean may shown rows dropped := by
  intro more
  have isLast := List.getLast?_eq_some_getLast
    (take_ne_nil (by omega) (Nat.sub_le rows.length dropped))
  rw [isLast, Option.map_some] at alike
  cases isOther : ((rows.filter (may ·.path)).take
      ((rows.filter (may ·.path)).length - dropped)).getLast? with
  | none =>
    rw [isOther] at alike
    exact alike.elim
  | some other =>
    rw [isOther] at alike
    obtain ⟨sameCursor, enough⟩ := alike
    have samePath := Option.some.inj sameCursor
    have inReadable : other ∈ rows.filter (may ·.path) :=
      List.mem_of_mem_take (List.mem_of_getLast? isOther)
    -- both fronts are what lies up to the common last path
    have fronts :
        (rows.take (rows.length - dropped)).filter (may ·.path) =
          (rows.filter (may ·.path)).take ((rows.filter (may ·.path)).length - dropped) := by
      rw [take_eq_filter_le sorted isLast, take_eq_filter_le (sorted.filter _) isOther, samePath,
        List.filter_filter, List.filter_filter]
      apply List.filter_congr
      intro entry _
      exact Bool.and_comm _ _
    refine ⟨⟨_, isLast, ?_⟩, ?_, ?_⟩
    · rw [samePath]
      exact (List.mem_filter.mp inReadable).2
    · apply List.length_filter_eq_length_iff.mp
      have split :
          (rows.filter (may ·.path)).length = ((rows.take (rows.length - dropped)).filter
              (may ·.path)).length +
              ((rows.drop (rows.length - dropped)).filter (may ·.path)).length := by
        rw [← List.length_append, ← List.filter_append, List.take_append_drop]
      have nonempty :
          0 < ((rows.filter (may ·.path)).take
            ((rows.filter (may ·.path)).length - dropped)).length :=
        List.length_pos_of_mem (List.mem_of_getLast? isOther)
      rw [fronts] at split
      rw [List.length_take] at split nonempty
      rw [List.length_drop]
      omega
    · apply shownClean_of_length_le
      rw [fronts]
      exact enough

theorem empty_of_agree (agree : rows.filter (may ·.path) = others.filter (may ·.path))
    (clean : others ≠ [] → ∃ entry ∈ others, may entry.path = true) (empty : rows = []) :
    others = [] := by
  by_contra nonempty
  obtain ⟨entry, member, readable⟩ := clean nonempty
  have inside : entry ∈ others.filter (may ·.path) := List.mem_filter.mpr ⟨member, readable⟩
  rw [← agree, empty] at inside
  cases inside

end

section

variable {may shows : Text → Bool} {first second state : ListingState}
  {pathPrefix cursor : Text} {grants : Option CapabilityGrants}

def shownPath (shows : Text → Bool) (grants : Option CapabilityGrants) (path : Text) : Bool :=
  grantShows grants path && shows path

/-- The page of a listing is clean; and when the listing answers, so are
the mounts that complete it. -/
def TreeClean (may shows : Text → Bool) (state : ListingState) (pathPrefix : Text)
    (limit : Option Int) (cursor : Text) (grants : Option CapabilityGrants) : Prop :=
  PageClean may (shownPath shows grants) state.store.backend
      (state.store.selected pathPrefix cursor) limit ∧
    (state.store.list pathPrefix limit cursor ≠ none → limit = none ∨ cursor = [] →
      ShownClean may (grantShows grants) (state.mountEntries pathPrefix))

def pageShown (shown : Text → Bool) (page : Store.FsListPage) : Store.FsListPage where
  entries := page.entries.filter (shown ·.path)
  cursor := page.cursor

def mountsShown (state : ListingState) (pathPrefix : Text) (limit : Option Int) (cursor : Text)
    (grants : Option CapabilityGrants) : List FsEntry :=
  if limit = none ∨ cursor = [] then
    (state.mountEntries pathPrefix).filter (grantShows grants ·.path)
  else []

theorem shownPage_eq (collate : Text → Text → Bool) (limit : Option Int) :
    shownPage collate state shows pathPrefix limit cursor grants =
      match (state.store.list pathPrefix limit cursor).map
          (pageShown (shownPath shows grants)) with
      | none => .crashed
      | some page => .answered (.tree (sortEntries collate (page.entries ++
            mountsShown state pathPrefix limit cursor grants))
          page.cursor) := by
  unfold shownPage
  cases state.store.list pathPrefix limit cursor with
  | none => rfl
  | some page =>
    have mounted :
        (if limit = none ∨ cursor = [] then state.mountEntries pathPrefix
          else []).filter (grantShows grants ·.path) =
          mountsShown state pathPrefix limit cursor grants := by
      unfold mountsShown
      split
      · rfl
      · rfl
    simp only [Option.map_some, List.filter_append, mounted, List.filter_filter, pageShown]
    rfl

variable {limit : Option Int}

theorem pages_agree {shown : Text → Bool} (agree : AgreeOn may first second)
    (cleanFirst : PageClean may shown first.store.backend
      (first.store.selected pathPrefix cursor) limit)
    (cleanSecond : PageClean may shown second.store.backend
      (second.store.selected pathPrefix cursor) limit) :
    (first.store.list pathPrefix limit cursor).map (pageShown shown) =
      (second.store.list pathPrefix limit cursor).map (pageShown shown) := by
  have readable := selected_agree agree pathPrefix cursor
  cases limit with
  | none =>
    have same := shown_eq_of_agree readable cleanFirst cleanSecond
    simp only [Store.list, Option.map_some, pageShown, same]
  | some limit =>
    simp only [PageClean] at cleanFirst cleanSecond
    by_cases positive : 0 < limit
    · obtain ⟨size, rfl⟩ := Int.eq_ofNat_of_zero_le positive.le
      simp only [if_pos positive, CutClean, Int.toNat_natCast,
        Int.ofNat_lt] at cleanFirst cleanSecond
      rw [Store.list_positive _ _ _ (by omega), Store.list_positive _ _ _ (by omega)]
      simp only
      have countFirst := List.length_filter_le (fun entry : FsEntry => may entry.path)
        (first.store.selected pathPrefix cursor)
      have countSecond := List.length_filter_le (fun entry : FsEntry => may entry.path)
        (second.store.selected pathPrefix cursor)
      by_cases more : size < (first.store.selected pathPrefix cursor).length
      · rw [if_pos more] at cleanFirst ⊢
        have moreSecond : size < (second.store.selected pathPrefix cursor).length := by
          have longer := cleanFirst.2
          rw [readable] at longer
          omega
        rw [if_pos moreSecond] at cleanSecond ⊢
        rw [take_eq_of_clean cleanFirst.1 more.le,
          take_eq_of_clean cleanSecond.1 moreSecond.le, readable]
      · rw [if_neg more] at cleanFirst ⊢
        have noMoreSecond : ¬ size < (second.store.selected pathPrefix cursor).length := by
          intro moreSecond
          rw [if_pos moreSecond, ← readable] at cleanSecond
          omega
        rw [if_neg noMoreSecond] at cleanSecond ⊢
        have same := shown_eq_of_agree readable cleanFirst cleanSecond
        simp only [Option.map_some, pageShown, same]
    · rw [if_neg positive] at cleanFirst cleanSecond
      by_cases zero : limit = 0
      · rw [if_pos zero] at cleanFirst cleanSecond
        have sameEmpty :
            first.store.selected pathPrefix cursor = [] ↔
              second.store.selected pathPrefix cursor = [] :=
          ⟨empty_of_agree readable cleanSecond, empty_of_agree readable.symm cleanFirst⟩
        subst zero
        rw [Store.list_zero, Store.list_zero]
        simp only [sameEmpty]
      · rw [if_neg zero] at cleanFirst cleanSecond
        rw [Store.list_negative _ _ _ (by omega), Store.list_negative _ _ _ (by omega)]
        rw [← agree.backend] at cleanSecond ⊢
        by_cases fails : limit = -1 ∨ first.store.backend = .dsql
        · rw [if_pos fails, if_pos fails]
        · rw [if_neg fails, if_neg fails]
          obtain ⟨sameLast, sameFront⟩ := fronts_agree readable
            (cleanFirst fails) (cleanSecond fails)
          simp only [sameLast, Option.map_map]
          apply Option.map_congr
          intro last _
          simp only [Function.comp_apply, pageShown, sameFront]

theorem mounts_agree (agree : AgreeOn may first second) (cleanFirst : limit = none ∨ cursor = [] →
      ShownClean may (grantShows grants) (first.mountEntries pathPrefix))
    (cleanSecond : limit = none ∨ cursor = [] →
      ShownClean may (grantShows grants) (second.mountEntries pathPrefix)) :
    mountsShown first pathPrefix limit cursor grants =
      mountsShown second pathPrefix limit cursor grants := by
  unfold mountsShown
  split
  · next listed =>
      exact shown_eq_of_agree (agree.mountEntries pathPrefix)
        (cleanFirst listed) (cleanSecond listed)
  · rfl

theorem shownPage_agree (collate : Text → Text → Bool) (limit : Option Int)
    (agree : AgreeOn may first second)
    (cleanFirst : TreeClean may shows first pathPrefix limit cursor grants)
    (cleanSecond : TreeClean may shows second pathPrefix limit cursor grants) :
    shownPage collate first shows pathPrefix limit cursor grants =
      shownPage collate second shows pathPrefix limit cursor grants := by
  have pages := pages_agree agree cleanFirst.1 cleanSecond.1
  rw [shownPage_eq, shownPage_eq, ← pages]
  cases one : first.store.list pathPrefix limit cursor with
  | none => rfl
  | some page =>
    have answersFirst : first.store.list pathPrefix limit cursor ≠ none := by
      rw [one]
      exact Option.some_ne_none page
    have answersSecond : second.store.list pathPrefix limit cursor ≠ none := by
      intro two
      rw [one, two] at pages
      cases pages
    rw [mounts_agree agree (cleanFirst.2 answersFirst) (cleanSecond.2 answersSecond)]

theorem treeClean_restrict (may shows : Text → Bool) (state : ListingState) (pathPrefix : Text)
    (limit : Option Int) (cursor : Text) (grants : Option CapabilityGrants) :
    TreeClean may shows (state.restrict may) pathPrefix limit cursor grants := by
  constructor
  · apply pageClean_of_readable
    intro entry member
    rw [selected_restrict] at member
    exact (List.mem_filter.mp member).2
  · intro _ _ entry member _
    exact (List.mem_filter.mp member).2

theorem length_mountsShown_restrict_le (may : Text → Bool) (state : ListingState)
    (pathPrefix : Text) (limit : Option Int) (cursor : Text) (grants : Option CapabilityGrants) :
    (mountsShown (state.restrict may) pathPrefix limit cursor grants).length ≤
      (mountsShown state pathPrefix limit cursor grants).length := by
  unfold mountsShown
  split
  · apply List.Sublist.length_le
    exact (List.filter_sublist).filter _
  · exact Nat.le_refl _

theorem pageClean_of_looksAlike {shown : Text → Bool}
    (alike : LooksAlike shown (state.store.list pathPrefix limit cursor)
      ((state.restrict may).store.list pathPrefix limit cursor)) :
    PageClean may shown state.store.backend (state.store.selected pathPrefix cursor) limit := by
  have sorted := Store.selected_sorted state.store pathPrefix cursor
  unfold PageClean
  cases limit with
  | none =>
    simp only [Store.list, selected_restrict, LooksAlike, true_and] at alike
    exact shownClean_of_length_le alike
  | some limit =>
    simp only
    split
    · next positive =>
        obtain ⟨size, rfl⟩ := Int.eq_ofNat_of_zero_le positive.le
        rw [Store.list_positive _ _ _ (by omega), Store.list_positive _ _ _ (by omega)] at alike
        simp only [selected_restrict] at alike
        exact cutClean_of_looksAlike sorted (by omega) alike
    · split
      · next zero =>
          subst zero
          rw [Store.list_zero, Store.list_zero, selected_restrict] at alike
          intro nonempty
          rw [if_neg nonempty] at alike
          by_contra unreadable
          rw [if_pos (by simpa using unreadable)] at alike
          exact alike
      · rw [Store.list_negative _ _ _ (by omega), Store.list_negative _ _ _ (by omega)] at alike
        intro answers
        have answersReadable : ¬ (limit = -1 ∨ (state.restrict may).store.backend = .dsql) :=
          answers
        rw [if_neg answers, if_neg answersReadable] at alike
        simp only [selected_restrict] at alike
        exact dropClean_of_looksAlike sorted alike

/-- A listing that is not clean differs from the listing of the readable
files. -/
theorem shownPage_exposes (collate : Text → Text → Bool) (limit : Option Int) (dirty :
      ¬ TreeClean may shows state pathPrefix limit cursor grants) :
    shownPage collate state shows pathPrefix limit cursor grants ≠
      shownPage collate (state.restrict may) shows pathPrefix limit cursor grants := by
  intro same
  rw [shownPage_eq, shownPage_eq] at same
  have fewerMounts := length_mountsShown_restrict_le may state pathPrefix limit cursor grants
  have pageClean :
      PageClean may (shownPath shows grants) state.store.backend
        (state.store.selected pathPrefix cursor) limit := by
    apply pageClean_of_looksAlike
    cases isPage : state.store.list pathPrefix limit cursor with
    | none =>
      rw [isPage] at same
      cases isOther : (state.restrict may).store.list pathPrefix limit cursor with
      | none => trivial
      | some other =>
        rw [isOther] at same
        cases same
    | some page =>
      rw [isPage] at same
      cases isOther : (state.restrict may).store.list pathPrefix limit cursor with
      | none =>
        rw [isOther] at same
        cases same
      | some other =>
        rw [isOther] at same
        simp only [Option.map_some, Reply.answered.injEq, ListAnswer.tree.injEq] at same
        have lengths := congrArg List.length same.1
        simp only [length_sortEntries, List.length_append, pageShown] at lengths
        refine ⟨same.2, ?_⟩
        omega
  apply dirty
  refine ⟨pageClean, ?_⟩
  intro answers listed
  obtain ⟨page, isPage⟩ := Option.ne_none_iff_exists'.mp answers
  have samePages := pages_agree (agreeOn_restrict may state) pageClean
    (treeClean_restrict may shows state pathPrefix limit cursor grants).1
  rw [← samePages, isPage] at same
  simp only [Option.map_some, Reply.answered.injEq, ListAnswer.tree.injEq] at same
  have lengths := congrArg List.length same.1
  simp only [length_sortEntries, List.length_append] at lengths
  have whole :
      mountsShown state pathPrefix limit cursor grants = (state.mountEntries pathPrefix).filter
          (grantShows grants ·.path) :=
    if_pos listed
  have part :
      mountsShown (state.restrict may) pathPrefix limit cursor grants =
        ((state.mountEntries pathPrefix).filter (may ·.path)).filter (grantShows grants ·.path) :=
    if_pos listed
  rw [whole, part] at lengths
  apply shownClean_of_length_le
  omega

end

end Aprovan.Vfs
