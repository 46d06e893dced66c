import Aprovan.Vfs.CleanChanges

/-!
# Listings and what may be read

Two states of a workspace that agree on all the caller may read should get the
same answer.  The three handlers filter after they read a page, a snapshot or
the journal, so this holds only for states that are clean with respect to the
request.
-/

namespace Aprovan.Vfs

open Aprovan.Library Aprovan.Fs Aprovan.Apps
open Aprovan.Vcs (SnapshotEntry)

section

variable {may : Text → Bool} {first second state : ListingState}

/-- The snapshot lists nothing unreadable. -/
def CommitClean (may : Text → Bool) (commit : Commit) (pathPrefix : Text) : Prop :=
  ∀ entry ∈ commit.entries.filter (inListing pathPrefix ·.path), may entry.path = true

/-- What the answer of `vfs.list` is read from is clean. -/
def ListClean (may : Text → Bool) (ctx : ServiceContext) (state : ListingState) (args : ListArgs) :
    Prop :=
  match stagedSession ctx state args.session with
  | .error _ => True
  | .ok (some session) =>
    ∀ pathPrefix, listPrefix args.pathPrefix = some pathPrefix →
      SessionClean may session pathPrefix
  | .ok none =>
    if args.commit ≠ [] then
      ctx.appScope = none → ∀ commit pathPrefix, state.commits args.commit = .ok commit →
        listPrefix args.pathPrefix = some pathPrefix →
        CommitClean may commit pathPrefix
    else
      match ctx.appScope with
      | some scope =>
        ∀ roots, appListRoots ctx scope state args.pathPrefix = .ok roots →
          ∀ root ∈ roots, ∀ entry ∈ state.store.listAll root, may entry.path = true
      | none =>
        ∀ pathPrefix, listPrefix args.pathPrefix = some pathPrefix →
          ¬ (pathPrefix ≠ [] ∧ isServicePath pathPrefix = true) →
          ¬ (args.cursor ≠ [] ∧ args.limit = none) →
          TreeClean may (listedTo ctx.userId) state pathPrefix
            (args.limit.map (min · 10000)) args.cursor ctx.grants

theorem filter_commit_commute (entries : List SnapshotEntry) (pathPrefix : Text) :
    (entries.filter (may ·.path)).filter (inListing pathPrefix ·.path) =
      (entries.filter (inListing pathPrefix ·.path)).filter (may ·.path) := by
  rw [List.filter_filter, List.filter_filter]
  apply List.filter_congr
  intro entry _
  exact Bool.and_comm _ _

variable {ctx : ServiceContext} {args : ListArgs}

theorem listCommit_agree (agree : AgreeOn may first second)
    (cleanFirst : ctx.appScope = none → ∀ commit pathPrefix,
      first.commits args.commit = .ok commit → listPrefix args.pathPrefix = some pathPrefix →
      CommitClean may commit pathPrefix) (cleanSecond : ctx.appScope = none → ∀ commit pathPrefix,
      second.commits args.commit = .ok commit → listPrefix args.pathPrefix = some pathPrefix →
      CommitClean may commit pathPrefix) :
    listCommit ctx first args = listCommit ctx second args := by
  unfold listCommit
  cases scope : ctx.appScope with
  | some app => simp only [requireWorkspaceCaller, scope]
  | none =>
    simp only [requireWorkspaceCaller, scope]
    have same := agree.commits args.commit
    rcases one : first.commits args.commit with thrown | commit <;>
      rcases two : second.commits args.commit with other | commit'
    · rw [one, two] at same
      cases same
      rfl
    · rw [one, two] at same
      cases same
    · rw [one, two] at same
      cases same
    · rw [one, two] at same
      have restricted : commit.restrict may = commit'.restrict may := Except.ok.inj same
      obtain ⟨sameId, sameEntries⟩ := Commit.mk.inj restricted
      cases named : listPrefix args.pathPrefix with
      | none => rfl
      | some pathPrefix =>
        have firstAll := cleanFirst scope commit pathPrefix one named
        have secondAll := cleanSecond scope commit' pathPrefix two named
        have listed :
            commit.entries.filter (inListing pathPrefix ·.path) = commit'.entries.filter
                (inListing pathPrefix ·.path) := by
          rw [← List.filter_eq_self.mpr firstAll, ← List.filter_eq_self.mpr secondAll,
            ← filter_commit_commute, ← filter_commit_commute,
            sameEntries]
        simp only [sameId, listed]

theorem appListRoots_agree (agree : AgreeOn may first second) (ctx : ServiceContext)
    (scope : AppPaths) (raw : Text) :
    appListRoots ctx scope first raw = appListRoots ctx scope second raw := by
  rw [appListRoots, appListRoots, agree.shares]

/-- Clean agreeing states get the same answer of `vfs.list`. -/
theorem vfsList_agree (collate : Text → Text → Bool) (agree : AgreeOn may first second)
    (cleanFirst : ListClean may ctx first args) (cleanSecond : ListClean may ctx second args) :
    vfsList collate ctx first args = vfsList collate ctx second args := by
  unfold ListClean at cleanFirst cleanSecond
  unfold vfsList
  rcases session_cases (stagedSession_agree agree ctx args.session) with
    ⟨thrown, one, two⟩ | ⟨one, two⟩ | ⟨session, other, one, two, same⟩
  · rw [one, two]
  · rw [one] at cleanFirst ⊢
    rw [two] at cleanSecond ⊢
    simp only at cleanFirst cleanSecond ⊢
    by_cases committed : args.commit ≠ []
    · rw [if_pos committed] at cleanFirst cleanSecond ⊢
      rw [if_pos committed]
      exact listCommit_agree agree cleanFirst cleanSecond
    · rw [if_neg committed] at cleanFirst cleanSecond ⊢
      rw [if_neg committed]
      cases scope : ctx.appScope with
      | some app =>
        simp only [scope] at cleanFirst cleanSecond ⊢
        unfold listApp
        rw [← appListRoots_agree agree] at cleanSecond ⊢
        cases named : appListRoots ctx app first args.pathPrefix with
        | error thrown => rfl
        | ok roots =>
          have sameRoots :
              roots.flatMap first.store.listAll = roots.flatMap second.store.listAll := by
            apply List.flatMap_congr
            intro root member
            have readable := selected_agree agree root []
            unfold Store.listAll at cleanFirst cleanSecond ⊢
            rw [List.filter_eq_self.mpr (cleanFirst roots named root member),
              List.filter_eq_self.mpr (cleanSecond roots named root member)] at readable
            exact readable
          simp only [sameRoots]
      | none =>
        simp only [scope] at cleanFirst cleanSecond ⊢
        unfold listTree
        cases named : listPrefix args.pathPrefix with
        | none => rfl
        | some pathPrefix =>
          simp only
          split
          · rfl
          · next notService =>
              split
              · rfl
              · next paged =>
                  have pages : ¬ (args.cursor ≠ [] ∧ args.limit = none) := by
                    intro bad
                    exact paged ⟨bad.1, by simp [bad.2]⟩
                  exact shownPage_agree collate _ agree
                    (cleanFirst pathPrefix named notService pages)
                    (cleanSecond pathPrefix named notService pages)
  · rw [one] at cleanFirst ⊢
    rw [two] at cleanSecond ⊢
    simp only at cleanFirst cleanSecond ⊢
    rw [← listSession_restrict_of_clean collate cleanFirst,
      ← listSession_restrict_of_clean collate cleanSecond, same]

/-- The readable part of a state is clean for every request. -/
theorem listClean_restrict (ctx : ServiceContext) (args : ListArgs) :
    ListClean may ctx (state.restrict may) args := by
  unfold ListClean
  rw [stagedSession_restrict]
  rcases stagedSession ctx state args.session with thrown | staged
  · trivial
  · cases staged with
    | some session =>
      intro pathPrefix _
      exact sessionClean_restrict session pathPrefix
    | none =>
      simp only [Except.map, Option.map_none]
      split
      · intro _ commit pathPrefix found _ entry member
        simp only [ListingState.restrict] at found
        cases original : state.commits args.commit with
        | error thrown =>
          rw [original] at found
          cases found
        | ok whole =>
          rw [original] at found
          cases found
          have kept := (List.mem_filter.mp member).1
          exact (List.mem_filter.mp kept).2
      · split
        · intro roots _ root _ entry member
          unfold Store.listAll at member
          rw [selected_restrict] at member
          exact (List.mem_filter.mp member).2
        · intro pathPrefix _ _ _
          exact treeClean_restrict may _ state _ _ _ _

theorem listCommit_exposes (dirty : ¬ (ctx.appScope = none → ∀ commit pathPrefix,
      state.commits args.commit = .ok commit → listPrefix args.pathPrefix = some pathPrefix →
      CommitClean may commit pathPrefix)) :
    listCommit ctx state args ≠ listCommit ctx (state.restrict may) args := by
  unfold CommitClean at dirty
  simp only [not_forall] at dirty
  obtain ⟨scope, commit, pathPrefix, found, named, entry, member, unreadable⟩ := dirty
  have restricted : (state.restrict may).commits args.commit = .ok (commit.restrict may) := by
    simp [ListingState.restrict, found, Except.map]
  have shorter :
      ((commit.entries.filter (inListing pathPrefix ·.path)).filter (may ·.path)).length <
        (commit.entries.filter (inListing pathPrefix ·.path)).length := by
    rw [List.length_filter_lt_length_iff_exists]
    exact ⟨entry, member, unreadable⟩
  intro same
  simp only [listCommit, requireWorkspaceCaller, scope, found, restricted,
    named, Reply.answered.injEq, ListAnswer.commit.injEq] at same
  have lengths := congrArg List.length same.2
  simp only [Commit.restrict, filter_commit_commute] at lengths
  omega

theorem listApp_exposes {scope : AppPaths} (dirty : ¬ ∀ roots,
      appListRoots ctx scope state args.pathPrefix = .ok roots →
      ∀ root ∈ roots, ∀ entry ∈ state.store.listAll root, may entry.path = true) :
    listApp ctx scope state args ≠ listApp ctx scope (state.restrict may) args := by
  simp only [not_forall] at dirty
  obtain ⟨roots, named, root, isRoot, entry, member, unreadable⟩ := dirty
  have namedRestricted :
      appListRoots ctx scope (state.restrict may) args.pathPrefix = .ok roots := by
    rw [← named]
    exact (appListRoots_agree (agreeOn_restrict may state) ctx scope _).symm
  have restricted :
      roots.flatMap (state.restrict may).store.listAll =
        (roots.flatMap state.store.listAll).filter (may ·.path) := by
    rw [List.filter_flatMap]
    apply List.flatMap_congr
    intro other _
    exact selected_restrict may state other []
  intro same
  simp only [listApp, named, namedRestricted, restricted,
    Reply.answered.injEq, ListAnswer.tree.injEq, and_true] at same
  have all := List.filter_eq_self.mp same.symm
  exact unreadable (all entry (List.mem_flatMap.mpr ⟨root, isRoot, member⟩))

theorem listTree_exposes (collate : Text → Text → Bool) {ctx : ServiceContext} {args : ListArgs}
    (dirty : ¬ ∀ pathPrefix, listPrefix args.pathPrefix = some pathPrefix →
      ¬ (pathPrefix ≠ [] ∧ isServicePath pathPrefix = true) →
      ¬ (args.cursor ≠ [] ∧ args.limit = none) →
      TreeClean may (listedTo ctx.userId) state pathPrefix
        (args.limit.map (min · 10000)) args.cursor ctx.grants) :
    listTree collate ctx state args ≠ listTree collate ctx (state.restrict may) args := by
  simp only [not_forall] at dirty
  obtain ⟨pathPrefix, named, notService, paged, dirty⟩ := dirty
  have pages : ¬ (args.cursor ≠ [] ∧ args.limit.map (min · 10000) = none) := by simpa using paged
  unfold listTree
  simp only [named]
  rw [if_neg notService, if_neg pages, if_neg notService, if_neg pages]
  exact shownPage_exposes collate _ dirty

/-- A request that reads something unclean is answered differently from the
readable part of the state. -/
theorem vfsList_exposes (collate : Text → Text → Bool) (dirty : ¬ ListClean may ctx state args) :
    vfsList collate ctx state args ≠ vfsList collate ctx (state.restrict may) args := by
  unfold ListClean at dirty
  unfold vfsList
  rw [stagedSession_restrict]
  rcases staged : stagedSession ctx state args.session with
    thrown | session
  · rw [staged] at dirty
    exact absurd trivial dirty
  · rw [staged] at dirty
    cases session with
    | some session => exact listSession_exposes collate dirty
    | none =>
      simp only [Except.map, Option.map_none] at dirty ⊢
      by_cases committed : args.commit ≠ []
      · rw [if_pos committed] at dirty
        rw [if_pos committed, if_pos committed]
        exact listCommit_exposes dirty
      · rw [if_neg committed] at dirty
        rw [if_neg committed, if_neg committed]
        cases scope : ctx.appScope with
        | some app =>
          simp only [scope] at dirty
          exact listApp_exposes dirty
        | none =>
          simp only [scope] at dirty
          exact listTree_exposes collate dirty

end

section

variable {may : Text → Bool} {first second state : ListingState}

/-- What `GET /fs` is read from is clean. -/
def RouteClean (may : Text → Bool) (sub : Text) (state : ListingState) (args : RouteListArgs) :
    Prop :=
  ∀ pathPrefix, listPrefix args.pathPrefix = some pathPrefix →
    ¬ (pathPrefix ≠ [] ∧ isServicePath pathPrefix = true) →
    args.limit ≠ some none →
    ¬ (args.cursor ≠ [] ∧ args.limit.join = none) →
    match stagedSessionParam state args.session with
    | .error _ => True
    | .ok (some session) => SessionClean may session pathPrefix
    | .ok none =>
      TreeClean may (listedTo sub) state pathPrefix
        (args.limit.join.map fun bound => (bound.val : Int)) args.cursor
        none

theorem listRoute_agree (collate : Text → Text → Bool) {sub : Text} {args : RouteListArgs}
    (agree : AgreeOn may first second) (cleanFirst : RouteClean may sub first args)
    (cleanSecond : RouteClean may sub second args) :
    listRoute collate sub first args = listRoute collate sub second args := by
  unfold listRoute
  cases named : listPrefix args.pathPrefix with
  | none => rfl
  | some pathPrefix =>
    simp only
    by_cases service : pathPrefix ≠ [] ∧ isServicePath pathPrefix = true
    · rw [if_pos service, if_pos service]
    rw [if_neg service, if_neg service]
    by_cases invalid : args.limit = some none
    · rw [if_pos invalid, if_pos invalid]
    rw [if_neg invalid, if_neg invalid]
    by_cases paged : args.cursor ≠ [] ∧ args.limit.join = none
    · have refusedPage : args.cursor ≠ [] ∧
          args.limit.join.map (fun bound => (bound.val : Int)) = none := by
        simpa using paged
      rw [if_pos refusedPage, if_pos refusedPage]
    have allowedPage : ¬ (args.cursor ≠ [] ∧
        args.limit.join.map (fun bound => (bound.val : Int)) = none) := by
      simpa using paged
    rw [if_neg allowedPage, if_neg allowedPage]
    have firstClean := cleanFirst pathPrefix named service invalid paged
    have secondClean := cleanSecond pathPrefix named service invalid paged
    rcases session_cases (stagedSessionParam_agree agree args.session) with
      ⟨thrown, one, two⟩ | ⟨one, two⟩ | ⟨session, other, one, two, same⟩
    · rw [one, two]
    · rw [one] at firstClean ⊢
      rw [two] at secondClean ⊢
      exact shownPage_agree collate _ agree firstClean secondClean
    · rw [one] at firstClean ⊢
      rw [two] at secondClean ⊢
      simp only
      have onlyPrefix : ∀ session, SessionClean may session pathPrefix →
          ∀ raw, listPrefix args.pathPrefix = some raw → SessionClean may session raw := by
        intro session clean raw isRaw
        rw [named] at isRaw
        cases isRaw
        exact clean
      rw [← listSession_restrict_of_clean collate (onlyPrefix session firstClean),
        ← listSession_restrict_of_clean collate (onlyPrefix other secondClean),
        same]

theorem routeClean_restrict (sub : Text) (args : RouteListArgs) :
    RouteClean may sub (state.restrict may) args := by
  intro pathPrefix _ _ _ _
  rw [stagedSessionParam_restrict]
  rcases stagedSessionParam state args.session with thrown | session
  · trivial
  · cases session with
    | some session => exact sessionClean_restrict session pathPrefix
    | none => exact treeClean_restrict may _ state _ _ _ _

theorem listRoute_exposes (collate : Text → Text → Bool) {sub : Text} {args : RouteListArgs}
    (dirty : ¬ RouteClean may sub state args) :
    listRoute collate sub state args ≠ listRoute collate sub (state.restrict may) args := by
  unfold RouteClean at dirty
  simp only [not_forall] at dirty
  obtain ⟨pathPrefix, named, service, invalid, paged, dirty⟩ := dirty
  have allowedPage : ¬ (args.cursor ≠ [] ∧
      args.limit.join.map (fun bound => (bound.val : Int)) = none) := by
    simpa using paged
  unfold listRoute
  simp only [named]
  rw [if_neg service, if_neg invalid, if_neg allowedPage, if_neg service,
    if_neg invalid, if_neg allowedPage, stagedSessionParam_restrict]
  rcases found : stagedSessionParam state args.session with
    thrown | session
  · rw [found] at dirty
    exact absurd trivial dirty
  · rw [found] at dirty
    cases session with
    | some session =>
      apply listSession_exposes collate
      intro clean
      exact dirty (clean pathPrefix named)
    | none => exact shownPage_exposes collate _ dirty

end

/-- The answer tells the caller nothing beyond what may be read: every clean
state that agrees on that gives the same answer. -/
def Private {Answer : Type} (may : Text → Bool) (clean : ListingState → Prop)
    (reply : ListingState → Answer) (state : ListingState) : Prop :=
  ∀ other, AgreeOn may state other → clean other → reply other = reply state

/-- The same of a poll, where the other state numbers its mutations
differently. -/
def PrivatePoll (may : Text → Bool) (collate : Text → Text → Bool)
    (sub : Text) (state : ListingState) (args : ChangesArgs) : Prop :=
  ∀ other otherArgs, AgreeOn may state other → SamePoll may state other args otherArgs →
    PollClean may sub other otherArgs → changesRoute collate sub other otherArgs =
        changesRoute collate sub state args

theorem private_iff {Answer : Type} {may : Text → Bool} {clean : ListingState → Prop}
    {reply : ListingState → Answer} {state : ListingState}
    (agrees : ∀ other, AgreeOn may state other → clean state →
      clean other → reply state = reply other)
    (exposes : ¬ clean state → reply state ≠ reply (state.restrict may))
    (restricted : clean (state.restrict may)) :
    Private may clean reply state ↔ clean state := by
  constructor
  · intro secret
    by_contra dirty
    exact exposes dirty (secret _ (agreeOn_restrict may state) restricted).symm
  · intro cleanState other agree cleanOther
    exact (agrees other agree cleanState cleanOther).symm

/-- Listings of a caller reveal nothing that reading denies, exactly for the
states that are clean with respect to the request. -/
theorem listings_private_iff (collate : Text → Text → Bool) (ctx : ServiceContext) (sub : Text)
    (state : ListingState) (listArgs : ListArgs)
    (routeArgs : RouteListArgs) (pollArgs : ChangesArgs) :
    let may := mayRead ctx state.toWorkspace
    let mayHttp := mayRead (member sub none) state.toWorkspace
    (Private may (ListClean may ctx · listArgs) (vfsList collate ctx · listArgs) state ↔
      ListClean may ctx state listArgs) ∧
    (Private mayHttp (RouteClean mayHttp sub · routeArgs)
        (listRoute collate sub · routeArgs) state ↔
      RouteClean mayHttp sub state routeArgs) ∧
    (PrivatePoll mayHttp collate sub state pollArgs ↔ PollClean mayHttp sub state pollArgs) := by
  intro may mayHttp
  refine ⟨?_, ?_, ?_⟩
  · apply private_iff
    · exact fun other agree clean cleanOther => vfsList_agree collate agree clean cleanOther
    · exact vfsList_exposes collate
    · exact listClean_restrict ctx listArgs
  · apply private_iff
    · exact fun other agree clean cleanOther => listRoute_agree collate agree clean cleanOther
    · exact listRoute_exposes collate
    · exact routeClean_restrict sub routeArgs
  · constructor
    · intro secret
      by_contra dirty
      exact changesRoute_exposes collate dirty (secret _ _ (agreeOn_restrict mayHttp state)
          (samePoll_readable state pollArgs)
          (pollClean_readable sub pollArgs)).symm
    · intro clean other otherArgs agree samePoll cleanOther
      exact (changesRoute_agree collate agree samePoll clean cleanOther).symm

/-! A private file on the page, and one in the journal. -/

def byLetters (first second : Text) : Bool :=
  first ≤ second

/-- The workspace with ann's diary, which was just written. -/
def annsLibrary : ListingState where
  toWorkspace := annsWorkspace
  sessions := fun _ => none
  commits := fun name => .error (unknownSession name)
  mountEntries := fun _ => []
  history := [{ change := { path := annsDiary, kind := .update }, scope := [] }]

def bobsLibrary : ListingState where
  toWorkspace := { annsWorkspace with
    store := {
      backend := .sqlite
      rows := [exampleRow lockedPlan]
      keys := by decide } }
  sessions := fun _ => none
  commits := fun name => .error (unknownSession name)
  mountEntries := fun _ => []
  history := []

theorem diary_unreadable : mayRead bob annsWorkspace annsDiary = false := by
  rw [Bool.eq_false_iff, ne_eq, mayRead_eq_true_iff]
  rintro ⟨value, passes⟩
  have guarded := (readPath_eq_ok_iff.mp passes).2.2
  exact absurd guarded (by decide +kernel)

/-- Bob may not read ann's diary, and yet its path is the cursor of his
listings and a change in his feed. -/
theorem listings_not_private : let may := mayRead bob annsLibrary.toWorkspace
    let listArgs : ListArgs := {
      pathPrefix := []
      commit := []
      session := none
      limit := some 1
      cursor := [] }
    let routeArgs : RouteListArgs := {
      pathPrefix := []
      session := []
      limit := some (some ⟨1, by decide⟩)
      cursor := [] }
    let pollArgs : ChangesArgs := {
      ifNoneMatch := none
      session := []
      since := some 0 }
    AgreeOn may annsLibrary bobsLibrary ∧ SamePoll may annsLibrary bobsLibrary pollArgs pollArgs ∧
      vfsList byLetters bob annsLibrary listArgs ≠ vfsList byLetters bob bobsLibrary listArgs ∧
      listRoute byLetters bob.userId annsLibrary routeArgs ≠
        listRoute byLetters bob.userId bobsLibrary routeArgs ∧
      changesRoute byLetters bob.userId annsLibrary pollArgs ≠
        changesRoute byLetters bob.userId bobsLibrary pollArgs := by
  have unreadable : mayRead bob annsLibrary.toWorkspace annsDiary = false := diary_unreadable
  refine ⟨?_, ?_, ?_, ?_, ?_⟩
  · constructor
    · rfl
    · intro path readable
      have different : annsDiary ≠ path := by
        rintro rfl
        rw [unreadable] at readable
        cases readable
      have dropped : (exampleRow annsDiary).path ≠ path := different
      simp [annsLibrary, bobsLibrary, annsWorkspace, dropped]
    · rfl
    · rfl
    · rfl
    · intro pathPrefix
      rfl
    · intro id
      rfl
    · intro name
      rfl
    · simp [annsLibrary, bobsLibrary, diary_unreadable]
  · constructor
    · trivial
    · rfl
    · refine ⟨by simp [Issued, annsLibrary, bobsLibrary], ?_⟩
      intro _
      simp [ListingState.after, annsLibrary, bobsLibrary, diary_unreadable]
  · decide +kernel
  · decide +kernel
  · decide +kernel

end Aprovan.Vfs
