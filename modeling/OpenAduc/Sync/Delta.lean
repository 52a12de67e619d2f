import OpenAduc.Lib.Transition
import OpenAduc.Sync.Runs

namespace OpenAduc.Sync.Delta

/-- A record of `user_cache_records` or `group_cache_records`; `asOf` is the last
change of the entry that it shows. -/
structure CacheRecord where
  objectGuid : String
  asOf : Int
  deriving DecidableEq, Repr

/-- An entry the directory's search yields, and whether caching it goes through. -/
structure Found where
  objectGuid : String
  asOf : Int
  upserts : Bool
  deriving DecidableEq, Repr

/-- `upsertUser` and `upsertGroup`: `INSERT … ON CONFLICT DO UPDATE`. -/
def upsert (cache : List CacheRecord) (x : Found) : List CacheRecord :=
  if cache.any (·.objectGuid == x.objectGuid) then
    Table.update (fun y => y.objectGuid = x.objectGuid) (fun y => { y with asOf := x.asOf }) cache
  else cache ++ [{ objectGuid := x.objectGuid, asOf := x.asOf }]

/-- One entry of the search; an upsert that fails is logged and passed over. -/
def cacheFound (cache : List CacheRecord) (x : Found) : List CacheRecord :=
  if x.upserts then upsert cache x else cache

/-- What the calls of a run are answered. -/
structure Answers where
  found : List Found
  /-- The search, or what is built for it, fails once it has yielded these. -/
  searchThrows : Bool
  /-- Reading a changed group's members again fails. -/
  refreshThrows : Bool
  returnedAt : Int
  deriving DecidableEq, Repr

def Answers.changed (a : Answers) : Nat :=
  a.found.countP (·.upserts)

def Answers.result (a : Answers) : RunnerResult where
  cursor := some (some a.returnedAt)
  triggers := if 0 < a.changed then [.membershipsRebuild] else []

def runUsersDelta (a : Answers) (cache : List CacheRecord) : List CacheRecord × Except String RunnerResult :=
  (a.found.foldl cacheFound cache, if a.searchThrows then .error "user search failed" else .ok a.result)

/-- The group cache after a run; the members it reads again go to the users'. -/
def runGroupsDelta (since : Option Int) (a : Answers) (cache : List CacheRecord) :
    List CacheRecord × Except String RunnerResult :=
  (a.found.foldl cacheFound cache,
    if a.searchThrows then .error "group search failed"
    else if since.isSome && decide (0 < a.changed) && a.refreshThrows then .error "group member search failed"
    else .ok a.result)

/-- The two delta tasks, of one shape. -/
inductive Kind
  | users
  | groups
  deriving DecidableEq, Repr

def Kind.taskKey : Kind → SyncTaskKey
  | .users => .usersDelta
  | .groups => .groupsDelta

def Kind.run : Kind → Option Int → Answers → List CacheRecord → List CacheRecord × Except String RunnerResult
  | .users, _, a, cache => runUsersDelta a cache
  | .groups, since, a, cache => runGroupsDelta since a cache

/-- The directory's tables and one of its caches between runs of the task; the
last run began at `startedAt` and ended at `now`. -/
structure State where
  tables : SyncTasks
  cache : List CacheRecord
  startedAt : Int
  now : Int
  deriving DecidableEq, Repr

structure DeltaRun where
  trigger : Trigger
  startedAt : Int
  searchedAt : Int
  answers : Answers
  finishedAt : Int
  closing : Closing
  deriving DecidableEq, Repr

/-- Entries change at these times, by the directory's clock. -/
abbrev Changes := String → Int → Prop

namespace State
variable (s : State) (kind : Kind) (providerId : Nat) (changes : Changes) (r : DeltaRun)

/-- How far back the next run of the task will ask: 5 minutes before the last success began. -/
def nextBound : Option Int :=
  lowerBound (s.tables.lastSuccessfulStartAt providerId kind.taskKey)

/-- How far back this run asks, once it is marked as started. -/
def askedBound : Option Int :=
  lowerBound
    ((s.tables.markStarted providerId kind.taskKey r.trigger r.startedAt).lastSuccessfulStartAt providerId
    kind.taskKey)

def ran : List CacheRecord × Except String RunnerResult :=
  kind.run (s.askedBound kind providerId r) r.answers s.cache

def record : RunRecord where
  trigger := r.trigger
  startedAt := r.startedAt
  result := (s.ran kind providerId r).2
  finishedAt := r.finishedAt
  closing := r.closing

def after : State where
  tables := s.tables.afterRun providerId kind.taskKey (s.record kind providerId r)
  cache := (s.ran kind providerId r).1
  startedAt := r.startedAt
  now := r.finishedAt

/-- The cache has the entry as of this change or later. -/
def Shows (objectGuid : String) (time : Int) : Prop :=
  ∃ y ∈ s.cache, y.objectGuid = objectGuid ∧ time ≤ y.asOf

/-- A run after the last one's end, its own times in order. -/
def Follows : Prop :=
  s.startedAt ≤ r.startedAt ∧ s.now ≤ r.startedAt ∧ r.startedAt ≤ r.searchedAt ∧ r.searchedAt ≤ r.finishedAt

/-- What the search yields shows every change made more than the overlap before
it, and it yields every entry with such a change that the filter lets through. -/
def Serves : Prop :=
  (∀ x ∈ r.answers.found, ∀ time, changes x.objectGuid time → time + overlap ≤ r.searchedAt → time ≤ x.asOf) ∧
    (r.answers.searchThrows = false → ∀ objectGuid time, changes objectGuid time →
      time + overlap ≤ r.searchedAt →
      Within (s.askedBound kind providerId r) time → ∃ x ∈ r.answers.found, x.objectGuid = objectGuid)

/-- A run whose success is recorded caches every entry it finds, apart from those
the cache shows as new already and those changed since 5 minutes before it began. -/
def Sound : Prop :=
  r.closing ≠ .written ∨ r.answers.searchThrows = true ∨
    (kind = .groups ∧ r.answers.refreshThrows = true ∧ s.askedBound kind providerId r ≠ none ∧
      0 < r.answers.changed) ∨
    ∀ x ∈ r.answers.found, x.upserts = false → s.Shows x.objectGuid x.asOf ∨
      ∃ time, changes x.objectGuid time ∧ r.startedAt - overlap ≤ time ∧ time ≤ r.finishedAt

/-- Every entry changed before the last run began is in the cache as of that
change or later, or has been changed, then or since, within what the next run asks for. -/
def Covered : Prop :=
  ∀ objectGuid time, changes objectGuid time → time < s.startedAt →
    s.Shows objectGuid time ∨
      ∃ again, changes objectGuid again ∧ time ≤ again ∧ again ≤ s.now ∧
        Within (s.nextBound kind providerId) again

end State

/-- A delta task of a directory that has never run it. -/
def system (kind : Kind) (providerId : Nat) : Transition.System State DeltaRun where
  init s := s.tables.Settled providerId kind.taskKey s.startedAt ∧
    s.tables.lastSuccessfulStartAt providerId kind.taskKey = none ∧ s.startedAt ≤ s.now
  step s r := some (s.after kind providerId r)

/-- A cache with the entry as of this change or later. -/
def Has (cache : List CacheRecord) (objectGuid : String) (time : Int) : Prop :=
  ∃ y ∈ cache, y.objectGuid = objectGuid ∧ time ≤ y.asOf

theorem has_upsert {cache : List CacheRecord} {x : Found} {time : Int} (shows : time ≤ x.asOf) :
    Has (upsert cache x) x.objectGuid time := by
  unfold upsert
  by_cases there : (cache.any (·.objectGuid == x.objectGuid)) = true
  · obtain ⟨y, member, same⟩ := List.any_eq_true.mp there
    have same : y.objectGuid = x.objectGuid := by simpa using same
    rw [if_pos there]
    exact ⟨_, Table.mem_update.mpr ⟨y, member, if_pos same⟩, same, shows⟩
  · rw [if_neg there]
    exact ⟨_, List.mem_append_right _ List.mem_cons_self, rfl, shows⟩

/-- What the cache has of an entry stays, unless an older version of it is found. -/
theorem Has.upsert {cache : List CacheRecord} {objectGuid : String} {time : Int}
    (has : Has cache objectGuid time)
    {x : Found} (noOlder : x.objectGuid = objectGuid → time ≤ x.asOf) :
    Has (upsert cache x) objectGuid time := by
  by_cases same : x.objectGuid = objectGuid
  · subst same
    exact has_upsert (noOlder rfl)
  · obtain ⟨y, member, its, shows⟩ := has
    have other : ¬y.objectGuid = x.objectGuid := fun equal => same (equal.symm.trans its)
    unfold Delta.upsert
    split
    · exact ⟨y, Table.mem_update.mpr ⟨y, member, if_neg other⟩, its, shows⟩
    · exact ⟨y, List.mem_append_left _ member, its, shows⟩

theorem Has.cacheFound {cache : List CacheRecord} {objectGuid : String} {time : Int}
    (has : Has cache objectGuid time)
    {x : Found} (noOlder : x.objectGuid = objectGuid → time ≤ x.asOf) :
    Has (cacheFound cache x) objectGuid time := by
  unfold Delta.cacheFound
  split
  · exact has.upsert noOlder
  · exact has

theorem Has.foldl {cache : List CacheRecord} {objectGuid : String} {time : Int}
    (has : Has cache objectGuid time)
    {found : List Found} (noOlder : ∀ x ∈ found, x.objectGuid = objectGuid → time ≤ x.asOf) :
    Has (found.foldl Delta.cacheFound cache) objectGuid time := by
  induction found generalizing cache with
  | nil => exact has
  | cons x found ih =>
    have kept := has.cacheFound (noOlder x List.mem_cons_self)
    exact ih kept fun y member => noOlder y (List.mem_cons_of_mem _ member)

/-- An entry the search found and the cache took is there as of what was found. -/
theorem has_of_found {cache : List CacheRecord} {found : List Found} {x : Found} {time : Int}
    (member : x ∈ found)
    (upserts : x.upserts = true) (noOlder : ∀ y ∈ found, y.objectGuid = x.objectGuid → time ≤ y.asOf) :
    Has (found.foldl cacheFound cache) x.objectGuid time := by
  induction found generalizing cache with
  | nil => cases member
  | cons y found ih =>
    have later : ∀ z ∈ found, z.objectGuid = x.objectGuid → time ≤ z.asOf :=
      fun z inFound => noOlder z (List.mem_cons_of_mem _ inFound)
    obtain rfl | rest := List.mem_cons.mp member
    · have taken : Has (Delta.cacheFound cache x) x.objectGuid time := by
        rw [Delta.cacheFound, if_pos upserts]
        exact has_upsert (noOlder x List.mem_cons_self rfl)
      exact taken.foldl later
    · exact ih rest later

namespace State
variable {s : State} {kind : Kind} {providerId : Nat} {changes : Changes} {r : DeltaRun}

structure Inv (s : State) (kind : Kind) (providerId : Nat) (changes : Changes) : Prop where
  settled : s.tables.Settled providerId kind.taskKey s.startedAt
  ordered : s.startedAt ≤ s.now
  covered : s.Covered kind providerId changes

theorem ran_cache : (s.ran kind providerId r).1 = r.answers.found.foldl cacheFound s.cache := by
  cases kind <;> rfl

theorem before_run (inv : s.Inv kind providerId changes) (follows : s.Follows r) :
    ∀ t ∈ s.tables.lastSuccessfulStartAt providerId kind.taskKey, t ≤ r.startedAt := by
  intro t is
  have started := inv.settled.started t is
  have later := follows.1
  omega

/-- Marking the run as started changes nothing it asks from. -/
theorem askedBound_eq (inv : s.Inv kind providerId changes) (follows : s.Follows r) :
    s.askedBound kind providerId r = s.nextBound kind providerId := by
  let opened : RunRecord :=
    { trigger := r.trigger, startedAt := r.startedAt, result := .error "",
      finishedAt := r.startedAt, closing := .unwritten }
  have cases := SyncTasks.lastSuccessfulStartAt_afterRun inv.settled.fresh opened (before_run inv follows)
  exact congrArg lowerBound (cases.2 fun recorded => by cases recorded.1)

/-- A change made since the last run began is within what is asked for next. -/
theorem within_of_since (inv : s.Inv kind providerId changes) {time : Int}
    (since : s.startedAt - overlap ≤ time) :
    Within (s.nextBound kind providerId) time := by
  intro b is
  obtain ⟨t, last, rfl⟩ := Option.map_eq_some_iff.mp is
  have started := inv.settled.started t last
  omega

/-- What an earlier run left of a change: shown, or to be asked for. -/
theorem covered_before (inv : s.Inv kind providerId changes) {objectGuid : String} {time : Int}
    (changed : changes objectGuid time) (until' : time ≤ r.finishedAt) (follows : s.Follows r) :
    s.Shows objectGuid time ∨
      ∃ again, changes objectGuid again ∧ time ≤ again ∧ again ≤ r.finishedAt ∧
      Within (s.nextBound kind providerId) again := by
  obtain ⟨_, ended, started, searched⟩ := follows
  by_cases old : time < s.startedAt
  · obtain shows | ⟨again, changedAgain, after, seen, within⟩ := inv.covered objectGuid time changed old
    · exact .inl shows
    · exact .inr ⟨again, changedAgain, after, by omega, within⟩
  · exact .inr ⟨time, changed, Int.le_refl _, until', within_of_since inv (by unfold overlap; omega)⟩

/-- A run that leaves the next bound as it was loses nothing: what it caches is no older. -/
theorem covered_of_same (inv : s.Inv kind providerId changes) (follows : s.Follows r)
    (serves : s.Serves kind providerId changes r)
    (same : (s.after kind providerId r).nextBound kind providerId = s.nextBound kind providerId) :
    (s.after kind providerId r).Covered kind providerId changes := by
  have order := follows
  obtain ⟨later, ended, started, searched⟩ := order
  intro objectGuid time changed before
  have before : time < r.startedAt := before
  rw [same]
  obtain shows | again := covered_before inv changed (by omega : time ≤ r.finishedAt) follows
  · by_cases visible : time + overlap ≤ r.searchedAt
    · left
      have kept : Has (r.answers.found.foldl cacheFound s.cache) objectGuid time := by
        refine Has.foldl shows ?_
        intro x member its
        exact serves.1 x member time (its ▸ changed) visible
      have cached : (s.ran kind providerId r).1 = r.answers.found.foldl cacheFound s.cache := ran_cache
      rw [← cached] at kept
      exact kept
    · exact .inr ⟨time, changed, Int.le_refl _, (by omega : time ≤ r.finishedAt),
        within_of_since inv (by omega)⟩
  · exact .inr again

/-- A run that is recorded as a success leaves every change shown, or in its own last 5 minutes. -/
theorem covered_of_success (inv : s.Inv kind providerId changes) (follows : s.Follows r)
    (serves : s.Serves kind providerId changes r) (searched : r.answers.searchThrows = false)
    (recorded : (s.record kind providerId r).Recorded)
    (caches : ∀ x ∈ r.answers.found, x.upserts = false → s.Shows x.objectGuid x.asOf ∨
      ∃ time, changes x.objectGuid time ∧ r.startedAt - overlap ≤ time ∧ time ≤ r.finishedAt) :
    (s.after kind providerId r).Covered kind providerId changes := by
  have order := follows
  obtain ⟨later, ended, started, finished⟩ := order
  have last :=
    (SyncTasks.lastSuccessfulStartAt_afterRun inv.settled.fresh _ (before_run inv follows)).1 recorded
  have bound : (s.after kind providerId r).nextBound kind providerId = some (r.startedAt - overlap) :=
    congrArg lowerBound last
  intro objectGuid time changed before
  have before : time < r.startedAt := before
  rw [bound]
  by_cases recent : ∃ again, changes objectGuid again ∧ r.startedAt - overlap ≤ again ∧
    again ≤ r.finishedAt ∧ time ≤ again
  · obtain ⟨again, changedAgain, within, seen, after⟩ := recent
    refine .inr ⟨again, changedAgain, after, seen, ?_⟩
    intro b is
    cases is
    exact within
  · left
    have old : ∀ again, changes objectGuid again → time ≤ again → again ≤ r.finishedAt →
      again < r.startedAt - overlap := by
      intro again changedAgain after seen
      by_contra within
      exact recent ⟨again, changedAgain, by omega, seen, after⟩
    have longAgo := old time changed (Int.le_refl _) (by omega)
    have visible : time + overlap ≤ r.searchedAt := by omega
    have noOlder : ∀ x ∈ r.answers.found, x.objectGuid = objectGuid → time ≤ x.asOf := by
      intro x member its
      exact serves.1 x member time (its ▸ changed) visible
    have shownOf : s.Shows objectGuid time → Has (r.answers.found.foldl cacheFound s.cache) objectGuid time :=
      fun shows => Has.foldl shows noOlder
    have has : Has (r.answers.found.foldl cacheFound s.cache) objectGuid time := by
      obtain shows | ⟨again, changedAgain, after, seen, within⟩ :=
        covered_before inv changed (by omega : time ≤ r.finishedAt) follows
      · exact shownOf shows
      · rw [← askedBound_eq inv follows] at within
        have before := old again changedAgain after seen
        obtain ⟨x, member, rfl⟩ := serves.2 searched objectGuid again changedAgain (by omega) within
        by_cases upserts : x.upserts = true
        · exact has_of_found member upserts noOlder
        · obtain ⟨y, inCache, its, newer⟩ | ⟨since, changedSince, within', seen'⟩ :=
            caches x member (by simpa using upserts)
          · have upToDate := noOlder x member rfl
            exact shownOf ⟨y, inCache, its, by omega⟩
          · exact absurd ⟨since, changedSince, within', seen', by omega⟩ recent
    have cached : (s.ran kind providerId r).1 = r.answers.found.foldl cacheFound s.cache := ran_cache
    rw [← cached] at has
    exact has

/-- A run keeps the cache to what the cursor has seen. -/
theorem inv_after (inv : s.Inv kind providerId changes) (follows : s.Follows r)
    (serves : s.Serves kind providerId changes r) (sound : s.Sound kind providerId changes r) :
    (s.after kind providerId r).Inv kind providerId changes := by
  have order := follows
  obtain ⟨later, ended, started, finished⟩ := order
  have cases := SyncTasks.lastSuccessfulStartAt_afterRun inv.settled.fresh (s.record kind providerId r)
    (before_run inv follows)
  by_cases recorded : (s.record kind providerId r).Recorded
  · refine ⟨⟨SyncTasks.fresh_afterRun inv.settled.fresh _, ?_⟩, ?_, ?_⟩
    · intro t is
      have same : some r.startedAt = some t := (cases.1 recorded).symm.trans is
      cases same
      exact Int.le_refl _
    · show r.startedAt ≤ r.finishedAt
      omega
    · obtain ⟨closed, value, ok⟩ := recorded
      have result : (s.ran kind providerId r).2 = .ok value := ok
      have searched : r.answers.searchThrows = false := by
        by_contra throws
        have throws : r.answers.searchThrows = true := by simpa using throws
        cases kind <;> simp [ran, Kind.run, runUsersDelta, runGroupsDelta, throws] at result
      obtain unwritten | throws | ⟨rfl, refresh, asked, changed⟩ | caches := sound
      · exact absurd closed unwritten
      · rw [searched] at throws
        cases throws
      · have some : (s.askedBound .groups providerId r).isSome = true := Option.isSome_iff_ne_none.mpr asked
        simp [ran, Kind.run, runGroupsDelta, searched, refresh, some, changed] at result
      · exact covered_of_success inv follows serves searched ⟨closed, value, ok⟩ caches
  · have same := cases.2 recorded
    refine ⟨⟨SyncTasks.fresh_afterRun inv.settled.fresh _, ?_⟩, ?_, ?_⟩
    · intro t is
      exact before_run inv follows t (same.symm.trans is)
    · show r.startedAt ≤ r.finishedAt
      omega
    · exact covered_of_same inv follows serves (congrArg lowerBound same)

end State

/-- A delta sync loses no change in runs whose recorded successes cache what they find. -/
theorem delta_covered (kind : Kind) (providerId : Nat) (changes : Changes) {s : State}
    (reach : (system kind providerId).Reach (fun s r => s.Follows r ∧ s.Serves kind providerId changes r ∧
      s.Sound kind providerId changes r) s) : s.Covered kind providerId changes := by
  have inv : s.Inv kind providerId changes := by
    refine reach.invariant (P := fun s => s.Inv kind providerId changes) ?_ ?_
    · rintro s ⟨settled, never, ordered⟩
      refine ⟨settled, ordered, ?_⟩
      intro objectGuid time changed before
      refine .inr ⟨time, changed, Int.le_refl _, by omega, ?_⟩
      rw [State.nextBound, never]
      intro b is
      cases is
    · rintro s t r _ inv ⟨follows, serves, sound⟩ taken
      cases Option.some.inj taken
      exact State.inv_after inv follows serves sound
  exact inv.covered

/-- A directory whose users were never synced. -/
def unsynced : State where
  tables := { tasks := [.seeded 1 .usersDelta], runs := [], nextRun := 1 }
  cache := []
  startedAt := 0
  now := 0

theorem unsynced_init : (system .users 1).init unsynced := by
  refine ⟨⟨by simp [unsynced], ?_⟩, rfl, Int.le_refl _⟩
  intro t is
  have none : unsynced.tables.lastSuccessfulStartAt 1 Kind.users.taskKey = none := rfl
  rw [none] at is
  cases is

/-- A first run, a quarter of an hour in, that finds one user. -/
def findsOne (upserts : Bool) : DeltaRun where
  trigger := .cadence
  startedAt := 1000000
  searchedAt := 1000000
  answers :=
    { found := [{ objectGuid := "u", asOf := 5, upserts }]
      searchThrows := false
      refreshThrows := false
      returnedAt := 1000000 }
  finishedAt := 1000000
  closing := .written

/-- That user was changed once. -/
def once : Changes := fun objectGuid time => objectGuid = "u" ∧ time = 5

theorem follows_findsOne (upserts : Bool) : unsynced.Follows (findsOne upserts) :=
  ⟨(by decide : (0 : Int) ≤ 1000000), (by decide : (0 : Int) ≤ 1000000),
    (by decide : (1000000 : Int) ≤ 1000000),
    (by decide : (1000000 : Int) ≤ 1000000)⟩

theorem serves_findsOne (upserts : Bool) : unsynced.Serves .users 1 once (findsOne upserts) := by
  constructor
  · rintro x member time ⟨_, rfl⟩ _
    have only : x = { objectGuid := "u", asOf := 5, upserts } := by simpa [findsOne] using member
    subst only
    exact Int.le_refl _
  · rintro _ objectGuid time ⟨rfl, _⟩ _ _
    exact ⟨_, List.mem_cons_self, rfl⟩

theorem delta_covered_first : (unsynced.after .users 1 (findsOne true)).Covered .users 1 once := by
  refine delta_covered .users 1 once
    (.next (.start unsynced_init) ⟨follows_findsOne true, serves_findsOne true, .inr (.inr (.inr ?_))⟩ rfl)
  intro x member fails
  have only : x = { objectGuid := "u", asOf := 5, upserts := true } := by simpa [findsOne] using member
  subst only
  cases fails

/-- Where the one upsert fails, the user is neither cached nor asked for again. -/
theorem failed_upsert_lost :
    (system .users 1).Reach (fun s r => s.Follows r ∧ s.Serves .users 1 once r)
      (unsynced.after .users 1 (findsOne false)) ∧
      ¬(unsynced.after .users 1 (findsOne false)).Covered .users 1 once := by
  refine ⟨.next (.start unsynced_init) ⟨follows_findsOne false, serves_findsOne false⟩ rfl, ?_⟩
  intro covered
  obtain ⟨y, member, _⟩ | ⟨again, ⟨_, rfl⟩, _, _, within⟩ := covered "u" 5 ⟨rfl, rfl⟩ (by decide)
  · have empty : (unsynced.after .users 1 (findsOne false)).cache = [] := by decide
    rw [empty] at member
    cases member
  · have below : ¬Within ((unsynced.after .users 1 (findsOne false)).nextBound .users 1) 5 := by decide
    exact below within

end OpenAduc.Sync.Delta
