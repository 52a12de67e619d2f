import Mathlib.Data.List.Dedup
import OpenAduc.Naming.Text
import OpenAduc.Sync.Runs

namespace OpenAduc.Sync.FullCrawl
open Naming (Text text)

/-- A record of a cache, by `object_guid` or an OU's `distinguished_name`. -/
structure CacheRow where
  id : Text
  staleAt : Option Int
  deriving DecidableEq

/-- What an upsert throws: an error's message, or anything else. -/
abbrev Thrown := Option String

/-- An entry the directory returns, and what caching it throws. -/
structure Found where
  id : Text
  fault : Option Thrown
  deriving DecidableEq

/-- What a crawl's calls are answered. -/
structure Answers where
  found : List Found
  /-- The search fails once it has yielded these. -/
  searchThrows : Option String
  countThrows : Option String
  markThrows : Option String
  now : Int
  deriving DecidableEq

section Cache
variable (key : Text → Text)

/-- `INSERT … ON CONFLICT DO UPDATE`, on the key's unique index. -/
def upsert (cache : List CacheRow) (x : Found) : List CacheRow :=
  if cache.any (key ·.id = key x.id) then
    Table.update (fun r => key r.id = key x.id) (fun _ => ⟨x.id, none⟩) cache
  else cache ++ [⟨x.id, none⟩]

/-- One entry of the search; an upsert that fails is logged and passed over. -/
def cacheFound (cache : List CacheRow) (x : Found) : List CacheRow :=
  if x.fault.isNone then upsert key cache x else cache

/-- The cache once every entry was tried. -/
def crawled (a : Answers) (cache : List CacheRow) : List CacheRow := a.found.foldl (cacheFound key) cache

/-- `markUsersStale` and its like: every record not stale whose key wasn't seen, all of them where
nothing was. -/
def markStale (now : Int) (seen : List Text) (cache : List CacheRow) : List CacheRow :=
  Table.update (fun r => r.staleAt = none ∧ (seen = [] ∨ key r.id ∉ seen))
    (fun r => { r with staleAt := some now }) cache

end Cache

structure FullCrawlOutcome where
  kind : String
  /-- Entries the directory returned. -/
  found : Nat
  /-- Entries written to the cache. -/
  written : Nat
  lastError : Option Thrown

/-- Whether a full crawl's result can be trusted to mark unseen rows stale; it fails when the crawl
looks broken rather than empty. -/
def shouldMarkStale (countThrows : Option String) (cache : List CacheRow)
    (crawl : FullCrawlOutcome) : Except String Bool := do
  if 0 < crawl.found ∧ crawl.written = 0 then
    let message := crawl.lastError.join.getD ("every " ++ crawl.kind ++ " upsert failed")
    throw (crawl.kind ++ ".full: 0 of " ++ toString crawl.found ++ " entries written — " ++ message)
  if crawl.found = 0 then
    if let some e := countThrows then throw e
    let cached := cache.countP (·.staleAt = none)
    if 0 < cached then
      throw (crawl.kind ++ ".full: the directory returned no " ++ crawl.kind ++ ", but " ++ toString cached ++
        " are cached. Check that the service account can still list " ++ crawl.kind ++
        " under the base DN; the cache was left as it was.")
  return crawl.written = crawl.found

/-- The users', groups' and computers' crawl: what was written is seen, and unseen rows are marked
where that can be trusted. -/
def runObjectsFull (kind : String) (triggers : List SyncTaskKey) (a : Answers) (cache : List CacheRow) :
    List CacheRow × Except String RunnerResult :=
  let seen := ((a.found.filter (·.fault.isNone)).map (·.id)).dedup
  let lastError := (a.found.filterMap (·.fault)).getLast?
  let after := crawled id a cache
  let result : RunnerResult := { cursor := some (some a.now), triggers }
  match a.searchThrows with
  | some e => (after, .error e)
  | none =>
    match shouldMarkStale a.countThrows after
      { kind, found := a.found.length, written := seen.length, lastError } with
    | .error e => (after, .error e)
    | .ok false => (after, .ok result)
    | .ok true =>
      match a.markThrows with
      | some e => (after, .error e)
      | none => (markStale id a.now seen after, .ok result)

def runUsersFull := runObjectsFull "users" [.membershipsRebuild]

def runGroupsFull := runObjectsFull "groups" [.membershipsRebuild]

def runComputersFull := runObjectsFull "computers" []

/-- The OUs' crawl, by their DNs in lower case: the process's in what was seen, the database's in
the index and the update. -/
def runOusFull (lower sqlLower : Text → Text) (a : Answers) (cache : List CacheRow) :
    List CacheRow × Except String RunnerResult :=
  let seen := ((a.found.filter (·.fault.isNone)).map (lower ·.id)).dedup
  let after := crawled sqlLower a cache
  match a.searchThrows with
  | some e => (after, .error e)
  | none =>
    match a.markThrows with
    | some e => (after, .error e)
    | none => (markStale sqlLower a.now seen after, .ok { cursor := some (some a.now), triggers := [] })

/-- A crawl hides nothing it saw: it marks stale no record of an entry the directory returned, none
at all where it ends in an error, and leaves the cache as it was where nothing was returned and
something is live. -/
structure Honest (key : Text → Text) (a : Answers) (cache : List CacheRow)
    (run : List CacheRow × Except String RunnerResult) : Prop where
  seen : ∀ r r', (r, r') ∈ (crawled key a cache).zip run.1 → r.staleAt = none → r'.staleAt ≠ none →
    ∀ x ∈ a.found, key x.id ≠ key r.id
  failed : ∀ e, run.2 = .error e → run.1 = crawled key a cache
  empty : a.found = [] → (∃ r ∈ cache, r.staleAt = none) → run.1 = cache

section
variable {key : Text → Text} {a : Answers} {cache : List CacheRow}

theorem Honest.unmarked (result : Except String RunnerResult) :
    Honest key a cache (crawled key a cache, result) where
  seen r r' member live stale := by
    have same : r = r' := by
      obtain ⟨i, h, isPair⟩ := List.getElem_of_mem member
      simp only [List.getElem_zip, Prod.mk.injEq] at isPair
      rw [← isPair.1, ← isPair.2]
    exact absurd live (same ▸ stale)
  failed _ _ := rfl
  empty none _ := by
    show a.found.foldl (cacheFound key) cache = cache
    rw [none]
    rfl

/-- What the mark sets is what was live and not seen. -/
theorem markStale_marked {now : Int} {seen : List Text} {r r' : CacheRow}
    (member : (r, r') ∈ cache.zip (markStale key now seen cache)) :
    r' = if r.staleAt = none ∧ (seen = [] ∨ key r.id ∉ seen) then { r with staleAt := some now } else r := by
  unfold markStale Table.update at member
  rw [List.zip_map_right] at member
  obtain ⟨⟨x, y⟩, isPair, same⟩ := List.mem_map.mp member
  obtain ⟨i, h, here⟩ := List.getElem_of_mem isPair
  simp only [List.getElem_zip, Prod.mk.injEq] at here
  simp only [Prod.map, id_eq, Prod.mk.injEq] at same
  rw [← same.2, ← same.1, ← here.1, ← here.2]

theorem marked_mem (key : Text → Text) (now : Int) (seen : List Text) {r : CacheRow} (member : r ∈ cache) :
    (r, if r.staleAt = none ∧ (seen = [] ∨ key r.id ∉ seen) then { r with staleAt := some now } else r) ∈
      cache.zip (markStale key now seen cache) := by
  unfold markStale Table.update
  rw [List.zip_map_right]
  obtain ⟨i, h, here⟩ := List.getElem_of_mem member
  refine List.mem_map.mpr ⟨(r, r), ?_, rfl⟩
  rw [List.mem_iff_getElem]
  exact ⟨i, by simpa using h, by simp [here]⟩

/-- Written in full, a crawl has seen every entry. -/
theorem seen_of_written
    (whole : ((a.found.filter (·.fault.isNone)).map (·.id)).dedup.length = a.found.length) :
    ∀ x ∈ a.found, x.id ∈ ((a.found.filter (·.fault.isNone)).map (·.id)).dedup := by
  have short : (a.found.filter (·.fault.isNone)).length = a.found.length := by
    have dedup := List.Sublist.length_le (List.dedup_sublist ((a.found.filter (·.fault.isNone)).map (·.id)))
    have filter := List.length_filter_le (·.fault.isNone) a.found
    rw [List.length_map] at dedup
    omega
  have all := List.length_filter_eq_length_iff.mp short
  intro x member
  exact List.mem_dedup.mpr (List.mem_map.mpr ⟨x, List.mem_filter.mpr ⟨member, all x member⟩, rfl⟩)

/-- Where the mark is trusted, everything found was written, and nothing found means nothing was live. -/
theorem shouldMarkStale_true {countThrows : Option String} {crawl : FullCrawlOutcome}
    (trusted : shouldMarkStale countThrows cache crawl = .ok true) :
    crawl.written = crawl.found ∧ (crawl.found = 0 → ∀ r ∈ cache, r.staleAt ≠ none) := by
  unfold shouldMarkStale at trusted
  by_cases broken : 0 < crawl.found ∧ crawl.written = 0
  · rw [if_pos broken] at trusted
    cases trusted
  rw [if_neg broken] at trusted
  by_cases none : crawl.found = 0
  · rw [if_pos none] at trusted
    cases countThrows with
    | some e => cases trusted
    | none =>
      by_cases live : 0 < cache.countP (·.staleAt = Option.none)
      · simp only [if_pos live] at trusted
        cases trusted
      · simp only [if_neg live] at trusted
        have same : decide (crawl.written = crawl.found) = true := Except.ok.inj trusted
        refine ⟨of_decide_eq_true same, fun _ r member isLive => live ?_⟩
        exact List.countP_pos_iff.mpr ⟨r, member, by simpa using isLive⟩
  · rw [if_neg none] at trusted
    have same : decide (crawl.written = crawl.found) = true := Except.ok.inj trusted
    exact ⟨of_decide_eq_true same, fun empty => absurd empty none⟩

/-- A full crawl of objects hides nothing it saw. -/
theorem runObjectsFull_honest (kind : String) (triggers : List SyncTaskKey) (a : Answers)
    (cache : List CacheRow) :
    Honest id a cache (runObjectsFull kind triggers a cache) := by
  unfold runObjectsFull
  dsimp only
  cases a.searchThrows with
  | some e => exact .unmarked _
  | none =>
    dsimp only
    cases trusted : shouldMarkStale a.countThrows (crawled id a cache) _ with
    | error e => exact .unmarked _
    | ok mark =>
      cases mark with
      | false => exact .unmarked _
      | true =>
        dsimp only
        cases a.markThrows with
        | some e => exact .unmarked _
        | none =>
          obtain ⟨whole, live⟩ := shouldMarkStale_true trusted
          refine ⟨fun r r' member isLive stale x found same => ?_, (fun e failed => nomatch failed),
            fun nothing someLive => ?_⟩
          · have marked := markStale_marked member
            have seen : r.id ∈ ((a.found.filter (·.fault.isNone)).map (·.id)).dedup := by
              have isSeen := seen_of_written whole x found
              rwa [show x.id = r.id from same] at isSeen
            rw [if_neg] at marked
            · rw [marked] at stale
              exact stale isLive
            · rintro ⟨_, empty | unseen⟩
              · rw [empty] at seen
                cases seen
              · exact unseen seen
          · have kept : crawled id a cache = cache := by
              show a.found.foldl (cacheFound id) cache = cache
              rw [nothing]
              rfl
            obtain ⟨r, member, isLive⟩ := someLive
            have none : a.found.length = 0 := by rw [nothing]; rfl
            exact absurd isLive (live none r (by rw [kept]; exact member))

/-- What is upserted is live, and nothing else is made so. -/
theorem live_upsert {x : Found} {k : Text} :
    (∃ r ∈ upsert key cache x, r.staleAt = none ∧ key r.id = k) ↔
      (∃ r ∈ cache, r.staleAt = none ∧ key r.id = k) ∨ key x.id = k := by
  unfold upsert
  split
  next held =>
    obtain ⟨y, isHeld, sameKey⟩ := List.any_eq_true.mp held
    have sameKey : key y.id = key x.id := by simpa using sameKey
    rw [Table.exists_update]
    constructor
    · rintro ⟨r, member, ⟨_, _, here⟩ | ⟨_, live, here⟩⟩
      · exact Or.inr here
      · exact Or.inl ⟨r, member, live, here⟩
    · rintro (⟨r, member, live, here⟩ | here)
      · by_cases same : key r.id = key x.id
        · exact ⟨r, member, Or.inl ⟨same, rfl, same.symm.trans here⟩⟩
        · exact ⟨r, member, Or.inr ⟨same, live, here⟩⟩
      · exact ⟨y, isHeld, Or.inl ⟨sameKey, rfl, here⟩⟩
  next =>
    constructor
    · rintro ⟨r, member, live, here⟩
      rcases List.mem_append.mp member with old | added
      · exact Or.inl ⟨r, old, live, here⟩
      · rw [List.mem_singleton.mp added] at here
        exact Or.inr here
    · rintro (⟨r, member, live, here⟩ | here)
      · exact ⟨r, List.mem_append_left _ member, live, here⟩
      · exact ⟨⟨x.id, none⟩, List.mem_append_right _ List.mem_cons_self, rfl, here⟩

/-- What is live by a key once the crawl has written what it could: what was, and what it wrote. -/
theorem live_crawled {k : Text} :
    (∃ r ∈ crawled key a cache, r.staleAt = none ∧ key r.id = k) ↔
      (∃ r ∈ cache, r.staleAt = none ∧ key r.id = k) ∨ ∃ y ∈ a.found, y.fault = none ∧ key y.id = k := by
  unfold crawled
  induction a.found generalizing cache with
  | nil => simp
  | cons x found ih =>
    rw [List.foldl_cons, ih, cacheFound]
    by_cases written : x.fault = none
    · rw [if_pos (by simp [written]), live_upsert]
      constructor
      · rintro ((old | here) | ⟨y, member, fine, here⟩)
        · exact Or.inl old
        · exact Or.inr ⟨x, List.mem_cons_self, written, here⟩
        · exact Or.inr ⟨y, List.mem_cons_of_mem _ member, fine, here⟩
      · rintro (old | ⟨y, member, fine, here⟩)
        · exact Or.inl (Or.inl old)
        · rcases List.mem_cons.mp member with rfl | later
          · exact Or.inl (Or.inr here)
          · exact Or.inr ⟨y, later, fine, here⟩
    · rw [if_neg (by simpa using written)]
      refine or_congr_right ⟨fun ⟨y, member, rest⟩ => ⟨y, List.mem_cons_of_mem _ member, rest⟩, ?_⟩
      rintro ⟨y, member, fine, here⟩
      rcases List.mem_cons.mp member with rfl | later
      · exact absurd fine written
      · exact ⟨y, later, fine, here⟩

/-- The crawl of OUs ends in an error; or it returned something where anything was live, and each OU
it returned that the cache had live, or that it wrote, was written under the lower-cased DN the
update looks for. -/
def OusSeen (lower sqlLower : Text → Text) (a : Answers) (cache : List CacheRow) : Prop :=
  a.searchThrows.isSome ∨ a.markThrows.isSome ∨
    ((a.found = [] → ∀ r ∈ cache, r.staleAt ≠ none) ∧
      ∀ x ∈ a.found, ((∃ r ∈ cache, r.staleAt = none ∧ sqlLower r.id = sqlLower x.id) ∨
          ∃ y ∈ a.found, y.fault = none ∧ sqlLower y.id = sqlLower x.id) →
        ∃ y ∈ a.found, y.fault = none ∧ lower y.id = sqlLower x.id)

theorem mem_seen {lower : Text → Text} {k : Text} :
    k ∈ ((a.found.filter (·.fault.isNone)).map (lower ·.id)).dedup ↔
      ∃ y ∈ a.found, y.fault = none ∧ lower y.id = k := by
  simp only [List.mem_dedup, List.mem_map, List.mem_filter, Option.isNone_iff_eq_none, and_assoc]

/-- The crawl of OUs hides nothing just where each OU it saw was written under the DN its update
looks for. -/
theorem runOusFull_honest_iff (lower sqlLower : Text → Text) (a : Answers) (cache : List CacheRow) :
    Honest sqlLower a cache (runOusFull lower sqlLower a cache) ↔ OusSeen lower sqlLower a cache := by
  unfold runOusFull
  dsimp only
  cases searched : a.searchThrows with
  | some e => exact iff_of_true (.unmarked _) (Or.inl (by rw [searched]; rfl))
  | none =>
    dsimp only
    cases updated : a.markThrows with
    | some e => exact iff_of_true (.unmarked _) (Or.inr (Or.inl (by rw [updated]; rfl)))
    | none =>
      dsimp only
      have kept (nothing : a.found = []) : crawled sqlLower a cache = cache := by
        show a.found.foldl (cacheFound sqlLower) cache = cache
        rw [nothing]
        rfl
      constructor
      · intro honest
        refine Or.inr (Or.inr ⟨fun nothing r member live => ?_, fun x found live => ?_⟩)
        · have same : markStale sqlLower a.now _ (crawled sqlLower a cache) = cache :=
            honest.empty nothing ⟨r, member, live⟩
          have isRow : r ∈ crawled sqlLower a cache := by rwa [kept nothing]
          have pair := marked_mem sqlLower a.now
            ((a.found.filter (·.fault.isNone)).map (lower ·.id)).dedup isRow
          rw [if_pos ⟨live, Or.inl (by rw [nothing]; rfl)⟩, same, kept nothing] at pair
          obtain ⟨i, h, here⟩ := List.getElem_of_mem pair
          simp only [List.getElem_zip, Prod.mk.injEq] at here
          have staleAt := congrArg CacheRow.staleAt (here.1.symm.trans here.2)
          rw [live] at staleAt
          cases staleAt
        · by_contra unseen
          obtain ⟨r, member, isLive, here⟩ := live_crawled.mpr live
          have pair := marked_mem sqlLower a.now
            ((a.found.filter (·.fault.isNone)).map (lower ·.id)).dedup member
          rw [if_pos ⟨isLive, Or.inr fun isSeen => unseen (here ▸ mem_seen.mp isSeen)⟩] at pair
          exact honest.seen r _ pair isLive (by simp) x found here.symm
      · intro seen
        rw [OusSeen, searched, updated] at seen
        simp only [Option.isSome_none, Bool.false_eq_true, false_or] at seen
        obtain ⟨empty, written⟩ := seen
        refine ⟨fun r r' member isLive stale x found same => ?_, (fun e failed => nomatch failed),
          fun nothing live => ?_⟩
        · have marked := markStale_marked member
          have isRow : r ∈ crawled sqlLower a cache := (List.of_mem_zip member).1
          obtain ⟨y, isFound, fine, here⟩ := written x found (live_crawled.mp ⟨r, isRow, isLive, same.symm⟩)
          have isSeen := mem_seen.mpr ⟨y, isFound, fine, here⟩
          rw [if_neg] at marked
          · rw [marked] at stale
            exact stale isLive
          · rintro ⟨_, none | unseen⟩
            · rw [none] at isSeen
              cases isSeen
            · exact unseen (same ▸ isSeen)
        · obtain ⟨r, member, isLive⟩ := live
          exact absurd isLive (empty nothing r member)

/-- The crawls of users, groups and computers hide nothing they saw; the crawl of OUs exactly where
it saw it all. -/
theorem crawls_honest (lower sqlLower : Text → Text) (a : Answers) (cache : List CacheRow) :
    (Honest id a cache (runUsersFull a cache) ∧ Honest id a cache (runGroupsFull a cache) ∧
      Honest id a cache (runComputersFull a cache)) ∧
    (Honest sqlLower a cache (runOusFull lower sqlLower a cache) ↔ OusSeen lower sqlLower a cache) :=
  ⟨⟨runObjectsFull_honest _ _ a cache, runObjectsFull_honest _ _ a cache, runObjectsFull_honest _ _ a cache⟩,
    runOusFull_honest_iff lower sqlLower a cache⟩

/-- A crawl of OUs that returns nothing marks the only one there is, and one whose write fails marks
the OU it saw. -/
theorem ous_hidden :
    let staff : List CacheRow := [⟨text "ou=staff,dc=corp", none⟩]
    let nothing : Answers := ⟨[], none, none, none, 9⟩
    let unwritten : Answers :=
      ⟨[⟨text "ou=staff,dc=corp", some (some "deadlock detected")⟩], none, none, none, 9⟩
    (runOusFull id id nothing staff).1 = [⟨text "ou=staff,dc=corp", some 9⟩] ∧
    (runOusFull id id unwritten staff).1 = [⟨text "ou=staff,dc=corp", some 9⟩] ∧
    (runUsersFull nothing staff).1 = staff ∧ (runUsersFull unwritten staff).1 = staff := by
  decide

end
end OpenAduc.Sync.FullCrawl
