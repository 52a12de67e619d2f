import OpenAduc.Lib.Transition
import OpenAduc.Sync.Runs

namespace OpenAduc.Sync.SignIns

def maxPagesPerRun : Nat := 30

/-- An entry of a page, an empty id counting as none. -/
structure GraphSignIn where
  id : Option String
  createdDateTime : Option Int
  deriving DecidableEq, Repr

/-- What the next page's request comes to. -/
inductive PageAnswer
  | page (value : List GraphSignIn) (next : Bool)
  /-- Graph refuses it with a 401 or a 403. -/
  | denied
  /-- It fails another way, or storing what it held does. -/
  | throws
  deriving DecidableEq, Repr

/-- A record of `entra_signin_events`, under its unique key. -/
structure StoredEvent where
  entraEventId : String
  createdDateTime : Int
  deriving DecidableEq, Repr

structure SyncResult where
  pages : Nat
  scanned : Nat
  inserted : Nat
  /-- There was more to pull. -/
  cutShort : Bool
  denied : Bool
  deriving DecidableEq, Repr

/-- The row an entry makes, where it has what it needs. -/
def GraphSignIn.row (x : GraphSignIn) : Option StoredEvent :=
  match x.id, x.createdDateTime with
  | some entraEventId, some createdDateTime => some { entraEventId, createdDateTime }
  | _, _ => none

/-- `INSERT … ON CONFLICT DO NOTHING`, of one row. -/
def insertRow (stored : List StoredEvent) (row : StoredEvent) : List StoredEvent :=
  if stored.any (·.entraEventId == row.entraEventId) then stored else stored ++ [row]

def insertNew (stored : List StoredEvent) (rows : List StoredEvent) : List StoredEvent :=
  rows.foldl insertRow stored

/-- `syncRecent`'s loop, with what is left of its pages. -/
def syncPages : Nat → List PageAnswer → List StoredEvent → SyncResult →
    List StoredEvent × Except String SyncResult
  | 0, _, stored, so => (stored, .ok { so with cutShort := true })
  | n + 1, .page value next :: answers, stored, so =>
    let kept := insertNew stored (value.filterMap (·.row))
    let so := { so with
      pages := so.pages + 1, scanned := so.scanned + value.length, inserted :=
        so.inserted + (kept.length - stored.length) }
    if next then syncPages n answers kept so else (kept, .ok so)
  | _ + 1, .denied :: _, stored, so => (stored, .ok { so with cutShort := true, denied := true })
  | _ + 1, .throws :: _, stored, _ => (stored, .error "sign-in events fetch failed")
  | _ + 1, [], stored, _ => (stored, .error "sign-in events fetch failed")

def syncRecent (answers : List PageAnswer) (stored : List StoredEvent) :
    List StoredEvent × Except String SyncResult :=
  syncPages maxPagesPerRun answers stored
    { pages := 0, scanned := 0, inserted := 0, cutShort := false, denied := false }

/-- `runEntraSignInsEvents`; `returnedAt` is when it makes its new cursor. -/
def runEntraSignInsEvents (featureOn : Bool) (answers : List PageAnswer) (returnedAt : Int)
    (stored : List StoredEvent) :
    List StoredEvent × Except String RunnerResult :=
  if featureOn then
    let fetched := syncRecent answers stored
    (fetched.1, fetched.2.map fun _ => { cursor := some (some returnedAt), triggers := [] })
  else (stored, .ok { cursor := none, triggers := [] })

/-- The time a run asks Graph from: its cursor, or else when it last succeeded. -/
def since (tables : SyncTasks) (providerId : Nat) : Option Int :=
  (tables.lastCursor providerId .entraSigninsEvents).or
    (tables.lastSuccessfulStartAt providerId .entraSigninsEvents)

/-- The directory's tables between runs of the task; `now` is when the last one ended. -/
structure State where
  tables : SyncTasks
  stored : List StoredEvent
  now : Int
  deriving DecidableEq, Repr

/-- A run of the task, and what the calls it makes are answered. -/
structure EventsRun where
  trigger : Trigger
  startedAt : Int
  /-- The integration's `signInEvents` feature. -/
  featureOn : Bool
  /-- When the first page is asked for. -/
  fetchedAt : Int
  answers : List PageAnswer
  returnedAt : Int
  finishedAt : Int
  closing : Closing
  deriving DecidableEq, Repr

def EventsRun.ran (r : EventsRun) (stored : List StoredEvent) :
    List StoredEvent × Except String RunnerResult :=
  runEntraSignInsEvents r.featureOn r.answers r.returnedAt stored

def EventsRun.record (r : EventsRun) (stored : List StoredEvent) : RunRecord where
  trigger := r.trigger
  startedAt := r.startedAt
  result := (r.ran stored).2
  finishedAt := r.finishedAt
  closing := r.closing

def State.after (s : State) (providerId : Nat) (r : EventsRun) : State where
  tables := s.tables.afterRun providerId .entraSigninsEvents (r.record s.stored)
  stored := (r.ran s.stored).1
  now := r.finishedAt

/-- How far back the next run will ask. -/
def State.nextBound (s : State) (providerId : Nat) : Option Int :=
  lowerBound (since s.tables providerId)

/-- How far back this one asks, once it is marked as started. -/
def State.askedBound (s : State) (providerId : Nat) (r : EventsRun) : Option Int :=
  lowerBound (since (s.tables.markStarted providerId .entraSigninsEvents r.trigger r.startedAt) providerId)

/-- The task of a directory that has never run it. -/
def system (providerId : Nat) : Transition.System State EventsRun where
  init s := s.tables.Settled providerId .entraSigninsEvents s.now ∧ since s.tables providerId = none
  step s r := some (s.after providerId r)

/-- A sign-in, and when Graph lists it. -/
structure Event where
  id : String
  createdAt : Int
  listedAt : Int
  deriving DecidableEq, Repr

def Event.entry (e : Event) : GraphSignIn where
  id := some e.id
  createdDateTime := some e.createdAt

/-- The sign-ins of a tenant, each listed within 5 minutes of its making. -/
structure Tenant where
  Occurs : Event → Prop
  lag : ∀ e, Occurs e → e.listedAt ≤ e.createdAt + overlap

/-- The entries of the pages that are read one after another. -/
def served : List PageAnswer → List GraphSignIn
  | .page value next :: answers => value ++ if next then served answers else []
  | _ => []

/-- Graph serves every page, the last of them within the number asked for. -/
inductive Whole : Nat → List PageAnswer → Prop
  | last {n value answers} : Whole (n + 1) (.page value false :: answers)
  | more {n value answers} : Whole n answers → Whole (n + 1) (.page value true :: answers)

/-- A page asked for fails, and not by a refusal. -/
inductive Fails : Nat → List PageAnswer → Prop
  | unanswered {n} : Fails (n + 1) []
  | throws {n answers} : Fails (n + 1) (.throws :: answers)
  | more {n value answers} : Fails n answers → Fails (n + 1) (.page value true :: answers)

/-- Newest first. -/
def NewestFirst (listing : List GraphSignIn) : Prop :=
  listing.Pairwise fun a b => ∀ t ∈ a.createdDateTime, ∀ u ∈ b.createdDateTime, u ≤ t

namespace State
variable (s : State) (providerId : Nat) (tenant : Tenant) (r : EventsRun)

/-- A run after the last one's end, its own times in order. -/
def Follows : Prop :=
  s.now ≤ r.startedAt ∧ r.startedAt ≤ r.fetchedAt ∧ r.fetchedAt ≤ r.returnedAt ∧ r.returnedAt ≤ r.finishedAt

/-- Graph serves, newest first and page by page, a listing with every event it
had listed when it was asked that the query's filter lets through. -/
def Serves : Prop :=
  r.featureOn = true → ∃ listing, NewestFirst listing ∧ served r.answers <+: listing ∧
    (∀ n, Whole n r.answers → served r.answers = listing) ∧
    ∀ e, tenant.Occurs e → e.listedAt ≤ r.fetchedAt →
      Within (s.askedBound providerId r) e.createdAt → e.entry ∈ listing

/-- No event is listed once the pages are asked for that was made more than the
overlap before the new cursor, unless a page still has it. -/
def NoneLate : Prop :=
  ∀ e, tenant.Occurs e → r.fetchedAt < e.listedAt → e.listedAt < r.finishedAt →
    r.returnedAt - overlap ≤ e.createdAt ∨ e.entry ∈ served r.answers

/-- A run the tables count as having pulled everything did: where its end is
written, the feature is on, every page is served within the limit and none of
the events comes too late for it, or the run fails; or the feature is off, and
what the next run asks from stays. -/
def Sound : Prop :=
  r.closing = .unwritten ∨
    (r.featureOn = false ∧
      (s.tables.lastCursor providerId .entraSigninsEvents ≠ none ∨ r.closing = .taskRow)) ∨
    (r.featureOn = true ∧
      (Fails maxPagesPerRun r.answers ∨ Whole maxPagesPerRun r.answers ∧ NoneLate tenant r))

def Stores (e : Event) : Prop :=
  ∃ x ∈ s.stored, x.entraEventId = e.id

/-- Every event listed before the last run's end is stored, or is one the next run will ask for. -/
def Covered : Prop :=
  ∀ e, tenant.Occurs e → e.listedAt < s.now → s.Stores e ∨ Within (s.nextBound providerId) e.createdAt

end State

theorem insertNew_keeps {stored rows : List StoredEvent} {x : StoredEvent} (member : x ∈ stored) :
    x ∈ insertNew stored rows := by
  induction rows generalizing stored with
  | nil => exact member
  | cons row rows ih =>
    have kept : x ∈ insertRow stored row := by
      unfold insertRow
      split
      · exact member
      · exact List.mem_append_left _ member
    exact ih kept

/-- What is inserted is there, new or as it was. -/
theorem insertNew_has {stored rows : List StoredEvent} {row : StoredEvent} (member : row ∈ rows) :
    ∃ x ∈ insertNew stored rows, x.entraEventId = row.entraEventId := by
  induction rows generalizing stored with
  | nil => cases member
  | cons first rows ih =>
    obtain rfl | later := List.mem_cons.mp member
    · have has : ∃ x ∈ insertRow stored row, x.entraEventId = row.entraEventId := by
        unfold insertRow
        split
        next there =>
          obtain ⟨x, xIn, same⟩ := List.any_eq_true.mp there
          exact ⟨x, xIn, by simpa using same⟩
        next => exact ⟨row, List.mem_append_right _ List.mem_cons_self, rfl⟩
      obtain ⟨x, xIn, same⟩ := has
      have kept : x ∈ insertNew (insertRow stored row) rows := insertNew_keeps xIn
      exact ⟨x, kept, same⟩
    · exact ih later

/-- No run forgets an event, however it ends. -/
theorem syncPages_keeps {n : Nat} {answers : List PageAnswer} {stored : List StoredEvent} {so : SyncResult}
    {x : StoredEvent} (member : x ∈ stored) : x ∈ (syncPages n answers stored so).1 := by
  induction n generalizing answers stored so with
  | zero => exact member
  | succ n ih =>
    match answers with
    | [] | .denied :: _ | .throws :: _ => exact member
    | .page value next :: answers =>
      have kept : x ∈ insertNew stored (value.filterMap (·.row)) := insertNew_keeps member
      simp only [syncPages]
      split
      · exact ih kept
      · exact kept

/-- A run served every page stores what was on them. -/
theorem syncPages_whole {n : Nat} {answers : List PageAnswer} (whole : Whole n answers)
    {stored : List StoredEvent}
    {so : SyncResult} :
    (∃ result, (syncPages n answers stored so).2 = .ok result) ∧
      ∀ entry ∈ served answers, ∀ row ∈ entry.row,
        ∃ x ∈ (syncPages n answers stored so).1, x.entraEventId = row.entraEventId := by
  induction whole generalizing stored so with
  | @last n value answers =>
    refine ⟨⟨_, rfl⟩, ?_⟩
    intro entry member row made
    have inRows : row ∈ value.filterMap (·.row) :=
      List.mem_filterMap.mpr ⟨entry, by simpa [served] using member, made⟩
    exact insertNew_has inRows
  | @more n value answers _ ih =>
    refine ⟨ih.1, ?_⟩
    intro entry member row made
    have either : entry ∈ value ∨ entry ∈ served answers := by simpa [served] using member
    obtain here | later := either
    · have inRows : row ∈ value.filterMap (·.row) := List.mem_filterMap.mpr ⟨entry, here, made⟩
      have has : ∃ x ∈ insertNew stored (value.filterMap (·.row)),
        x.entraEventId = row.entraEventId := insertNew_has inRows
      obtain ⟨x, xIn, same⟩ := has
      simp only [syncPages, if_true]
      exact ⟨x, syncPages_keeps xIn, same⟩
    · exact ih.2 entry later row made

theorem syncPages_fails {n : Nat} {answers : List PageAnswer} (fails : Fails n answers)
    (stored : List StoredEvent)
    (so : SyncResult) : ∃ message, (syncPages n answers stored so).2 = .error message := by
  induction fails generalizing stored so with
  | unanswered => exact ⟨_, rfl⟩
  | throws => exact ⟨_, rfl⟩
  | more _ ih => exact ih _ _

theorem ran_keeps {r : EventsRun} {stored : List StoredEvent} {x : StoredEvent} (member : x ∈ stored) :
    x ∈ (r.ran stored).1 := by
  unfold EventsRun.ran runEntraSignInsEvents
  split
  · exact syncPages_keeps member
  · exact member

/-- A stored cursor goes only where the run leaves it and its success isn't what the next run asks from. -/
theorem since_afterRun_eq {tables : SyncTasks} {providerId : Nat} {x : RunRecord} {now : Int}
    (settled : tables.Settled providerId .entraSigninsEvents now) (later : now ≤ x.startedAt)
    (leaves : x.closing = .unwritten ∨ (SyncTasks.finishedOf x.result).cursor = none)
    (anchored : ¬x.Recorded ∨ tables.lastCursor providerId .entraSigninsEvents ≠ none) :
    since (tables.afterRun providerId .entraSigninsEvents x) providerId = since tables providerId := by
  have before : ∀ t ∈ tables.lastSuccessfulStartAt providerId .entraSigninsEvents, t ≤ x.startedAt := by
    intro t is
    have := settled.started t is
    omega
  have cursor : (tables.afterRun providerId .entraSigninsEvents x).lastCursor providerId .entraSigninsEvents =
      tables.lastCursor providerId .entraSigninsEvents := by
    rw [SyncTasks.lastCursor_afterRun, SyncTasks.lastCursor]
    obtain unwritten | none := leaves
    · simp only [unwritten, if_true]
    · simp only [none, Option.getD_none, ite_self]
  rw [since, since, cursor]
  obtain unrecorded | some := anchored
  · rw [(SyncTasks.lastSuccessfulStartAt_afterRun settled.fresh x before).2 unrecorded]
  · cases stored : tables.lastCursor providerId .entraSigninsEvents with
    | none => exact absurd stored some
    | some t => rfl

/-- What the invariant of the task's runs says of the tables: no time they hold is yet to come. -/
structure State.Inv (s : State) (providerId : Nat) (tenant : Tenant) : Prop where
  settled : s.tables.Settled providerId .entraSigninsEvents s.now
  cursor : ∀ t ∈ s.tables.lastCursor providerId .entraSigninsEvents, t ≤ s.now
  covered : s.Covered providerId tenant

namespace State
variable {s : State} {providerId : Nat} {tenant : Tenant} {r : EventsRun}

theorem ran_cursor : (SyncTasks.finishedOf (r.ran s.stored).2).cursor = none ∨
    (SyncTasks.finishedOf (r.ran s.stored).2).cursor = some (some r.returnedAt) := by
  unfold EventsRun.ran runEntraSignInsEvents
  split
  · cases fetched : (syncRecent r.answers s.stored).2 with
    | error message => exact .inl (by simp [fetched, Except.map, SyncTasks.finishedOf])
    | ok result => exact .inr (by simp [fetched, Except.map, SyncTasks.finishedOf])
  · exact .inl rfl

/-- The times the tables hold after a run are no later than its runner's end. -/
theorem times_after (inv : s.Inv providerId tenant) (follows : s.Follows r) :
    (∀ t ∈ (s.after providerId r).tables.lastCursor providerId .entraSigninsEvents, t ≤ r.returnedAt) ∧
      ∀ t ∈ (s.after providerId r).tables.lastSuccessfulStartAt providerId .entraSigninsEvents,
      t ≤ r.returnedAt := by
  obtain ⟨follows, fetched, returned, _⟩ := follows
  constructor
  · intro t is
    have old : ∀ u ∈ s.tables.lastCursor providerId .entraSigninsEvents, u ≤ r.returnedAt := by
      intro u isU
      have := inv.cursor u isU
      omega
    rw [after, SyncTasks.lastCursor_afterRun] at is
    unfold SyncTasks.lastCursor at old
    cases row : s.tables.rowOf providerId .entraSigninsEvents with
    | none =>
      rw [row] at is
      cases is
    | some record =>
      rw [row] at is old
      simp only [Option.bind_some] at is old
      split at is
      · exact old t is
      · obtain left | new := ran_cursor (s := s) (r := r)
        · rw [EventsRun.record, left, Option.getD_none] at is
          exact old t is
        · rw [EventsRun.record, new] at is
          cases is
          exact Int.le_refl _
  · intro t is
    have before : ∀ u ∈ s.tables.lastSuccessfulStartAt providerId .entraSigninsEvents,
      u ≤ (r.record s.stored).startedAt := by
      intro u isU
      have := inv.settled.started u isU
      show u ≤ r.startedAt
      omega
    have cases := SyncTasks.lastSuccessfulStartAt_afterRun inv.settled.fresh (r.record s.stored) before
    have started : (r.record s.stored).startedAt = r.startedAt := rfl
    by_cases recorded : (r.record s.stored).Recorded
    · have isStart : some (r.record s.stored).startedAt = some t := (cases.1 recorded).symm.trans is
      have same : (r.record s.stored).startedAt = t := Option.some.inj isStart
      omega
    · have earlier := before t ((cases.2 recorded).symm.trans is)
      omega

theorem within_lowerBound {asked : Option Int} {latest time : Int} (bounded : ∀ t ∈ asked, t ≤ latest)
    (after : latest - overlap ≤ time) : Within (lowerBound asked) time := by
  intro b is
  obtain ⟨t, asks, rfl⟩ := Option.map_eq_some_iff.mp is
  have := bounded t asks
  omega

theorem since_le {tables : SyncTasks} {latest : Int}
    (cursor : ∀ t ∈ tables.lastCursor providerId .entraSigninsEvents, t ≤ latest)
    (succeeded : ∀ t ∈ tables.lastSuccessfulStartAt providerId .entraSigninsEvents, t ≤ latest) :
    ∀ t ∈ since tables providerId, t ≤ latest := by
  intro t is
  unfold since at is
  cases stored : tables.lastCursor providerId .entraSigninsEvents with
  | none =>
    rw [stored, Option.none_or] at is
    exact succeeded t is
  | some u =>
    rw [stored, Option.some_or] at is
    exact cursor t (stored.trans is)

/-- Marking the run as started changes nothing it asks from. -/
theorem askedBound_eq (inv : s.Inv providerId tenant) (follows : s.Follows r) :
    s.askedBound providerId r = s.nextBound providerId := by
  let opened : RunRecord :=
    { trigger := r.trigger, startedAt := r.startedAt, result := .error "",
      finishedAt := r.startedAt, closing := .unwritten }
  have same : since (s.tables.afterRun providerId .entraSigninsEvents opened) providerId =
    since s.tables providerId :=
    since_afterRun_eq inv.settled follows.1 (.inl rfl) (.inl fun recorded => by cases recorded.1)
  exact congrArg lowerBound same

theorem stores_after {e : Event} (stored : s.Stores e) : (s.after providerId r).Stores e := by
  obtain ⟨x, member, same⟩ := stored
  exact ⟨x, ran_keeps member, same⟩

/-- An event listed since the last run's end was made within what is asked for. -/
theorem within_of_listed (inv : s.Inv providerId tenant) {e : Event} (occurs : tenant.Occurs e)
    (listed : s.now ≤ e.listedAt) : Within (s.nextBound providerId) e.createdAt := by
  have lag := tenant.lag e occurs
  exact within_lowerBound (since_le inv.cursor inv.settled.started) (by omega)

theorem covered_of_same (inv : s.Inv providerId tenant)
    (same : (s.after providerId r).nextBound providerId = s.nextBound providerId) :
    (s.after providerId r).Covered providerId tenant := by
  intro e occurs _
  rw [same]
  by_cases old : e.listedAt < s.now
  · obtain stored | within := inv.covered e occurs old
    · exact .inl (stores_after stored)
    · exact .inr within
  · exact .inr (within_of_listed inv occurs (by omega))

theorem stores_of_served (on : r.featureOn = true) (whole : Whole maxPagesPerRun r.answers) {e : Event}
    (there : e.entry ∈ served r.answers) : (s.after providerId r).Stores e := by
  obtain ⟨x, member, same⟩ :=
    (syncPages_whole whole).2 e.entry there { entraEventId := e.id, createdDateTime := e.createdAt } rfl
  refine ⟨x, ?_, same⟩
  have ran : (r.ran s.stored).1 = (syncRecent r.answers s.stored).1 := by
    simp only [EventsRun.ran, runEntraSignInsEvents, on, if_true]
  show x ∈ (r.ran s.stored).1
  rw [ran]
  exact member

/-- A run that read every page, none of it late, leaves nothing out. -/
theorem covered_of_whole (inv : s.Inv providerId tenant) (follows : s.Follows r)
    (serves : s.Serves providerId tenant r)
    (on : r.featureOn = true) (whole : Whole maxPagesPerRun r.answers) (noneLate : NoneLate tenant r) :
    (s.after providerId r).Covered providerId tenant := by
  obtain ⟨listing, _, _, complete, has⟩ := serves on
  rw [askedBound_eq inv follows, ← complete _ whole] at has
  have times := times_after inv follows
  intro e occurs before
  by_cases inTime : e.listedAt ≤ r.fetchedAt
  · by_cases asked : Within (s.nextBound providerId) e.createdAt
    · exact .inl (stores_of_served on whole (has e occurs inTime asked))
    · by_cases old : e.listedAt < s.now
      · obtain stored | within := inv.covered e occurs old
        · exact .inl (stores_after stored)
        · exact absurd within asked
      · exact absurd (within_of_listed inv occurs (by omega)) asked
  · obtain recent | there := noneLate e occurs (by omega) before
    · exact .inr (within_lowerBound (since_le times.1 times.2) recent)
    · exact .inl (stores_of_served on whole there)

/-- A run keeps what is stored up to the cursor. -/
theorem inv_after (inv : s.Inv providerId tenant) (follows : s.Follows r)
    (serves : s.Serves providerId tenant r)
    (sound : s.Sound providerId tenant r) : (s.after providerId r).Inv providerId tenant := by
  have ordered := follows
  obtain ⟨start, fetch, returned, finish⟩ := ordered
  refine ⟨inv.settled.afterRun start ?_, ?_, ?_⟩
  · show r.startedAt ≤ r.finishedAt
    omega
  · intro t is
    have := (times_after inv follows).1 t is
    show t ≤ r.finishedAt
    omega
  · obtain unwritten | ⟨off, stays⟩ | ⟨on, fails | ⟨whole, noneLate⟩⟩ := sound
    · refine covered_of_same inv
        (congrArg lowerBound (since_afterRun_eq inv.settled start (.inl unwritten) (.inl ?_)))
      intro recorded
      have written : r.closing = .written := recorded.1
      rw [unwritten] at written
      cases written
    · have noCursor : (SyncTasks.finishedOf (r.record s.stored).result).cursor = none := by
        simp only [EventsRun.record, EventsRun.ran, runEntraSignInsEvents, off]
        rfl
      refine covered_of_same inv
        (congrArg lowerBound (since_afterRun_eq inv.settled start (.inr noCursor) ?_))
      obtain stored | taskRow := stays
      · exact .inr stored
      · refine .inl fun recorded => ?_
        have written : r.closing = .written := recorded.1
        rw [taskRow] at written
        cases written
    · obtain ⟨message, threw⟩ := syncPages_fails fails s.stored
        { pages := 0, scanned := 0, inserted := 0, cutShort := false, denied := false }
      have error : (r.record s.stored).result = .error message := by
        simp only [EventsRun.record, EventsRun.ran, runEntraSignInsEvents, on, if_true, syncRecent, threw]
        rfl
      refine covered_of_same inv
        (congrArg lowerBound (since_afterRun_eq inv.settled start (.inr ?_) (.inl ?_)))
      · rw [error]
        rfl
      · rintro ⟨_, value, ok⟩
        rw [error] at ok
        cases ok
    · exact covered_of_whole inv follows serves on whole noneLate

end State

/-- No sign-in event is lost in runs that the tables count as having pulled
everything only where they did. -/
theorem signIns_covered (tenant : Tenant) (providerId : Nat) {s : State}
    (reach : (system providerId).Reach
      (fun s r => s.Follows r ∧ s.Serves providerId tenant r ∧ s.Sound providerId tenant r) s) :
    s.Covered providerId tenant := by
  have inv : s.Inv providerId tenant := by
    refine reach.invariant (P := fun s => s.Inv providerId tenant) ?_ ?_
    · rintro s ⟨settled, never⟩
      have noCursor : s.tables.lastCursor providerId .entraSigninsEvents = none := by
        cases stored : s.tables.lastCursor providerId .entraSigninsEvents with
        | none => rfl
        | some t => simp [since, stored] at never
      refine ⟨settled, by simp [noCursor], ?_⟩
      intro e _ _
      refine .inr ?_
      rw [State.nextBound, never]
      intro b is
      cases is
    · rintro s t r _ inv ⟨follows, serves, sound⟩ taken
      cases Option.some.inj taken
      exact State.inv_after inv follows serves sound
  exact inv.covered

/-- A directory whose sign-in events were never pulled. -/
def unpulled : State where
  tables := { tasks := [.seeded 1 .entraSigninsEvents], runs := [], nextRun := 1 }
  stored := []
  now := 0

theorem unpulled_init : (system 1).init unpulled := by
  refine ⟨⟨by simp [unpulled], ?_⟩, rfl⟩
  intro t is
  have none : unpulled.tables.lastSuccessfulStartAt 1 .entraSigninsEvents = none := rfl
  rw [none] at is
  cases is

/-- A run a quarter of an hour in, which takes ten seconds once it has the first page. -/
def firstRun (featureOn : Bool) (answers : List PageAnswer) : EventsRun where
  trigger := .cadence
  startedAt := 1000000
  featureOn
  fetchedAt := 1000000
  answers
  returnedAt := 1010000
  finishedAt := 1010000
  closing := .written

theorem follows_firstRun (featureOn : Bool) (answers : List PageAnswer) :
    unpulled.Follows (firstRun featureOn answers) :=
  ⟨(by decide : (0 : Int) ≤ 1000000), (by decide : (1000000 : Int) ≤ 1000000),
    (by decide : (1000000 : Int) ≤ 1010000),
    (by decide : (1010000 : Int) ≤ 1010000)⟩

/-- The tenant's events, each listed as it is made. -/
def promptly (times : List Nat) : Tenant where
  Occurs e := ∃ n ∈ times, e = { id := toString n, createdAt := n, listedAt := n }
  lag := by
    rintro e ⟨n, _, rfl⟩
    show (n : Int) ≤ n + overlap
    unfold overlap
    omega

theorem signIns_covered_first :
    (unpulled.after 1
      (firstRun true [.page [{ id := some "5", createdDateTime := some 5 }] false])).Covered 1
      (promptly [5]) := by
  refine signIns_covered (promptly [5]) 1
    (.next (.start unpulled_init) ⟨follows_firstRun .., ?_, .inr (.inr ⟨rfl, .inr ⟨.last, ?_⟩⟩)⟩ rfl)
  · intro _
    refine ⟨_, List.pairwise_singleton _ _, List.prefix_rfl, fun _ _ => rfl, ?_⟩
    rintro e ⟨n, inTimes, rfl⟩ _ _
    have only : n = 5 := by simpa using inTimes
    subst only
    decide
  · rintro e ⟨n, inTimes, rfl⟩ late _
    have only : n = 5 := by simpa using inTimes
    subst only
    exact absurd late (by decide)

/-- A run that Graph serves, after which an event is neither stored nor asked for again. -/
def Loses (tenant : Tenant) (r : EventsRun) : Prop :=
  (system 1).Reach (fun s r => s.Follows r ∧ s.Serves 1 tenant r) (unpulled.after 1 r) ∧
    ¬(unpulled.after 1 r).Covered 1 tenant

theorem loses_of_event {tenant : Tenant} {featureOn : Bool} {answers : List PageAnswer}
    (serves : unpulled.Serves 1 tenant (firstRun featureOn answers)) {e : Event} (occurs : tenant.Occurs e)
    (before : e.listedAt < 1010000)
    (unstored : ((unpulled.after 1 (firstRun featureOn answers)).stored.all (·.entraEventId != e.id)) = true)
    (below : ¬Within ((unpulled.after 1 (firstRun featureOn answers)).nextBound 1) e.createdAt) :
    Loses tenant (firstRun featureOn answers) := by
  refine ⟨.next (.start unpulled_init) ⟨follows_firstRun .., serves⟩ rfl, ?_⟩
  intro covered
  obtain ⟨x, member, same⟩ | within := covered e occurs before
  · have differs := List.all_eq_true.mp unstored x member
    simp [same] at differs
  · exact below within

/-- Graph refuses the first page. -/
theorem denied_loses : Loses (promptly [5]) (firstRun true [.denied]) := by
  refine loses_of_event ?_ (e := { id := "5", createdAt := 5, listedAt := 5 }) ⟨5, by decide, rfl⟩ (by decide)
    (by decide) (by decide)
  intro _
  refine ⟨[{ id := some "5", createdDateTime := some 5 }], List.pairwise_singleton _ _, List.nil_prefix,
    fun _ whole => (by cases whole), ?_⟩
  rintro e ⟨n, inTimes, rfl⟩ _ _
  have only : n = 5 := by simpa using inTimes
  subst only
  decide

/-- One event a page, the newest of 31 first. -/
def onePerPage : List PageAnswer :=
  (List.range 31).reverse.map fun n =>
    .page [{ id := some (toString n), createdDateTime := some (n : Int) }] (n != 0)

/-- The run stops a page before the oldest event's. -/
theorem cutShort_loses : Loses (promptly (List.range 31)) (firstRun true onePerPage) := by
  refine loses_of_event ?_ (e := { id := "0", createdAt := 0, listedAt := 0 }) ⟨0, by decide, rfl⟩ (by decide)
    (by decide) (by decide)
  intro _
  refine ⟨served onePerPage, ?_, List.prefix_rfl, fun _ _ => rfl, ?_⟩
  · show List.Pairwise (fun a b => ∀ t ∈ a.createdDateTime, ∀ u ∈ b.createdDateTime, u ≤ t)
      (served onePerPage)
    decide
  · rintro e ⟨n, inTimes, rfl⟩ _ _
    have all : ((List.range 31).all fun n =>
        (served onePerPage).contains
          { id := some (toString n), createdDateTime := some (n : Int) }) = true := by
      decide
    have there := List.all_eq_true.mp all n inTimes
    simpa [Event.entry] using there

/-- The feature is off, and no cursor is stored. -/
theorem off_loses : Loses (promptly [5]) (firstRun false []) := by
  refine loses_of_event ?_ (e := { id := "5", createdAt := 5, listedAt := 5 }) ⟨5, by decide, rfl⟩ (by decide)
    (by decide) (by decide)
  intro on
  cases on

/-- An event Graph lists, as late as it may, while the run is under way. -/
def late : Event where
  id := "late"
  createdAt := 705000
  listedAt := 1005000

theorem late_loses : Loses { Occurs := (· = late), lag := by rintro e rfl; decide }
    (firstRun true [.page [] false]) := by
  refine loses_of_event ?_ (e := late) rfl (by decide) (by decide) (by decide)
  intro _
  refine ⟨[], .nil, List.prefix_rfl, fun _ _ => rfl, ?_⟩
  rintro e rfl listed _
  exact absurd listed (by decide)

/-- Each kind of run the condition leaves out loses an event. -/
theorem signIns_lost :
    Loses (promptly [5]) (firstRun true [.denied]) ∧
      Loses (promptly (List.range 31)) (firstRun true onePerPage) ∧
      Loses (promptly [5]) (firstRun false []) ∧
      Loses { Occurs := (· = late), lag := by rintro e rfl; decide } (firstRun true [.page [] false]) :=
  ⟨denied_loses, cutShort_loses, off_loses, late_loses⟩

end OpenAduc.Sync.SignIns
