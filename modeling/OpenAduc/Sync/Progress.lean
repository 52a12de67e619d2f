import OpenAduc.Sync.Scheduler

namespace OpenAduc.Sync
namespace State
variable (c : LocalCalendar) (s : State)

/-- The enabled rows of known tasks a tick reads, once it has seeded. -/
def listed (failed : TickFailures) : List (Nat × SyncTaskRow) :=
  (s.seed failed).listAllEnabled

/-- The tasks a tick chooses among for a directory. -/
def Choosable (now : Int) (failed : TickFailures) (providerId : Nat) (k : SyncTaskKey) : Prop :=
  ∃ row, (providerId, row) ∈ s.listed failed ∧ row.taskKey = k ∧
    ((providerId, k) ∈ s.forced ∨ c.isDueNow row now = true)

/-- A task that is due or forced, its row enabled or not. -/
def Wanted (now : Int) (failed : TickFailures) (providerId : Nat) (k : SyncTaskKey) : Prop :=
  (providerId, k) ∈ s.forced ∨ s.Choosable c now failed providerId k

/-- Whether the picker puts one task of a directory before another. -/
def Before (providerId : Nat) (k l : SyncTaskKey) : Prop :=
  (providerId, k) ∈ s.forced ∧ (providerId, l) ∉ s.forced ∨
    ((providerId, k) ∈ s.forced ↔ (providerId, l) ∈ s.forced) ∧
      (taskRegistry k).priority < (taskRegistry l).priority

/-- A configured directory with no task in flight has a wanted task whose prerequisites hold. -/
def Runnable (now : Int) (failed : TickFailures) (providerId : Nat) (d : Directory) : Prop :=
  s.directory providerId = some d ∧ d.configured = true ∧ s.busy providerId = false ∧
    ∃ k, s.Wanted c now failed providerId k ∧ s.meetsRequires d k = true

/-- Every directory with something to run has such a task in flight after the tick. -/
def Progress (now : Int) (failed : TickFailures) : Prop :=
  ∀ providerId d, s.Runnable c now failed providerId d →
    ∃ k, s.Wanted c now failed providerId k ∧ s.meetsRequires d k = true ∧
      { providerId, taskKey := k, phase := .claimed } ∈ (s.tick c now failed).inFlight

/-- In every directory with something to run, an enabled task whose prerequisites
hold goes before every one chosen among whose prerequisites don't. -/
def UnblockedFirst (now : Int) (failed : TickFailures) : Prop :=
  ∀ providerId d, s.Runnable c now failed providerId d →
    ∃ k, s.Choosable c now failed providerId k ∧ s.meetsRequires d k = true ∧
      ∀ l, s.Choosable c now failed providerId l → s.meetsRequires d l = false → s.Before providerId k l

end State

/-- A property of every tick among the actions. -/
def AtTick (P : State → Int → TickFailures → Prop) (s : State) : Action → Prop
  | .tick now failed => P s now failed
  | _ => True

section Picking

theorem Candidate.better_irrefl (a : Candidate) : a.better a = false := by
  simp [Candidate.better]

theorem Candidate.better_iff (a b : Candidate) :
    a.better b = true ↔ (a.forced = true ∧ b.forced = false) ∨
      (a.forced = b.forced ∧ a.priority < b.priority) := by
  simp [Candidate.better]

theorem Candidate.better_trans (a b c : Candidate) (first : a.better b = true) (second : b.better c = true) :
    a.better c = true := by
  rw [better_iff] at *
  obtain ⟨forced, unforced⟩ | ⟨same, lower⟩ := first
  · obtain ⟨forced', _⟩ | ⟨same', _⟩ := second
    · simp [unforced] at forced'
    · exact .inl ⟨forced, by rw [← same', unforced]⟩
  · obtain ⟨forced', unforced'⟩ | ⟨same', lower'⟩ := second
    · exact .inl ⟨by rw [same, forced'], unforced'⟩
    · exact .inr ⟨same.trans same', by omega⟩

end Picking

namespace State
variable {c : LocalCalendar} {s : State} {now : Int} {failed : TickFailures} {providerId : Nat}
    {d : Directory}

/-- What the picker holds of a directory's task. -/
def entry (s : State) (providerId : Nat) (k : SyncTaskKey) : Candidate where
  providerId
  taskKey := k
  priority := (taskRegistry k).priority
  forced := s.forced.contains (providerId, k)

theorem better_entry (k l : SyncTaskKey) :
    (s.entry providerId k).better (s.entry providerId l) = true ↔ s.Before providerId k l := by
  rw [Candidate.better_iff, Before]
  by_cases forcedK : (providerId, k) ∈ s.forced <;> by_cases forcedL : (providerId, l) ∈ s.forced <;>
    simp [entry, forcedK, forcedL]

theorem candidate_eq_some {x : Nat × SyncTaskRow} {a : Candidate} :
    s.candidate c now x = some a ↔
      ((x.1, x.2.taskKey) ∈ s.forced ∨ c.isDueNow x.2 now = true) ∧ s.entry x.1 x.2.taskKey = a := by
  simp only [candidate, entry, Bool.or_eq_true, List.contains_iff_mem, Option.ite_none_right_eq_some,
    Option.some.injEq]

/-- The picker chooses among exactly the choosable tasks. -/
theorem mem_candidates {a : Candidate} :
    a ∈ (s.listed failed).filterMap (s.candidate c now) ↔
      ∃ providerId k, s.Choosable c now failed providerId k ∧ s.entry providerId k = a := by
  simp only [List.mem_filterMap, candidate_eq_some]
  constructor
  · rintro ⟨⟨p, row⟩, member, wanted, rfl⟩
    exact ⟨p, row.taskKey, ⟨row, member, rfl, wanted⟩, rfl⟩
  · rintro ⟨p, k, ⟨row, member, rfl, wanted⟩, rfl⟩
    exact ⟨(p, row), member, wanted, rfl⟩

variable (c s now failed) in
theorem picked_best :
    Pick.Chosen Candidate.providerId Candidate.better ((s.listed failed).filterMap (s.candidate c now))
      (s.pickDueTasks c now (s.listed failed)) :=
  Pick.chosen_best Candidate.better_irrefl Candidate.better_trans _

/-- The task picked for a directory is choosable, and no choosable one goes before it. -/
theorem of_picked {a : Candidate} (picked : a ∈ s.pickDueTasks c now (s.listed failed)) :
    ∃ k, s.Choosable c now failed a.providerId k ∧ s.entry a.providerId k = a ∧
      ∀ l, s.Choosable c now failed a.providerId l → ¬s.Before a.providerId l k := by
  have chosen := picked_best c s now failed
  obtain ⟨p, k, choosable, rfl⟩ := mem_candidates.mp (chosen.among a picked)
  refine ⟨k, choosable, rfl, ?_⟩
  intro l other before
  have unbeaten := chosen.unbeaten _ picked (s.entry p l) (mem_candidates.mpr ⟨p, l, other, rfl⟩) rfl
  have beats : (s.entry p l).better (s.entry p k) = true := (better_entry l k).mpr before
  rw [beats] at unbeaten
  cases unbeaten

/-- A directory with a choosable task has one picked. -/
theorem exists_picked {k : SyncTaskKey} (choosable : s.Choosable c now failed providerId k) :
    ∃ a ∈ s.pickDueTasks c now (s.listed failed), a.providerId = providerId := by
  have chosen := picked_best c s now failed
  exact chosen.covers (s.entry providerId k) (mem_candidates.mpr ⟨providerId, k, choosable, rfl⟩)

/-- Of two tasks of a directory, one goes before the other. -/
theorem before_or_before {k l : SyncTaskKey} (differ : k ≠ l) :
    s.Before providerId k l ∨ s.Before providerId l k := by
  have apart : (taskRegistry k).priority ≠ (taskRegistry l).priority :=
    fun same => differ (priority_injective same)
  unfold Before
  by_cases forcedK : (providerId, k) ∈ s.forced <;> by_cases forcedL : (providerId, l) ∈ s.forced
  · simp only [forcedK, forcedL, not_true_eq_false, and_false, false_or, true_and]
    omega
  · exact .inl (.inl ⟨forcedK, forcedL⟩)
  · exact .inr (.inl ⟨forcedL, forcedK⟩)
  · simp only [forcedK, forcedL, false_and, false_or, true_and]
    omega

/-- Whether a task chosen for an idle directory is run. -/
def launches (s : State) (x : Candidate) : Bool :=
  (s.directory x.providerId).any fun d => d.configured && s.meetsRequires d x.taskKey

theorem launch_eq (x : Candidate) : s.launch x = if s.launches x then s.claim x.providerId x.taskKey
    else s := by
  unfold launch launches
  cases s.directory x.providerId with
  | none => rfl
  | some d => simp only [Option.any_some]

theorem claim_launches (k : SyncTaskKey) (x : Candidate) : (s.claim providerId k).launches x =
    s.launches x := by
  unfold claim
  split <;> rfl

theorem launch_launches (x y : Candidate) : (s.launch x).launches y = s.launches y := by
  rw [launch_eq]
  split
  · exact claim_launches ..
  · rfl

/-- What a directory has in flight does not change when another is launched. -/
theorem mem_launch_other {x : Candidate} (other : x.providerId ≠ providerId) {y : InFlight}
    (its : y.providerId = providerId) : y ∈ (s.launch x).inFlight ↔ y ∈ s.inFlight := by
  rw [launch_eq]
  split
  · unfold claim
    split
    · rfl
    · simp only [List.mem_append, List.mem_singleton, or_iff_left_iff_imp]
      rintro rfl
      exact absurd its other
  · rfl

theorem mem_launch_all_other {due : List Candidate} (others : ∀ x ∈ due, x.providerId ≠ providerId)
    {y : InFlight}
    (its : y.providerId = providerId) : y ∈ (due.foldl launch s).inFlight ↔ y ∈ s.inFlight := by
  induction due generalizing s with
  | nil => rfl
  | cons x due ih =>
    have rest := ih (s := s.launch x) fun z member => others z (List.mem_cons_of_mem _ member)
    exact rest.trans (mem_launch_other (others x List.mem_cons_self) its)

theorem busy_eq_false : s.busy providerId = false ↔ ∀ y ∈ s.inFlight, y.providerId ≠ providerId := by
  simp [busy]

/-- In a directory with none in flight, a tick runs what it picked where that launches. -/
theorem mem_launch_all {due : List Candidate} (keyed : (due.map (·.providerId)).Nodup)
    (idle : s.busy providerId = false) {y : InFlight} (its : y.providerId = providerId) :
    y ∈ (due.foldl launch s).inFlight ↔
      ∃ x ∈ due, x.providerId = providerId ∧ s.launches x = true ∧
        y = { providerId, taskKey := x.taskKey, phase := .claimed } := by
  induction due generalizing s with
  | nil =>
    simp only [List.foldl_nil, List.not_mem_nil, false_and, exists_false, iff_false]
    intro member
    exact busy_eq_false.mp idle y member its
  | cons x due ih =>
    obtain ⟨fresh, keyed⟩ := List.nodup_cons.mp keyed
    by_cases same : x.providerId = providerId
    · subst same
      have others : ∀ z ∈ due, z.providerId ≠ x.providerId := by
        intro z member equal
        exact fresh (List.mem_map.mpr ⟨z, member, equal⟩)
      rw [List.foldl_cons, mem_launch_all_other others its, launch_eq]
      by_cases runs : s.launches x = true
      · rw [if_pos runs, claim, if_neg (by simp [idle])]
        simp only [List.mem_append, List.mem_singleton]
        constructor
        · rintro (member | rfl)
          · exact absurd its (busy_eq_false.mp idle y member)
          · exact ⟨x, List.mem_cons_self, rfl, runs, rfl⟩
        · rintro ⟨z, member, zIts, _, rfl⟩
          obtain rfl | later := List.mem_cons.mp member
          · exact .inr rfl
          · exact absurd zIts (others z later)
      · rw [if_neg runs]
        constructor
        · intro member
          exact absurd its (busy_eq_false.mp idle y member)
        · rintro ⟨z, member, zIts, zRuns, _⟩
          obtain rfl | later := List.mem_cons.mp member
          · exact absurd zRuns runs
          · exact absurd zIts (others z later)
    · have idle' : (s.launch x).busy providerId = false := by
        rw [busy_eq_false] at idle ⊢
        intro z member zIts
        exact idle z ((mem_launch_other same zIts).mp member) zIts
      rw [List.foldl_cons, ih keyed idle']
      constructor
      · rintro ⟨z, member, zIts, zRuns, equal⟩
        exact ⟨z, List.mem_cons_of_mem _ member, zIts, (launch_launches x z) ▸ zRuns, equal⟩
      · rintro ⟨z, member, zIts, zRuns, equal⟩
        obtain rfl | later := List.mem_cons.mp member
        · exact absurd zIts same
        · exact ⟨z, later, zIts, (launch_launches x z).symm ▸ zRuns, equal⟩

/-- What a tick leaves in flight in a directory that had nothing there. -/
theorem mem_tick (idle : s.busy providerId = false) {y : InFlight} (its : y.providerId = providerId) :
    y ∈ (s.tick c now failed).inFlight ↔
      ∃ x ∈ s.pickDueTasks c now (s.listed failed), x.providerId = providerId ∧ s.launches x = true ∧
        y = { providerId, taskKey := x.taskKey, phase := .claimed } := by
  have keyed := (picked_best c s now failed).keyed
  let watched : State := { s with store := s.watchdog now failed (s.listed failed) (s.seed failed) }
  have still : watched.busy providerId = false := idle
  exact mem_launch_all keyed still its

/-- It is the task picked, where its prerequisites hold. -/
theorem claimed_mem_tick (at' : s.directory providerId = some d) (configured : d.configured = true)
    (idle : s.busy providerId = false) {k : SyncTaskKey} :
    { providerId, taskKey := k, phase := .claimed } ∈ (s.tick c now failed).inFlight ↔
      s.entry providerId k ∈ s.pickDueTasks c now (s.listed failed) ∧ s.meetsRequires d k = true := by
  rw [mem_tick idle rfl]
  constructor
  · rintro ⟨x, member, its, launched, equal⟩
    obtain ⟨l, _, isX, _⟩ := of_picked member
    have sameKey : k = x.taskKey := congrArg InFlight.taskKey equal
    have entered : s.entry providerId k = x := by
      rw [← its, sameKey, ← isX]
      rfl
    rw [launches, its, at', Option.any_some, configured, Bool.true_and, ← sameKey] at launched
    exact ⟨entered ▸ member, launched⟩
  · rintro ⟨member, met⟩
    refine ⟨_, member, rfl, ?_, rfl⟩
    show (s.directory providerId).any (fun d => d.configured && s.meetsRequires d k) = true
    rw [at', Option.any_some, configured, met]
    rfl

/-- One tick starts a task in every directory with something to run exactly when
no blocked task goes before the ones it could run there. -/
theorem progress_iff : s.Progress c now failed ↔ s.UnblockedFirst c now failed := by
  constructor
  · intro progress p d runnable
    obtain ⟨k, _, met, inFlight⟩ := progress p d runnable
    obtain ⟨at', configured, idle, _⟩ := runnable
    obtain ⟨picked, _⟩ := (claimed_mem_tick at' configured idle).mp inFlight
    obtain ⟨l, choosable, same, unbeaten⟩ := of_picked picked
    have sameKey : l = k := congrArg Candidate.taskKey same
    subst sameKey
    refine ⟨l, choosable, met, ?_⟩
    intro blocked other unmet
    have differ : l ≠ blocked := by
      rintro rfl
      rw [met] at unmet
      cases unmet
    exact (before_or_before differ).resolve_right (unbeaten blocked other)
  · intro first p d runnable
    obtain ⟨k, choosable, met, ahead⟩ := first p d runnable
    obtain ⟨at', configured, idle, _⟩ := runnable
    obtain ⟨a, picked, its⟩ := exists_picked choosable
    obtain ⟨l, chosen, same, unbeaten⟩ := of_picked picked
    rw [its] at chosen same unbeaten
    have metL : s.meetsRequires d l = true := by
      by_contra unmet
      have unmet : s.meetsRequires d l = false := by simpa using unmet
      exact unbeaten k choosable (ahead l chosen unmet)
    exact ⟨l, .inr chosen, metL, (claimed_mem_tick at' configured idle).mpr ⟨same ▸ picked, metL⟩⟩

/-- Launching tasks changes neither directories nor settings. -/
theorem launch_all_frame (due : List Candidate) :
    (due.foldl launch s).directories = s.directories ∧ (due.foldl launch s).entra = s.entra ∧
      (due.foldl launch s).forced = s.forced ∧ (due.foldl launch s).store = s.store := by
  induction due generalizing s with
  | nil => exact ⟨rfl, rfl, rfl, rfl⟩
  | cons x due ih =>
    have one : (s.launch x).directories = s.directories ∧ (s.launch x).entra = s.entra ∧
        (s.launch x).forced = s.forced ∧ (s.launch x).store = s.store := by
      rw [launch_eq]
      unfold claim
      split
      · split <;> exact ⟨rfl, rfl, rfl, rfl⟩
      · exact ⟨rfl, rfl, rfl, rfl⟩
    obtain ⟨directories, entra, forced, store⟩ := ih (s := s.launch x)
    exact ⟨directories.trans one.1, entra.trans one.2.1, forced.trans one.2.2.1, store.trans one.2.2.2⟩

end State

/-- What of a task's row the scheduler's own ticks leave as it was: all but its last run's end. -/
def SyncTasks.Keeps (t u : SyncTasks) : Prop :=
  ∀ r ∈ t.tasks, ∃ status error finished,
    { r with lastStatus := status, lastError := error, lastFinishedAt := finished } ∈ u.tasks

namespace SyncTasks
variable {t u v : SyncTasks}

theorem Keeps.refl : t.Keeps t := fun r member => ⟨r.lastStatus, r.lastError, r.lastFinishedAt, member⟩

theorem Keeps.trans (first : t.Keeps u) (second : u.Keeps v) : t.Keeps v := by
  intro r member
  obtain ⟨status, error, finished, kept⟩ := first r member
  obtain ⟨status', error', finished', kept'⟩ := second _ kept
  exact ⟨status', error', finished', kept'⟩

theorem keeps_ensureSeeded (providerId : Nat) (hasEntra : Bool) :
    t.Keeps (t.ensureSeeded providerId hasEntra) := by
  intro r member
  exact ⟨r.lastStatus, r.lastError, r.lastFinishedAt, List.mem_append_left _ member⟩

theorem keeps_resetStuck (providerId : Nat) (k : SyncTaskKey) (reason : String) (now : Int) :
    t.Keeps (t.resetStuck providerId k reason now) := by
  intro r member
  by_cases stuck : r.Of providerId k ∧ r.lastStatus = some .running
  · exact ⟨some .failed, some reason, some now, Table.mem_update.mpr ⟨r, member, if_pos stuck⟩⟩
  · exact ⟨r.lastStatus, r.lastError, r.lastFinishedAt, Table.mem_update.mpr ⟨r, member, if_neg stuck⟩⟩

theorem keeps_foldl {α : Type} {f : SyncTasks → α → SyncTasks}
    (one : ∀ (t : SyncTasks) (x : α), t.Keeps (f t x)) (xs : List α) :
    t.Keeps (xs.foldl f t) := by
  induction xs generalizing t with
  | nil => exact .refl
  | cons x xs ih => exact (one t x).trans ih

end SyncTasks

namespace State
variable {c : LocalCalendar} {s t : State} {now : Int} {failed : TickFailures} {providerId : Nat}
    {d : Directory}

theorem keeps_seed (s : State) (failed : TickFailures) : s.store.Keeps (s.seed failed) := by
  refine SyncTasks.keeps_foldl (fun t x => ?_) _
  split
  · exact SyncTasks.keeps_ensureSeeded _ _
  · exact .refl

/-- A tick leaves the directories, the integrations and the forced tasks as they are. -/
theorem tick_frame (c : LocalCalendar) (s : State) (now : Int) (failed : TickFailures) :
    (s.tick c now failed).directories = s.directories ∧ (s.tick c now failed).entra = s.entra ∧
      (s.tick c now failed).forced = s.forced := by
  obtain ⟨directories, entra, forced, _⟩ := launch_all_frame
    (s := ({ s with store := s.watchdog now failed (s.listed failed) (s.seed failed) } : State))
    (s.pickDueTasks c now (s.listed failed))
  exact ⟨directories, entra, forced⟩

theorem meetsRequires_tick (k : SyncTaskKey) : (s.tick c now failed).meetsRequires d k =
    s.meetsRequires d k := by
  simp only [meetsRequires, hasEntra, (tick_frame c s now failed).2.1]

theorem keeps_tick (c : LocalCalendar) (s : State) (now : Int) (failed : TickFailures) :
    s.store.Keeps (s.tick c now failed).store := by
  have watched : (s.seed failed).Keeps (s.watchdog now failed (s.listed failed) (s.seed failed)) := by
    refine SyncTasks.keeps_foldl (fun t x => ?_) _
    split
    · exact SyncTasks.keeps_resetStuck _ _ _ _
    · exact .refl
  rw [tick, (launch_all_frame _).2.2.2]
  exact (keeps_seed s failed).trans watched

/-- An enabled row of a task is among those a tick lists, its cadence as it was. -/
theorem exists_listed (c : LocalCalendar) (failed : TickFailures) {r : TaskRecord} {k : SyncTaskKey}
    (member : r ∈ s.store.tasks) (enabled : r.enabled = true)
    (of : r.Of providerId k) :
    ∃ row, (providerId, row) ∈ s.listed failed ∧ row.taskKey = k ∧
      ∀ now, c.isDueNow row now = c.isDueNow (r.toRow k) now := by
  obtain ⟨status, error, finished, kept⟩ := keeps_seed s failed r member
  have known : knownTaskKey r.taskKey = some k := of.2 ▸ knownTaskKey_name k
  refine ⟨({ r with lastStatus := status, lastError := error, lastFinishedAt := finished } :
    TaskRecord).toRow k, ?_, rfl, fun _ => rfl⟩
  refine List.mem_filterMap.mpr ⟨_, List.mem_filter.mpr ⟨kept, enabled⟩, ?_⟩
  simp only [TaskRecord.listed, known, Option.map_some, of.1]

/-- A forced task whose prerequisites don't hold, its row enabled, that goes
before every forced task of its directory whose do. -/
structure Held (s : State) (providerId : Nat) (d : Directory) (k : SyncTaskKey) : Prop where
  directory : s.directory providerId = some d
  idle : s.busy providerId = false
  forced : (providerId, k) ∈ s.forced
  unmet : s.meetsRequires d k = false
  row : ∃ r ∈ s.store.tasks, r.enabled = true ∧ r.Of providerId k
  first : ∀ l, (providerId, l) ∈ s.forced → s.meetsRequires d l = true →
    (taskRegistry k).priority < (taskRegistry l).priority

theorem Held.choosable {k : SyncTaskKey} (held : s.Held providerId d k) :
    s.Choosable c now failed providerId k := by
  obtain ⟨r, member, enabled, of⟩ := held.row
  obtain ⟨row, listed, same, _⟩ := exists_listed c failed member enabled of
  exact ⟨row, listed, same, .inl held.forced⟩

/-- While it is held, a tick runs nothing in its directory. -/
theorem Held.nothing_launched {k : SyncTaskKey} (held : s.Held providerId d k) {y : InFlight}
    (its : y.providerId = providerId) : y ∉ (s.tick c now failed).inFlight := by
  rw [mem_tick held.idle its]
  rintro ⟨x, picked, xIts, launched, _⟩
  obtain ⟨l, _, isX, unbeaten⟩ := of_picked picked
  have sameKey : l = x.taskKey := congrArg Candidate.taskKey isX
  have met : s.meetsRequires d l = true := by
    simp only [launches, xIts, held.directory, Option.any_some, Bool.and_eq_true] at launched
    exact sameKey ▸ launched.2
  rw [xIts] at unbeaten
  -- The picked task would be forced itself, and then after the held one.
  refine unbeaten k held.choosable ?_
  by_cases forced : (providerId, l) ∈ s.forced
  · exact .inr ⟨by simp [held.forced, forced], held.first l forced met⟩
  · exact .inl ⟨held.forced, forced⟩

/-- A directory at work on a task stays so over a tick. -/
theorem Held.tick {k : SyncTaskKey} (held : s.Held providerId d k) (c : LocalCalendar) (now : Int)
    (failed : TickFailures) : (s.tick c now failed).Held providerId d k := by
  obtain ⟨directories, _, forced⟩ := tick_frame c s now failed
  obtain ⟨r, member, enabled, of⟩ := held.row
  obtain ⟨status, error, finished, kept⟩ := keeps_tick c s now failed r member
  refine ⟨?_, ?_, ?_, ?_, ⟨_, kept, enabled, of⟩, ?_⟩
  · rw [State.directory, directories]
    exact held.directory
  · rw [busy_eq_false]
    intro y member its
    exact held.nothing_launched its member
  · rw [forced]
    exact held.forced
  · rw [meetsRequires_tick]
    exact held.unmet
  · intro l inForced met
    rw [forced] at inForced
    rw [meetsRequires_tick] at met
    exact held.first l inForced met

/-- However many ticks pass, a held task stays held. -/
theorem Held.ticks {k : SyncTaskKey} (held : s.Held providerId d k) (c : LocalCalendar)
    (ticks : List (Int × TickFailures)) :
    ∃ t, (system c).run s (ticks.map fun x => .tick x.1 x.2) = some t ∧ t.Held providerId d k ∧
      s.store.Keeps t.store ∧ ∀ l, t.meetsRequires d l = s.meetsRequires d l := by
  induction ticks generalizing s with
  | nil => exact ⟨s, rfl, held, .refl, fun _ => rfl⟩
  | cons x ticks ih =>
    obtain ⟨t, ran, heldT, keeps, same⟩ := ih (held.tick c x.1 x.2)
    exact ⟨t, ran, heldT, (keeps_tick c s x.1 x.2).trans keeps, fun l =>
      (same l).trans (meetsRequires_tick l)⟩

/-- A forced task that stays blocked keeps the due ones of its directory from
running at every tick, however many have passed. -/
theorem Held.starves {k l : SyncTaskKey} (held : s.Held providerId d k) (configured : d.configured = true)
    {r : TaskRecord} (row : r ∈ s.store.tasks) (enabled : r.enabled = true) (of : r.Of providerId l)
    (met : s.meetsRequires d l = true) (due : c.isDueNow (r.toRow l) now = true) (failed : TickFailures)
    (ticks : List (Int × TickFailures)) :
    ∃ t, (system c).run s (ticks.map fun x => .tick x.1 x.2) = some t ∧ t.Runnable c now failed providerId d ∧
      ¬t.Progress c now failed := by
  obtain ⟨t, ran, heldT, keeps, same⟩ := held.ticks c ticks
  obtain ⟨status, error, finished, kept⟩ := keeps r row
  obtain ⟨row', listed, sameKey, dueSame⟩ := exists_listed c failed kept enabled of
  have choosable : t.Choosable c now failed providerId l :=
    ⟨row', listed, sameKey, .inr ((dueSame now).trans due)⟩
  have runnable : t.Runnable c now failed providerId d :=
    ⟨heldT.directory, configured, heldT.idle, l, .inr choosable, (same l).trans met⟩
  refine ⟨t, ran, runnable, ?_⟩
  intro progress
  obtain ⟨j, _, _, launched⟩ := progress providerId d runnable
  exact heldT.nothing_launched rfl launched

end State

/-- In every run, whatever the tables, the directories and the forced tasks, each
tick starts a task wherever there is one to run exactly when, at each tick, no
task whose prerequisites don't hold goes before those whose do. -/
theorem ticks_progress_iff (c : LocalCalendar) (s : State) (as : List Action) :
    (system c).MeetsAlong (AtTick (State.Progress c)) s as ↔
      (system c).MeetsAlong (AtTick (State.UnblockedFirst c)) s as := by
  apply Transition.System.meetsAlong_congr
  intro s a
  cases a with
  | tick now failed => exact State.progress_iff
  | _ => rfl

/-- A directory with a service account, its Entra integration turned off, the
lockout poll never run and the photo refresh still enabled. -/
def integrationOff : State where
  directories :=
    [{ id := 1, configured := true, syncBindUpn := some "sync@corp.example", hasSyncBindPassword := true }]
  entra := some [{ providerId := 1, enabled := false, hasClientSecret := true }]
  store :=
    { tasks := [.seeded 1 .usersLocked, .seeded 1 .entraPhotosRefresh]
      runs := []
      nextRun := 0 }
  forced := []
  inFlight := []

/-- Once an operator asks for the photo refresh there, the lockout poll never runs again. -/
theorem lockout_poll_starves : ∃ s, ∀ c : LocalCalendar, (system c).Reachable s ∧
    ∀ (now : Int) (failed : TickFailures) (ticks : List (Int × TickFailures)), ∃ t,
      (system c).run s (ticks.map fun x => .tick x.1 x.2) = some t ∧ ¬t.Progress c now failed := by
  refine ⟨integrationOff.triggerNow 1 .entraPhotosRefresh, ?_⟩
  intro c
  have reached : (system c).Reachable (integrationOff.triggerNow 1 .entraPhotosRefresh) :=
    .next (a := .triggerNow 1 .entraPhotosRefresh) (.start ⟨rfl, rfl⟩) trivial rfl
  have held : (integrationOff.triggerNow 1 .entraPhotosRefresh).Held 1
      { id := 1, configured := true, syncBindUpn := some "sync@corp.example", hasSyncBindPassword := true }
      .entraPhotosRefresh := by
    refine ⟨by decide, by decide, by decide, by decide,
      ⟨.seeded 1 .entraPhotosRefresh, by decide, rfl, rfl, rfl⟩, ?_⟩
    intro l forced met
    have only : l = .entraPhotosRefresh := by simpa [State.triggerNow, integrationOff] using forced
    subst only
    exact absurd met (by decide)
  refine ⟨reached, ?_⟩
  intro now failed ticks
  have enabled : TaskRecord.seeded 1 .usersLocked ∈
    (integrationOff.triggerNow 1 .entraPhotosRefresh).store.tasks := by
    decide
  obtain ⟨t, ran, _, fails⟩ := held.starves (l := .usersLocked) rfl enabled rfl ⟨rfl, rfl⟩
    (by decide) (rfl : c.isDueNow _ now = true) failed ticks
  exact ⟨t, ran, fails⟩

end OpenAduc.Sync
