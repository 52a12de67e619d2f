import OpenAduc.Sync.Store

namespace OpenAduc.Sync

/-- What a task's runner returns; a cursor it leaves out leaves the stored one. -/
structure RunnerResult where
  cursor : Option (Option Int)
  triggers : List SyncTaskKey
  deriving DecidableEq, Repr

/-- How far writing a run's end came: a process that stops, or a statement that
fails, can leave both of its updates or only the second unmade. -/
inductive Closing
  | unwritten
  | taskRow
  | written
  deriving DecidableEq, Repr

/-- A run as the tables see it: what its runner came to, and how far that was written. -/
structure RunRecord where
  trigger : Trigger
  startedAt : Int
  result : Except String RunnerResult
  finishedAt : Int
  closing : Closing

/-- Its success is in the run history. -/
def RunRecord.Recorded (x : RunRecord) : Prop :=
  x.closing = .written ∧ ∃ value, x.result = .ok value

/-- `OVERLAP_MS`, of the sign-in events and of the delta runners. -/
def overlap : Int := 5 * 60000

/-- Where a query reaches back to, given the time it asks from. -/
def lowerBound (since : Option Int) : Option Int :=
  since.map (· - overlap)

/-- A query from this bound asks for what was made or changed at a time. -/
def Within (bound : Option Int) (time : Int) : Prop :=
  ∀ b ∈ bound, b ≤ time

instance (bound : Option Int) (time : Int) : Decidable (Within bound time) :=
  inferInstanceAs (Decidable (∀ b ∈ bound, b ≤ time))

namespace SyncTasks
variable (s : SyncTasks)

/-- A directory's row of a task, as `listForDirectory` finds it. -/
def rowOf (providerId : Nat) (k : SyncTaskKey) : Option TaskRecord :=
  s.tasks.find? fun r => r.Of providerId k

def lastCursor (providerId : Nat) (k : SyncTaskKey) : Option Int :=
  (s.rowOf providerId k).bind (·.lastCursor)

/-- What the runner's end has `markFinished` write. -/
def finishedOf : Except String RunnerResult → Finished
  | .ok result => { error := none, cursor := result.cursor }
  | .error message => { error := some message, cursor := none }

/-- A run's end written as far as it came. -/
def close (providerId : Nat) (k : SyncTaskKey) (result : Finished) (runId : Nat) (now : Int) :
    Closing → SyncTasks
  | .unwritten => s
  | .taskRow => s.markFinished providerId k result none now
  | .written => s.markFinished providerId k result (some runId) now

/-- The tables after a run: opened by `markStarted`, closed as far as its end was written. -/
def afterRun (providerId : Nat) (k : SyncTaskKey) (x : RunRecord) : SyncTasks :=
  (s.markStarted providerId k x.trigger x.startedAt).close providerId k (finishedOf x.result)
    s.nextRun x.finishedAt x.closing

/-- No history row has an id still to give out, and every one of the task's started by `now`. -/
structure Settled (providerId : Nat) (k : SyncTaskKey) (now : Int) : Prop where
  fresh : ∀ r ∈ s.runs, r.id < s.nextRun
  started : ∀ t ∈ s.lastSuccessfulStartAt providerId k, t ≤ now

variable {s} {providerId : Nat} {k : SyncTaskKey}

/-- A time no earlier than the others, added to them, is the latest. -/
theorem latest_append {ts : List Int} {t : Int} (after : ∀ u ∈ latest ts, u ≤ t) :
    latest (ts ++ [t]) = some t := by
  induction ts with
  | nil => rfl
  | cons u ts ih =>
    have rest : ∀ v ∈ latest ts, v ≤ t := by
      intro v is
      have is : latest ts = some v := is
      have bound : (if v < u then u else v) ≤ t := after _ (by simp only [latest, is]; rfl)
      split at bound <;> omega
    have first : u ≤ t := by
      cases is : latest ts with
      | none => exact after u (by simp only [latest, is]; rfl)
      | some v =>
        have bound : (if v < u then u else v) ≤ t := after _ (by simp only [latest, is]; rfl)
        split at bound <;> omega
    simp only [List.cons_append, latest, ih rest]
    have kept : (if t < u then u else t) = t := if_neg (by omega)
    rw [kept]

/-- A task's row after an update of it, every other field of which may change. -/
theorem find_update_of {set : TaskRecord → TaskRecord}
    (kept : ∀ r, r.Of providerId k → (set r).Of providerId k) (t : List TaskRecord) :
    (Table.update (fun r => r.Of providerId k) set t).find? (fun r => r.Of providerId k) =
      (t.find? fun r => r.Of providerId k).map set := by
  induction t with
  | nil => rfl
  | cons r t ih =>
    by_cases of : r.Of providerId k
    · have of' := kept r of
      simp [Table.update, of, of']
    · have rest : (Table.update (fun r => r.Of providerId k) set (r :: t)) =
          r :: Table.update (fun r => r.Of providerId k) set t := by
        simp [Table.update, of]
      rw [rest, List.find?_cons_of_neg (by simpa using of), List.find?_cons_of_neg (by simpa using of), ih]

theorem rowOf_markStarted (trigger : Trigger) (now : Int) :
    (s.markStarted providerId k trigger now).rowOf providerId k = (s.rowOf providerId k).map fun r => { r with
      lastStartedAt := some now, lastFinishedAt := none, lastStatus := some .running, lastError := none } :=
  find_update_of (by exact fun _ of => of) s.tasks

theorem rowOf_markFinished (f : Finished) (runId : Option Nat) (now : Int) :
    (s.markFinished providerId k f runId now).rowOf providerId k =
      (s.rowOf providerId k).map fun r => { r with
      lastFinishedAt := some now
      lastStatus := some f.status
      lastError := f.error
      consecutiveFailures := if f.error.isSome then r.consecutiveFailures + 1 else 0
      lastCursor := f.cursor.getD r.lastCursor } :=
  find_update_of (by exact fun _ of => of) s.tasks

/-- A run leaves the row the cursor its runner returned, where that was written. -/
theorem lastCursor_afterRun (x : RunRecord) :
    (s.afterRun providerId k x).lastCursor providerId k =
      (s.rowOf providerId k).bind fun r =>
        if x.closing = .unwritten then r.lastCursor else (finishedOf x.result).cursor.getD r.lastCursor := by
  cases closed : x.closing <;>
    simp only [lastCursor, afterRun, closed, close, rowOf_markFinished, rowOf_markStarted] <;>
    cases s.rowOf providerId k <;> rfl

/-- Only the run's own history row is closed. -/
theorem runs_afterRun (fresh : ∀ r ∈ s.runs, r.id < s.nextRun) (x : RunRecord) :
    ∃ r, (s.afterRun providerId k x).runs = s.runs ++ [r] ∧ r.id = s.nextRun ∧ r.providerId = providerId ∧
      r.taskKey = k ∧ r.startedAt = x.startedAt ∧ (r.status = .succeeded ↔ x.Recorded) := by
  let opened : TaskRun :=
    { id := s.nextRun, providerId, taskKey := k, status := .running, startedAt := x.startedAt,
      finishedAt := none,
      error := none, trigger := x.trigger }
  cases closed : x.closing with
  | unwritten =>
    refine ⟨opened, ?_, rfl, rfl, rfl, rfl, by simp [opened, RunRecord.Recorded, closed]⟩
    rw [afterRun, closed]
    rfl
  | taskRow =>
    refine ⟨opened, ?_, rfl, rfl, rfl, rfl, by simp [opened, RunRecord.Recorded, closed]⟩
    rw [afterRun, closed]
    refine Table.update_eq_self ?_
    intro r _ same
    cases same
  | written =>
    have others : ∀ r ∈ s.runs, ¬some r.id = some s.nextRun := by
      intro r member same
      have before := fresh r member
      have equal : r.id = s.nextRun := Option.some.inj same
      omega
    refine ⟨{ opened with
      status := (finishedOf x.result).status, finishedAt := some x.finishedAt, error :=
        (finishedOf x.result).error },
      ?_, rfl, rfl, rfl, rfl, ?_⟩
    · rw [afterRun, closed]
      refine Table.update_append.trans ?_
      rw [Table.update_eq_self others]
      simp [Table.update, opened]
    · cases came : x.result <;> simp [RunRecord.Recorded, closed, came, finishedOf, Finished.status]

theorem fresh_afterRun (fresh : ∀ r ∈ s.runs, r.id < s.nextRun) (x : RunRecord) :
    ∀ r ∈ (s.afterRun providerId k x).runs, r.id < (s.afterRun providerId k x).nextRun := by
  obtain ⟨new, runs, id, _⟩ := runs_afterRun (k := k) fresh x
  have next : (s.afterRun providerId k x).nextRun = s.nextRun + 1 := by
    cases closed : x.closing <;> simp only [afterRun, closed] <;> rfl
  intro r member
  rw [runs] at member
  rw [next]
  obtain old | rfl : r ∈ s.runs ∨ r = new := by simpa using member
  · have before := fresh r old
    omega
  · omega

/-- A run whose success is recorded is the last to have; another leaves the last as it was. -/
theorem lastSuccessfulStartAt_afterRun (fresh : ∀ r ∈ s.runs, r.id < s.nextRun) (x : RunRecord)
    (later : ∀ t ∈ s.lastSuccessfulStartAt providerId k, t ≤ x.startedAt) :
    (x.Recorded → (s.afterRun providerId k x).lastSuccessfulStartAt providerId k = some x.startedAt) ∧
      (¬x.Recorded →
        (s.afterRun providerId k x).lastSuccessfulStartAt providerId k =
        s.lastSuccessfulStartAt providerId k) := by
  obtain ⟨r, runs, _, sameProvider, sameKey, started, succeeded⟩ := runs_afterRun (k := k) fresh x
  rw [lastSuccessfulStartAt, runs, List.filter_append, List.map_append]
  constructor
  · intro recorded
    have counts := succeeded.mpr recorded
    have one : (([r].filter fun r => r.providerId = providerId && r.taskKey = k && r.status = .succeeded).map
        (·.startedAt)) = [x.startedAt] := by
      simp [sameProvider, sameKey, counts, started]
    rw [one]
    exact latest_append later
  · intro not
    have counts : r.status ≠ .succeeded := fun is => not (succeeded.mp is)
    have none : ([r].filter fun r => r.providerId = providerId && r.taskKey = k &&
      r.status = .succeeded) = [] := by
      simp [counts]
    rw [none, List.map_nil, List.append_nil]
    rfl

/-- After a run that started no earlier than the last success, what it left is settled by its end. -/
theorem Settled.afterRun {now : Int} {x : RunRecord} (settled : s.Settled providerId k now)
    (later : now ≤ x.startedAt)
    (ends : x.startedAt ≤ x.finishedAt) : (s.afterRun providerId k x).Settled providerId k x.finishedAt := by
  refine ⟨fresh_afterRun settled.fresh x, ?_⟩
  have before : ∀ t ∈ s.lastSuccessfulStartAt providerId k, t ≤ x.startedAt := by
    intro t is
    have := settled.started t is
    omega
  obtain ⟨recorded, unrecorded⟩ := lastSuccessfulStartAt_afterRun settled.fresh x before
  intro t is
  by_cases counts : x.Recorded
  · rw [recorded counts] at is
    cases is
    exact ends
  · rw [unrecorded counts] at is
    have := before t is
    omega

end SyncTasks
end OpenAduc.Sync
