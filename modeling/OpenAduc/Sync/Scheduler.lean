import OpenAduc.Lib.Pick
import OpenAduc.Lib.Transition
import OpenAduc.Sync.Due

namespace OpenAduc.Sync

structure Directory where
  id : Nat
  configured : Bool
  syncBindUpn : Option String
  hasSyncBindPassword : Bool
  deriving DecidableEq, Repr

def Directory.hasServiceAccount (d : Directory) : Bool :=
  d.syncBindUpn.any (· ≠ "") && d.hasSyncBindPassword

structure EntraIntegrationSummary where
  providerId : Nat
  enabled : Bool
  hasClientSecret : Bool
  deriving DecidableEq, Repr

inductive Phase
  /-- The directory is claimed in this process; its advisory lock is still to take. -/
  | claimed
  /-- The runner is at work, under the history row `markStarted` opened. -/
  | running (runId : Nat)
  deriving DecidableEq, Repr

structure InFlight where
  providerId : Nat
  taskKey : SyncTaskKey
  phase : Phase
  deriving DecidableEq, Repr

/-- The scheduler of one process, and the tables it reads. The sets `inFlight`
and `inFlightByDirectory` are added to and deleted from together, so one list
holds both. -/
structure State where
  directories : List Directory
  /-- `none` where the scheduler was built without its Entra dependencies. -/
  entra : Option (List EntraIntegrationSummary)
  store : SyncTasks
  forced : List (Nat × SyncTaskKey)
  inFlight : List InFlight
  deriving DecidableEq, Repr

/-- What the tick's picker holds of a task. -/
structure Candidate where
  providerId : Nat
  taskKey : SyncTaskKey
  priority : Nat
  forced : Bool
  deriving DecidableEq, Repr

/-- A forced task beats a due one; among peers the lower priority number does. -/
def Candidate.better (a b : Candidate) : Bool :=
  (a.forced && !b.forced) || (a.forced == b.forced && decide (a.priority < b.priority))

/-- The statements of a tick that fail: each is logged and passed over. -/
structure TickFailures where
  seeds : List Nat
  resets : List (Nat × SyncTaskKey)
  deriving DecidableEq, Repr

namespace State
variable (s : State)

def directory (providerId : Nat) : Option Directory :=
  s.directories.find? (·.id == providerId)

/-- An enabled integration with a stored secret. -/
def hasEntra (providerId : Nat) : Bool :=
  ((s.entra.getD []).find? (·.providerId == providerId)).any fun i => i.enabled && i.hasClientSecret

/-- Whether the directory has what the task declares it requires. -/
def meetsRequires (d : Directory) (k : SyncTaskKey) : Bool :=
  (!(taskRegistry k).adSync || d.hasServiceAccount) && (!(taskRegistry k).entra || s.hasEntra d.id)

def busy (providerId : Nat) : Bool :=
  s.inFlight.any (·.providerId == providerId)

def triggerNow (providerId : Nat) (k : SyncTaskKey) : State :=
  if s.forced.contains (providerId, k) then s else { s with forced := s.forced ++ [(providerId, k)] }

/-- Insert the rows each configured directory lacks. -/
def seed (failed : TickFailures) : SyncTasks :=
  s.directories.foldl
    (fun store d =>
      if d.configured && !failed.seeds.contains d.id then store.ensureSeeded d.id (s.hasEntra d.id)
        else store) s.store

def inFlightKeyHeld (providerId : Nat) (k : SyncTaskKey) : Bool :=
  s.inFlight.any fun x => x.providerId == providerId && x.taskKey == k

def watchdogReason (k : SyncTaskKey) : String :=
  "watchdog: did not finish within " ++ toString (taskRegistry k).watchdogMinutes ++ " minutes"

/-- A row left `running` past its cap, by a run this process isn't at. -/
def stuck (now : Int) (x : Nat × SyncTaskRow) : Bool :=
  x.2.lastStatus = some .running && !s.inFlightKeyHeld x.1 x.2.taskKey &&
    x.2.lastStartedAt.any fun started =>
      started ≠ 0 && (taskRegistry x.2.taskKey).watchdogMinutes * 60000 < now - started

def watchdog (now : Int) (failed : TickFailures) (allEnabled : List (Nat × SyncTaskRow))
    (store : SyncTasks) : SyncTasks :=
  allEnabled.foldl
    (fun store x =>
      if s.stuck now x && !failed.resets.contains (x.1, x.2.taskKey) then
        store.resetStuck x.1 x.2.taskKey (watchdogReason x.2.taskKey) now
      else store) store

/-- A task to choose among: an enabled row that is forced or due. -/
def candidate (c : LocalCalendar) (now : Int) (x : Nat × SyncTaskRow) : Option Candidate :=
  let forced := s.forced.contains (x.1, x.2.taskKey)
  if forced || c.isDueNow x.2 now then
    some { providerId := x.1, taskKey := x.2.taskKey, priority :=
      (taskRegistry x.2.taskKey).priority, forced }
  else none

def pickDueTasks (c : LocalCalendar) (now : Int) (allEnabled : List (Nat × SyncTaskRow)) : List Candidate :=
  Pick.best (·.providerId) Candidate.better (allEnabled.filterMap (s.candidate c now))

/-- The synchronous part of `runTask`: claim the directory. -/
def claim (providerId : Nat) (k : SyncTaskKey) : State :=
  if s.busy providerId then s
  else { s with inFlight := s.inFlight ++ [{ providerId, taskKey := k, phase := .claimed }] }

/-- Run the task chosen for a directory, unless one is in flight there or what
the task requires is missing. -/
def launch (x : Candidate) : State :=
  match s.directory x.providerId with
  | none => s
  | some d =>
    if d.configured && s.meetsRequires d x.taskKey then s.claim x.providerId x.taskKey else s

def tick (c : LocalCalendar) (now : Int) (failed : TickFailures) : State :=
  let store := s.seed failed
  let allEnabled := store.listAllEnabled
  let watched := { s with store := s.watchdog now failed allEnabled store }
  (s.pickDueTasks c now allEnabled).foldl launch watched

def release (providerId : Nat) : State :=
  { s with inFlight := s.inFlight.filter (·.providerId != providerId) }

/-- How a claimed run's way to its runner goes. -/
inductive BeginAnswer
  /-- Another process holds the directory's advisory lock, or no connection could be had. -/
  | notLocked
  /-- Something before the runner throws; `recorded` is whether its failure could be written. -/
  | throws (message : String) (recorded : Bool)
  | ready (graphBuilt : Bool)
  deriving DecidableEq, Repr

/-- `runTaskInProcess` up to its runner: the forced flag goes when the lock is had. -/
def begin (providerId : Nat) (now : Int) (answer : BeginAnswer) : Option State :=
  (s.inFlight.find? fun x => x.providerId == providerId && x.phase == .claimed).map fun x =>
    let unforced := { s with forced := s.forced.filter (· != (providerId, x.taskKey)) }
    match answer with
    | .notLocked => s.release providerId
    | .throws message recorded =>
      { unforced with
        store :=
          if recorded then s.store.markFinished providerId x.taskKey
            { error := some message, cursor := none } none now
          else s.store }.release providerId
    | .ready graphBuilt =>
      if (s.directory providerId).any fun d =>
          d.hasServiceAccount && (!(taskRegistry x.taskKey).entra || s.hasEntra providerId && graphBuilt) then
        let trigger := if s.forced.contains (providerId, x.taskKey) then Trigger.forced else .cadence
        { unforced with
          store := s.store.markStarted providerId x.taskKey trigger now
          inFlight :=
            Table.update (fun y => y.providerId = providerId)
              (fun y => { y with phase := .running s.store.nextRun })
              s.inFlight }
      else unforced.release providerId

/-- How a run ends: what is written, where it could be, and the tasks it triggers. -/
structure RunEnd where
  finished : SyncTasks.Finished
  recorded : Bool
  triggers : List SyncTaskKey
  deriving DecidableEq, Repr

def finish (providerId : Nat) (now : Int) (result : RunEnd) : Option State :=
  (s.inFlight.find? fun x => x.providerId == providerId).bind fun x =>
    match x.phase with
    | .claimed => none
    | .running runId =>
      let store :=
        if result.recorded then s.store.markFinished providerId x.taskKey result.finished
          (some runId) now else s.store
      let released := { s with store }.release providerId
      some (result.triggers.foldl (fun s k => s.triggerNow providerId k) released)

end State

inductive Action
  | tick (now : Int) (failed : TickFailures)
  | triggerNow (providerId : Nat) (k : SyncTaskKey)
  /-- The onboarding wizard runs a task at once, whatever its cadence. -/
  | runOnce (providerId : Nat) (k : SyncTaskKey)
  | begin (providerId : Nat) (now : Int) (answer : State.BeginAnswer)
  | finish (providerId : Nat) (now : Int) (result : State.RunEnd)
  /-- The process starts again: what it had in memory is gone. -/
  | restart
  /-- Operators, and other processes, change the tables. -/
  | changed (directories : List Directory) (entra : List EntraIntegrationSummary) (store : SyncTasks)
  deriving DecidableEq, Repr

def step (c : LocalCalendar) (s : State) : Action → Option State
  | .tick now failed => some (s.tick c now failed)
  | .triggerNow providerId k => some (s.triggerNow providerId k)
  | .runOnce providerId k => some (s.claim providerId k)
  | .begin providerId now answer => s.begin providerId now answer
  | .finish providerId now result => s.finish providerId now result
  | .restart => some { s with forced := [], inFlight := [] }
  | .changed directories entra store =>
    some { s with directories, entra := s.entra.map fun _ => entra, store }

/-- A process's scheduler over any tables, with nothing forced or in flight yet. -/
def system (c : LocalCalendar) : Transition.System State Action where
  init s := s.forced = [] ∧ s.inFlight = []
  step := step c

end OpenAduc.Sync
