import Mathlib.Data.List.Basic

namespace OpenAduc.Sync

inductive SyncTaskKey
  | usersLocked
  | usersDelta
  | usersFull
  | groupsDelta
  | groupsFull
  | computersDelta
  | computersFull
  | ousFull
  | policiesFull
  | membershipsRebuild
  | domainPolicy
  | tombstones
  | entraPhotosRefresh
  | entraSigninActivity
  | entraSigninsEvents
  | entraMfaRegistration
  | entraPasswordExpiryNotify
  | entraLicensesGroups
  deriving DecidableEq, Repr

/-- The text `directory_sync_tasks.task_key` holds. -/
def SyncTaskKey.name : SyncTaskKey → String
  | .usersLocked => "users.locked"
  | .usersDelta => "users.delta"
  | .usersFull => "users.full"
  | .groupsDelta => "groups.delta"
  | .groupsFull => "groups.full"
  | .computersDelta => "computers.delta"
  | .computersFull => "computers.full"
  | .ousFull => "ous.full"
  | .policiesFull => "policies.full"
  | .membershipsRebuild => "memberships.rebuild"
  | .domainPolicy => "domain.policy"
  | .tombstones => "tombstones"
  | .entraPhotosRefresh => "entra.photos.refresh"
  | .entraSigninActivity => "entra.signin.activity"
  | .entraSigninsEvents => "entra.signins.events"
  | .entraMfaRegistration => "entra.mfa.registration"
  | .entraPasswordExpiryNotify => "entra.password-expiry.notify"
  | .entraLicensesGroups => "entra.licenses.groups"

/-- What a task declares; `adSync` is `requires?.adSync !== false`. -/
structure TaskDefinition where
  defaultIntervalMinutes : Int
  /-- Lower runs first among a directory's tasks. -/
  priority : Nat
  seedByDefault : Bool
  watchdogMinutes : Int
  notifyAfterFailures : Nat
  adSync : Bool
  entra : Bool
  deriving DecidableEq, Repr

/-- A task of the directory itself, which needs only its service account. -/
def directoryTask (defaultIntervalMinutes : Int) (priority : Nat) (watchdogMinutes : Int)
    (notifyAfterFailures : Nat) : TaskDefinition where
  defaultIntervalMinutes
  priority
  seedByDefault := true
  watchdogMinutes
  notifyAfterFailures
  adSync := true
  entra := false

/-- A task that declares `requires: { entra: true }`. -/
def entraTask (defaultIntervalMinutes : Int) (priority : Nat) (watchdogMinutes : Int)
    (notifyAfterFailures : Nat) : TaskDefinition :=
  { directoryTask defaultIntervalMinutes priority watchdogMinutes notifyAfterFailures with entra := true }

def taskRegistry : SyncTaskKey → TaskDefinition
  | .usersLocked => directoryTask 5 10 5 6
  | .usersDelta => directoryTask 15 20 15 4
  | .groupsDelta => directoryTask 30 25 15 4
  | .computersDelta => directoryTask 30 27 15 4
  | .membershipsRebuild => directoryTask 30 30 10 4
  | .domainPolicy => directoryTask 360 40 5 3
  | .usersFull => directoryTask 1440 50 60 2
  | .groupsFull => directoryTask 1440 55 60 2
  | .computersFull => directoryTask 1440 57 60 2
  | .ousFull => directoryTask 10080 60 30 2
  | .policiesFull => directoryTask 1440 62 15 2
  | .tombstones => { directoryTask 1440 70 30 3 with seedByDefault := false }
  | .entraPhotosRefresh => entraTask 1440 80 30 3
  | .entraSigninActivity => entraTask 360 82 30 3
  | .entraSigninsEvents => entraTask 15 83 20 4
  | .entraMfaRegistration => entraTask 10080 84 30 2
  | .entraPasswordExpiryNotify => entraTask 1440 85 10 3
  | .entraLicensesGroups => entraTask 60 86 10 6

/-- `TASK_KEYS`, in the registry's order. -/
def taskKeys : List SyncTaskKey :=
  [.usersLocked, .usersDelta, .groupsDelta, .computersDelta, .membershipsRebuild, .domainPolicy, .usersFull,
    .groupsFull, .computersFull, .ousFull, .policiesFull, .tombstones, .entraPhotosRefresh,
      .entraSigninActivity,
    .entraSigninsEvents, .entraMfaRegistration, .entraPasswordExpiryNotify, .entraLicensesGroups]

/-- The task a stored key names, where `isKnownTaskKey` accepts it. -/
def knownTaskKey (key : String) : Option SyncTaskKey :=
  taskKeys.find? (·.name == key)

/-- The tasks a directory's seeding inserts. -/
def tasksToSeed (hasEntra : Bool) : List SyncTaskKey :=
  taskKeys.filter fun k => (taskRegistry k).seedByDefault && (!(taskRegistry k).entra || hasEntra)

@[simp] theorem knownTaskKey_name (k : SyncTaskKey) : knownTaskKey k.name = some k := by
  cases k <;> decide +kernel

/-- No two tasks share a priority, so one of them is always ahead. -/
theorem priority_injective {a b : SyncTaskKey}
    (same : (taskRegistry a).priority = (taskRegistry b).priority) :
    a = b := by
  have named : ∀ k, taskKeys.find?
    (fun c => (taskRegistry c).priority == (taskRegistry k).priority) = some k := by
    intro k
    cases k <;> decide
  have ofA := named a
  rw [same, named b] at ofA
  exact (Option.some.inj ofA).symm

end OpenAduc.Sync
