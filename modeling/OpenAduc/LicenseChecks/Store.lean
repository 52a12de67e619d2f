import OpenAduc.LicenseChecks.Rules
import OpenAduc.BulkJobs.Membership

namespace OpenAduc.LicenseChecks
open BulkJobs (BulkJobRowStatus GroupChange)

inductive CheckStatus
  | waiting
  | settled
  | stopped
  deriving DecidableEq, Repr

/-- What a check knows of a person's licenses. -/
structure FollowUp where
  expected : List ExpectedLicenseGroup
  status : CheckStatus
  entraUserId : Option String
  licenses : Option (List CheckedLicense)
  errorCode : Option ImportLicenseCheckCode
  message : Option String
  startedAt : Option Nat
  syncedAt : Option Nat
  checkedAt : Option Nat
  attempts : Nat
  deriving DecidableEq, Repr

/-- A record of `import_license_checks`. -/
structure Check extends FollowUp where
  rowId : Nat
  nextAttemptAt : Nat
  claimToken : Option Nat
  deriving DecidableEq, Repr

/-- A record of `bulk_job_rows` with its job's directory and creation; `groups` is
what its after_json says of them, null until a run has stored progress. -/
structure ImportRow where
  id : Nat
  providerId : Nat
  jobCreatedAt : Nat
  groupIds : List String
  status : BulkJobRowStatus
  targetId : Option String
  groups : Option (List GroupChange)
  finishedAt : Option Nat
  deriving DecidableEq, Repr

/-- A check a sweep has claimed and read, with what it reads of the import's row. -/
structure ClaimedCheck where
  check : Check
  providerId : Nat
  targetId : Option String
  groups : Option (List GroupChange)
  deriving DecidableEq, Repr

/-- A check to stop, as the sweep's selection has it. -/
structure OverdueCheck where
  rowId : Nat
  asWaiting : WaitingCheck
  deriving DecidableEq, Repr

/-- Which statement a sweep makes next; `on` are the directories with licenses on, as it read them. -/
inductive Stage
  | idle
  | stopping (on : List Nat) (now : Nat) (overdue : List OverdueCheck)
  | claiming (on : List Nat)
  | claimed (on : List Nat) (token : Nat) (rowId : Nat)
  | checking (on : List Nat) (token : Nat) (check : ClaimedCheck) (now : Nat)
  deriving DecidableEq, Repr

/-- A process: its one sweep, and the directories Graph has throttled, until when. -/
structure Process where
  stage : Stage
  throttledUntil : List (Nat × Nat)
  deriving DecidableEq, Repr

/-- The database, its clock, and the processes by their numbers. -/
structure State where
  now : Nat
  nextRow : Nat
  nextToken : Nat
  rows : List ImportRow
  checks : List Check
  processes : Nat → Process

namespace FollowUp

/-- As `storeLicenseChecks` inserts it. -/
def inserted (expected : List ExpectedLicenseGroup) : FollowUp where
  expected := expected
  status := .waiting
  entraUserId := none
  licenses := none
  errorCode := none
  message := none
  startedAt := none
  syncedAt := none
  checkedAt := none
  attempts := 0

/-- Claimed for a look; the first starts the wait for the account to sync. -/
def begun (f : FollowUp) (at_ : Nat) : FollowUp :=
  { f with attempts := f.attempts + 1, startedAt := f.startedAt.or (some at_) }

def halted (f : FollowUp) (stop : Stop) : FollowUp :=
  { f with status := .stopped, errorCode := some stop.code, message := some stop.message }

end FollowUp

/-- How long a claimed check is the claimer's before another process may take it. -/
def LEASE : Nat := 10 * MINUTE

namespace Check
variable (c : Check)

def Unclaimed (now : Nat) : Prop :=
  c.claimToken = none ∨ c.nextAttemptAt ≤ now

instance (now : Nat) : Decidable (c.Unclaimed now) :=
  inferInstanceAs (Decidable (_ ∨ _))

/-- What the sweep's selection reads of a check and its row. -/
def asWaiting (r : ImportRow) (on : List Nat) : WaitingCheck where
  code := c.errorCode
  message := c.message
  startedAt := (c.startedAt.or r.finishedAt).getD r.jobCreatedAt
  syncedAt := c.syncedAt
  licenses := c.licenses
  hasAccount := r.targetId.isSome
  licensesOn := on.contains r.providerId

/-- The selection's own condition for a check to be overdue. -/
def Overdue (r : ImportRow) (on : List Nat) (now : Nat) : Prop :=
  r.providerId ∉ on ∨
    (c.syncedAt = none ∧ (c.startedAt.or r.finishedAt).getD r.jobCreatedAt + SYNC_WINDOW_MS ≤ now) ∨
    c.syncedAt.any (· + SETTLE_WINDOW_MS ≤ now)

instance (r : ImportRow) (on : List Nat) (now : Nat) : Decidable (c.Overdue r on now) :=
  inferInstanceAs (Decidable (_ ∨ _ ∨ _))

/-- Whether a sweep may take the check now. -/
def Due (r : ImportRow) (on throttled : List Nat) (now : Nat) : Prop :=
  c.status = .waiting ∧ c.nextAttemptAt ≤ now ∧ r.providerId ∈ on ∧ r.providerId ∉ throttled ∧
    r.targetId.isSome ∧
    (r.status = .succeeded ∨ r.status = .partially)

instance (r : ImportRow) (on throttled : List Nat) (now : Nat) : Decidable (c.Due r on throttled now) :=
  inferInstanceAs (Decidable (_ ∧ _ ∧ _ ∧ _ ∧ _ ∧ _))

end Check
end OpenAduc.LicenseChecks
