import Mathlib.Data.List.Basic

namespace OpenAduc.BulkJobs

/-- Every action a job has: a bulk action's, an import's, or a revert's, which only reverts start. -/
inductive BulkJobKind
  | userDisable
  | userEnable
  | userUnlock
  | userGroupAdd
  | userGroupRemove
  | userUpdate
  | userMove
  | userAccountExpirySet
  | userPasswordMustChangeSet
  | userPasswordNeverExpiresClear
  | userPasswordReset
  | userCreate
  | userPasswordMustChangeClear
  | userPasswordNeverExpiresSet
  deriving DecidableEq, Repr

inductive BulkJobStatus
  | queued
  | running
  | paused
  | finished
  | cancelled
  deriving DecidableEq, Repr

inductive BulkJobPauseReason
  | stepUpRequired
  | interrupted
  | directoryUnavailable
  deriving DecidableEq, Repr

/-- The source's `partial` is `partially` here. -/
inductive BulkJobRowStatus
  | pending
  | running
  | succeeded
  | partially
  | failed
  | skipped
  deriving DecidableEq, Repr

/-- What a revert does to each row, for each action it can revert. -/
def bulkRevertActions : BulkJobKind → Option BulkJobKind
  | .userDisable => some .userEnable
  | .userEnable => some .userDisable
  | .userGroupAdd => some .userGroupRemove
  | .userGroupRemove => some .userGroupAdd
  | .userUpdate => some .userUpdate
  | .userMove => some .userMove
  | .userAccountExpirySet => some .userAccountExpirySet
  | .userPasswordMustChangeSet => some .userPasswordMustChangeClear
  | .userPasswordNeverExpiresClear => some .userPasswordNeverExpiresSet
  | _ => none

def canRevert (action : BulkJobKind) : Bool :=
  (bulkRevertActions action).isSome

/-- The keys of `BULK_REVERT_ACTIONS`, in the order the source lists them. -/
def bulkRevertableActions : List BulkJobKind :=
  [.userDisable, .userEnable, .userGroupAdd, .userGroupRemove, .userUpdate, .userMove,
    .userAccountExpirySet, .userPasswordMustChangeSet, .userPasswordNeverExpiresClear]

/-- The action a revert of this action reverted; `none` where the source throws. -/
def revertedAction (revert : BulkJobKind) : Option BulkJobKind :=
  bulkRevertableActions.find? fun a => bulkRevertActions a = some revert

/-- Each revert action reverts exactly one action, so a revert's rows are run
by the operation of the job it reverts. -/
theorem revertedAction_bulkRevertActions {action revert : BulkJobKind}
    (reverts : bulkRevertActions action = some revert) : revertedAction revert = some action := by
  cases action <;> cases reverts <;> decide

structure BulkJobCounts where
  pending : Nat
  running : Nat
  succeeded : Nat
  partially : Nat
  failed : Nat
  skipped : Nat
  deriving DecidableEq, Repr

/-- Whether the job has stopped writing: finished or cancelled, its last rows done. -/
def bulkJobStopped (status : BulkJobStatus) (counts : BulkJobCounts) : Bool :=
  (status = .finished ∨ status = .cancelled) ∧ counts.running = 0

inductive RevertRefusalCode
  | notRevertible
  | jobRunning
  | revertRunning
  | nothingToRevert
  deriving DecidableEq, Repr

/-- `NOT_REVERTIBLE`, for the actions it lists. -/
def notRevertible : BulkJobKind → Option String
  | .userUnlock => some "An unlock can’t be reverted: AD can’t lock an account again."
  | .userCreate =>
    some "An import can’t be reverted: it created the accounts. Disable or delete them instead."
  | .userPasswordReset =>
    some "A password reset can’t be reverted: AD keeps no old password to put back."
  | _ => none

def revertRunningMessage : String := "This job is being reverted already."

/-- Why a job can't be reverted now: `isRevert` is whether it is a revert
itself, `openRevert` whether a revert of it may still write. -/
def revertRefusal (action : BulkJobKind) (isRevert : Bool) (status : BulkJobStatus)
    (counts : BulkJobCounts) (openRevert : Bool) : Option (RevertRefusalCode × String) :=
  if isRevert then
    some (.notRevertible,
      "A revert can’t be reverted. To make the change again, run the bulk action again.")
  else if !canRevert action then
    some (.notRevertible, (notRevertible action).getD "This job can’t be reverted.")
  else if !bulkJobStopped status counts then
    some (.jobRunning, "The job hasn’t stopped. Let it finish, or stop it, then revert it.")
  else if openRevert then
    some (.revertRunning, revertRunningMessage)
  else if counts.succeeded + counts.partially = 0 then
    some (.nothingToRevert, "The job changed nothing, so there’s nothing to revert.")
  else none

/-- A revert starts only on a job that is no revert, has stopped, and has no
revert that may still write. -/
theorem revertRefusal_eq_none {action : BulkJobKind} {isRevert openRevert : Bool}
    {status : BulkJobStatus} {counts : BulkJobCounts} :
    revertRefusal action isRevert status counts openRevert = none ↔
      isRevert = false ∧ canRevert action = true ∧ bulkJobStopped status counts = true ∧
        openRevert = false ∧ counts.succeeded + counts.partially ≠ 0 := by
  unfold revertRefusal
  cases isRevert <;> cases canRevert action <;> cases bulkJobStopped status counts <;>
    cases openRevert <;> simp

end OpenAduc.BulkJobs
