import OpenAduc.Reverts.Plan

namespace OpenAduc.Reverts
open BulkJobs (JobId JobActor JobRecord RowRecord BulkJobRowInput BulkJobKind State)

/-- The accounts changed since that the operator includes. -/
inductive Included
  | all
  | ids (ids : List String)
  deriving DecidableEq, Repr

structure BulkJobRevertRequest where
  previewToken : String
  acknowledgeProtected : Bool
  includes : Included
  previewed : previewToken ≠ ""
  deriving DecidableEq, Repr

structure BulkJobRequestError where
  code : String
  message : String
  deriving DecidableEq, Repr

/-- Why a request ends without a job: refused, or an error of something it called. -/
inductive RevertFailure
  | request (err : BulkJobRequestError)
  | threw
  deriving DecidableEq, Repr

def revertable : BulkJobKind → Option BulkRevertableAction
  | .userDisable => some .userDisable
  | .userEnable => some .userEnable
  | .userGroupAdd => some .userGroupAdd
  | .userGroupRemove => some .userGroupRemove
  | .userUpdate => some .userUpdate
  | .userMove => some .userMove
  | .userAccountExpirySet => some .userAccountExpirySet
  | .userPasswordMustChangeSet => some .userPasswordMustChangeSet
  | .userPasswordNeverExpiresClear => some .userPasswordNeverExpiresClear
  | _ => none

def refusalCode : BulkJobs.RevertRefusalCode → String
  | .notRevertible => "not_revertible"
  | .jobRunning => "job_running"
  | .revertRunning => "revert_running"
  | .nothingToRevert => "nothing_to_revert"

def PREVIEW_MISMATCH : BulkJobRequestError :=
  ⟨"preview_mismatch", "The accounts have changed since the preview. Preview the revert again."⟩

def NOTHING_TO_REVERT : BulkJobRequestError :=
  ⟨"nothing_to_revert",
    "Nothing to revert: every account the job changed is back as it was, changed since, or can’t be reverted."⟩

def protectedUnacknowledged (guarded : String) : BulkJobRequestError :=
  ⟨"protected_unacknowledged",
    "Reverting puts users back in " ++ guarded ++
      ", which gives them admin rights in AD. Confirm that they need them."⟩

def JOB_RUN_AGAIN : BulkJobRequestError :=
  ⟨"preview_mismatch", "The job has run again since the preview. Preview the revert again."⟩

section Choice
variable (plan : RevertPlan) (request : BulkJobRevertRequest)

def includedIds : List String :=
  match request.includes with
  | .all => plan.modified.map fun r => r.targetId
  | .ids ids => ids.map String.toLower

def forcedRows : List JudgedRow := plan.modified.filter fun r => r.targetId ∈ includedIds plan request

/-- The rows to revert, and whether each is forced, in the job's own order. -/
def chosenRows : List (JudgedRow × Bool) :=
  (plan.revert.map (fun r => (r, false)) ++ (forcedRows plan request).map fun r => (r, true)).mergeSort
    fun a b => decide (a.1.ordinal ≤ b.1.ordinal)

/-- The first group AD protects that the chosen rows put users back in, by name. -/
def guardedGroup (chosen : List (JudgedRow × Bool)) : Option String :=
  (chosen.flatMap fun c => c.1.readds).findSome? (Assoc.get plan.protectedGroups)

def chooseRows : Except BulkJobRequestError (List (JudgedRow × Bool)) :=
  if request.previewToken ≠ plan.token then .error PREVIEW_MISMATCH
  else
    let chosen := chosenRows plan request
    if chosen.length = 0 then .error NOTHING_TO_REVERT
    else
      match guardedGroup plan chosen with
      | none => .ok chosen
      | some guarded =>
        -- an empty name is falsy
        if guarded ≠ "" ∧ request.acknowledgeProtected = false then .error (protectedUnacknowledged guarded)
        else .ok chosen

end Choice

namespace BulkJobService
variable {Input : Type} (env : Env) (cache : Cache) (host : Host) (asInput : RevertInput → Input)

/-- The job's plan, from the database as it is in `s`. -/
def plan (s : State Input Snapshot) (w : World) (job : JobRecord) : Except RevertFailure RevertPlan :=
  match s.refusal job with
  | some (code, message) => .error (.request ⟨refusalCode code, message⟩)
  | none =>
    match revertable job.action with
    | none => .error .threw
    | some action =>
      match (Attempt.exec (planRevert env cache host s job.id action) w).1 with
      | .error _ => .error .threw
      | .ok plan => .ok plan

def rowInput (job : JobId) (chosen : JudgedRow × Bool) : BulkJobRowInput Input where
  targetId := some chosen.1.targetId
  input := asInput (revertInput job chosen.1.toPlannedRow chosen.2)
  after := none

/-- Why the database, as it is in `s` where the revert is stored, refuses it. -/
def guardFailure (s : State Input Snapshot) (job : JobRecord) : RevertFailure :=
  match s.findJob job.id with
  | none => .threw
  | some locked =>
    match s.refusal locked with
    | some (code, message) => .request ⟨refusalCode code, message⟩
    | none =>
      if locked.finishedAt ≠ job.finishedAt then .request JOB_RUN_AGAIN
      else .request ⟨refusalCode .revertRunning, BulkJobs.revertRunningMessage⟩

/-- Store the revert, locking the job; one that can't be audited is deleted again. -/
def insert (s : State Input Snapshot) (actor : JobActor) (job : JobRecord)
    (rows : List (BulkJobRowInput Input))
    (audited : Bool) : Except RevertFailure JobId × State Input Snapshot :=
  match s.revert actor job rows with
  | none => (.error (guardFailure s job), s)
  | some stored =>
    if audited then (.ok s.nextJobId, { stored with unaudited := stored.unaudited.erase s.nextJobId })
    else (.error .threw, stored.discarded s.nextJobId)

/-- Revert a stopped job: a new job that puts back each row's before-values, on the rows previewed.
The database is read as it is in `s`, and the revert stored as it is in `s'`. -/
def revert (s s' : State Input Snapshot) (w : World) (actor : JobActor) (job : JobRecord)
    (request : BulkJobRevertRequest) (audited : Bool) : Except RevertFailure JobId × State Input Snapshot :=
  match plan env cache host s w job with
  | .error failure => (.error failure, s')
  | .ok plan =>
    match chooseRows plan request with
    | .error err => (.error (.request err), s')
    | .ok chosen => insert s' actor job (chosen.map (rowInput asInput job.id)) audited

end BulkJobService

end OpenAduc.Reverts
