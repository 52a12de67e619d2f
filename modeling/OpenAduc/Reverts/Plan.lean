import OpenAduc.BulkJobs.WellFormed
import OpenAduc.Dn.Codec
import OpenAduc.Lib.Assoc
import OpenAduc.Privilege.Groups
import OpenAduc.Reverts.Effects

namespace OpenAduc.Reverts
open Naming (Text text)
open Provider (Guid)
open BulkJobs (JobId JobRecord RowRecord RowId State)

/-- A user as the cache has them. -/
structure CachedUser where
  objectGuid : String
  distinguishedName : Text
  displayName : Option String
  samAccountName : Option String
  enabled : Bool
  accountExpiresAt : Option Int
  passwordMustChange : Bool
  passwordNeverExpires : Bool
  raw : (f : BulkAttributeField) → Raw f
  officeRead : Bool
  uSNChanged : Option String

/-- A group as the cache has it, by the name it is listed by. -/
structure CachedGroupRecord where
  id : String
  name : String
  group : Privilege.GroupLike

/-- What the database has of a directory's users and groups, none of them deleted; `fault` is why a
read of it fails. -/
structure Cache where
  users : List CachedUser
  userIds : Table.Keyed (fun u => u.objectGuid.toLower) users
  /-- A user's id and the id of a group they are directly in. -/
  memberships : List (String × String)
  groups : List CachedGroupRecord
  groupIds : Table.Keyed (fun g => g.id.toLower) groups
  /-- A row's own name for its target. -/
  targetName : RowId → Option String
  fault : Option Thrown

/-- What the language's library answers: the order names are listed in, and a digest. -/
structure Host where
  localeLe : String → String → Bool
  sha256 : String → String

namespace Cache
variable (cache : Cache)

def user (id : String) : Option CachedUser := Table.find (fun u => u.objectGuid.toLower) id cache.users

def groupsOf (id : String) : List String :=
  (cache.memberships.filter fun m => m.1.toLower = id).map fun m => m.2.toLower

/-- The groups AD protects among these, by id. -/
def protectedGroups (ids : List String) : List (String × String) :=
  (cache.groups.filter fun g => g.id.toLower ∈ ids ∧ Privilege.isProtectedGroup g.group = true).map
    fun g => (g.id.toLower, g.name)

end Cache

def cachedUserName (user : CachedUser) (fallback : String) : String :=
  (user.displayName.or user.samAccountName).getD fallback

/-- The user's values as the cache last saw them. -/
def cachedValues (user : CachedUser) (f : BulkAttributeField) : Option (FieldValue f) :=
  if f = .text .physicalDeliveryOfficeName ∧ user.officeRead = false then none else some (live f (user.raw f))

/-- A GUID by its text. -/
def uuid (id : String) : Guid :=
  BitVec.ofNat 128 (((text id).filterMap Dn.hexDigit).foldl (fun n digit => 16 * n + digit) 0)

/-- Names a previewed change of these users, whatever their order or case; ids hold no character
JSON escapes. -/
def previewToken (host : Host) (kind : String) (ids change : List String) : String :=
  let users := ",".intercalate ((ids.map String.toLower).mergeSort (fun a b => decide (a ≤ b)))
  let json := "[" ++ ",".intercalate (change.map fun id => "\"" ++ id ++ "\"") ++ "]"
  host.sha256 (kind ++ "\n" ++ users ++ "\n" ++ json)

section Rows
variable {Input : Type}

/-- A row the job changed, with what a revert puts back. -/
structure ChangedRow where
  id : RowId
  ordinal : Nat
  targetId : String
  before : Snapshot
  after : Snapshot
  finishedAt : Option Nat

/-- Only a bulk action's rows, which always have a target, are reverted. -/
def changedRow (r : RowRecord Input Snapshot) : Option ChangedRow :=
  if r.status = .succeeded ∨ r.status = .partially then
    match r.before, r.after, r.targetId with
    | some before, some after, some targetId =>
      some { id := r.id, ordinal := r.ordinal, targetId, before, after, finishedAt := r.finishedAt }
    | _, _, _ => none
  else none

def rowsOf (s : State Input Snapshot) (job : JobId) : List (RowRecord Input Snapshot) :=
  (s.rows.filter fun r => r.jobId = job).mergeSort fun a b => decide (a.ordinal ≤ b.ordinal)

structure PlannedRow where
  targetId : String
  name : String
  ordinal : Nat
  before : Snapshot
  after : Snapshot
  ranAt : Option Int

structure JudgedRow extends PlannedRow where
  now : AccountNow
  changedSince : Option Touched
  /-- The groups it puts the user back in. -/
  readds : List String

/-- How each of a job's rows would be reverted, judged against the cache. -/
structure RevertPlan where
  revert : List JudgedRow
  modified : List JudgedRow
  unchanged : List PlannedRow
  notRevertible : List (PlannedRow × Text)
  excluded : Nat
  /-- Groups AD protects that some row puts users back in, by id. -/
  protectedGroups : List (String × String)
  /-- Names the plan, for the revert to check it starts on what was previewed. -/
  token : String

structure Candidate where
  row : PlannedRow
  now : AccountNow

/-- What the row changed. -/
def Candidate.facets (env : Env) (action : BulkRevertableAction) (c : Candidate) : List Facet :=
  Reverts.facets env.lower action c.row.before c.row.after

def revertInput (job : JobId) (row : PlannedRow) (force : Bool) : RevertInput where
  jobId := job
  before := row.before
  after := row.after
  ranAt := row.ranAt
  force := force

end Rows

section Plan
variable (env : Env) (cache : Cache)

def NOT_IN_DIRECTORY : Text := text "No longer in the directory."

def plannedRow (r : ChangedRow) : PlannedRow :=
  let targetId := r.targetId.toLower
  { targetId
    name := match cache.user targetId with
      | some user => cachedUserName user targetId
      | none => (cache.targetName r.id).getD targetId
    ordinal := r.ordinal
    before := r.before
    after := r.after
    ranAt := r.finishedAt.map Int.ofNat }

/-- An object a row names, looked up where it is named at all. -/
def lookUpRef (dn : Option Text) : Row Ref :=
  match dn with
  | none => pure (refNow env none)
  | some dn => atSite env .lookup (pure (refNow env (some dn)))

def parentOf (user : CachedUser) : Option Text := Dn.parentDn user.distinguishedName

/-- The account as the cache has it, its parent and its manager as they are looked up. -/
def cachedNow (action : BulkRevertableAction) (user : CachedUser) (targetId : String) (parent : Ref)
    (manager : Option Ref) : AccountNow where
  enabled := user.enabled
  parent := parent
  accountExpiresAt := user.accountExpiresAt
  passwordMustChange := user.passwordMustChange
  passwordNeverExpires := user.passwordNeverExpires
  attributes := cachedValues user
  manager := manager
  groupIds := if action.isMembership then some (cache.groupsOf targetId) else none
  uSNChanged := user.uSNChanged

def managerNow (dn : Option (Option Text)) : Row (Option Ref) :=
  match dn with
  | none => pure none
  | some dn => do
    let ref ← lookUpRef env dn
    return some ref

/-- The accounts of the rows, and the rows whose account is gone. -/
def readAccounts (action : BulkRevertableAction) :
    List ChangedRow → Row (List Candidate × List (PlannedRow × Text))
  | [] => pure ([], [])
  | r :: rest => do
    let row := plannedRow cache r
    match cache.user row.targetId with
    | none =>
      let (candidates, gone) ← readAccounts action rest
      return (candidates, (row, NOT_IN_DIRECTORY) :: gone)
    | some user =>
      let parent ← lookUpRef env (parentOf user)
      let manager ← managerNow env (cachedValues user .manager)
      let now := cachedNow cache action user row.targetId parent manager
      let (candidates, gone) ← readAccounts action rest
      return (⟨row, now⟩ :: candidates, gone)

def Candidate.revertRow (job : JobId) (c : Candidate) : RevertRow where
  targetId := uuid c.row.targetId
  input := revertInput job c.row false
  before := none
  after := none

def Candidate.byAudit (c : Candidate) : Bool := c.row.after.uSNChanged = none ∧ c.row.ranAt ≠ none

/-- Why each row's account counts as written again since: by the number its row kept first, then by
the events. -/
def touchedBy (job : JobId) (action : BulkRevertableAction) (candidates : List Candidate) :
    List (String × Touched) :=
  let found := (candidates.filter (!·.byAudit) ++ candidates.filter (·.byAudit)).filterMap fun c =>
    (touched env action (c.revertRow job) (c.facets env action) c.now.uSNChanged).map fun why =>
      (c.row.targetId, why)
  found.foldl (fun m e => Assoc.set m e.1 e.2) []

def touchedRows (job : JobId) (action : BulkRevertableAction) (candidates : List Candidate) :
    Row (List (String × Touched)) :=
  if candidates.any Candidate.byAudit then atSite env .events (pure (touchedBy env job action candidates))
  else pure (touchedBy env job action candidates)

/-- Where a row's account was moved from, as rows moved from the same place share it. -/
abbrev OriginKey := Guid ⊕ Option Text

def originKey (before : Snapshot) : OriginKey :=
  match before.parentGuid with
  | some guid => .inl guid
  | none => .inr (before.parentDn.map env.lower)

/-- Why the account can't be put back where it was. -/
def refusal (before : Snapshot) : Row (Option Text) := do
  match ← originOu env before with
  | .error reason => return some reason
  | .ok _ => return none

/-- Rows moved from the same place share their answer. -/
def sharedRefusal (refusals : List (OriginKey × Option Text)) (before : Snapshot) :
    Row (Option Text × List (OriginKey × Option Text)) := do
  match Assoc.get refusals (originKey env before) with
  | some reason => return (reason, refusals)
  | none =>
    let reason ← refusal env before
    return (reason, Assoc.set refusals (originKey env before) reason)

/-- Only a move's rows may be refused. -/
def rowRefusal (action : BulkRevertableAction) (refusals : List (OriginKey × Option Text))
    (before : Snapshot) :
    Row (Option Text × List (OriginKey × Option Text)) :=
  if action = .userMove then sharedRefusal env refusals before else pure (none, refusals)

/-- A plan as its rows are judged, and the answers they share. -/
structure Judging where
  revert : List JudgedRow
  modified : List JudgedRow
  unchanged : List PlannedRow
  notRevertible : List (PlannedRow × Text)
  refusals : List (OriginKey × Option Text)

def judgedRow (action : BulkRevertableAction) (c : Candidate) (verdict : Verdict Touched) : JudgedRow where
  toPlannedRow := c.row
  now := c.now
  changedSince := verdict.changedSince
  readds := if action = .userGroupRemove then verdict.pending.filterMap Facet.groupId else []

variable (touched : String → Option Touched)

def Candidate.verdict (action : BulkRevertableAction) (c : Candidate) : Verdict Touched :=
  judge (c.facets env action) c.now (touched c.row.targetId)

def judgeRow (action : BulkRevertableAction) (plan : Judging) (c : Candidate) : Row Judging := do
  let verdict := c.verdict env touched action
  if verdict.kind = .unchanged then
    return { plan with unchanged := plan.unchanged ++ [c.row] }
  else
    let (reason, refusals) ← rowRefusal env action plan.refusals c.row.before
    match reason with
    | some reason => return { plan with refusals, notRevertible := plan.notRevertible ++ [(c.row, reason)] }
    | none =>
      let judged := judgedRow action c verdict
      if verdict.kind = .modified then return { plan with refusals, modified := plan.modified ++ [judged] }
      else return { plan with refusals, revert := plan.revert ++ [judged] }

def judgeRows (action : BulkRevertableAction) : Judging → List Candidate → Row Judging
  | plan, [] => pure plan
  | plan, c :: rest => do
    let judged ← judgeRow env touched action plan c
    judgeRows action judged rest

end Plan

section PlanRevert
variable {Input : Type} (env : Env) (cache : Cache) (host : Host) (s : State Input Snapshot)

def byName {α : Type} (name : α → String) (rows : List α) : List α :=
  rows.mergeSort fun a b => host.localeLe (name a) (name b)

/-- The groups some row puts users back in. -/
def readded (rows : List JudgedRow) : List String := rows.flatMap (·.readds)

def planToken (job : JobId) (revert modified : List JudgedRow) : String :=
  previewToken host ("revert:" ++ toString job) (revert.map (·.targetId))
    ((modified.map (·.targetId)).mergeSort fun a b => decide (a ≤ b))

/-- Judge each row the job changed (succeeded or partly) against the cache, the OUs and managers it
names looked up live. The job's other rows changed nothing, so are excluded. -/
def planRevert (job : JobId) (action : BulkRevertableAction) : Row RevertPlan := do
  Attempt.call cache.fault (pure ())
  let rows := rowsOf s job
  let changed := rows.filterMap changedRow
  let (candidates, gone) ← readAccounts env cache action changed
  let touched ← touchedRows env job action candidates
  let judged ← judgeRows env (Assoc.get touched) action ⟨[], [], [], gone, []⟩ candidates
  let revert := byName host (fun r : JudgedRow => r.name) judged.revert
  let modified := byName host (fun r : JudgedRow => r.name) judged.modified
  return {
    revert
    modified
    unchanged := byName host PlannedRow.name judged.unchanged
    notRevertible := byName host (fun r : PlannedRow × Text => r.1.name) judged.notRevertible
    excluded := rows.length - changed.length
    protectedGroups :=
      if action = .userGroupRemove then cache.protectedGroups
        (readded (judged.revert ++ judged.modified)) else []
    token := planToken host job revert modified }

end PlanRevert

end OpenAduc.Reverts
