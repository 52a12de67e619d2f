import OpenAduc.Reverts.Writes

namespace OpenAduc.Reverts
open Naming (Text text)
open Provider (Guid Entry MutationResult Reason LdapError)
open BulkJobs (GroupChange JobId RowErrorCode BulkMembershipOp CachedGroup GroupAnswer Changes)

section Rows
variable (env : Env)

structure FieldChange where
  field : BulkAttributeField
  before : FieldValue field
  after : FieldValue field

abbrev FieldValues := (f : BulkAttributeField) → Option (FieldValue f)

/-- The user's values as just read from the directory. -/
def liveValues (u : DirectoryUser) (f : BulkAttributeField) : FieldValue f := live f (u.rest.raw f)

def fieldChange (values : (f : BulkAttributeField) → FieldValue f) (changes : FieldValues)
    (f : BulkAttributeField) :
    Option FieldChange :=
  match changes f with
  | none => none
  | some after => if sameValue env.lower f (values f) after then none else some ⟨f, values f, after⟩

/-- The fields `changes` would change, in field order. -/
def fieldChanges (values : (f : BulkAttributeField) → FieldValue f) (changes : FieldValues) :
    List FieldChange :=
  BULK_ATTRIBUTE_FIELDS.filterMap (fieldChange env values changes)

def withChange (raw : (f : BulkAttributeField) → Raw f) (c : FieldChange) :
    (f : BulkAttributeField) → Raw f :=
  Function.update raw c.field (patch c.field c.after)

def withChanges (raw : (f : BulkAttributeField) → Raw f) (changes : List FieldChange) :
    (f : BulkAttributeField) → Raw f :=
  changes.foldl withChange raw

/-- An edit's errors go by their text. -/
def classifyEditError (err : LdapError) : MutationResult Snapshot :=
  let message := env.lower err.message
  let isAuthz := text "no write" <:+: message ∨ text "insuff" <:+: message
  Provider.refusal (if isAuthz then .permissionDenied else .directoryError) err.message

def updateUserAttributes (id : Guid) (changes : List FieldChange) : World → MutationResult Snapshot × World :=
  changeRest env id (if changes.isEmpty then none else some fun rest =>
    { rest with raw := withChanges rest.raw changes })
    (fun u => { Snapshot.empty with fields := fun f => some (liveValues u f) }) (classifyEditError env)

def setField (s : Snapshot) (f : BulkAttributeField) (value : FieldValue f) : Snapshot :=
  { s with fields := Function.update s.fields f (some value) }

/-- A row's before and after, by field, for the job to keep. -/
def rowSnapshots (changes : List FieldChange) : Snapshot × Snapshot :=
  (changes.foldl (fun s c => setField s c.field c.before) Snapshot.empty,
   changes.foldl (fun s c => setField s c.field c.after) Snapshot.empty)

def managerOf (changes : List FieldChange) : Option (Option Text) :=
  changes.findSome? fun c =>
    match c with
    | ⟨.manager, _, after⟩ => some after
    | _ => none

def guidOf (dn : Option Text) : Row (Option Guid) :=
  match dn with
  | none => pure none
  | some dn => atSite env .managerGuid (pure ((env.objects.byDn dn).map (·.objectGuid)))

def SELF_MANAGER_MESSAGE : Text := text "Not changed: they can’t be their own manager."

def managerGone : RevertOutcome :=
  .failed (.other "manager_not_found") none
    (some (text "The manager is no longer a user in the directory.")) false false
    none none

/-- Why the edit's new manager can't be it. -/
def managerRefusal (user : DirectoryUser) (manager : Option Text) (before after : Option Snapshot) :
    Row (Option RevertOutcome) :=
  match manager with
  | none => pure none
  | some dn =>
    if sameDn env.lower dn (user.distinguishedName env) then
      return some (.ok true (some (.other "self_manager", SELF_MANAGER_MESSAGE)) before after)
    else do
      let found ← atSite env .manager (pure (env.objects.byDn dn))
      return if found.any (·.isUser) then none else some managerGone

/-- An edit made, as the row's outcome: a manager's GUID is kept too, so a revert finds them
however they are renamed or moved since. -/
def editOutcome (before after : Option Snapshot) (changes : List FieldChange)
    (refreshed : Option DirectoryUser) :
    Row RevertOutcome := do
  if changes.isEmpty then
    return .ok true none before after
  else
    let (was, left) := rowSnapshots changes
    if (managerOf changes).isSome then
      let beforeGuid ← guidOf env (was.fields .manager).join
      let afterGuid ← guidOf env (left.fields .manager).join
      return .ok false none (some { was with managerGuid := beforeGuid })
        (some (changeStamp refreshed { left with managerGuid := afterGuid }))
    else
      return .ok false none (some was) (some (changeStamp refreshed left))

/-- The audit of an edit, the account read back, and the row's outcome. -/
def recordEdit (before after : Option Snapshot) (id : Guid) (changes : List FieldChange)
    (result : MutationResult Snapshot) : Row RevertOutcome := do
  atSite env .audit (pure ())
  if ¬result.ok then
    return .failed (errorCodeOf result.reason) result.errorMessage none false true none none
  else if changes.isEmpty then
    editOutcome env before after changes none
  else
    let refreshed ← atSite env .refreshed (Attempt.read (World.getUser · id))
    editOutcome env before after changes refreshed

/-- Set the user's fields, as just read live, to `target`, writing only those not already so. -/
def attributesRow (before after : Option Snapshot) (user : DirectoryUser) (target : FieldValues) :
    Row RevertOutcome := do
  let changes := fieldChanges env (liveValues user) target
  match ← managerRefusal env user (managerOf changes).join before after with
  | some refused => return refused
  | none =>
    let id := user.entry.objectGuid
    let result ← made (updateUserAttributes env id changes)
    recordEdit env before after id changes result

/-- What the directory answers about one group, and the groups the user is in after it. -/
def writeMember (op : BulkMembershipOp) (groupId : String) (memberOf : List String) :
    GroupAnswer × List String :=
  let answer write : GroupAnswer := ⟨write, env.groupAudited groupId⟩
  match env.member groupId with
  | some (.refused errorCode errorMessage) => (answer (.refused errorCode errorMessage), memberOf)
  | some .unavailable => (answer .unavailable, memberOf)
  | some .threw => (answer .threw, memberOf)
  | none =>
    (answer (.ok (memberOf.contains groupId)),
      match op with
      | .add => if memberOf.contains groupId then memberOf else memberOf ++ [groupId]
      | .remove => memberOf.filter (· ≠ groupId))

/-- Whether one group's change comes to a write at all. -/
def writes (op : BulkMembershipOp) (primaryGroupId : Option String) (groupId : String) : Bool :=
  match env.groups.get groupId with
  | none => false
  | some group => ¬(op = .add ∧ BulkJobs.membershipState group primaryGroupId false = .primary)

/-- The row's groups in order, each written as the user is in it by then. -/
def writeGroups (op : BulkMembershipOp) (primaryGroupId : Option String) :
    Changes → List String → List String → Except Bool Changes × List String
  | c, memberOf, [] => (.ok c, memberOf)
  | c, memberOf, groupId :: rest =>
    let (answer, written) := writeMember env op groupId memberOf
    let memberOf' := if writes env op primaryGroupId groupId then written else memberOf
    match BulkJobs.changeGroup op primaryGroupId env.groups.get (fun _ => answer) c groupId with
    | .error audited => (.error audited, memberOf')
    | .ok (c', true) => (.ok c', memberOf')
    | .ok (c', false) => writeGroups op primaryGroupId c' memberOf' rest

def withGroups (groups : List GroupChange) : Option Snapshot :=
  if groups = [] then none else some { Snapshot.empty with groups }

/-- The membership row's outcome, its groups as snapshots. -/
def membershipOutcome (op : BulkMembershipOp) (c : Changes) : RevertOutcome :=
  let was := withGroups (c.changes.map fun g => { g with isMember := !g.isMember })
  let left := withGroups c.changes
  match BulkJobs.membershipOutcome op c with
  | .ok unchanged _ _ _ _ => .ok unchanged none was left
  | .failed errorCode _ message partially audited _ _ _ =>
    .failed errorCode none (message.map text) partially audited was left

/-- Where a retry starts: at what earlier runs changed. -/
def startChanges (after : Option Snapshot) : Changes :=
  ⟨((after.map (·.groups)).getD []).foldl BulkJobs.setChange [], [], []⟩

/-- Add the user, as just read live, to these groups or remove them. -/
def membershipRow (op : BulkMembershipOp) (after : Option Snapshot) (groupIds : List String)
    (user : DirectoryUser) :
    Row RevertOutcome := do
  atSite env .groupCache (pure ())
  let id := user.entry.objectGuid
  let ended ← made fun w =>
    let (ended, memberOf) :=
      writeGroups env op user.rest.primaryGroupID (startChanges after) (w.rest id).memberOf groupIds
    (ended, { w with rest := Function.update w.rest id { w.rest id with memberOf } })
  match ended with
  | .error _ => throw .other
  | .ok c => if c.changedNow ≠ [] ∧ !env.cacheRefreshed then throw .other else return membershipOutcome op c

/-- `DOMAIN_CONTROLLERS`: AD's OU of that name at the root of a domain, in whatever case. -/
def isDomainControllers (dn : Text) : Bool :=
  match dn.splitOn (Naming.unit ',') with
  | [] => false
  | ou :: domain =>
    ou.map Naming.lowerUnit = text "ou=domain controllers" ∧ domain ≠ [] ∧
      domain.all fun dc => (dc.take 3).map Naming.lowerUnit = text "dc=" ∧ 3 < dc.length

def userMoveRefusal (ou : CachedOu) : Option Text :=
  if ou.isCriticalSystemObject ∨ isDomainControllers ou.distinguishedName then
    some (ou.name ++ text " is a system OU AD keeps for its own objects; users can’t be moved there.")
  else none

def notOu (dn : Option Text) : Text :=
  text "Can’t be moved back: " ++ (dn.map leafName).getD (text "where they were") ++
    text " isn’t an OU in the directory."

def findOu (before : Snapshot) : Row (Option CachedOu) :=
  match before.parentGuid with
  | some guid => do
    let found ← atSite env .lookup (pure (env.objects.byGuid guid))
    return (found.filter (·.isOu)).map fun o => ⟨o.distinguishedName, o.name, o.isCriticalSystemObject⟩
  | none =>
    match before.parentDn with
    | none => pure none
    | some dn => atSite env .cachedOu (pure
      (env.cachedOus.find? fun ou => sameDn env.lower ou.distinguishedName dn))

/-- The OU a moved user came from, as it is named now, if they can be moved back there. -/
def originOu (before : Snapshot) : Row (Except Text CachedOu) := do
  match ← findOu env before with
  | none => return .error (notOu before.parentDn)
  | some ou =>
    match userMoveRefusal ou with
    | some refused => return .error refused
    | none => return .ok ou

structure RevertInput where
  jobId : JobId
  before : Snapshot
  after : Snapshot
  ranAt : Option Int
  force : Bool

structure RevertRow where
  targetId : Guid
  input : RevertInput
  before : Option Snapshot
  after : Option Snapshot

/-- The manager as they are named now. -/
def restoredManager (before : Snapshot) : Row (Option FieldValues) :=
  match before.fields .manager, before.managerGuid with
  | some _, some guid => do
    let found ← atSite env .lookup (pure (env.objects.byGuid guid))
    return found.map fun o => Function.update before.fields .manager (some (some o.distinguishedName))
  | _, _ => pure (some before.fields)

/-- Put the row's before-values back on the user, as just read live. -/
def restore (action : BulkRevertableAction) (row : RevertRow) (user : DirectoryUser) : Row RevertOutcome :=
  let account := accountRow env row.targetId row.before row.after
  let groupIds := row.input.after.groups.map fun g => g.id.toLower
  match action with
  | .userDisable | .userEnable =>
    account (flagWrite (ENABLE_USER env row.targetId) (DISABLE_USER env row.targetId)
      row.input.before.enabled)
  | .userPasswordMustChangeSet =>
    account (flagWrite (REQUIRE_PASSWORD_CHANGE env row.targetId)
      (CLEAR_PASSWORD_MUST_CHANGE env row.targetId)
      row.input.before.passwordMustChange)
  | .userPasswordNeverExpiresClear =>
    account (flagWrite (SET_PASSWORD_NEVER_EXPIRES env row.targetId)
      (CLEAR_PASSWORD_NEVER_EXPIRES env row.targetId)
      row.input.before.passwordNeverExpires)
  | .userMove => do
    match ← originOu env row.input.before with
    | .error refused => return .failed .notFound none (some refused) false false none none
    | .ok ou => account (moveUserTo env row.targetId ou)
  | .userAccountExpirySet => account (expireAccountAt env row.targetId row.input.before.accountExpiresAt.join)
  | .userUpdate => do
    match ← restoredManager env row.input.before with
    | none => return managerGone
    | some target => attributesRow env row.before row.after user target
  | .userGroupAdd => membershipRow env .remove row.after groupIds user
  | .userGroupRemove => membershipRow env .add row.after groupIds user

def refNow (dn : Option Text) : Ref := ⟨dn, dn.bind fun dn => (env.objects.byDn dn).map (·.objectGuid)⟩

/-- The account as a revert compares it, its groups not read. -/
def accountNow (user : DirectoryUser) : AccountNow where
  enabled := user.enabled
  parent := refNow env (Dn.parentDn (user.distinguishedName env))
  accountExpiresAt := user.accountExpiresAt
  passwordMustChange := user.passwordMustChange
  passwordNeverExpires := user.passwordNeverExpires
  attributes f := some (liveValues user f)
  manager := some (refNow env (liveValues user .manager))
  groupIds := none
  uSNChanged := user.rest.uSNChanged

inductive Touched
  | usnChanged
  | event (e : AuditEvent)
deriving DecidableEq, Repr

/-- An event of the account that changed what the job changed, since its row ran, by neither the
job nor a revert of it. -/
def countsAsTouched (action : BulkRevertableAction) (row : RevertRow) (ranAt : Int)
    (groups : List String) (e : AuditEvent) : Bool :=
  e.targetId = row.targetId ∧ e.success ∧ (auditActions action).contains e.action ∧
    ranAt < e.timestamp ∧ ¬e.unchanged ∧
    e.bulkJobId ≠ some row.input.jobId ∧ e.revertsJobId ≠ some row.input.jobId ∧
    (groups = [] ∨ ∃ id ∈ e.groupId, groups.contains id.toLower)

/-- Why the row counts as written again since, even if changed back, or nothing: by the number the
row kept, and by events only where it kept none. -/
def touched (action : BulkRevertableAction) (row : RevertRow) (facets : List Facet)
    (uSNChanged : Option String) : Option Touched :=
  match row.input.after.uSNChanged, row.input.ranAt with
  | some usn, _ => if uSNChanged ≠ none ∧ uSNChanged ≠ some usn then some .usnChanged else none
  | none, some ranAt =>
    (env.events.find? (countsAsTouched action row ranAt (facets.filterMap Facet.groupId))).map Touched.event
  | none, none => none

def touchedSince (action : BulkRevertableAction) (row : RevertRow) (facets : List Facet)
    (uSNChanged : Option String) :
    Row (Option Touched) :=
  let byAudit := row.input.after.uSNChanged = none ∧ row.input.ranAt ≠ none
  if byAudit then atSite env .events (pure (touched env action row facets uSNChanged))
  else pure (touched env action row facets uSNChanged)

def CHANGED_SINCE : RowErrorCode × Text :=
  (.other "changed_since", text "Changed again since the job, so left as it is.")

def actOn (action : BulkRevertableAction) (row : RevertRow) (user : DirectoryUser)
    (kind : VerdictKind) : Row RevertOutcome :=
  if kind = .modified ∧ ¬row.input.force then return .ok true (some CHANGED_SINCE) row.before row.after
  else if kind = .unchanged then return .ok true none row.before row.after
  else restore env action row user

/-- A revert row reads the user live and judges it, skipping one changed since unless the operator
included it, or already back as it was; otherwise it makes the write that puts the before-values back. -/
def revertRunner (action : BulkRevertableAction) (row : RevertRow) : Row RevertOutcome := do
  match ← atSite env .refresh (Attempt.read (World.getUser · row.targetId)) with
  | none => return .notFound
  | some user =>
    atSite env .lookup (pure ())
    let now := accountNow env user
    let facets := facets env.lower action row.input.before row.input.after
    let touched ← touchedSince env action row facets now.uSNChanged
    actOn env action row user (judge facets now touched).kind

end Rows

end OpenAduc.Reverts
