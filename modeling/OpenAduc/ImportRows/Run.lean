import OpenAduc.ImportRows.Questions

namespace OpenAduc.ImportRows
open BulkJobs (RowErrorCode RowOutcome RowSnapshot GroupChange PasswordMode BulkMembershipOp Changes
  membershipState
  membershipFailure membershipOutcome alreadyAsAsked changedGroups setChange notDone)
open UserCreation (UserCreateStep remainingSteps)
open Naming (text points codePoint)

/-- What the code takes from the language: how text is lowered. -/
abbrev Lower := String → String

def accountStep : UserCreateStep → ImportStep
  | .create => .create
  | .password => .password
  | .groups => .groups
  | .enable => .enable

def isAccountStep : ImportStep → Option UserCreateStep
  | .create => some .create
  | .password => some .password
  | .enable => some .enable
  | .groups | .manager => none

/-- The account steps the provider runs, in AD's order, of the import's steps. -/
def accountSteps (enabled : Bool) : List UserCreateStep :=
  if enabled then [.create, .password, .enable] else [.create, .password]

/-- Steps done, in IMPORT_STEPS' order whatever order they were done in. -/
def mergeSteps (done more : List ImportStep) : List ImportStep :=
  IMPORT_STEPS.filter fun s => s ∈ done ∨ s ∈ more

theorem mem_mergeSteps {done more : List ImportStep} {s : ImportStep} : s ∈ mergeSteps done more ↔
    s ∈ done ∨ s ∈ more := by
  have all : s ∈ IMPORT_STEPS := by cases s <;> decide
  simp [mergeSteps, all]

def NOT_DONE : ImportStep → String
  | .create => ""
  | .password => "Password not set"
  | .enable => "Not enabled"
  | .groups => "Not added to its groups"
  | .manager => "Manager not set"

structure Failure where
  step : ImportStep
  message : String
  code : RowErrorCode
  deriving DecidableEq

def directoryError : RowErrorCode := .other "directory_error"

/-- The DN of a new child. -/
def childDn (type value parent : String) : String :=
  String.ofList ((points (Dn.childDn (text type) (text value) (text parent))).map fun p =>
    Char.ofNat (codePoint p))

def plannedDn (input : RowInput) : String := childDn "CN" input.cn input.ouDn

/-- AD's GeneralizedTime, to the second. -/
def generalizedTime (value : Option String) : Option Int :=
  value.bind fun v =>
    let digits := v.toList.take 14
    let part (start size : Nat) : Int :=
      ((digits.drop start).take size).foldl (fun n c => 10 * n + (c.toNat - 48 : Nat)) 0
    if digits.length = 14 ∧ digits.all (·.isDigit) = true then
      some (Dates.dateUTC (part 0 4) (part 4 2)
        (part 6 2) + ((part 8 2 * 60 + part 10 2) * 60 + part 12 2) * 1000)
    else none

section
variable (lower : Lower)

def same (a : Option String) (b : String) : Bool := a.map lower = some (lower b)

/-- Whether an account a retry finds holding a row's names is taken for the one an earlier run
created: the names planned, still disabled, and created since the job started. -/
def adoptable (account : DirectoryUser) (whenCreated : Option String) (planned : RowInput)
    (jobStartedAt : Int) : Bool :=
  same lower account.samAccountName planned.samAccountName && same lower account.userPrincipalName
    planned.userPrincipalName &&
    !account.enabled && (generalizedTime whenCreated).any fun created =>
      decide (jobStartedAt / 1000 * 1000 ≤ created)

/-- What an audited write came to, as its event says. -/
structure WriteOpResult where
  ok : Bool
  errorCode : Option RowErrorCode
  errorMessage : Option String
  targetId : Option String
  before : Option EventState
  after : Option EventState

def Thrown.errorCode : Thrown → RowErrorCode
  | .unavailable _ => .directoryUnavailable
  | .refusal .. => .other "UserAttributeRefusal"
  | .other name _ => .other name

def Thrown.asAudited : Thrown → Thrown
  | .unavailable _ => .unavailable true
  | .refusal code message => .refusal code message
  | .other name _ => .other name true

/-- Runs a write and records an event of how it ended; an event that can't be recorded throws. -/
def withAudit {α : Type} (base : AuditEvent) (of : α → WriteOpResult) (op : Asking α) : Asking α := do
  match ← attempt op with
  | .ok result =>
    let written := of result
    Asking.recordEvent { base with
      success := written.ok
      errorCode := if written.ok then none else written.errorCode
      errorMessage := if written.ok then none else written.errorMessage
      targetId := written.targetId.orElse fun _ => base.targetId
      before := written.before
      after := written.after }
    return result
  | .error err =>
    Asking.recordEvent { base with success := false, errorCode := some err.errorCode }
    throw err.asAudited

/-- What a run that stopped before recording the row did, from its audit row. -/
def createdBefore (input : RowInput) : Asking (Option ImportRowProgress) := do
  let dn := plannedDn input
  match ← Asking.createEvent (lower dn) with
  | none => return none
  | some create =>
    return some {
      id := create.targetId
      distinguishedName := create.targetDn.getD dn
      createCorrelationId := create.correlationId
      completed := create.completed.getD [.create]
      groups := []
      failed := []
      passwordFallback := false
      adopted := false }

/-- A retried row with no record of its create, whose account a run made anyway: found by its
planned names and taken on. -/
def adopt (input : RowInput) (job : JobFacts) : Asking (Option ImportRowProgress) := do
  match ← Asking.getUser (.samAccountName input.samAccountName) with
  | none => return none
  | some found =>
    let account ← Asking.getAccountFingerprint (.objectGuid found.objectGuid)
    if adoptable lower found (account.bind (·.whenCreated)) input job.createdAt then
      return some {
        id := some found.objectGuid
        distinguishedName := found.distinguishedName
        createCorrelationId := none
        completed := [.create]
        groups := []
        failed := []
        passwordFallback := false
        adopted := true }
    else return none

def findByName (progress : ImportRowProgress) (input : RowInput) : Asking (Option DirectoryUser) := do
  match ← Asking.getUser (.distinguishedName progress.distinguishedName) with
  | some byDn => return some byDn
  | none =>
    let byName ← Asking.getUser (.samAccountName input.samAccountName)
    return byName.filter fun found => same lower found.userPrincipalName input.userPrincipalName

/-- The account a row created: by id, else by DN, else by the logon name and UPN just written. -/
def findCreated (progress : ImportRowProgress) (input : RowInput) : Asking (Option DirectoryUser) := do
  match progress.id with
  | none => findByName lower progress input
  | some id =>
    match ← Asking.getUser (.objectGuid id) with
    | some byId => return some byId
    | none => findByName lower progress input

end

structure UsedPassword where
  password : String
  mode : PasswordMode
  mustChange : Bool
  fallback : Bool
  deriving DecidableEq

def randomly (fallback : Bool) : Asking UsedPassword := do
  return { password := ← Asking.randomPassword, mode := .random, mustChange := false, fallback }

/-- The row's password, and whether it fell back to a random one. -/
def passwordFor (row : Row) (job : JobFacts) : Asking UsedPassword := do
  let options := row.input.options
  if options.passwordMode = .random then randomly false
  else if job.resultsDownloadedAt ≠ none then randomly true
  else
    match ← Asking.heldPassword row.id with
    | some held => return { password := held, mode :=
      options.passwordMode, mustChange := options.mustChange, fallback := false }
    | none =>
      if options.passwordMode = .set then randomly true
      else
        let password ← Asking.handedOutPassword
        Asking.holdPassword row.id password
        return { password, mode := options.passwordMode, mustChange := options.mustChange, fallback := false }

/-- How the password step is audited: the mode used, which a fallback makes random. -/
def passwordAudit (used : UsedPassword) : PasswordAudit where
  passwordMode := used.mode
  mustChange := used.mustChange
  passwordFallback := used.fallback

def createInput (input : RowInput) (dn : String) (usageLocationWritable : Bool) : UserCreateInput where
  dn := dn
  cn := input.cn
  samAccountName := input.samAccountName
  userPrincipalName := input.userPrincipalName
  givenName := input.givenName
  surname := input.surname
  displayName := input.displayName
  mail := input.mail
  otherMailbox := input.otherMailbox
  mobile := input.mobile
  telephoneNumber := input.telephoneNumber
  organisation := input.organisation
  initials := input.initials
  employeeId := input.employeeId
  description := input.description
  usageLocation := if usageLocationWritable then input.usageLocation else none

/-- What is known already, else what is read, or nothing where the read fails. -/
def orRead {α : Type} (known : Option α) (m : Asking (Option α)) : Asking (Option α) :=
  match known with
  | some a => pure (some a)
  | none => tryCatch m fun _ => pure none

/-- Fill in what the operator's bind couldn't read back with the service account. -/
def readBack (r : UserCreateResult) (dn : String) : Asking UserCreateResult := do
  if .create ∉ r.completed ∨ r.user.isSome = true ∧ r.fingerprint.isSome = true then return r
  else
    let user ← orRead r.user (Asking.getUser (.distinguishedName dn))
    let fingerprint ← orRead r.fingerprint (Asking.getAccountFingerprint (.distinguishedName dn))
    return { r with user := user, fingerprint := fingerprint }

/-- What the create's audit row records of how far the account steps got. -/
def stepsAudit (planned : List UserCreateStep) (written : UserCreateInput) (r : UserCreateResult) :
    WriteOpResult where
  ok := r.ok
  errorCode := r.reason
  errorMessage := r.errorMessage
  targetId := (r.user.map (·.objectGuid)).orElse fun _ => r.fingerprint.map (·.objectGuid)
  before := none
  after := if .create ∈ r.completed then
      some (.steps written.dn written.mail written.organisation written.usageLocation r.completed
        (remainingSteps planned r.completed)
        r.fingerprint)
    else none

def stepFailure (r : UserCreateResult) : Option Failure :=
  let reason := (r.errorMessage.filter (· ≠ "")).elim "." (": " ++ ·)
  match r.failedStep with
  | some .password =>
    some { step := .password, code := r.reason.getD directoryError, message := NOT_DONE .password ++ reason }
  | some .enable =>
    some { step := .enable, code := r.reason.getD directoryError, message := NOT_DONE .enable ++ reason }
  | _ => none

def createRefused (r : UserCreateResult) : String :=
  let detail := (r.errorMessage.filter (· ≠ "")).elim "." (": " ++ ·)
  match r.reason with
  | some (.other "conflict") => "Not created: its name is taken" ++ detail
  | some .notFound => "Not created: its OU is no longer in the directory."
  | some .permissionDenied => "Not created: the directory refused it" ++ detail
  | _ => "Not created" ++ detail

/-- Whether a usage location is written: one is planned, and the schema takes it. -/
def usageLocationWritable (input : RowInput) : Asking Bool :=
  match input.usageLocation.filter (· ≠ "") with
  | some _ => Asking.hasSchemaAttribute "msExchUsageLocation"
  | none => pure false

inductive Created
  | ok (progress : ImportRowProgress) (user : Option DirectoryUser) (failure : Option Failure)
  | refused (outcome : RowOutcome ImportRowProgress)

/-- Create the account disabled, set its password and enable it if asked. -/
def createAccount (row : Row) (planned : List UserCreateStep) (job : JobFacts)
    (correlationId : Option String) : Asking Created := do
  let input := row.input
  let dn := plannedDn input
  let used ← passwordFor row job
  let writable ← usageLocationWritable input
  let create := createInput input dn writable
  let r ← withAudit
    { action := .userCreate, success := true, errorCode := none, errorMessage := none,
      targetId := none, targetDn := dn
      metadata := .create input.ouDn input.samAccountName input.userPrincipalName
        (passwordAudit used) input.options.enabled input.line
      before := none, after := none }
    (stepsAudit planned create)
    (do readBack (← Asking.createUser create planned used.password used.mustChange) dn)
  if .create ∉ r.completed then
    return .refused (.failed (r.reason.getD directoryError) none (some (createRefused r)) false true
      none none none)
  else
    return .ok {
      id := (r.user.map (·.objectGuid)).orElse fun _ => r.fingerprint.map (·.objectGuid)
      distinguishedName := (r.user.map (·.distinguishedName)).getD dn
      createCorrelationId := correlationId
      completed := r.completed.map accountStep
      groups := []
      failed := []
      passwordFallback := used.fallback && decide (.password ∈ r.completed)
      adopted := false } r.user (stepFailure r)

/-- The password, where the password step is among those left. -/
def passwordIfLeft (row : Row) (steps : List UserCreateStep) (job : JobFacts) :
    Asking (Option UsedPassword) :=
  if .password ∈ steps then some <$> passwordFor row job else pure none

structure Finished where
  completed : List UserCreateStep
  failure : Option Failure
  fallback : Bool

/-- Run the account steps an earlier run left, audited as finishing a create. -/
def finishAccount (row : Row) (user : DirectoryUser) (steps planned : List UserCreateStep)
    (progress : ImportRowProgress)
    (job : JobFacts) : Asking Finished := do
  let used ← passwordIfLeft row steps job
  let done := progress.completed.filterMap isAccountStep
  let base : AuditEvent := {
    action := .userCreateFinish, success := true, errorCode := none, errorMessage := none
    targetId := some user.objectGuid, targetDn := user.distinguishedName
    metadata := .finish progress.createCorrelationId steps (used.map passwordAudit) progress.adopted
    before := none, after := none }
  let written : UserCreateInput :=
    { createInput row.input user.distinguishedName false with mail := none, organisation := [] }
  let r ← withAudit base (stepsAudit planned written) (do
    let r ← Asking.finishUserCreate user.objectGuid steps ((used.map (·.password)).getD "")
      ((used.map (·.mustChange)).getD false)
    readBack { r with completed := done ++ r.completed } user.distinguishedName)
  return {
    completed := r.completed
    failure := stepFailure r
    fallback := (used.map (·.fallback)).getD false && decide (.password ∈ r.completed) }

/-- The account as AD has it now, and as the cache is to have it. -/
def refresh (objectGuid : String) : Asking (Option DirectoryUser) := do
  match ← Asking.getUser (.objectGuid objectGuid) with
  | none =>
    Asking.forgetDeletedUser objectGuid
    return none
  | some live =>
    Asking.upsertUser live
    return some live

/-- A membership changed as the operator, audited. -/
def writeGroupMembership (op : BulkMembershipOp) (user : DirectoryUser) (group : ImportGroup) :
    Asking MembershipResult :=
  withAudit
    { action := .userGroup op, success := true, errorCode := none, errorMessage := none
      targetId := some user.objectGuid, targetDn := user.distinguishedName, metadata :=
        .group group, before := none, after := none }
    (fun r => {
      ok := r.ok, errorCode := r.reason, errorMessage := r.errorMessage, targetId := none
      before := r.isMember.map .membership
      after := if r.ok then some (.membership (op = .add)) else none })
    (Asking.writeMembership op user.objectGuid group)

/-- One group's change; whether the loop stops there. -/
def changeGroup (op : BulkMembershipOp) (user : DirectoryUser)
    (groups : String → Option ImportGroup) (c : Changes) (groupId : String) :
    Asking (Changes × Bool) := do
  let event : AuditEvent := {
    action := .userGroup op, success := false, errorCode := some .notFound, errorMessage := none
    targetId := some user.objectGuid, targetDn := user.distinguishedName, metadata :=
      .missingGroup groupId, before := none, after := none }
  match groups groupId with
  | none =>
    Asking.recordEvent event
    return (c.fail .notFound (notDone op ++ " a group that’s no longer in the directory."), false)
  | some group =>
    if op = .add ∧ membershipState group.toCachedGroup user.primaryGroupId false = .primary then
      let snapshot : EventState := .primaryMembership group.distinguishedName user.distinguishedName
      Asking.recordEvent { event with
        success := true, errorCode := none, metadata := .group group, before :=
          some snapshot, after := some snapshot }
      return (c, false)
    else
      match ← attempt (writeGroupMembership op user group) with
      | .error (.unavailable _) =>
        return (c.fail .directoryUnavailable
          (membershipFailure op group.name .directoryUnavailable none), true)
      | .error err => throw err
      | .ok result =>
        if result.ok = false then
          let code := result.reason.getD directoryError
          return (c.fail code (membershipFailure op group.name code result.errorMessage), false)
        else if alreadyAsAsked op
          (membershipState group.toCachedGroup user.primaryGroupId (result.isMember = some true)) then
          return (c, false)
        else return (c.change op group.toCachedGroup, false)

/-- The groups in order, up to one no domain controller answers for. -/
def changeGroups (op : BulkMembershipOp) (user : DirectoryUser) (groups : String → Option ImportGroup) :
    Changes → List String → Asking Changes
  | c, [] => pure c
  | c, groupId :: rest => do
    let (c', stopped) ← changeGroup op user groups c groupId
    if stopped then return c' else changeGroups op user groups c' rest

/-- The cache brought up to date, unless no domain controller answers. -/
def refreshMembershipCache (userId : String) : Asking Unit :=
  tryCatch (do
    match ← refresh userId with
    | none => return ()
    | some after => Asking.reconcileMemberships after) fun err =>
    match err with
    | .unavailable _ => pure ()
    | err => throw err

/-- The groups the cache holds of these, none asked for where there are none. -/
def findCachedGroups (ids : List String) : Asking (List ImportGroup) :=
  if ids = [] then return [] else Asking.cachedGroups ids

section
variable (lower : Lower)

/-- Add the user, as just read live, to these groups or remove them; what earlier runs changed is kept. -/
def membershipRow (op : BulkMembershipOp) (earlier : List GroupChange) (groupIds : List String)
    (user : DirectoryUser) :
    Asking (RowOutcome RowSnapshot) := do
  let cached ← findCachedGroups groupIds
  let groups (id : String) : Option ImportGroup := cached.reverse.find? fun g => lower g.id = id
  let c ← changeGroups op user groups
    { changes := earlier.foldl setChange [], changedNow := [], failures := [] } groupIds
  if c.changedNow ≠ [] then
    refreshMembershipCache user.objectGuid
    return membershipOutcome op c
  else return membershipOutcome op c

/-- The progress with the groups a membership row lists, where it lists any. -/
def keptGroups (progress : ImportRowProgress) : Option RowSnapshot → ImportRowProgress
  | some after => { progress with groups := changedGroups (some after) }
  | none => progress

/-- The groups step: what was added, and why it isn't done, if it isn't. -/
def groupsStep (progress : ImportRowProgress) (input : RowInput) (user : DirectoryUser) :
    Asking (ImportRowProgress × Option Failure) := do
  let done := (progress.groups.filter (·.isMember)).map fun g => lower g.id
  let added ← membershipRow lower .add progress.groups (input.groupIds.filter (· ∉ done)) user
  let kept := keptGroups progress added.after
  match added with
  | .ok .. => return ({ kept with completed := mergeSteps kept.completed [.groups] }, none)
  | .failed code _ message .. =>
    return (kept, some { step := .groups, code, message := message.getD (NOT_DONE .groups ++ ".") })

/-- The manager written as the operator, audited, and the account read again. -/
def writeManager (user : DirectoryUser) (managerDn : String) :
    Asking (Bool × Option RowErrorCode × Option String) := do
  if lower managerDn = lower user.distinguishedName then
    throw (.refusal (.other "self_manager") "Not changed: they can’t be their own manager.")
  else
    match ← Asking.getUser (.distinguishedName managerDn) with
    | none => throw (.refusal (.other "manager_not_found") "The manager isn’t a user in the directory.")
    | some _ =>
      let r ← withAudit
        { action := .userUpdate, success := true, errorCode := none, errorMessage := none,
          targetId := some user.objectGuid
          targetDn := user.distinguishedName, metadata := .fields ["managerDn"], before :=
            none, after := none }
        (fun (r : MutationResult) =>
          { ok := r.ok, errorCode := r.reason, errorMessage := r.errorMessage, targetId := none,
            before := none, after := none })
        (Asking.updateManager user.objectGuid managerDn)
      if r.ok then
        let _ ← refresh user.objectGuid
        return (true, none, none)
      else return (false, r.reason, r.errorMessage)

def managerFailed (code : RowErrorCode) (why : String) : Option Failure :=
  some { step := .manager, code, message := NOT_DONE .manager ++ ": " ++ why }

/-- Point the account at its manager, by GUID wherever they are now. -/
def pointAt (user : DirectoryUser) (input : RowInput) (managerId : String) : Asking (Option Failure) := do
  match ← Asking.findObject managerId with
  | none =>
    return if input.managerOrdinal = none then none
      else managerFailed .notFound "the manager’s account is no longer in the directory."
  | some managerDn =>
    if user.managerDn.map lower = some (lower managerDn) then return none
    else
      match ← attempt (writeManager lower user managerDn) with
      | .ok (true, _, _) => return none
      | .ok (false, code, message) =>
        return managerFailed (code.getD directoryError)
          ((message.filter (· ≠ "")).elim "the directory refused it." (· ++ "."))
      | .error (.refusal code message) => return managerFailed code message
      | .error (.unavailable _) =>
        return managerFailed .directoryUnavailable "no domain controller could be reached."
      | .error err => throw err

/-- Set the manager: one already in the directory, or the one this import's earlier row created. -/
def setManager (user : DirectoryUser) (input : RowInput) : Asking (Option Failure) := do
  match input.managerOrdinal with
  | some ordinal =>
    let manager ← Asking.managerRow ordinal
    match (manager.bind (·.targetId)).filter (· ≠ "") with
    | some managerId => pointAt lower user input managerId
    | none =>
      let line := ((manager.bind (·.line)).filter (· ≠ 0)).elim "" fun line =>
        " (row " ++ toString line ++ ")"
      let who := ((manager.bind (·.targetName)).getD "the manager") ++ line
      return managerFailed (.other "manager_not_created") (who ++ " wasn’t created.")
  | none =>
    match input.managerId.filter (· ≠ "") with
    | some managerId => pointAt lower user input managerId
    | none => return none

/-- Where a run stands once the account's steps are behind it. -/
structure Standing where
  progress : ImportRowProgress
  user : Option DirectoryUser
  failures : List Failure

/-- An account an earlier run made: found, and its steps finished. -/
def resume (row : Row) (job : JobFacts) (progress : ImportRowProgress) : Asking (Option Standing) := do
  let planned := accountSteps row.input.options.enabled
  let progress := { progress with failed := [] }
  match ← findCreated lower progress row.input with
  | none => return none
  | some user =>
    let progress := { progress with id := some user.objectGuid, distinguishedName := user.distinguishedName }
    let left := remainingSteps planned (progress.completed.filterMap isAccountStep)
    if left = [] then return some { progress, user := some user, failures := [] }
    else
      let finished ← finishAccount row user left planned progress job
      return some {
        progress := { progress with
          completed := mergeSteps progress.completed (finished.completed.map accountStep)
          passwordFallback := progress.passwordFallback || finished.fallback }
        user := some user
        failures := finished.failure.toList }

/-- Steps with nothing to do are done, account or not. -/
def withNothingToDo (input : RowInput) (progress : ImportRowProgress) : ImportRowProgress :=
  let grouped := if input.groupIds = [] then
    { progress with completed := mergeSteps progress.completed [.groups] } else progress
  if input.managerId.filter (· ≠ "") = none ∧ input.managerOrdinal = none then
    { grouped with completed := mergeSteps grouped.completed [.manager] }
  else grouped

def located (progress : ImportRowProgress) (user : DirectoryUser) : ImportRowProgress :=
  { progress with id := some user.objectGuid, distinguishedName := user.distinguishedName }

/-- What's left of an account made, but neither read back nor found since. -/
def notReadBack (progress : ImportRowProgress) (failures : List Failure) : List Failure :=
  IMPORT_STEPS.foldl (fun failures step =>
    if step = .create ∨ step ∈ progress.completed ∨ ∃ f ∈ failures, f.step = step then failures
    else failures ++ [{ step, code := .notFound
                        message := NOT_DONE step ++
                          ": the new account couldn’t be read back. Retry once the directory answers." }])
    failures

def outcomeOf (progress : ImportRowProgress) (failures : List Failure) : RowOutcome ImportRowProgress :=
  let progress := { progress with failed := failures.map fun f => (f.step, f.message) }
  match failures with
  | [] => .ok false none none (some progress) progress.id
  | first :: _ =>
    .failed first.code none (some (" ".intercalate (failures.map (·.message)).eraseDups)) true true
      none (some progress) progress.id

def groupsIfLeft (input : RowInput) (user : DirectoryUser) (progress : ImportRowProgress)
    (failures : List Failure) :
    Asking (ImportRowProgress × List Failure) := do
  if .groups ∈ progress.completed then return (progress, failures)
  else
    let (progress, failure) ← groupsStep lower progress input user
    return (progress, failures ++ failure.toList)

def managerIfLeft (input : RowInput) (user : DirectoryUser) (progress : ImportRowProgress)
    (failures : List Failure) :
    Asking (RowOutcome ImportRowProgress) := do
  if .manager ∈ progress.completed then return outcomeOf progress failures
  else
    match ← setManager lower user input with
    | some failure => return outcomeOf progress (failures ++ [failure])
    | none =>
      return outcomeOf { progress with completed := mergeSteps progress.completed [.manager] } failures

/-- The groups and the manager of an account that's been found. -/
def lastSteps (input : RowInput) (user : DirectoryUser) (progress : ImportRowProgress)
    (failures : List Failure) :
    Asking (RowOutcome ImportRowProgress) := do
  let (progress, failures) ← groupsIfLeft lower input user progress failures
  managerIfLeft lower input user progress failures

/-- The account as its steps left it, else as it's found. -/
def accountOf (user : Option DirectoryUser) (progress : ImportRowProgress) (input : RowInput) :
    Asking (Option DirectoryUser) :=
  match user with
  | some user => pure (some user)
  | none => findCreated lower progress input

/-- The account read live, or as it was where it isn't found. -/
def readLive : Option DirectoryUser → Asking (Option DirectoryUser)
  | none => return none
  | some user => do
    let live ← refresh user.objectGuid
    return live.orElse fun _ => some user

/-- The account read live, and its groups and manager. -/
def followUp (row : Row) (standing : Standing) : Asking (RowOutcome ImportRowProgress) := do
  let progress := withNothingToDo row.input standing.progress
  let user ← accountOf lower standing.user progress row.input
  match ← readLive user with
  | none => return outcomeOf progress (notReadBack progress standing.failures)
  | some user => lastSteps lower row.input user (located progress user) standing.failures

/-- What the row's earlier runs did: as the row stored it, as the create's event says, or of an
account taken on. -/
def earlierRuns (row : Row) (job : JobFacts) : Asking (Option ImportRowProgress) := do
  match row.after with
  | some progress => return some progress
  | none =>
    match ← createdBefore lower row.input with
    | some progress => return some progress
    | none => if 1 < row.attempts then adopt lower row.input job else return none

def runImportRow (row : Row) (correlationId : Option String) : Asking (RowOutcome ImportRowProgress) := do
  let job ← Asking.job
  let planned := accountSteps row.input.options.enabled
  match ← earlierRuns lower row job with
  | none =>
    match ← createAccount row planned job correlationId with
    | .refused outcome => return outcome
    | .ok progress user failure => followUp lower row { progress, user, failures := failure.toList }
  | some progress =>
    match ← resume lower row job progress with
    | some standing => followUp lower row standing
    | none =>
      return .failed .notFound none
        (some "The account the import created is no longer in the directory.") false false
        none row.after none

end

end OpenAduc.ImportRows
