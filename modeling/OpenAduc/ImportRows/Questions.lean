import OpenAduc.BulkJobs.ImportOrder
import OpenAduc.BulkJobs.Membership
import OpenAduc.Dates.Iso
import OpenAduc.Dn.Codec
import OpenAduc.Lib.Dialogue
import OpenAduc.UserCreation.Progress

namespace OpenAduc.ImportRows
open BulkJobs (RowErrorCode GroupChange CachedGroup PasswordMode ImportOptions BulkMembershipOp)
open UserCreation (UserCreateStep)

inductive ImportStep
  | create
  | password
  | enable
  | groups
  | manager
  deriving DecidableEq, Repr

/-- The steps of a row, in the order they run. -/
def IMPORT_STEPS : List ImportStep := [.create, .password, .enable, .groups, .manager]

/-- A row's input, as the import's plan has it; the manager by the ordinal of the row creating them. -/
structure RowInput where
  line : Nat
  ouDn : String
  cn : String
  samAccountName : String
  userPrincipalName : String
  givenName : String
  surname : String
  displayName : String
  initials : Option String
  mail : Option String
  otherMailbox : Option String
  mobile : Option String
  telephoneNumber : Option String
  employeeId : Option String
  description : Option String
  /-- The organisation's fields by name. -/
  organisation : List (String × String)
  managerId : Option String
  groupIds : List String
  usageLocation : Option String
  managerOrdinal : Option Nat
  options : ImportOptions
  deriving DecidableEq

/-- What a row's runs have done, as its after_json keeps it. -/
structure ImportRowProgress where
  id : Option String
  distinguishedName : String
  /-- The create's correlation id, which a finish of its steps records. -/
  createCorrelationId : Option String
  completed : List ImportStep
  /-- The groups added, as a membership row keeps them. -/
  groups : List GroupChange
  failed : List (ImportStep × String)
  /-- Its password is random and nobody knows it. -/
  passwordFallback : Bool
  /-- A retry took on an account a run had created without recording it. -/
  adopted : Bool
  deriving DecidableEq

structure Row where
  id : Nat
  attempts : Nat
  input : RowInput
  after : Option ImportRowProgress
  deriving DecidableEq

structure JobFacts where
  createdAt : Int
  resultsDownloadedAt : Option Int
  deriving DecidableEq

structure DirectoryUser where
  objectGuid : String
  distinguishedName : String
  samAccountName : Option String
  userPrincipalName : Option String
  enabled : Bool
  managerDn : Option String
  /-- What its `primaryGroupID` is read as. -/
  primaryGroupId : Option String
  deriving DecidableEq

structure AccountFingerprint where
  objectGuid : String
  whenCreated : Option String
  usnChanged : Option String
  pwdLastSet : Option String
  lastLogonTimestamp : Option String
  deriving DecidableEq

inductive Identifier
  | objectGuid (value : String)
  | distinguishedName (value : String)
  | samAccountName (value : String)
  deriving DecidableEq

/-- What a create writes. -/
structure UserCreateInput where
  dn : String
  cn : String
  samAccountName : String
  userPrincipalName : String
  givenName : String
  surname : String
  displayName : String
  mail : Option String
  otherMailbox : Option String
  mobile : Option String
  telephoneNumber : Option String
  organisation : List (String × String)
  initials : Option String
  employeeId : Option String
  description : Option String
  usageLocation : Option String
  deriving DecidableEq

/-- What a create, or a finish of one, came to. -/
structure UserCreateResult where
  ok : Bool
  reason : Option RowErrorCode
  errorMessage : Option String
  /-- The steps done, in order. -/
  completed : List UserCreateStep
  /-- The step that failed after the account was made. -/
  failedStep : Option UserCreateStep
  /-- The account as read back, unless that failed. -/
  user : Option DirectoryUser
  /-- The account as the steps left it, unless that couldn't be read. -/
  fingerprint : Option AccountFingerprint
  deriving DecidableEq

/-- A cached group, with the name the directory has for it. -/
structure ImportGroup extends CachedGroup where
  distinguishedName : String
  deriving DecidableEq

structure MembershipResult where
  ok : Bool
  /-- Whether the user was in the group before, where the directory said. -/
  isMember : Option Bool
  reason : Option RowErrorCode
  errorMessage : Option String
  deriving DecidableEq

structure MutationResult where
  ok : Bool
  reason : Option RowErrorCode
  errorMessage : Option String
  deriving DecidableEq

/-- How a password was set: the mode used, which a fallback makes random. -/
structure PasswordAudit where
  passwordMode : PasswordMode
  mustChange : Bool
  passwordFallback : Bool
  deriving DecidableEq

inductive EventMetadata
  | create (ouDn samAccountName userPrincipalName : String) (password : PasswordAudit)
    (enabled : Bool) (importLine : Nat)
  | finish (createCorrelationId : Option String) (steps : List UserCreateStep)
    (password : Option PasswordAudit) (adopted : Bool)
  | missingGroup (groupId : String)
  | group (group : ImportGroup)
  | fields (names : List String)
  deriving DecidableEq

/-- What an event says of the account or the membership after the write. -/
inductive EventState
  | steps (distinguishedName : String) (mail : Option String)
    (organisation : List (String × String)) (usageLocation : Option String)
      (completed remaining : List UserCreateStep) (account : Option AccountFingerprint)
  | membership (isMember : Bool)
  | primaryMembership (group member : String)
  deriving DecidableEq

inductive AuditAction
  | userCreate
  | userCreateFinish
  | userGroup (op : BulkMembershipOp)
  | userUpdate
  deriving DecidableEq

structure AuditEvent where
  action : AuditAction
  success : Bool
  errorCode : Option RowErrorCode
  errorMessage : Option String
  targetId : Option String
  targetDn : String
  metadata : EventMetadata
  before : Option EventState
  after : Option EventState
  deriving DecidableEq

/-- The create's event as a later run finds it. -/
structure CreateEvent where
  targetId : Option String
  targetDn : Option String
  correlationId : Option String
  completed : Option (List ImportStep)
  deriving DecidableEq

/-- The row that creates the manager, as another row reads it. -/
structure ManagerRow where
  targetId : Option String
  targetName : Option String
  line : Option Nat
  deriving DecidableEq

/-- What is thrown: a `DirectoryUnavailableError`, a `UserAttributeRefusal` or another error;
`audited` is whether it was audited. -/
inductive Thrown
  | unavailable (audited : Bool)
  | refusal (code : RowErrorCode) (message : String)
  | other (name : String) (audited : Bool)
  deriving DecidableEq

inductive Question
  | job
  /-- The job's last `user.create` event of this name that got as far as creating. -/
  | createEvent (dn : String)
  | getUser (identifier : Identifier)
  | getAccountFingerprint (identifier : Identifier)
  | randomPassword
  | handedOutPassword
  | heldPassword (rowId : Nat)
  | holdPassword (rowId : Nat) (password : String)
  | hasSchemaAttribute (name : String)
  | createUser (input : UserCreateInput) (steps : List UserCreateStep) (password : String) (mustChange : Bool)
  | finishUserCreate (objectGuid : String) (steps : List UserCreateStep) (password : String)
    (mustChange : Bool)
  | recordEvent (event : AuditEvent)
  | forgetDeletedUser (objectGuid : String)
  | upsertUser (user : DirectoryUser)
  | cachedGroups (ids : List String)
  | writeMembership (op : BulkMembershipOp) (objectGuid : String) (group : ImportGroup)
  | reconcileMemberships (user : DirectoryUser)
  | managerRow (ordinal : Nat)
  | findObject (objectGuid : String)
  | updateManager (objectGuid managerDn : String)
  deriving DecidableEq

abbrev Question.Answer : Question → Type
  | job => JobFacts
  | createEvent _ => Option CreateEvent
  | getUser _ => Option DirectoryUser
  | getAccountFingerprint _ => Option AccountFingerprint
  | randomPassword | handedOutPassword => String
  | heldPassword _ => Option String
  | holdPassword _ _ => Unit
  | hasSchemaAttribute _ => Bool
  | createUser .. | finishUserCreate .. => UserCreateResult
  | recordEvent _ => Unit
  | forgetDeletedUser _ | upsertUser _ => Unit
  | cachedGroups _ => List ImportGroup
  | writeMembership .. => MembershipResult
  | reconcileMemberships _ => Unit
  | managerRow _ => Option ManagerRow
  | findObject _ => Option String
  | updateManager .. => MutationResult

abbrev Asking := Dialogue Question Question.Answer Thrown

abbrev Said := Dialogue.Exchange Question Question.Answer Thrown

/-- An error of the database, which throws no `DirectoryUnavailableError`. -/
def Thrown.ofDatabase : Thrown → Thrown
  | .unavailable audited => .other "DatabaseError" audited
  | err => err

/-- What the database is asked. -/
def askDatabase (q : Question) : Asking q.Answer := tryCatch (Dialogue.call q) fun err => throw err.ofDatabase

namespace Asking

def job : Asking JobFacts := askDatabase Question.job
def createEvent (dn : String) : Asking (Option CreateEvent) := askDatabase (Question.createEvent dn)
def getUser (identifier : Identifier) : Asking (Option DirectoryUser) :=
  Dialogue.call (Question.getUser identifier)
def getAccountFingerprint (identifier : Identifier) : Asking (Option AccountFingerprint) :=
  Dialogue.call (Question.getAccountFingerprint identifier)
def randomPassword : Asking String := Dialogue.call Question.randomPassword
def handedOutPassword : Asking String := Dialogue.call Question.handedOutPassword
def heldPassword (rowId : Nat) : Asking (Option String) := askDatabase (Question.heldPassword rowId)
def holdPassword (rowId : Nat) (password : String) : Asking Unit :=
  askDatabase (Question.holdPassword rowId password)
def hasSchemaAttribute (name : String) : Asking Bool := Dialogue.call (Question.hasSchemaAttribute name)
def createUser (input : UserCreateInput) (steps : List UserCreateStep) (password : String)
    (mustChange : Bool) : Asking UserCreateResult :=
  Dialogue.call (Question.createUser input steps password mustChange)
def finishUserCreate (objectGuid : String) (steps : List UserCreateStep) (password : String)
    (mustChange : Bool) : Asking UserCreateResult :=
  Dialogue.call (Question.finishUserCreate objectGuid steps password mustChange)
def recordEvent (event : AuditEvent) : Asking Unit := askDatabase (Question.recordEvent event)
def forgetDeletedUser (objectGuid : String) : Asking Unit :=
  askDatabase (Question.forgetDeletedUser objectGuid)
def upsertUser (user : DirectoryUser) : Asking Unit := askDatabase (Question.upsertUser user)
def cachedGroups (ids : List String) : Asking (List ImportGroup) := askDatabase (Question.cachedGroups ids)
def writeMembership (op : BulkMembershipOp) (objectGuid : String) (group : ImportGroup) :
    Asking MembershipResult :=
  Dialogue.call (Question.writeMembership op objectGuid group)
def reconcileMemberships (user : DirectoryUser) : Asking Unit :=
  askDatabase (Question.reconcileMemberships user)
def managerRow (ordinal : Nat) : Asking (Option ManagerRow) := askDatabase (Question.managerRow ordinal)
def findObject (objectGuid : String) : Asking (Option String) :=
  Dialogue.call (Question.findObject objectGuid)
def updateManager (objectGuid managerDn : String) : Asking MutationResult :=
  Dialogue.call (Question.updateManager objectGuid managerDn)

end Asking

/-- What it comes to, an error too. -/
def attempt {α : Type} (m : Asking α) : Asking (Except Thrown α) :=
  tryCatch (Except.ok <$> m) fun e => pure (.error e)

end OpenAduc.ImportRows
