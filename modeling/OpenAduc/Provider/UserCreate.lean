import OpenAduc.Provider.ReadBack
import OpenAduc.UserCreation.Progress

namespace OpenAduc.Provider.UserCreate
open Naming (Text text decimal unit quoted join lowerUnit)
open UserCreation (UserCreateStep)

/-- An object's values, by attribute. -/
abbrev Object := Text → List Text

def Object.put (o : Object) (type : Text) (values : List Text) : Object :=
  fun name => if name = type then values else o name

inductive Operation
  | add
  | delete
  | replace
deriving DecidableEq, Repr

structure Change where
  operation : Operation
  type : Text
  values : List Text
deriving DecidableEq, Repr

def Object.changed (o : Object) (c : Change) : Object :=
  o.put c.type <|
    match c.operation with
    | .add => o c.type ++ c.values
    | .delete => (o c.type).filter fun v => v ∉ c.values
    | .replace => c.values

def NORMAL_ACCOUNT : Nat := 0x200

def ACCOUNTDISABLE : Nat := 2

def MEMBER : Text := text "member"

def USER_ACCOUNT_CONTROL : Text := text "userAccountControl"

/-- `unicodePwd` takes the password in quotes. -/
def encodeUnicodePassword (plaintext : Text) : Text := quoted plaintext

/-- Set a password, and must-change with it, in one modify. -/
def passwordChanges (password : Text) (mustChange : Bool) : List Change :=
  ⟨.replace, text "unicodePwd", [encodeUnicodePassword password]⟩ ::
    (if mustChange then [⟨.replace, text "pwdLastSet", [text "0"]⟩] else [])

def accountControlChange (userAccountControl : Nat) : Change :=
  ⟨.replace, USER_ACCOUNT_CONTROL, [decimal userAccountControl]⟩

def isWordUnit (c : UInt16) : Bool :=
  Naming.isDigit c || Naming.isLower c || Naming.isUpper c || c = unit '_'

/-- `\b0*52D\b` at the start of the text, after `before`. -/
def namesPolicyAt (before : Option UInt16) (t : Text) : Bool :=
  let digits := t.dropWhile (· = unit '0')
  !before.any isWordUnit && t.head?.any isWordUnit && (text "52d").isPrefixOf (digits.map lowerUnit) &&
    !(digits.drop 3).head?.any isWordUnit

/-- `\b0*52D\b` anywhere. -/
def namesPolicy : Option UInt16 → Text → Bool
  | before, [] => namesPolicyAt before []
  | before, c :: rest => namesPolicyAt before (c :: rest) || namesPolicy (some c) rest

def mentionsPolicy (message : Text) : Bool :=
  namesPolicy none message ||
    ["password_restrictions", "policy", "complexity", "length", "history"].any fun word =>
      (message.map lowerUnit).tails.any (text word).isPrefixOf

structure Refusal where
  reason : Reason
  errorMessage : Text
deriving DecidableEq, Repr

def refusalOf (err : LdapError) : Refusal :=
  let refused := (classifyWriteError err : MutationResult Unit)
  ⟨refused.reason.getD .directoryError, refused.errorMessage.getD (text "refused")⟩

/-- A refused password write: a password the policy rejects is known by the message. -/
def classifyPasswordError (err : LdapError) : Refusal :=
  let refused := refusalOf err
  if mentionsPolicy refused.errorMessage then { refused with reason := .policyViolation } else refused

inductive Event
  /-- The steps after the add come to this one. -/
  | began (s : UserCreateStep)
  /-- A step's own write, with the error it was refused with. -/
  | answered (s : UserCreateStep) (refused : Option LdapError)
  /-- A call about a group, with the error it was refused with. -/
  | group (dn : Text) (refused : Option LdapError)
deriving DecidableEq, Repr

/-- The directory's objects, each under what AD compares of its name, and what was done. -/
structure World where
  objects : Text → Option Object
  trail : List Event

/-- How the calls of one create or finish fare: the error each throws, having changed nothing, or none. -/
structure Outcomes where
  bind : Option BindFault
  /-- What the name checks come to, on this bind. -/
  clash : Except LdapError (Option Text)
  find : Except LdapError (Option Entry)
  write : UserCreateStep → Option LdapError
  /-- By the group's place in the list. -/
  search : Nat → Option LdapError
  member : Nat → Option LdapError
  readUser : Except LdapError (Option Entry)
  readFingerprint : Except LdapError (Option Entry)

abbrev Ldap (α : Type) := Attempt LdapError World α

def World.noted (w : World) (e : Event) : World := { w with trail := w.trail ++ [e] }

def World.put (w : World) (name : Text) (o : Object) : World :=
  { w with objects := fun k => if k = name then some o else w.objects k }

def emit (e : Event) : Ldap Unit := do set ((← get).noted e)

def setObject (name : Text) (o : Object) : Ldap Unit := do set ((← get).put name o)

section
variable (key : Text → Text) (outcomes : Outcomes)

/-- A call that is refused, or does what it does. -/
def send (event : Option LdapError → Event) (refused : Option LdapError) (act : Ldap Unit) : Ldap Unit := do
  emit (event refused)
  Attempt.call refused act

def add (dn : Text) (attrs : Object) : Ldap Unit := do
  let w ← get
  let taken := if (w.objects (key dn)).isSome then some ⟨.alreadyExists, text "already exists"⟩ else none
  send (.answered .create) ((outcomes.write .create).or taken) (setObject (key dn) attrs)

/-- The changes, in order, or none of them. -/
def modifyAt (event : Option LdapError → Event) (fault : Option LdapError) (dn : Text)
    (changes : List Change) : Ldap Unit := do
  match (← get).objects (key dn) with
  | none => send event (some (fault.getD ⟨.noSuchObject, text "no such object"⟩)) (pure ())
  | some o => send event fault (setObject (key dn) (changes.foldl Object.changed o))

def holdsMember (o : Object) (memberDn : Text) : Bool := (o MEMBER).any fun v => key v = key memberDn

/-- Make `memberDn` a member of `groupDn` or not; returns whether it was one. -/
def setMember (place : Nat) (groupDn memberDn : Text) (member : Bool) : Ldap Bool := do
  let group := (← get).objects (key groupDn)
  let absent := if group.isNone then some ⟨.noSuchObject, text "no such object"⟩ else none
  send (.group groupDn) ((outcomes.search place).or absent) (pure ())
  let wasMember := group.any fun o => holdsMember key o memberDn
  if wasMember ≠ member then
    modifyAt key (.group groupDn) (outcomes.member place) groupDn
      [⟨if member then .add else .delete, MEMBER, [memberDn]⟩]
  return wasMember

structure FailedGroup where
  dn : Text
  reason : Reason
  errorMessage : Text
deriving DecidableEq, Repr

/-- How the groups step went, group by group. -/
structure GroupsStepResult where
  added : List Text
  failed : List FailedGroup
  missing : List Text
deriving DecidableEq, Repr

/-- Add the account to each group, carrying on past one that refuses. -/
def addToGroups (dn : Text) : Nat → GroupsStepResult → List Text → Ldap GroupsStepResult
  | _, done, [] => return done
  | place, done, groupDn :: rest => do
    let next ← tryCatch
      (do
        let _ ← setMember key outcomes place groupDn dn true
        return { done with added := done.added ++ [groupDn] })
      fun err =>
        if err.kind = .noSuchObject then return { done with missing := done.missing ++ [groupDn] }
        else
          let refused := refusalOf err
          return { done with failed := done.failed ++ [⟨groupDn, refused.reason, refused.errorMessage⟩] }
    addToGroups dn (place + 1) next rest

structure UserCreateFinish where
  password : Text
  mustChange : Bool
  /-- DNs of the groups the groups step adds the account to. -/
  groups : List Text
deriving DecidableEq, Repr

structure UserCreateResult where
  ok : Bool
  reason : Option Reason
  errorMessage : Option Text
  /-- The steps done, in order. -/
  completed : List UserCreateStep
  /-- The step that failed after the account was made. -/
  failedStep : Option UserCreateStep
  /-- Set once the groups step has run. -/
  groups : Option GroupsStepResult
  user : Option User
  fingerprint : Option AccountFingerprint
deriving DecidableEq, Repr

/-- Nothing done. -/
def notDone (reason : Reason) (message : Text) : UserCreateResult where
  ok := false
  reason := some reason
  errorMessage := some message
  completed := []
  failedStep := none
  groups := none
  user := none
  fingerprint := none

/-- The account read back: reads that fail leave it out. -/
def leftAs : Ldap (Option User × Option AccountFingerprint) := do
  let entry ← tryCatch (liftM outcomes.readUser) fun _ => pure none
  let fingerprint ← tryCatch (liftM (outcomes.readFingerprint.bind accountFingerprint)) fun _ => pure none
  return (← liftM (entry.mapM normalizeUser), fingerprint)

/-- What came of the steps so far, with the account as they left it. -/
def reported (refused : Option (UserCreateStep × Refusal)) (completed : List UserCreateStep)
    (groups : Option GroupsStepResult) : Ldap UserCreateResult := do
  let left ← leftAs outcomes
  return {
    ok := refused.isNone
    reason := refused.map fun r => r.2.reason
    errorMessage := refused.map fun r => r.2.errorMessage
    completed := completed
    failedStep := refused.map Prod.fst
    groups := groups
    user := left.1
    fingerprint := left.2 }

/-- A step's own modify. -/
def writeStep (dn : Text) (finish : UserCreateFinish) : UserCreateStep → Ldap Unit
  | .password =>
    modifyAt key (.answered .password) (outcomes.write .password) dn
      (passwordChanges finish.password finish.mustChange ++
        [accountControlChange (NORMAL_ACCOUNT ||| ACCOUNTDISABLE)])
  | .enable => modifyAt key (.answered .enable) (outcomes.write .enable) dn [accountControlChange
    NORMAL_ACCOUNT]
  | .create | .groups => pure ()

/-- The groups that refused, in words. -/
def groupsRefused (failed : List FailedGroup) : Text :=
  join (text "; ") (failed.map fun f => (Dn.leafRdnValue f.dn).getD f.dn ++ text ": " ++ f.errorMessage)

/-- The steps not yet completed, in order, stopping at the first that fails. -/
def runCreateSteps (dn : Text) (finish : UserCreateFinish) (completed : List UserCreateStep)
    (groups : Option GroupsStepResult) :
    List UserCreateStep → Ldap UserCreateResult
  | [] => reported outcomes none completed groups
  | step :: rest =>
    if completed.contains step then runCreateSteps dn finish completed groups rest
    else do
      emit (.began step)
      if step = .groups then
        let done ← addToGroups key outcomes dn 0 ⟨[], [], []⟩ finish.groups
        match done.failed with
        | [] => runCreateSteps dn finish (completed ++ [step]) (some done) rest
        | first :: _ =>
          reported outcomes (some (step, ⟨first.reason, groupsRefused done.failed⟩)) completed (some done)
      else
        let refused ← tryCatch (do writeStep key outcomes dn finish step; return none) fun err =>
          return some (if step = .password then classifyPasswordError err else refusalOf err)
        match refused with
        | none => runCreateSteps dn finish (completed ++ [step]) groups rest
        | some r => reported outcomes (some (step, r)) completed groups

inductive NewUserOrganisationField
  | title
  | department
  | company
  | physicalDeliveryOfficeName
  | streetAddress
  | l
  | st
  | postalCode
  | c
  | co
  | countryCode
deriving DecidableEq, Repr

def NewUserOrganisationField.attributeName : NewUserOrganisationField → Text
  | .title => text "title"
  | .department => text "department"
  | .company => text "company"
  | .physicalDeliveryOfficeName => text "physicalDeliveryOfficeName"
  | .streetAddress => text "streetAddress"
  | .l => text "l"
  | .st => text "st"
  | .postalCode => text "postalCode"
  | .c => text "c"
  | .co => text "co"
  | .countryCode => text "countryCode"

structure UserCreateInput where
  dn : Text
  cn : Text
  samAccountName : Text
  userPrincipalName : Text
  givenName : Text
  surname : Text
  displayName : Text
  mail : Option Text
  otherMailbox : Option Text
  mobile : Option Text
  telephoneNumber : Option Text
  organisation : List (NewUserOrganisationField × Text)
  manager : Option Text
  initials : Option Text
  employeeId : Option Text
  description : Option Text
  usageLocation : Option Text

/-- Attributes with a value; an empty one has none. -/
def Object.putGiven (o : Object) (given : List (Text × Option Text)) : Object :=
  given.foldl (fun o x => match x.2.filter (· ≠ []) with
    | none => o
    | some value => o.put x.1 [value]) o

/-- Disabled until it has a password. -/
def newAttributes (input : UserCreateInput) : Object :=
  let named : Object := fun _ => []
  let named := named.put (text "objectClass")
    [text "top", text "person", text "organizationalPerson", text "user"]
  let named := named.put (text "cn") [input.cn]
  let named := named.put (text "sAMAccountName") [input.samAccountName]
  let named := named.put (text "userPrincipalName") [input.userPrincipalName]
  let named := named.put (text "givenName") [input.givenName]
  let named := named.put (text "sn") [input.surname]
  let named := named.put (text "displayName") [input.displayName]
  let named := named.put USER_ACCOUNT_CONTROL [decimal (NORMAL_ACCOUNT ||| ACCOUNTDISABLE)]
  let given := named.putGiven [
    (text "mail", input.mail),
    (text "otherMailbox", input.otherMailbox),
    (text "mobile", input.mobile),
    (text "telephoneNumber", input.telephoneNumber),
    (text "initials", input.initials),
    (text "employeeID", input.employeeId),
    (text "description", input.description),
    (text "msExchUsageLocation", input.usageLocation)]
  let organised := input.organisation.foldl (fun o x => o.put x.1.attributeName [x.2]) given
  organised.putGiven [(text "manager", input.manager)]

/-- Bound as the operator; the add's refusal, and anything thrown, report nothing done. -/
def asOperator (body : Ldap UserCreateResult) (objects : Text → Option Object) : UserCreateResult × World :=
  match outcomes.bind with
  | some .refused => (notDone .permissionDenied (text "step-up bind failed"), ⟨objects, []⟩)
  | some (.unreachable message) => (notDone .directoryError message, ⟨objects, []⟩)
  | none => Attempt.settle (fun err =>
    notDone (refusalOf err).reason (refusalOf err).errorMessage) body ⟨objects, []⟩

def createUser (input : UserCreateInput) (steps : List UserCreateStep) (finish : UserCreateFinish)
    (objects : Text → Option Object) : UserCreateResult × World :=
  asOperator outcomes
    (do
      match ← liftM outcomes.clash with
      | some clash => return notDone .conflict clash
      | none =>
        let refused ← tryCatch (do add key outcomes input.dn (newAttributes input); return none)
          fun err => return some err
        match refused with
        | some err => return notDone (refusalOf err).reason (refusalOf err).errorMessage
        | none => runCreateSteps key outcomes input.dn finish [.create] none steps)
    objects

def finishUserCreate (steps : List UserCreateStep) (finish : UserCreateFinish)
    (objects : Text → Option Object) :
    UserCreateResult × World :=
  asOperator outcomes
    (do
      match ← liftM outcomes.find with
      | none => return notDone .notFound (text "user not found")
      | some target =>
        let user ← liftM (normalizeUser target)
        runCreateSteps key outcomes user.distinguishedName finish [] none steps)
    objects

end

end OpenAduc.Provider.UserCreate
