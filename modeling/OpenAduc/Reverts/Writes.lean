import OpenAduc.Reverts.Facets

namespace OpenAduc.Reverts
open Naming (Text text)
open Provider (Guid Entry MutationResult Reason LdapError)
open BulkJobs (GroupChange JobId RowErrorCode BulkMembershipOp CachedGroup)

/-- What an account has besides its directory entry's own attributes. -/
structure AccountRest where
  pwdLastSet : Int
  raw : (f : BulkAttributeField) → Raw f
  memberOf : List String
  primaryGroupID : Option String
  uSNChanged : Option String

structure World where
  directory : Provider.Directory
  rest : Guid → AccountRest

/-- An account as just read live. -/
structure DirectoryUser where
  entry : Entry
  rest : AccountRest

def World.getUser (w : World) (id : Guid) : Option DirectoryUser :=
  (w.directory.find .user id).map fun e => ⟨e, w.rest id⟩

namespace DirectoryUser
variable (u : DirectoryUser)

def control : BitVec 32 := (Provider.userAccountControlOf u.entry).getD 0

def enabled : Bool := u.control &&& Provider.ACCOUNTDISABLE = 0

def passwordNeverExpires : Bool := u.control &&& Provider.DONT_EXPIRE_PASSWORD ≠ 0

def passwordMustChange : Bool := u.rest.pwdLastSet = 0

def accountExpiresAt : Option Int := Provider.accountExpiresAt u.entry

end DirectoryUser

structure DirectoryObjectRef where
  objectGuid : Guid
  distinguishedName : Text
  name : Text
  isOu : Bool
  isUser : Bool
  isCriticalSystemObject : Bool
deriving DecidableEq

/-- What is found live by GUID or DN: what a GUID finds its name does, in whatever case. -/
structure Objects (lower : Text → Text) where
  byGuid : Guid → Option DirectoryObjectRef
  byDn : Text → Option DirectoryObjectRef
  guid : ∀ {guid o}, byGuid guid = some o → o.objectGuid = guid
  named : ∀ {guid o}, byGuid guid = some o → byDn o.distinguishedName = some o
  caseless : ∀ {a b}, lower a = lower b → byDn a = byDn b

/-- Nothing is found. -/
def Objects.none {lower : Text → Text} : Objects lower where
  byGuid _ := Option.none
  byDn _ := Option.none
  guid := nofun
  named := nofun
  caseless _ := rfl

def sameDn (lower : Text → Text) (a b : Text) : Bool := lower a = lower b

structure CachedOu where
  distinguishedName : Text
  name : Text
  isCriticalSystemObject : Bool
deriving DecidableEq

/-- The groups the cache holds, by id. -/
structure CachedGroups where
  get : String → Option CachedGroup
  ids : ∀ id group, get id = some group → group.id = id

/-- An audit event of a user, and what its job reverts. -/
structure AuditEvent where
  targetId : Guid
  action : String
  actorDisplayName : Option String
  timestamp : Int
  success : Bool
  unchanged : Bool
  groupId : Option String
  bulkJobId : Option JobId
  revertsJobId : Option JobId
deriving DecidableEq, Repr

inductive Thrown
  | unavailable
  | other
deriving DecidableEq, Repr

/-- Where a row calls out, besides the directory's own writes. -/
inductive Site
  | refresh
  | lookup
  | cachedOu
  | events
  | reread
  | manager
  | audit
  | refreshed
  | groupCache
  | managerGuid
deriving DecidableEq, Repr

/-- Why a group's write was not made. -/
inductive MemberFault
  | refused (errorCode : Option RowErrorCode) (errorMessage : Option String)
  | unavailable
  | threw
deriving DecidableEq, Repr

/-- What a row's run is answered, and when. -/
structure Env where
  lower : Text → Text
  spelling : Provider.Spelling
  objects : Objects lower
  cachedOus : List CachedOu
  groups : CachedGroups
  events : List AuditEvent
  /-- What the clock says, as AD keeps it. -/
  now : Int
  clock : 0 < now
  faults : Site → Option Thrown
  provider : Provider.Faults
  member : String → Option MemberFault
  groupAudited : String → Bool
  cacheRefreshed : Bool

abbrev Row (α : Type) := Attempt Thrown World α

/-- What the row says to the operator comes as text. -/
inductive RevertOutcome
  | ok (unchanged : Bool) (reason : Option (RowErrorCode × Text)) (before after : Option Snapshot)
  | failed (errorCode : RowErrorCode) (errorMessage message : Option Text) (partially audited : Bool)
      (before after : Option Snapshot)

def RevertOutcome.notFound : RevertOutcome := .failed .notFound none none false false none none

section Row
variable (env : Env)

def atSite {α : Type} (site : Site) (act : Row α) : Row α := Attempt.call (env.faults site) act

/-- A write of the directory's own, over the world. -/
def onDirectory {ν : Type} (snapshot : ν → Snapshot)
    (write : Provider.Directory → MutationResult ν × Provider.Directory)
    (w : World) : MutationResult Snapshot × World :=
  let (r, directory) := write w.directory
  ({ ok := r.ok, reason := r.reason, errorMessage := r.errorMessage, before := r.before.map snapshot,
     after := r.after.map snapshot }, { w with directory })

/-- A change to what an account has besides its entry, if there is one to make, bound as the operator. -/
def changeRest (id : Guid) (change : Option (AccountRest → AccountRest)) (snapshot : DirectoryUser → Snapshot)
    (classify : LdapError → MutationResult Snapshot) (w : World) : MutationResult Snapshot × World :=
  match env.provider.bind with
  | some .refused => (Provider.refusal .permissionDenied (text "step-up bind failed"), w)
  | some (.unreachable message) => (Provider.refusal .directoryError message, w)
  | none =>
    match env.provider.call .find, w.getUser id with
    | some err, _ => (classify err, w)
    | none, none => (Provider.refusal .notFound (text "user not found"), w)
    | none, some target =>
      match change, env.provider.call .modify with
      | none, _ => (Provider.succeeded (some (snapshot target)) (some (snapshot target)), w)
      | some _, some err => (classify err, w)
      | some change, none =>
        let w' := { w with rest := Function.update w.rest id (change target.rest) }
        match env.provider.call .reread with
        | some err => (classify err, w')
        | none => (Provider.succeeded (some (snapshot target)) ((w'.getUser id).map snapshot), w')

/-- A write to one account. -/
structure AccountWrite where
  /-- What the account has now, when it is already as the write would leave it. -/
  asAsked : DirectoryUser → Option Snapshot
  /-- What to tell the operator when the directory refuses, if more than the code says. -/
  refused : Reason → DirectoryUser → Option Text
  write : World → MutationResult Snapshot × World

variable (id : Guid)

def setEnabled (enabled : Bool) : AccountWrite where
  asAsked _ := none
  refused _ _ := none
  write := onDirectory (fun s => { Snapshot.empty with enabled := some s.bit })
    (Provider.toggleAccountDisable env.spelling env.provider .user id (!enabled))

def DISABLE_USER : AccountWrite := setEnabled env id false

def ENABLE_USER : AccountWrite := setEnabled env id true

def mustChangeSnapshot (u : DirectoryUser) : Snapshot :=
  { Snapshot.empty with passwordMustChange := some u.passwordMustChange }

/-- AD takes -1 for the time now. -/
def setPasswordMustChange (mustChange : Bool) : AccountWrite where
  asAsked u := if u.passwordMustChange = mustChange then some (mustChangeSnapshot u) else none
  refused _ _ := none
  write := changeRest env id (some fun rest => { rest with pwdLastSet := if mustChange then 0 else env.now })
    mustChangeSnapshot Provider.classifyWriteError

def REQUIRE_PASSWORD_CHANGE : AccountWrite := setPasswordMustChange env id true

def CLEAR_PASSWORD_MUST_CHANGE : AccountWrite := setPasswordMustChange env id false

def setPasswordNeverExpires (never : Bool) : AccountWrite where
  asAsked u :=
    if u.passwordNeverExpires = never then
      some { Snapshot.empty with passwordNeverExpires := some never } else none
  refused _ _ := none
  write := onDirectory (fun s => { Snapshot.empty with passwordNeverExpires := some s.bit })
    (Provider.setPasswordNeverExpires env.spelling env.provider id never)

def SET_PASSWORD_NEVER_EXPIRES : AccountWrite := setPasswordNeverExpires env id true

def CLEAR_PASSWORD_NEVER_EXPIRES : AccountWrite := setPasswordNeverExpires env id false

/-- What sets a flag as it was. -/
def flagWrite (on off : AccountWrite) (was : Option Bool) : AccountWrite :=
  if was = some true then on else off

theorem flagWrite_eq (write : Bool → AccountWrite) (was : Option Bool) :
    flagWrite (write true) (write false) was = write (decide (was = some true)) := by
  unfold flagWrite
  split
  next on => rw [decide_eq_true on]
  next off => rw [decide_eq_false off]

def heldDate (date : Option Int) : Option ExpiryDate :=
  date.bind fun ms => if ok : _ ∧ _ then some ⟨ms, ok.1, ok.2⟩ else none

def expireAccountAt (expiresAt : Option ExpiryDate) : AccountWrite where
  asAsked u :=
    if u.accountExpiresAt = expiresAt.map (·.ms) then
      some { Snapshot.empty with accountExpiresAt := some expiresAt } else none
  refused _ _ := none
  write := onDirectory (fun s => { Snapshot.empty with accountExpiresAt := some (heldDate s) })
    (Provider.setAccountExpiry env.spelling env.provider id (expiresAt.map (·.ms)))

def leafName (dn : Text) : Text := (Dn.leafRdnValue dn).getD dn

def DirectoryUser.distinguishedName (u : DirectoryUser) : Text := u.entry.dn env.spelling

def moveUserTo (ou : CachedOu) : AccountWrite where
  asAsked u :=
    match Dn.parentDn (u.distinguishedName env) with
    | some parent =>
      if sameDn env.lower parent ou.distinguishedName then
      some { Snapshot.empty with parentDn := some parent } else none
    | none => none
  refused code u :=
    if code = .conflict then
      some (text "An object named " ++ leafName (u.distinguishedName env) ++
        text " already exists in " ++ ou.name ++ text ".")
    else none
  write := onDirectory (fun s => { Snapshot.empty with parentDn := s.parentDn, parentGuid := s.parentGuid })
    (Provider.moveAccount env.lower env.spelling env.provider .user id ou.distinguishedName)

def errorCodeOf (reason : Option Reason) : RowErrorCode :=
  match reason with
  | some .notFound => .notFound
  | some .permissionDenied => .permissionDenied
  | some .conflict => .other "conflict"
  | some .policyViolation => .other "policy_violation"
  | some .directoryError | none => .other "directory_error"

def changeStamp (user : Option DirectoryUser) (after : Snapshot) : Snapshot :=
  { after with uSNChanged := user.bind fun u => u.rest.uSNChanged }

/-- A write of the directory's: it may report an error, but throws none. -/
def made {α : Type} (write : World → α × World) : Row α := do
  let (answer, w) := write (← get)
  set w
  return answer

/-- One user's account write, as the single-user route makes it, as the row's outcome. A no-op
keeps what an earlier run changed. -/
def accountRow (before after : Option Snapshot) (account : AccountWrite) : Row RevertOutcome := do
  match ← atSite env .reread (Attempt.read (World.getUser · id)) with
  | none => return .notFound
  | some user =>
    match account.asAsked user with
    | some _ =>
      atSite env .audit (pure ())
      return .ok true none before after
    | none =>
      let result ← made account.write
      atSite env .audit (pure ())
      if result.ok then
        let refreshed ← atSite env .refreshed (Attempt.read (World.getUser · id))
        return .ok false none result.before (result.after.map (changeStamp refreshed))
      else
        return .failed (errorCodeOf result.reason) result.errorMessage
          (result.reason.bind fun code => account.refused code user) false true result.before result.after

end Row

end OpenAduc.Reverts
