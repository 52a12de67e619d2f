import OpenAduc.Provider.Directory

namespace OpenAduc.Provider
open Naming (Text text)

inductive ClashAttribute
  | samAccountName
  | userPrincipalName
  | email
  | cn
deriving DecidableEq, Repr

/-- Where a write calls the directory. -/
inductive Call
  | find
  | modify
  | reread
  | parentGuid
  | targetGuid
  | rename
  | undo
  | domainRoot
  | clash (a : ClashAttribute)
deriving DecidableEq, Repr

inductive LdapErrorKind
  | insufficientAccess
  | alreadyExists
  | constraintViolation
  | unwillingToPerform
  | notAllowedOnNonLeaf
  | noSuchObject
  | other
deriving DecidableEq, Repr

structure LdapError where
  kind : LdapErrorKind
  message : Text
deriving DecidableEq, Repr

inductive BindFault
  | refused
  | unreachable (message : Text)
deriving DecidableEq, Repr

/-- How the calls of one write fare: the error each throws, having changed nothing, or none. -/
structure Faults where
  bind : Option BindFault
  call : Call → Option LdapError

inductive Reason
  | notFound
  | directoryError
  | permissionDenied
  | conflict
  | policyViolation
deriving DecidableEq, Repr

structure MutationResult (ν : Type) where
  ok : Bool
  reason : Option Reason
  errorMessage : Option Text
  before : Option ν
  after : Option ν
deriving DecidableEq, Repr

def refusal {ν : Type} (reason : Reason) (message : Text) : MutationResult ν :=
  { ok := false, reason := some reason, errorMessage := some message, before := none, after := none }

def succeeded {ν : Type} (before after : Option ν) : MutationResult ν :=
  { ok := true, reason := none, errorMessage := none, before := before, after := after }

/-- By the error's class rather than its text. -/
def classifyWriteError {ν : Type} (err : LdapError) : MutationResult ν :=
  match err.kind with
  | .insufficientAccess => refusal .permissionDenied err.message
  | .alreadyExists | .constraintViolation => refusal .conflict err.message
  | .unwillingToPerform | .notAllowedOnNonLeaf => refusal .policyViolation err.message
  | .noSuchObject | .other => refusal .directoryError err.message

abbrev Session (α : Type) := Attempt LdapError Directory α

/-- Bound as the operator, the write's own errors caught: a refused bind, and no controller at all,
are refusals too. -/
def asOperator {ν : Type} (faults : Faults) (body : Session (MutationResult ν)) (d : Directory) :
    MutationResult ν × Directory :=
  match faults.bind with
  | some .refused => (refusal .permissionDenied (text "step-up bind failed"), d)
  | some (.unreachable message) => (refusal .directoryError message, d)
  | none => Attempt.settle classifyWriteError body d

section Calls
variable (faults : Faults)

def findEntry (c : Call) (kind : ObjectKind) (guid : Guid) : Session (Option Entry) :=
  Attempt.call (faults.call c) (Attempt.read fun d => d.find kind guid)

/-- The object's GUID, or none when it can't be read. -/
def guidOf (c : Call) (dn : Text) : Session (Option Guid) :=
  tryCatch (Attempt.call (faults.call c) (Attempt.read fun d => d.guidAt dn)) fun _ => pure none

def modify (c : Call) (dn : Text) (change : Attributes → Attributes) : Session Unit :=
  Attempt.call (faults.call c) do
    match (← get).modified dn change with
    | some d => set d
    | none => throw ⟨.noSuchObject, text "no such object"⟩

def renameError : Directory.RenameRefusal → LdapError
  | .noSuchObject => ⟨.noSuchObject, text "no such object"⟩
  | .invalidDn => ⟨.other, text "invalid DN syntax"⟩
  | .alreadyExists => ⟨.alreadyExists, text "already exists"⟩

def modifyDN (c : Call) (dn newDn : Text) : Session Unit :=
  Attempt.call (faults.call c) do
    match (← get).renamed dn newDn with
    | .ok d => set d
    | .error why => throw (renameError why)

variable {faults} {c : Call} {d : Directory} {dn newDn : Text}

theorem exec_findEntry {kind : ObjectKind} {guid : Guid} (answered : faults.call c = none) :
    Attempt.exec (findEntry faults c kind guid) d = (.ok (d.find kind guid), d) := by
  simp [findEntry, answered]

theorem exec_findEntry_fault {kind : ObjectKind} {guid : Guid} {err : LdapError}
    (fault : faults.call c = some err) :
    Attempt.exec (findEntry faults c kind guid) d = (.error err, d) := by
  simp [findEntry, fault]

theorem exec_modify {change : Attributes → Attributes} {d' : Directory}
    (made : d.modified dn change = some d')
    (answered : faults.call c = none) : Attempt.exec (modify faults c dn change) d = (.ok (), d') := by
  simp [modify, answered, Attempt.exec_bind, made]

/-- An object just read is modified by the name AD wrote for it. -/
theorem exec_modify_found (ad : Spelling) {kind : ObjectKind} {guid : Guid} {e : Entry}
    (found : d.find kind guid = some e)
    (change : Attributes → Attributes) (answered : faults.call c = none) :
    Attempt.exec (modify faults c (e.dn ad) change) d = (.ok (), d.withAttributes e.name change) :=
  exec_modify (Directory.modified_eq (Directory.mem_of_find found)
    (Directory.readName_dn ad _) change) answered

theorem exec_modify_fault {change : Attributes → Attributes} {err : LdapError}
    (fault : faults.call c = some err) :
    Attempt.exec (modify faults c dn change) d = (.error err, d) := by
  simp [modify, fault]

theorem exec_modifyDN {d' : Directory} (made : d.renamed dn newDn = .ok d')
    (answered : faults.call c = none) :
    Attempt.exec (modifyDN faults c dn newDn) d = (.ok (), d') := by
  simp [modifyDN, answered, Attempt.exec_bind, made]

theorem exec_modifyDN_refused {why : Directory.RenameRefusal} (refused : d.renamed dn newDn = .error why)
    (answered : faults.call c = none) :
    Attempt.exec (modifyDN faults c dn newDn) d = (.error (renameError why), d) := by
  simp [modifyDN, answered, Attempt.exec_bind, refused]

theorem exec_modifyDN_fault {err : LdapError} (fault : faults.call c = some err) :
    Attempt.exec (modifyDN faults c dn newDn) d = (.error err, d) := by
  simp [modifyDN, fault]

/-- A GUID is read if it can be; either way nothing changes. -/
theorem exec_guidOf :
    Attempt.exec (guidOf faults c dn) d =
      (.ok (if (faults.call c).isNone then d.guidAt dn else none), d) := by
  cases fault : faults.call c with
  | none => simp [guidOf, Attempt.exec_tryCatch, fault]
  | some err => simp [guidOf, Attempt.exec_tryCatch, fault]

end Calls

def FILETIME_TO_UNIX_EPOCH_DIFF_MS : Int := 11644473600000

def FILETIME_MAX : Int := 0x7fffffffffffffff

def FILETIME_NEVER : Int := FILETIME_MAX

def filetimeToDate (value : Option Int) : Option Int :=
  match value with
  | none => none
  | some big =>
    if big ≤ 0 ∨ FILETIME_MAX ≤ big then none else some (big / 10000 - FILETIME_TO_UNIX_EPOCH_DIFF_MS)

def dateToFiletime (date : Int) : Int := (date + FILETIME_TO_UNIX_EPOCH_DIFF_MS) * 10000

/-- A date AD can hold reads back as itself. -/
theorem filetimeToDate_dateToFiletime {date : Int} (afterEpoch : 0 < date + FILETIME_TO_UNIX_EPOCH_DIFF_MS)
    (held : dateToFiletime date < FILETIME_MAX) : filetimeToDate (some (dateToFiletime date)) =
      some date := by
  have inside : ¬(dateToFiletime date ≤ 0 ∨ FILETIME_MAX ≤ dateToFiletime date) := by
    unfold dateToFiletime at *
    omega
  have back : dateToFiletime date / 10000 - FILETIME_TO_UNIX_EPOCH_DIFF_MS = date := by
    unfold dateToFiletime
    omega
  show (if _ then _ else _) = _
  rw [if_neg inside, back]

def accountExpiresAt (e : Entry) : Option Int := filetimeToDate e.attributes.accountExpires

/-- What the write puts in `accountExpires`. -/
def expiryValue (expiresAt : Option Int) : Int :=
  match expiresAt with
  | some date => dateToFiletime date
  | none => FILETIME_NEVER

def setAccountExpiry (ad : Spelling) (faults : Faults) (userId : Guid) (expiresAt : Option Int)
    (d : Directory) :
    MutationResult (Option Int) × Directory :=
  asOperator faults (do
    match ← findEntry faults .find .user userId with
    | none => return refusal .notFound (text "user not found")
    | some target =>
      modify faults .modify (target.dn ad) fun a => { a with accountExpires := some (expiryValue expiresAt) }
      let afterEntry ← findEntry faults .reread .user userId
      return succeeded (some (accountExpiresAt target)) (afterEntry.map accountExpiresAt)) d

/-- Nothing when it is no number. -/
def userAccountControlOf (e : Entry) : Option (BitVec 32) :=
  match e.attributes.userAccountControl with
  | .absent => some 0
  | .number bits => some bits
  | .unparseable => none

structure ControlSnapshot where
  bit : Bool
  userAccountControl : BitVec 32
deriving DecidableEq, Repr

/-- Which bit, which way, how it is named, and what is refused. -/
structure ControlWrite where
  flag : BitVec 32
  on : Bool
  snapshot : BitVec 32 → Bool
  refuse : Entry → Option (Reason × Text)

def nextUac (write : ControlWrite) (uac : BitVec 32) : BitVec 32 :=
  if write.on then uac ||| write.flag else uac &&& ~~~write.flag

def kindName : ObjectKind → Text
  | .user => text "user"
  | .computer => text "computer"
  | .other => text "object"

/-- The other bits stay as the entry has them. -/
def setAccountControlFlag (ad : Spelling) (faults : Faults) (kind : ObjectKind) (id : Guid)
    (write : ControlWrite)
    (d : Directory) : MutationResult ControlSnapshot × Directory :=
  asOperator faults (do
    match ← findEntry faults .find kind id with
    | none => return refusal .notFound (kindName kind ++ text " not found")
    | some target =>
      match write.refuse target with
      | some (reason, message) => return refusal reason message
      | none =>
        match userAccountControlOf target with
        | none => return refusal .directoryError (text "unparseable userAccountControl")
        | some uac =>
          let next := nextUac write uac
          let before : ControlSnapshot := ⟨write.snapshot uac, uac⟩
          if next = uac then return succeeded (some before) (some before)
          else
            modify faults .modify (target.dn ad) fun a => { a with userAccountControl := .number next }
            let afterEntry ← findEntry faults .reread kind id
            -- A value that is no number has no bit set.
            let read := match afterEntry with
              | some e => (userAccountControlOf e).getD 0
              | none => next
            return succeeded (some before) (some ⟨write.snapshot read, next⟩)) d

def ACCOUNTDISABLE : BitVec 32 := 0x0002

def DONT_EXPIRE_PASSWORD : BitVec 32 := 0x10000

def SERVER_TRUST_ACCOUNT : BitVec 32 := 0x2000

def PARTIAL_SECRETS_ACCOUNT : BitVec 32 := 0x04000000

/-- Why a computer must not be disabled, reset or moved. -/
def computerWriteBlock (e : Entry) : Option Text :=
  let uac := (userAccountControlOf e).getD 0
  if uac &&& SERVER_TRUST_ACCOUNT ≠ 0 then some (text "this is a domain controller")
  else if uac &&& PARTIAL_SECRETS_ACCOUNT ≠ 0 then some (text "this is a read-only domain controller")
  else if e.attributes.isCriticalSystemObject then
    some (text "AD marks this computer as a critical system object")
  else none

def protectedComputer (e : Entry) : Option (Reason × Text) :=
  (computerWriteBlock e).map fun block => (.policyViolation, block)

def toggleAccountDisable (ad : Spelling) (faults : Faults) (kind : ObjectKind) (id : Guid) (disable : Bool)
    (d : Directory) : MutationResult ControlSnapshot × Directory :=
  setAccountControlFlag ad faults kind id {
    flag := ACCOUNTDISABLE
    on := disable
    snapshot := fun uac => uac &&& ACCOUNTDISABLE = 0
    refuse := if kind = .computer ∧ disable = true then protectedComputer else fun _ => none } d

def setPasswordNeverExpires (ad : Spelling) (faults : Faults) (userId : Guid) (neverExpires : Bool)
    (d : Directory) :
    MutationResult ControlSnapshot × Directory :=
  setAccountControlFlag ad faults .user userId {
    flag := DONT_EXPIRE_PASSWORD
    on := neverExpires
    snapshot := fun uac => uac &&& DONT_EXPIRE_PASSWORD ≠ 0
    refuse := fun _ => none } d

structure MoveSnapshot where
  distinguishedName : Text
  parentDn : Option Text
  parentGuid : Option Guid
deriving DecidableEq, Repr

def parentGuidOf (faults : Faults) (parent : Option Text) : Session (Option Guid) :=
  match parent with
  | none => pure none
  | some dn => guidOf faults .parentGuid dn

theorem exec_parentGuidOf (faults : Faults) (parent : Option Text) (d : Directory) :
    ∃ guid, Attempt.exec (parentGuidOf faults parent) d = (.ok guid, d) ∧
      (guid = none ∨ guid = parent.bind d.guidAt) := by
  cases parent with
  | none => exact ⟨none, rfl, Or.inl rfl⟩
  | some dn =>
    refine ⟨_, exec_guidOf, ?_⟩
    split
    · exact Or.inr rfl
    · exact Or.inl rfl

/-- The account keeps its own part of the name; one already in the OU is left alone. -/
def moveAccount (lower : Text → Text) (ad : Spelling) (faults : Faults) (kind : ObjectKind)
    (id : Guid) (targetOuDn : Text)
    (d : Directory) : MutationResult MoveSnapshot × Directory :=
  let trimmedTarget := Naming.trim targetOuDn
  if trimmedTarget = [] then (refusal .directoryError (text "empty target OU"), d)
  else
    asOperator faults (do
      match ← findEntry faults .find kind id with
      | none => return refusal .notFound (kindName kind ++ text " not found")
      | some target =>
        match if kind = .computer then protectedComputer target else none with
        | some (reason, message) => return refusal reason message
        | none =>
          let dn := target.dn ad
          let currentParent := Dn.parentDn dn
          let parentGuid ← parentGuidOf faults currentParent
          let before : MoveSnapshot := ⟨dn, currentParent, parentGuid⟩
          if currentParent.map lower = some (lower trimmedTarget) then
            return succeeded (some before) (some before)
          else
            let newDn := Dn.movedDn dn targetOuDn
            modifyDN faults .rename dn newDn
            let targetGuid ← guidOf faults .targetGuid trimmedTarget
            return succeeded (some before) (some ⟨newDn, some trimmedTarget, targetGuid⟩)) d

end OpenAduc.Provider
