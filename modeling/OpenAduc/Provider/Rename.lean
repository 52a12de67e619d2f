import OpenAduc.Provider.Writes

namespace OpenAduc.Provider
open Naming (Text text)

/-- A field of a request: left out, cleared, or given. -/
inductive Field
  | omitted
  | cleared
  | given (value : Text)
deriving DecidableEq, Repr

/-- Trimmed, an empty value clearing the field. -/
def clean : Field → Field
  | .given value => if Naming.trim value = [] then .cleared else .given (Naming.trim value)
  | f => f

structure UserRenameInput where
  givenName : Field
  surname : Field
  displayName : Field
  cn : Field
  samAccountName : Field
  userPrincipalName : Field
  email : Field
  keepOldEmailAsAlias : Bool
deriving DecidableEq, Repr

inductive RenameAttribute
  | givenName
  | sn
  | displayName
  | sAMAccountName
  | userPrincipalName
deriving DecidableEq, Repr

def RenameAttribute.all : List RenameAttribute :=
  [.givenName, .sn, .displayName, .sAMAccountName, .userPrincipalName]

def RenameAttribute.field (input : UserRenameInput) : RenameAttribute → Field
  | .givenName => input.givenName
  | .sn => input.surname
  | .displayName => input.displayName
  | .sAMAccountName => input.samAccountName
  | .userPrincipalName => input.userPrincipalName

def RenameAttribute.current (a : Attributes) : RenameAttribute → Option Text
  | .givenName => a.givenName
  | .sn => a.sn
  | .displayName => a.displayName
  | .sAMAccountName => a.sAMAccountName
  | .userPrincipalName => a.userPrincipalName

/-- The values of one attribute put in place of what it had; none deletes it. -/
inductive AttributeChange
  | scalar (name : RenameAttribute) (value : Option Text)
  | mail (value : Option Text)
  | proxyAddresses (values : List Text)
deriving DecidableEq, Repr

/-- What a field asks of an attribute with this value. -/
def wanted (current : Option Text) (f : Field) : Option (Option Text) :=
  match clean f with
  | .omitted => none
  | .cleared => if current = none then none else some none
  | .given value => if current = some value then none else some (some value)

def isSmtp (lower : Text → Text) (p : Text) : Bool := lower (p.take 5) = text "smtp:"

/-- The new address becomes the primary, the old primary an alias or nothing, and an alias for
the new address goes; entries of other kinds stay. -/
def nextProxyAddresses (lower : Text → Text) (current : List Text) (email : Option Text)
    (keepOldAsAlias : Bool) : List Text :=
  let newLower := email.map lower
  let primary := current.find? fun p => (text "SMTP:").isPrefixOf p
  let rest := current.filter fun p =>
    !(some p = primary || isSmtp lower p && some (lower (p.drop 5)) = newLower)
  let kept := match primary with
    | some p => if keepOldAsAlias ∧ some (lower (p.drop 5)) ≠ newLower then rest ++ [text
      "smtp:" ++ p.drop 5] else rest
    | none => rest
  match email with
  | some address => (text "SMTP:" ++ address) :: kept
  | none => kept

/-- The same values, in whatever order. -/
def sameList (a b : List Text) : Bool := a.isPerm b

structure RenamePlan where
  attributes : List AttributeChange
  newCn : Option Text
  newSamAccountName : Option Text
  newUserPrincipalName : Option Text
  newEmail : Option Text
deriving DecidableEq, Repr

def scalarChanges (a : Attributes) (input : UserRenameInput) : List AttributeChange :=
  RenameAttribute.all.filterMap fun name =>
    (wanted (name.current a) (name.field input)).map (.scalar name)

def emailChanges (lower : Text → Text) (a : Attributes) (input : UserRenameInput) : List AttributeChange :=
  match wanted a.mail input.email with
  | none => []
  | some email =>
    let proxies := nextProxyAddresses lower a.proxyAddresses email input.keepOldEmailAsAlias
    if a.proxyAddresses ≠ [] ∧ ¬sameList proxies a.proxyAddresses then [.mail email, .proxyAddresses proxies]
    else [.mail email]

/-- A new name must be given; it can't be cleared. -/
def wantedCn (current : Text) (f : Field) : Option Text :=
  match clean f with
  | .given cn => if cn = current then none else some cn
  | _ => none

def planUserRename (lower : Text → Text) (e : Entry) (input : UserRenameInput) : RenamePlan where
  attributes := scalarChanges e.attributes input ++ emailChanges lower e.attributes input
  newCn := wantedCn e.cn input.cn
  newSamAccountName := (wanted e.attributes.sAMAccountName input.samAccountName).join
  newUserPrincipalName := (wanted e.attributes.userPrincipalName input.userPrincipalName).join
  newEmail := (wanted e.attributes.mail input.email).join

def applyChange (a : Attributes) : AttributeChange → Attributes
  | .scalar .givenName value => { a with givenName := value }
  | .scalar .sn value => { a with sn := value }
  | .scalar .displayName value => { a with displayName := value }
  | .scalar .sAMAccountName value => { a with sAMAccountName := value }
  | .scalar .userPrincipalName value => { a with userPrincipalName := value }
  | .mail value => { a with mail := value }
  | .proxyAddresses values => { a with proxyAddresses := values }

def applyChanges (changes : List AttributeChange) (a : Attributes) : Attributes := changes.foldl applyChange a

structure RenameSnapshot where
  distinguishedName : Text
  cn : Text
  givenName : Option Text
  surname : Option Text
  displayName : Option Text
  samAccountName : Option Text
  userPrincipalName : Option Text
  email : Option Text
  proxyAddresses : List Text
deriving DecidableEq, Repr

def renameSnapshot (ad : Spelling) (e : Entry) : RenameSnapshot where
  distinguishedName := e.dn ad
  cn := e.cn
  givenName := e.attributes.givenName
  surname := e.attributes.sn
  displayName := e.attributes.displayName
  samAccountName := e.attributes.sAMAccountName
  userPrincipalName := e.attributes.userPrincipalName
  email := e.attributes.mail
  proxyAddresses := e.attributes.proxyAddresses

def CLASH_ORDER : List ClashAttribute := [.samAccountName, .userPrincipalName, .email, .cn]

def clashLabel : ClashAttribute → Text
  | .samAccountName => text "logon name"
  | .userPrincipalName => text "UPN"
  | .email => text "email address"
  | .cn => text "name"

def RenamePlan.name (plan : RenamePlan) : ClashAttribute → Option Text
  | .samAccountName => plan.newSamAccountName
  | .userPrincipalName => plan.newUserPrincipalName
  | .email => plan.newEmail
  | .cn => plan.newCn

/-- Whether an entry answers a search for this value, which ignores case; a name's search is of the
children of one object. -/
def Entry.answers (lower : Text → Text) (base : Option Container) (value : Text) (e : Entry) :
    ClashAttribute → Bool
  | .samAccountName => e.attributes.sAMAccountName.map lower = some (lower value)
  | .userPrincipalName => e.attributes.userPrincipalName.map lower = some (lower value)
  | .email =>
    e.attributes.mail.map lower = some (lower value) ||
      (e.attributes.proxyAddresses.map lower).contains (lower (text "smtp:" ++ value))
  | .cn => base = some e.parent ∧ lower e.cn = lower value

section
variable (u : Naming.Platform) (ad : Spelling)

/-- The first other object, in the order of the names, that has one of them: which name, and where it is if
the operator may see it. -/
def nameClashes (faults : Faults) (baseDn domainRoot : Text) (plan : RenamePlan)
    (parentDn : Option Text) (except : Guid) :
    List ClashAttribute → Session (List (ClashAttribute × Option Text))
  | [] => pure []
  | a :: rest =>
    match (plan.name a).map Naming.trim with
    | none | some [] => nameClashes faults baseDn domainRoot plan parentDn except rest
    | some value => do
      let other ← Attempt.call (faults.call (.clash a)) (Attempt.read fun d =>
        let base := d.containers.find (parentDn.getD domainRoot)
        d.entries.find? fun e => e.answers u.lower base value a && e.objectGuid ≠ except)
      let more ← nameClashes faults baseDn domainRoot plan parentDn except rest
      return match other with
        | some e => (a, if Dn.isDnWithin u (e.dn ad) baseDn then some (e.dn ad) else none) :: more
        | none => more

def clashMessage (plan : RenamePlan) (a : ClashAttribute) (holder : Option Text) : Text :=
  let place := match holder with
    | some dn => text "by " ++ dn
    | none => if a = .cn then text "in this OU" else text "elsewhere in the domain"
  text "the " ++ clashLabel a ++ text " \"" ++ ((plan.name a).map Naming.trim).getD [] ++
    text "\" is already used " ++ place

def findNameClash (faults : Faults) (baseDn : Text) (plan : RenamePlan) (parentDn : Option Text)
    (except : Guid) :
    Session (Option Text) := do
  let domainRoot ← Attempt.call (faults.call .domainRoot) (Attempt.read fun d => d.containers.root)
  let holders ← nameClashes u ad faults baseDn domainRoot plan parentDn except CLASH_ORDER
  return holders.head?.map fun x => clashMessage plan x.1 x.2

end

def rolledBackMessage (message : Text) : Text := message ++ text " (the name change was rolled back)"

def undoFailedMessage (message dn : Text) : Text :=
  message ++ text " (the object was renamed to " ++ dn ++
    text " but its attributes were not updated, and renaming it back failed)"

def newRdn (cn : Text) : Text := text "CN=" ++ Dn.escapeRdnValueRfc cn

/-- The account's DN once the new name, if any, is written. -/
def writeName (faults : Faults) (dn : Text) : Option Text → Session Text
  | none => pure dn
  | some cn => do
    modifyDN faults .rename dn (newRdn cn)
    return newRdn cn ++ Naming.unit ',' :: (Dn.parentDn dn).getD (text "null")

/-- The attributes written after the name, the name put back if they are refused: the refusal, or nothing. -/
def writeAttributes (faults : Faults) (plan : RenamePlan) (dn oldRdn : Text) :
    Session (Option (MutationResult RenameSnapshot)) :=
  if plan.attributes = [] then pure none
  else
    tryCatch (do
      modify faults .modify dn (applyChanges plan.attributes)
      return none) fun err =>
        if plan.newCn = none then throw err
        else do
          let rolledBack ← tryCatch (do
            modifyDN faults .undo dn oldRdn
            return true) fun _ => return false
          return some {
            (classifyWriteError err : MutationResult RenameSnapshot) with
            errorMessage :=
              some (if rolledBack then rolledBackMessage err.message else undoFailedMessage err.message dn) }

/-- The name first, being the likeliest refused and the easiest to undo. -/
def renameUser (u : Naming.Platform) (ad : Spelling) (baseDn : Text) (faults : Faults)
    (userId : Guid) (input : UserRenameInput)
    (d : Directory) : MutationResult RenameSnapshot × Directory :=
  asOperator faults (do
    match ← findEntry faults .find .user userId with
    | none => return refusal .notFound (text "user not found")
    | some user =>
      let before := renameSnapshot ad user
      let plan := planUserRename u.lower user input
      if plan.attributes = [] ∧ plan.newCn = none then return succeeded (some before) (some before)
      else
        let dn := user.dn ad
        match ← findNameClash u ad faults baseDn plan (Dn.parentDn dn) user.objectGuid with
        | some conflict =>
          return { (refusal .conflict conflict : MutationResult RenameSnapshot) with before := some before }
        | none =>
          let oldRdn := Dn.leafRdn dn
          let dn ← writeName faults dn plan.newCn
          match ← writeAttributes faults plan dn oldRdn with
          | some failed => return failed
          | none =>
            let afterEntry ← findEntry faults .reread .user userId
            return succeeded (some before) (afterEntry.map (renameSnapshot ad))) d

end OpenAduc.Provider
