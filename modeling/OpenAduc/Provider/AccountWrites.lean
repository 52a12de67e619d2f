import OpenAduc.Provider.Renaming

namespace OpenAduc.Provider
open Naming (Text text)

/-- Each write's result is what its caller may rely on, but where it went through and could not be
read back, which is told as a failure, or where the text a name was sent as is read as another's: a
move's then ends elsewhere, and a rename is put back to what it wasn't. -/
theorem writes_truthful (u : Naming.Platform) (ad : Spelling) (baseDn : Text) (faults : Faults)
    (d : Directory) :
    (∀ userId expiresAt, Truthful .user userId (ExpiryAsked expiresAt) ShowsExpiry (fun _ => False) d
      (setAccountExpiry ad faults userId expiresAt d) ↔ ¬ExpiryLost faults userId expiresAt d) ∧
    (∀ kind id write, Truthful kind id (ControlAsked write) (ShowsControl write) (fun _ => False) d
      (setAccountControlFlag ad faults kind id write d) ↔ ¬ControlLost faults kind id write d) ∧
    (∀ kind id targetOuDn,
      (Truthful kind id (MoveAsked u.lower d.containers targetOuDn) ShowsMove (fun _ => False) d
      (moveAccount u.lower ad faults kind id targetOuDn d) ↔
      ¬MoveLost u.lower ad faults kind id targetOuDn d) ∧
      ((∀ e, d.find kind id = some e → Naming.trim (ad.rdn e.rdn) = ad.rdn e.rdn) →
        ¬MoveLost u.lower ad faults kind id targetOuDn d)) ∧
    (∀ userId input, Truthful .user userId (RenameAsked u.lower input) (ShowsRename ad) SaysUndoFailed d
      (renameUser u ad baseDn faults userId input d) ↔ ¬RenameLost u ad baseDn faults userId input d) :=
  ⟨fun userId expiresAt => setAccountExpiry_truthful ad faults userId expiresAt d,
    fun kind id write => setAccountControlFlag_truthful ad faults kind id write d,
    fun kind id targetOuDn =>
      ⟨moveAccount_truthful u.lower ad faults kind id targetOuDn d, not_moveLost_of_bare⟩,
    fun userId input => renameUser_truthful u ad baseDn faults userId input d⟩

/-- A user among the staff of this name, whose account never expires. -/
def staffMember (cn : Text) : Entry where
  objectGuid := 7
  kind := .user
  rdn := cnOf cn
  parent := ⟨text "OU=Staff,DC=school", 1⟩
  attributes := {
    userAccountControl := .number 0x200
    isCriticalSystemObject := false
    accountExpires := some FILETIME_NEVER
    givenName := some (text "Alice")
    sn := none
    displayName := none
    sAMAccountName := some (text "alice")
    userPrincipalName := none
    mail := none
    proxyAddresses := [] }

def schoolContainers : Containers :=
  .listed (text "DC=school")
    [⟨text "OU=Staff,DC=school", 1⟩, ⟨text "OU=Leavers,DC=school", 2⟩, ⟨text "DC=school", 3⟩]
    (by decide)

def schoolOf (cn : Text) : Directory where
  entries := [staffMember cn]
  containers := schoolContainers
  guids := List.nodup_singleton _
  names := List.nodup_singleton _
  places e member := by
    cases List.mem_singleton.mp member
    rfl

/-- Every call is answered but these, which throw. -/
def failing (calls : List Call) : Faults where
  bind := none
  call c := if c ∈ calls then some ⟨.other, text "socket closed"⟩ else none

/-- A new name and a new surname. -/
def smithe : UserRenameInput where
  givenName := .omitted
  surname := .given (text "Smithe")
  displayName := .omitted
  cn := .given (text "Smithe")
  samAccountName := .omitted
  userPrincipalName := .omitted
  email := .omitted
  keepOldEmailAsAlias := false

/-- The write of an expiry date is told as a failure, and the account has the date. A move of an
account whose name ends in a space is told as done, and the account is in the domain's root under
another name. A new name whose attributes are refused is told as put back, and the account has lost
the space at the end of its name. -/
theorem writes_told_falsely :
    (let ran := setAccountExpiry rfcSpelling (failing [.reread]) 7 (some 1767225600000)
      (schoolOf (text "Alice"))
     ran.1.ok = false ∧ ((schoolOf (text "Alice")).find .user 7).map accountExpiresAt = some none ∧
      (ran.2.find .user 7).map accountExpiresAt = some (some 1767225600000)) ∧
    (let ran := moveAccount id rfcSpelling (failing []) .user 7 (text "OU=Leavers,DC=school")
      (schoolOf (text "Smith "))
     ran.1.ok = true ∧ (ran.2.find .user 7).map Entry.name =
      some (cnOf (text "Smith,OU=Leavers"), ⟨text "DC=school", 3⟩)) ∧
    (let ran := renameUser .ascii rfcSpelling (text "DC=school") (failing [.modify]) 7 smithe
      (schoolOf (text "Smith" ++ [0xa0]))
     ran.1.ok = false ∧ ran.1.errorMessage = some (rolledBackMessage (text "socket closed")) ∧
      (ran.2.find .user 7).map Entry.name = some (cnOf (text "Smith"), ⟨text "OU=Staff,DC=school", 1⟩)) := by
  refine ⟨?_, ?_, ?_⟩ <;> decide +kernel

end OpenAduc.Provider
