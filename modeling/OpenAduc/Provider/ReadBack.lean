import OpenAduc.Provider.Writes
import OpenAduc.Dn.Splitting

namespace OpenAduc.Provider.UserCreate
open Naming (Text text trim decimal unit)

/-- An object as a search returns it: what of it these functions read, an attribute its reader may
not see missing. -/
structure Entry where
  objectGUID : Option (List UInt8)
  objectSid : Option (List UInt8)
  distinguishedName : Option Text
  whenCreated : Option Text
  uSNChanged : Option Text
  pwdLastSet : Option Text
  lastLogonTimestamp : Option Text
deriving DecidableEq, Repr

/-- An `Error` of the code's own. -/
def plainError (message : Text) : LdapError := ⟨.other, message⟩

def hexUnit (n : Nat) : UInt16 := if n < 10 then unit '0' + UInt16.ofNat n
    else unit 'a' + UInt16.ofNat (n - 10)

/-- A byte in two digits. -/
def hexByte (b : UInt8) : Text := [hexUnit (b.toNat / 16), hexUnit (b.toNat % 16)]

/-- The first three groups have their bytes in reverse. -/
def objectGuidToString : List UInt8 → Except LdapError Text
  | [a0, a1, a2, a3, b0, b1, c0, c1, d0, d1, e0, e1, e2, e3, e4, e5] =>
    .ok (Naming.join (text "-")
      ([[a3, a2, a1, a0], [b1, b0], [c1, c0], [d0, d1], [e0, e1, e2, e3, e4, e5]].map
      fun group => group.flatMap hexByte))
  | bytes => .error (plainError (text "objectGUID must be 16 bytes, got " ++ decimal bytes.length))

/-- The last parts of a SID: four bytes each, the lowest first. -/
def subAuthorities : List UInt8 → List Nat
  | b0 :: b1 :: b2 :: b3 :: rest =>
    (b0.toNat + 256 * (b1.toNat + 256 * (b2.toNat + 256 * b3.toNat))) :: subAuthorities rest
  | _ => []

def sidToString (buf : List UInt8) : Except LdapError Text :=
  match buf with
  | revision :: count :: a2 :: a3 :: a4 :: a5 :: a6 :: a7 :: rest =>
    if buf.length ≠ 8 + count.toNat * 4 then
      .error (plainError (text "objectSid length mismatch: header says " ++ decimal count.toNat ++
        text " sub-auths, buffer is " ++ decimal buf.length ++ text " bytes"))
    else
      let identifierAuthority := [a2, a3, a4, a5, a6, a7].foldl (fun n b => n * 256 + b.toNat) 0
      .ok (text "S-" ++ decimal revision.toNat ++ text "-" ++ decimal identifierAuthority ++
        (subAuthorities rest).flatMap fun part => text "-" ++ decimal part)
  | _ => .error (plainError (text "objectSid too short: " ++ decimal buf.length ++ text " bytes"))

structure User where
  objectGuid : Text
  sid : Option Text
  distinguishedName : Text
deriving DecidableEq, Repr

/-- A byte of a GUID's number, the lowest the first. -/
def guidByte (g : Guid) (i : Nat) : UInt8 := UInt8.ofNat (g.toNat / Nat.pow 256 i % 256)

/-- A GUID as AD keeps it, its first three groups in reverse. -/
def guidBuffer (g : Guid) : List UInt8 :=
  [12, 13, 14, 15, 10, 11, 8, 9, 7, 6, 5, 4, 3, 2, 1, 0].map (guidByte g)

/-- A GUID as it is written, the highest byte first. -/
def guidText (g : Guid) : Text :=
  Naming.join (text "-") ([[15, 14, 13, 12], [11, 10], [9, 8], [7, 6], [5, 4, 3, 2, 1, 0]].map
    fun group => (group.map (guidByte g)).flatMap hexByte)

/-- What a search returns of an account of the directory's, to a reader who may see its GUID. -/
structure Entry.Shows (ad : Spelling) (account : Provider.Entry) (entry : Entry) : Prop where
  objectGUID : entry.objectGUID = some (guidBuffer account.objectGuid)
  distinguishedName : entry.distinguishedName = some (account.dn ad)
  objectSid : ∃ sid, entry.objectSid.mapM sidToString = .ok sid

def normalizeUser (entry : Entry) : Except LdapError User :=
  match entry.objectGUID with
  | none =>
    .error
      (plainError (text "LDAP user entry missing objectGUID: " ++ entry.distinguishedName.getD (text "null")))
  | some guidBuf =>
    match entry.distinguishedName.filter (· ≠ []) with
    | none => .error (plainError (text "LDAP user entry missing distinguishedName"))
    | some dn => do
      let objectGuid ← objectGuidToString guidBuf
      let sid ← entry.objectSid.mapM sidToString
      return { objectGuid, sid, distinguishedName := dn }

/-- What is made of an account has its GUID, as it is written, and its name, as AD writes it. -/
theorem normalizeUser_shows {ad : Spelling} {account : Provider.Entry} {entry : Entry}
    (shown : entry.Shows ad account) :
    ∃ sid, normalizeUser entry = .ok ⟨guidText account.objectGuid, sid, account.dn ad⟩ := by
  obtain ⟨sid, read⟩ := shown.objectSid
  have named : account.dn ad ≠ [] := List.append_ne_nil_of_right_ne_nil _ (List.cons_ne_nil _ _)
  have made : entry.distinguishedName.filter (· ≠ []) = some (account.dn ad) := by
    rw [shown.distinguishedName]
    exact Option.filter_some_pos (decide_eq_true named)
  refine ⟨sid, ?_⟩
  unfold normalizeUser
  rw [shown.objectGUID]
  dsimp only
  rw [made, read]
  rfl

/-- Raw values that change whenever anyone changes the account. -/
structure AccountFingerprint where
  objectGuid : Text
  whenCreated : Option Text
  usnChanged : Option Text
  pwdLastSet : Option Text
  lastLogonTimestamp : Option Text
deriving DecidableEq, Repr

def accountFingerprint : Option Entry → Except LdapError (Option AccountFingerprint)
  | none => .ok none
  | some entry =>
    match entry.objectGUID with
    | none => .ok none
    | some guid => do
      let objectGuid ← objectGuidToString guid
      return some {
        objectGuid
        whenCreated := entry.whenCreated
        usnChanged := entry.uSNChanged
        pwdLastSet := entry.pwdLastSet
        lastLogonTimestamp := entry.lastLogonTimestamp }

end OpenAduc.Provider.UserCreate
