import OpenAduc.Naming.Text

namespace OpenAduc.Privilege
open Naming (Text text unit isSpace isDigit decimalOf)

/-- The relative id: the last part of a SID, as `parseInt` reads it. Numbers too big for a double
to hold exactly are read exactly; no table lists one. -/
def ridOf (sid : Text) : Option Nat :=
  let last := sid.rtakeWhile (· ≠ unit '-')
  let unsigned := match last.dropWhile isSpace with
    | c :: rest => if c = unit '+' then rest else c :: rest
    | [] => []
  let digits := unsigned.takeWhile isDigit
  if digits = [] then none else some (decimalOf digits)

def inBuiltin (sid : Text) : Bool := (text "S-1-5-32-").isPrefixOf sid

def inDomain (sid : Text) : Bool := (text "S-1-5-21-").isPrefixOf sid

inductive Role
  | admin
  | operator
  | auditor
  deriving DecidableEq, Repr

structure GroupLike where
  distinguishedName : Text
  sid : Option Text
  /-- What its `adminCount` is read as. -/
  adminCount : Option Text
  deriving DecidableEq

/-- A group mapped to an OpenADUC role: its members get the role at sign-in. -/
structure RoleGroup where
  dn : Text
  role : Role
  deriving DecidableEq

/-- The source's reason `protected` is `guarded` here. -/
inductive GroupPrivilege
  | guarded
  | role (role : Role)
  deriving DecidableEq, Repr

/-- The groups AdminSDHolder protects, by well-known SID rather than name. -/
def PROTECTED_BUILTIN_RIDS : List Nat := [544, 548, 549, 550, 551, 552]

def PROTECTED_DOMAIN_RIDS : List Nat := [512, 516, 518, 519, 521, 526, 527]

/-- The groups that administer a domain or the forest, by well-known RID in any domain. -/
def PRIVILEGED_DOMAIN_GROUPS : Nat → Option Text
  | 498 => some (text "Enterprise Read-only Domain Controllers")
  | 512 => some (text "Domain Admins")
  | 516 => some (text "Domain Controllers")
  | 518 => some (text "Schema Admins")
  | 519 => some (text "Enterprise Admins")
  | 520 => some (text "Group Policy Creator Owners")
  | 521 => some (text "Read-only Domain Controllers")
  | 526 => some (text "Key Admins")
  | 527 => some (text "Enterprise Key Admins")
  | _ => none

def PRIVILEGED_BUILTIN_GROUPS : Nat → Option Text
  | 544 => some (text "Administrators")
  | 548 => some (text "Account Operators")
  | 549 => some (text "Server Operators")
  | 550 => some (text "Print Operators")
  | 551 => some (text "Backup Operators")
  | 552 => some (text "Replicator")
  | _ => none

/-- The well-known name of a privileged group's SID, or none for any other SID. -/
def privilegedSidName (sid : Text) : Option Text :=
  match ridOf sid with
  | none => none
  | some rid =>
    if inBuiltin sid then PRIVILEGED_BUILTIN_GROUPS rid
    else if inDomain sid then PRIVILEGED_DOMAIN_GROUPS rid
    else none

/-- True for a group AdminSDHolder protects, or has flagged with adminCount=1. -/
def isProtectedGroup (group : GroupLike) : Bool :=
  if group.adminCount = some (text "1") then true
  else
    match group.sid with
    | none => false
    | some sid =>
      match ridOf sid with
      | none => false
      | some rid => if inBuiltin sid then rid ∈ PROTECTED_BUILTIN_RIDS else rid ∈ PROTECTED_DOMAIN_RIDS

section Lower
variable (lower : Text → Text)

/-- The OpenADUC role membership in this group grants, if it's mapped to one. -/
def grantedRole (groupDn : Text) (roleGroups : List RoleGroup) : Option Role :=
  (roleGroups.find? fun g => lower g.dn = lower groupDn).map (·.role)

/-- What membership in a group grants: AD's protection first, as the bigger of the two. -/
def groupPrivilege (group : GroupLike) (roleGroups : List RoleGroup) : Option GroupPrivilege :=
  if isProtectedGroup group then some .guarded
  else (grantedRole lower group.distinguishedName roleGroups).map .role

theorem groupPrivilege_eq_none {group : GroupLike} {roleGroups : List RoleGroup} :
    groupPrivilege lower group roleGroups = none ↔
      isProtectedGroup group = false ∧ ∀ g ∈ roleGroups, lower g.dn ≠ lower group.distinguishedName := by
  unfold groupPrivilege grantedRole
  by_cases guarded : isProtectedGroup group = true
  · simp [guarded]
  · simp [guarded]

end Lower

/-- Every group a domain's well-known RIDs protect is one whose SID alone says it is privileged. -/
theorem privileged_of_protected {group : GroupLike} {sid : Text} (isSid : group.sid = some sid)
    (unmarked : group.adminCount ≠ some (text "1")) (domain : inDomain sid = true ∨ inBuiltin sid = true)
    (guarded : isProtectedGroup group = true) : (privilegedSidName sid).isSome := by
  unfold isProtectedGroup at guarded
  unfold privilegedSidName
  rw [if_neg unmarked, isSid] at guarded
  cases found : ridOf sid with
  | none => simp [found] at guarded
  | some rid =>
    by_cases builtin : inBuiltin sid = true
    · simp only [found, if_pos builtin, PROTECTED_BUILTIN_RIDS, decide_eq_true_eq, List.mem_cons,
        List.not_mem_nil,
        or_false] at guarded
      rcases guarded with rfl | rfl | rfl | rfl | rfl | rfl <;> simp [builtin, PRIVILEGED_BUILTIN_GROUPS]
    · have isDomain : inDomain sid = true := domain.resolve_right builtin
      simp only [found, if_neg builtin, PROTECTED_DOMAIN_RIDS, decide_eq_true_eq, List.mem_cons,
        List.not_mem_nil,
        or_false] at guarded
      rcases guarded with rfl | rfl | rfl | rfl | rfl | rfl | rfl <;>
        simp [builtin, isDomain, PRIVILEGED_DOMAIN_GROUPS]

example : privilegedSidName (text "S-1-5-21-1004336348-1177238915-682003330-512") =
    some (text "Domain Admins") := by
  decide

end OpenAduc.Privilege
