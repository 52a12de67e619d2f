import OpenAduc.TemporaryAccessPass.Policy

namespace OpenAduc.TemporaryAccessPass
open Naming (Text text unit isDigit lowerUnit)
open Privilege (GroupLike RoleGroup privilegedSidName isProtectedGroup groupPrivilege)

structure TapUser where
  sid : Option Text
  displayName : Option Text
  samAccountName : Option Text
  /-- AdminSDHolder has marked the account itself (adminCount=1). -/
  protectedAccount : Bool
  deriving DecidableEq

/-- The fields of an account the checks read. -/
structure DirectoryUser where
  sid : Option Text
  displayName : Option Text
  samAccountName : Option Text
  /-- What its `adminCount` is read as. -/
  adminCount : Option Text
  deriving DecidableEq

def tapUserOf (user : DirectoryUser) : TapUser where
  sid := user.sid
  displayName := user.displayName
  samAccountName := user.samAccountName
  protectedAccount := user.adminCount = some (text "1")

structure TapDeps where
  roleGroups : List RoleGroup
  now : Int

inductive TapRefusalReason
  | privileged
  | entraAdminRole
  | entraRolesUnknown
  | membershipUnknown
  | policyDisabled
  deriving DecidableEq

inductive TapPreflight
  | ready (policy : TapPolicy) (existing : Option ExistingTap) (inPolicyScope : Option Bool)
  | refused (reason : TapRefusalReason) (message : Text)
  | unsynced (lastSyncAt : Option Text)
  deriving DecidableEq

structure TapPreflightResult where
  preflight : TapPreflight
  entraUserId : Option Text
  /-- The passes Entra lists for the user, spent ones included, when it was asked. -/
  passes : Option (List TapMethod)
  deriving DecidableEq

def POLICY_PATH : Text :=
  text "/policies/authenticationMethodsPolicy/authenticationMethodConfigurations/TemporaryAccessPass"

def ASSIGNMENTS_PATH : Text := text "/roleManagement/directory/roleAssignments?$select=principalId"

def ELIGIBILITIES_PATH : Text :=
  text "/roleManagement/directory/roleEligibilityScheduleInstances?$select=principalId"

def ROLE_HEADERS : Headers := [(text "Accept-Language", text "en-US")]

def POLICY_TTL_MS : Int := 60000

def WHY_NOT : Text :=
  text
    "Whoever holds a Temporary Access Pass can sign in as them, so OpenADUC doesn’t issue one to an administrator."

def TAP_POLICY_OFF_MESSAGE : Text :=
  text ("Temporary Access Pass is turned off in the tenant’s authentication methods policy. " ++
    "Turn it on in the Microsoft Entra admin center first.")

/-- `/^S-1-\d+(-\d+)+$/`. -/
def isSid (sid : Text) : Bool :=
  (text "S-1-").isPrefixOf sid &&
    let parts := (sid.drop 4).splitOn (unit '-')
    decide (2 ≤ parts.length) && parts.all fun part => part ≠ [] && part.all isDigit

/-- `/^CN=DnsAdmins,CN=Users,DC=/i`. -/
def isDnsAdmins (distinguishedName : Text) : Bool :=
  (text "cn=dnsadmins,cn=users,dc=").isPrefixOf (distinguishedName.map lowerUnit)

/-- What keeps a user from a pass, by their token groups. -/
inductive TokenPrivilege
  | privileged (why : Text)
  | unknown
  deriving DecidableEq

section
variable (lower : Text → Text)

/-- Why a group's members have no pass. -/
def groupBars (adminGroups : List RoleGroup) (group : TapGroup) : Option Text :=
  let name := group.name.getD group.distinguishedName
  match groupPrivilege lower group.toGroupLike adminGroups with
  | some .guarded => some (name ++ text ", which AD protects as an administrators’ group")
  | privilege =>
    if isDnsAdmins group.distinguishedName then
      some (name ++ text ", which can run code on domain controllers")
    else if privilege.isSome then some (name ++ text ", which gives OpenADUC’s Admin role")
    else none

/-- What the user's token groups make them. The well-known SIDs need no lookup; adminCount and
OpenADUC's role groups need the group, and a SID with no group found can't be cleared. -/
def tokenPrivilege (token : UserTokenGroups) (roleGroups : List RoleGroup) : Option TokenPrivilege :=
  -- a later group of the same SID stands in for an earlier one
  let bySid (sid : Text) : Option TapGroup := token.groups.reverse.find? fun g => g.sid = some sid
  let wellKnown (sid : Text) : Option Text :=
    (privilegedSidName sid).map fun known => ((bySid sid).bind (·.name)).getD known
  match token.sids.findSome? wellKnown with
  | some why => some (.privileged why)
  | none =>
    match token.groups.findSome? (groupBars lower (roleGroups.filter (·.role = .admin))) with
    | some why => some (.privileged why)
    | none => if token.sids.all fun sid => (bySid sid).isSome then none else some .unknown

end

def fetchPolicy (now : Int) : Asking GraphPolicy := do
  let policy ← getJson POLICY_PATH [] .policy
  let _ ← Dialogue.call (Question.keepPolicy ⟨policy, now⟩)
  return policy

def readPolicy (now : Int) : Asking GraphPolicy := do
  let cached ← Dialogue.call Question.cachedPolicy
  match (cached : Option CachedPolicy) with
  | some kept => if now - kept.readAt < POLICY_TTL_MS then pure kept.policy else fetchPolicy now
  | none => fetchPolicy now

inductive EntraRoles
  | none (groupIds : List Text)
  | holds
  | unknown (hint : Option Text)
  deriving DecidableEq

/-- A tenant without Entra ID P2 or Governance has no PIM, so nothing can be eligible. -/
def noEligibilities : Thrown → Asking (Option (List Text))
  | .graphPermission (some code) hint =>
    if code = text "AadPremiumLicenseRequired" then pure (some [])
      else throw (.graphPermission (some code) hint)
  | err => throw err

def listRoles (entraUserId : Text) : Asking EntraRoles := do
  let path ← .done (membershipsPath entraUserId)
  let memberships ← allPages path .membership []
  match memberships with
  | none => return .unknown none
  | some memberships =>
    if memberships.any fun m => m.odataType = some (text "#microsoft.graph.directoryRole") then return .holds
    else
      let principals := entraUserId :: memberships.map (·.id)
      let groups := memberships.filter fun m => m.odataType = some (text "#microsoft.graph.group")
      let assigned ← allPages ASSIGNMENTS_PATH .principal ROLE_HEADERS
      let eligible ← tryCatch (allPages ELIGIBILITIES_PATH .principal ROLE_HEADERS) noEligibilities
      match assigned, eligible with
      | some assigned, some eligible =>
        if (assigned ++ eligible).any (· ∈ principals) then return .holds
          else return .none (groups.map (·.id))
      | _, _ => return .unknown none

/-- Whether the user holds or is eligible for any Entra role, directly or through a group. -/
def entraRoles (entraUserId : Text) : Asking EntraRoles :=
  tryCatch (listRoles entraUserId) fun err =>
    match err with
    | .graphPermission _ hint => pure (.unknown hint)
    | err => throw err

/-- Whether the user is among the policy's targets; none when it doesn't say. -/
def inScope (policy : GraphPolicy) (groupIds : List Text) : Option Bool :=
  policy.includeTargets.map fun targets =>
    targets.any (fun id => id = text "all_users" ∨ id ∈ groupIds) &&
      !(policy.excludeTargets.getD []).any (· ∈ groupIds)

section
variable (locale : Locale)

def refusedFor (reason : TapRefusalReason) (message : Text) : TapPreflightResult :=
  { preflight := .refused reason message, entraUserId := none, passes := none }

/-- What Graph is asked, of a user AD says is no administrator. -/
def graphPreflight (deps : TapDeps) (who sid : Text) : Asking TapPreflightResult := do
  let policy ← readPolicy deps.now
  if policy.state ≠ text "enabled" then
    return refusedFor .policyDisabled TAP_POLICY_OFF_MESSAGE
  else
    match linked (← findEntraUser sid) with
    | none => return { preflight := .unsynced (← tenantLastSync locale), entraUserId := none, passes := none }
    | some entraUserId =>
      match ← entraRoles entraUserId with
      | .holds =>
        return refusedFor .entraAdminRole
          (who ++ text " holds, or is eligible for, a Microsoft Entra role. " ++ WHY_NOT)
      | .unknown hint =>
        return refusedFor .entraRolesUnknown
          (text "OpenADUC couldn’t check whether " ++ who ++ text " holds a Microsoft Entra role" ++
          ((linked hint).map fun hint => text " (" ++ hint ++ text ")").getD [] ++
            text ", so it doesn’t issue a pass.")
      | .none groupIds =>
        let path ← .done (passesPath entraUserId)
        let passes ← getPage path [] .pass
        let live := passes.value.find? fun p => !isSpent locale p deps.now
        return {
          preflight := .ready (policyLimits policy) (live.map toExisting) (inScope policy groupIds)
          entraUserId := some entraUserId
          passes := some passes.value }

def tapPreflight (deps : TapDeps) (user : TapUser) : Asking TapPreflightResult := do
  let who := user.displayName.getD (user.samAccountName.getD (text "This user"))
  -- AD first: a privileged account is refused without asking Graph anything
  if user.protectedAccount then
    return refusedFor .privileged
      (text "AD protects " ++ who ++ text "’s account as an administrator’s (adminCount). " ++ WHY_NOT)
  else
    let token ← Dialogue.call Question.tokenGroups
    let unknown := refusedFor .membershipUnknown (text "AD didn’t say which groups " ++ who ++
      text " is in, or named one OpenADUC can’t find, so it can’t check they aren’t an administrator.")
    match (token : Option UserTokenGroups), user.sid with
    | some token, some sid =>
      if isSid sid then
        match tokenPrivilege locale.lower token deps.roleGroups with
        | some (.privileged why) =>
          return refusedFor .privileged (who ++ text " is a member of " ++ why ++ text ". " ++ WHY_NOT)
        | some .unknown => return unknown
        | none => graphPreflight locale deps who sid
      else return unknown
    | _, _ => return unknown

end

end OpenAduc.TemporaryAccessPass
