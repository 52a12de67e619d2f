import OpenAduc.TemporaryAccessPass.Preflight

namespace OpenAduc.TemporaryAccessPass
open Naming (Text text)

inductive TapIssueCode
  | privileged
  | entra_admin_role
  | entra_roles_unknown
  | membership_unknown
  | policy_disabled
  | unsynced
  | outside_policy
  | tap_exists
  deriving DecidableEq

def REFUSAL_CODES : TapRefusalReason → TapIssueCode
  | .privileged => .privileged
  | .entraAdminRole => .entra_admin_role
  | .entraRolesUnknown => .entra_roles_unknown
  | .membershipUnknown => .membership_unknown
  | .policyDisabled => .policy_disabled

structure TapIssueResponse where
  temporaryAccessPass : Text
  startsAt : Text
  expiresAt : Text
  lifetimeMinutes : Int
  isUsableOnce : Bool
  replaced : Bool
  deriving DecidableEq

inductive TapIssueOutcome
  | issued (entraUserId : Text) (methodId : Option Text) (issued : TapIssueResponse)
  | refused (code : TapIssueCode) (message : Text) (existing : Option ExistingTap)
  deriving DecidableEq

section
variable (locale : Locale)

/-- The request, its lifetime brought within the policy's range where that is asked. -/
def fitted (policy : TapPolicy) (asked : TapIssueRequest) : TapIssueRequest :=
  if asked.fitLifetime then
    { asked with lifetimeMinutes := min policy.maxLifetimeMinutes (max policy.minLifetimeMinutes
      asked.lifetimeMinutes) }
  else asked

def passRequest (request : TapIssueRequest) : Except Thrown PassRequest :=
  match linked request.startsAt with
  | none => .ok ⟨none, request.lifetimeMinutes, request.isUsableOnce⟩
  | some startsAt => (isoDate (locale.date startsAt)).map fun shown =>
    ⟨some shown, request.lifetimeMinutes, request.isUsableOnce⟩

/-- When a created pass starts, as Graph says or from now. -/
def createdStart (created : CreatedPass) (now : Int) : Option Int :=
  match created.startDateTime.orElse fun _ => created.createdDateTime with
  | some shown => locale.date shown
  | none => some now

def createPass (deps : TapDeps) (entraUserId : Text) (request : TapIssueRequest)
    (existing : Option ExistingTap) :
    Asking TapIssueOutcome := do
  let path ← .done (passesPath entraUserId)
  let body ← .done (passRequest locale request)
  let created ← Dialogue.call (Question.postJson path body)
  let created : CreatedPass := created
  let start := createdStart locale created deps.now
  let startsAt ← .done (isoDate start)
  let expiresAt ← .done (isoDate (tapExpiresAt start created.lifetimeInMinutes))
  return .issued entraUserId created.id {
    temporaryAccessPass := created.temporaryAccessPass
    startsAt := startsAt
    expiresAt := expiresAt
    lifetimeMinutes := created.lifetimeInMinutes
    isUsableOnce := created.isUsableOnce
    replaced := existing.isSome }

/-- Issue a pass, checking everything the preflight does again first. Graph keeps one pass per
user and replaces the old one itself, so a replace is a plain create. -/
def issueTap (deps : TapDeps) (user : TapUser) (asked : TapIssueRequest) : Asking TapIssueOutcome := do
  let result ← tapPreflight locale deps user
  match result.preflight, linked result.entraUserId with
  | .refused reason message, _ => return .refused (REFUSAL_CODES reason) message none
  | .ready policy existing _, some entraUserId =>
    let request := fitted policy asked
    match tapRequestProblem locale policy request deps.now with
    | some problem => return .refused .outside_policy problem none
    | none =>
      if existing.isSome ∧ request.replaceExisting = false then
        return .refused .tap_exists
          (text "This user already has a Temporary Access Pass. Issuing another replaces it.") existing
      else createPass locale deps entraUserId request existing
  | _, _ =>
    return .refused .unsynced
      (text "This user isn’t in Microsoft Entra yet: they appear after Connect Sync next runs.") none

end

end OpenAduc.TemporaryAccessPass
