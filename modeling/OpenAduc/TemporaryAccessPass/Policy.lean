import OpenAduc.TemporaryAccessPass.Graph

namespace OpenAduc.TemporaryAccessPass
open Naming (Text text unit decimal)

structure TapPolicy where
  defaultLifetimeMinutes : Int
  minLifetimeMinutes : Int
  maxLifetimeMinutes : Int
  /-- The tenant makes every pass one-time; otherwise the operator chooses. -/
  usableOnceOnly : Bool
  deriving DecidableEq

def policyLimits (policy : GraphPolicy) : TapPolicy where
  defaultLifetimeMinutes := policy.defaultLifetimeInMinutes
  minLifetimeMinutes := policy.minimumLifetimeInMinutes
  maxLifetimeMinutes := policy.maximumLifetimeInMinutes
  usableOnceOnly := policy.isUsableOnce

/-- The pass a user already holds. -/
structure ExistingTap where
  createdAt : Option Text
  startsAt : Option Text
  lifetimeMinutes : Option Int
  isUsableOnce : Option Bool
  isUsable : Option Bool
  usabilityReason : Option Text
  deriving DecidableEq

/-- What is asked of `issueTap`. -/
structure TapIssueRequest where
  /-- None starts it now. -/
  startsAt : Option Text
  lifetimeMinutes : Int
  isUsableOnce : Bool
  /-- The operator was warned that this replaces the pass the user holds. -/
  replaceExisting : Bool
  /-- Brings the lifetime within the policy's range rather than refusing it. -/
  fitLifetime : Bool
  deriving DecidableEq

def MINUTE_MS : Int := 60000
def START_SKEW_MS : Int := 5 * MINUTE_MS
def DAY_MS : Int := 86400000
def TAP_MAX_START_DAYS : Int := 30

def number (n : Int) : Text := if n < 0 then unit '-' :: decimal n.natAbs else decimal n.natAbs

/-- A lifetime in minutes, in the largest unit that divides it: `8 hours`, `90 minutes`. -/
def lifetimeLabel (minutes : Int) : Text :=
  let label (n : Int) (word : String) : Text :=
    number n ++ text " " ++ text word ++ if n = 1 then [] else text "s"
  if minutes % 1440 = 0 then label (minutes / 1440) "day"
  else if minutes % 60 = 0 then label (minutes / 60) "hour"
  else label minutes "minute"

inductive StartProblem
  | past
  | tooFar
  deriving DecidableEq

def TAP_START_MESSAGE : StartProblem → Text
  | .past => text "The pass can’t start in the past."
  | .tooFar => text "The pass can start at most " ++ number TAP_MAX_START_DAYS ++ text " days from now."

/-- Whether a pass can't start then. No date is neither past nor too far. -/
def tapStartProblem (start : Option Int) (now : Int) : Option StartProblem :=
  match start with
  | none => none
  | some start =>
    if start < now - START_SKEW_MS then some .past
    else if now + TAP_MAX_START_DAYS * DAY_MS < start then some .tooFar
    else none

section
variable (locale : Locale)

/-- Why the tenant's policy won't take this pass, or none when it will. -/
def tapRequestProblem (policy : TapPolicy) (request : TapIssueRequest) (now : Int) : Option Text :=
  if request.lifetimeMinutes < policy.minLifetimeMinutes ∨
    policy.maxLifetimeMinutes < request.lifetimeMinutes then
    some (text "The tenant’s policy allows a lifetime from " ++
      lifetimeLabel policy.minLifetimeMinutes ++ text " to " ++
      lifetimeLabel policy.maxLifetimeMinutes ++ text ".")
  else if request.isUsableOnce = false ∧ policy.usableOnceOnly = true then
    some (text "The tenant’s policy allows only single-use passes.")
  else
    match linked request.startsAt with
    | none => none
    | some startsAt => (tapStartProblem (locale.date startsAt) now).map TAP_START_MESSAGE

/-- When a pass stops working: its lifetime counts from its start. -/
def tapExpiresAt (startsAt : Option Int) (lifetimeMinutes : Int) : Option Int :=
  startsAt.bind fun start => dateOf (start + lifetimeMinutes * MINUTE_MS)

def SPENT_REASONS : List Text := [text "Expired", text "OneTimeUsed", text "DisabledByPolicy"]

/-- A pass that can't be used any more; one that doesn't say when it ends counts as live. -/
def isSpent (pass : TapMethod) (now : Int) : Bool :=
  if pass.methodUsabilityReason.any (· ∈ SPENT_REASONS) then true
  else
    match linked (pass.startDateTime.orElse fun _ => pass.createdDateTime), pass.lifetimeInMinutes with
    | some start, some lifetime =>
      if lifetime = 0 then false else (tapExpiresAt (locale.date start) lifetime).any (· ≤ now)
    | _, _ => false

end

def toExisting (pass : TapMethod) : ExistingTap where
  createdAt := pass.createdDateTime
  startsAt := pass.startDateTime
  lifetimeMinutes := pass.lifetimeInMinutes
  isUsableOnce := pass.isUsableOnce
  isUsable := pass.isUsable
  usabilityReason := pass.methodUsabilityReason

section
variable {locale : Locale} {policy : TapPolicy} {request : TapIssueRequest} {now : Int}

/-- What the policy takes of a request. -/
structure WithinPolicy (locale : Locale) (policy : TapPolicy) (request : TapIssueRequest)
    (now : Int) : Prop where
  lifetime : policy.minLifetimeMinutes ≤ request.lifetimeMinutes ∧
    request.lifetimeMinutes ≤ policy.maxLifetimeMinutes
  once : policy.usableOnceOnly = true → request.isUsableOnce = true
  start : ∀ startsAt ∈ linked request.startsAt, ∀ start ∈ locale.date startsAt,
    now - START_SKEW_MS ≤ start ∧ start ≤ now + TAP_MAX_START_DAYS * DAY_MS

theorem tapStartProblem_eq_none {start : Int} (fine : tapStartProblem (some start) now = none) :
    now - START_SKEW_MS ≤ start ∧ start ≤ now + TAP_MAX_START_DAYS * DAY_MS := by
  unfold tapStartProblem at fine
  dsimp only at fine
  split at fine
  · cases fine
  · split at fine
    · cases fine
    · omega

/-- A request has no problem just where it is within the policy. -/
theorem withinPolicy_iff : tapRequestProblem locale policy request now = none ↔
    WithinPolicy locale policy request now := by
  unfold tapRequestProblem
  constructor
  · intro fine
    split at fine
    · cases fine
    next range =>
      split at fine
      · cases fine
      next once =>
        refine ⟨by omega, fun only => ?_, fun startsAt held start read => ?_⟩
        · by_contra several
          exact once ⟨eq_false_of_ne_true several, only⟩
        · rw [Option.mem_def.mp held] at fine
          dsimp only at fine
          rw [Option.mem_def.mp read, Option.map_eq_none_iff] at fine
          exact tapStartProblem_eq_none fine
  · intro within
    rw [if_neg (by have := within.lifetime; omega),
      if_neg (by rintro ⟨several, only⟩; rw [within.once only] at several; cases several)]
    split
    next => rfl
    next startsAt held =>
      rw [Option.map_eq_none_iff]
      unfold tapStartProblem
      split
      next => rfl
      next start read =>
        have window := within.start startsAt held start read
        rw [if_neg (by omega), if_neg (by omega)]

end

end OpenAduc.TemporaryAccessPass
