import OpenAduc.Lib.Table

namespace OpenAduc.ClassPasses

inductive PassStatus
  | waiting
  | issued
  | refused
  | failed
  deriving DecidableEq, Repr

/-- A Temporary Access Pass in Entra: whose, and its method id there. -/
structure TapMethod where
  user : Nat
  id : Nat
  deriving DecidableEq, Repr

/-- A record of `class_passes`; `staleMethodId` is an Entra pass a reschedule or
reissue replaced, to delete before the new one is made. -/
structure PassRecord where
  status : PassStatus
  passEnc : Option String
  entraUserId : Option Nat
  entraMethodId : Option Nat
  staleMethodId : Option Nat
  expiresAt : Option Nat
  errorCode : Option String
  message : Option String
  attempts : Nat
  nextAttemptAt : Nat
  claimToken : Option Nat
  deriving DecidableEq, Repr

namespace PassRecord

/-- A pass to make, as `storeClass` inserts it. -/
def inserted (now : Nat) : PassRecord where
  status := .waiting
  passEnc := none
  entraUserId := none
  entraMethodId := none
  staleMethodId := none
  expiresAt := none
  errorCode := none
  message := none
  attempts := 0
  nextAttemptAt := now
  claimToken := none

/-- `NO_PASS`: the fields an issued pass has, cleared when it's gone. -/
def noPass (r : PassRecord) : PassRecord :=
  { r with passEnc := none, entraMethodId := none, expiresAt := none }

/-- `isHeld`. -/
def Held (r : PassRecord) (now : Nat) : Prop :=
  r.passEnc.isSome ∧ r.expiresAt.any (now < ·)

instance (r : PassRecord) (now : Nat) : Decidable (r.Held now) :=
  inferInstanceAs (Decidable (_ ∧ _))

/-- The pass a row's method id names, by the user it was made for. -/
def method (r : PassRecord) (id : Option Nat) : Option TapMethod := do
  let user ← r.entraUserId
  let id ← id
  some { user, id }

/-- The pass the row says is the class's, and the one it still has to delete. -/
def entra (r : PassRecord) : Option TapMethod := r.method r.entraMethodId

def stale (r : PassRecord) : Option TapMethod := r.method r.staleMethodId

def Names (r : PassRecord) (p : TapMethod) : Prop :=
  r.entra = some p ∨ r.stale = some p

instance (r : PassRecord) (p : TapMethod) : Decidable (r.Names p) :=
  inferInstanceAs (Decidable (_ ∨ _))

/-- What the row names: the part of it that says which passes are whose. -/
def ids (r : PassRecord) : Option Nat × Option Nat × Option Nat :=
  (r.entraUserId, r.entraMethodId, r.staleMethodId)

end PassRecord

/-- Why a pass isn't made, or is taken away. -/
structure Refusal where
  code : String
  message : String
  deriving DecidableEq, Repr

/-- Why no pass was made. -/
inductive Unmade
  | unsynced
  | later (start : Nat)
  | retry (code message : String) (after : Nat)
  | refused (code message : String)
  | failed (code message : String)
  deriving DecidableEq, Repr

/-- What trying to make a pass came to; `methodId` is null where Graph's answer named no id. -/
inductive Attempt
  | issued (entraUserId : Nat) (methodId : Option Nat) (value : String) (expiresAt : Nat)
  | unmade (why : Unmade)
  deriving DecidableEq, Repr

/-- Who makes or reads a pass: the sweep, an operator's reissue, or an operator's reveal. -/
inductive How
  | issue
  | reissue
  | reveal
  deriving DecidableEq, Repr

def How.replaceExisting : How → Bool
  | .reissue => true
  | _ => false

/-- Which statement a step under way makes next. -/
inductive Phase
  /-- It has claimed the row, and reads it. -/
  | claimed
  | deletingStale (pass : PassRecord) (stale : TapMethod)
  | clearingStale (pass : PassRecord) (stale : TapMethod)
  /-- It checks the person, and what Entra holds for them. -/
  | checking (pass : PassRecord)
  | creating (pass : PassRecord) (entraUserId : Nat)
  | recording (pass : PassRecord) (attempt : Attempt)
  /-- The pass it made couldn't be stored, and is to be deleted again. -/
  | unstored (pass : PassRecord) (entraUserId : Nat) (methodId : Option Nat)
  | storeFailing (pass : PassRecord) (entraUserId : Nat) (methodId : Option Nat) (deleted : Bool)
  /-- It checks again that the holder may have the pass. -/
  | rechecking (pass : PassRecord)
  | revoking (pass : PassRecord) (refusal : Refusal)
  | refusing (pass : PassRecord) (refusal : Refusal) (deleted : Bool)
  deriving DecidableEq, Repr

/-- A step under way; a reveal has no claim on the row. -/
structure Step where
  id : Nat
  token : Option Nat
  how : How
  phase : Phase
  deriving DecidableEq, Repr

/-- One row of `class_passes`, the passes live in Entra, and the steps under
way. `made` and `told` are history: the passes OpenADUC made, and those the
operator was told it couldn't delete. -/
structure State where
  now : Nat
  nextToken : Nat
  nextStep : Nat
  nextMethod : Nat
  row : PassRecord
  live : List TapMethod
  steps : List Step
  made : List TapMethod
  told : List TapMethod
  deriving DecidableEq, Repr

end OpenAduc.ClassPasses
