import OpenAduc.Lib.Transition
import OpenAduc.ClassPasses.Store

namespace OpenAduc.ClassPasses

/-- Seconds a claim is the claimer's before another may take it. -/
def lease : Nat := 600

def maxSyncWait : Nat := 900

/-- `errorRetryMs`, in seconds. -/
def errorRetry (attempts : Nat) : Nat :=
  Nat.min maxSyncWait (120 * Nat.pow 2 (attempts - 1))

def notDeletedMessage : String :=
  "Their previous pass couldn’t be deleted in Entra, so no new one is made yet."

def otherPass : String :=
  "They hold a Temporary Access Pass this class didn’t make. Reissue to replace it."

/-- How a call to Graph that deletes ended; one that finds no such pass is done. -/
inductive DeleteAnswer
  | ok
  | throttled
  | failed
  deriving DecidableEq, Repr

/-- What stands in the way of making a pass, as the class's start, the
directory and Entra's preflight say; or whose pass to make. -/
inductive CheckAnswer
  | stops (why : Unmade)
  | ready (entraUserId : Nat)
  deriving DecidableEq, Repr

/-- How Graph's create ended; `named` is whether its answer holds the pass's id. -/
inductive CreateAnswer
  | created (named : Bool) (value : String) (expiresAt : Nat)
  | failed (why : Unmade)
  deriving DecidableEq, Repr

/-- What checking an issued pass's holder came to; `spent` is whether Entra says the pass is. -/
inductive HolderAnswer
  | refused (refusal : Refusal)
  | may (spent : Bool)
  /-- The check couldn't be made, or the feature is off. -/
  | unknown
  deriving DecidableEq, Repr

/-- What a step's next statement is answered; `next` is when the row is looked
at again, where the class's start decides it. -/
inductive Answer
  | loaded (on : Bool)
  | deleted (answer : DeleteAnswer) (after : Nat)
  | cleared
  | checked (answer : CheckAnswer)
  | created (answer : CreateAnswer)
  | recorded (stores : Bool) (next : Nat)
  | noted (next : Nat)
  | held (answer : HolderAnswer) (next : Nat)
  deriving DecidableEq, Repr

namespace State
variable (s : State)

/-- Whether an update under this token changes the row: always, under none. -/
def Matches (token : Option Nat) : Prop :=
  token = none ∨ s.row.claimToken = token

instance (token : Option Nat) : Decidable (s.Matches token) :=
  inferInstanceAs (Decidable (_ ∨ _))

/-- A step with a claim on the row still has it. -/
def Claims (x : Step) : Prop :=
  x.token.isSome ∧ s.row.claimToken = x.token

instance (x : Step) : Decidable (s.Claims x) :=
  inferInstanceAs (Decidable (_ ∧ _))

/-- Change the row where this token still claims it, letting the claim go. -/
def update (token : Option Nat) (set : PassRecord → PassRecord) : State :=
  if s.Matches token then { s with row := { set s.row with claimToken := none } } else s

/-- A step makes its statement and goes on to its next phase, or is done. -/
def goOn (step : Step) (next : Option Phase) : State :=
  { s with
    steps :=
      match next with
      | some phase => Table.update (fun x => x.id = step.id) (fun x => { x with phase }) s.steps
      | none => Table.delete (fun x => x.id = step.id) s.steps }

def moveTo (step : Step) (phase : Phase) : State :=
  s.goOn step (some phase)

def done (step : Step) : State :=
  s.goOn step none

def begin (token : Option Nat) (how : How) (phase : Phase) : State :=
  { s with
    nextStep := s.nextStep + 1
    steps := s.steps ++ [{ id := s.nextStep, token, how, phase }] }

def tell (p : Option TapMethod) : State :=
  { s with told := p.toList ++ s.told }

/-- Graph deletes a pass, where it still has it. -/
def deleteMethod (p : TapMethod) : State :=
  { s with live := s.live.filter (· ≠ p) }

/-- Entra keeps one pass a person: a new one replaces it. -/
def createMethod (user : Nat) : State :=
  { s with
    nextMethod := s.nextMethod + 1
    live := { user, id := s.nextMethod } :: s.live.filter (·.user ≠ user) }

/-- Whether the sweep takes the pass: one to make, or an issued one to check again. -/
def Due : Prop :=
  s.row.nextAttemptAt ≤ s.now ∧
    (s.row.status = .waiting ∨ s.row.status = .issued ∧ s.row.passEnc.isSome ∧
      s.row.expiresAt.any (s.now < ·))

instance : Decidable s.Due :=
  inferInstanceAs (Decidable (_ ∧ _))

/-- The row under a fresh claim. -/
def claimed (set : PassRecord → PassRecord) (how : How) : State :=
  { s with
    nextToken := s.nextToken + 1
    row := { set s.row with claimToken := some s.nextToken, nextAttemptAt := s.now + lease } }.begin
      (some s.nextToken) how .claimed

def claimDue : Option State :=
  if s.Due then
    some
      (s.claimed (fun r =>
        { r with attempts := if r.status = .waiting then r.attempts + 1 else r.attempts }) .issue)
  else none

/-- The row as a reissue or a reschedule leaves it: its pass is to delete first. -/
def replaced (r : PassRecord) : PassRecord :=
  { r.noPass with
    status := .waiting
    staleMethodId := r.entraMethodId.or r.staleMethodId
    errorCode := none
    message := none }

def reissue : Option State :=
  if s.row.claimToken = none ∨ s.row.nextAttemptAt ≤ s.now then
    some (s.claimed (fun r => { replaced r with attempts := 1 }) .reissue)
  else none

/-- The row of a person whose class moves; a pass being made for the old start
can't be recorded now. -/
def reschedule : State :=
  { s with row := { replaced s.row with attempts := 0, nextAttemptAt := s.now, claimToken := none } }

/-- A reveal reads the row, which must hold its pass. -/
def reveal : Option State :=
  if s.row.status = .issued ∧ s.row.Held s.now then some (s.begin none .reveal (.rechecking s.row)) else none

/-- The sweep stops holding the values it needn't hold. -/
def purge : State :=
  { s with row := { s.row with passEnc := none } }

/-- A claimed row is read: an issued pass is checked again, another made, the
pass it replaced deleted first. -/
def load (step : Step) (on : Bool) : State :=
  let pass := s.row
  s.moveTo step
    (if pass.status = .issued ∧ step.how = .issue then .rechecking pass
    else if !on then
      .recording pass (.unmade (.retry "tap_not_enabled"
        "Temporary Access Pass is turned off for this directory." (errorRetry pass.attempts)))
    else
      match pass.stale with
      | some stale => .deletingStale pass stale
      | none => .checking pass)

def deleteStale (step : Step) (pass : PassRecord) (stale : TapMethod) (after : Nat) : DeleteAnswer → State
  | .ok => (s.deleteMethod stale).moveTo step (.clearingStale pass stale)
  | .throttled => s.moveTo step (.recording pass (.unmade (.retry "entra_throttled" notDeletedMessage after)))
  | .failed => s.moveTo step (.recording pass (.unmade (.retry "stale_not_deleted" notDeletedMessage after)))

/-- The stale id is cleared, where the claim still holds. -/
def clearStale (step : Step) (pass : PassRecord) : State :=
  (if s.Claims step then { s with row := { s.row with staleMethodId := none } } else s).moveTo
    step (.checking pass)

/-- The checks before a create: another pass they hold is replaced only where asked. -/
def check (step : Step) (pass : PassRecord) : CheckAnswer → State
  | .stops why => s.moveTo step (.recording pass (.unmade why))
  | .ready user =>
    s.moveTo step
      (if (∃ p ∈ s.live, p.user = user) ∧ !step.how.replaceExisting then
        .recording pass (.unmade (.failed "other_pass" otherPass))
      else .creating pass user)

def create (step : Step) (pass : PassRecord) (user : Nat) : CreateAnswer → State
  | .failed why => s.moveTo step (.recording pass (.unmade why))
  | .created named value expiresAt =>
    { s.createMethod user with made := { user, id := s.nextMethod } :: s.made }.moveTo step
      (.recording pass (.issued user (if named then some s.nextMethod else none) value expiresAt))

/-- The row as it is left where no pass was made. -/
def unmade (next : Nat) (r : PassRecord) : Unmade → PassRecord
  | .unsynced =>
    { r.noPass with status := .waiting, errorCode := some "unsynced", message := none, nextAttemptAt := next }
  | .later start =>
    { r with status := .waiting, errorCode := some "not_yet", message := none, nextAttemptAt := start }
  | .retry code message after =>
    { r with
      status := .waiting, errorCode := some code, message := some message, nextAttemptAt := s.now + after }
  | .refused code message =>
    { r.noPass with
      status := .refused, errorCode := some code, message := some message, nextAttemptAt := s.now }
  | .failed code message =>
    { r.noPass with
      status := .failed, errorCode := some code, message := some message, nextAttemptAt := s.now }

/-- The row with the pass made for it. -/
def stored (user : Nat) (method : Option Nat) (value : String) (expiresAt next : Nat)
    (r : PassRecord) : PassRecord :=
  { r with
    status := .issued
    entraUserId := some user
    entraMethodId := method
    passEnc := some value
    expiresAt := some expiresAt
    errorCode := none
    message := none
    nextAttemptAt := next }

/-- Record how making a pass went; one that was made is stored in a
transaction, which can fail. -/
def record (step : Step) (pass : PassRecord) (stores : Bool) (next : Nat) : Attempt → State
  | .issued user method value expiresAt =>
    if stores ∧ s.Matches step.token then
      (s.update step.token (stored user method value expiresAt next)).done step
    else s.moveTo step (.unstored pass user method)
  | .unmade why => (s.update step.token fun r => s.unmade next r why).done step

/-- Nobody holds the pass just made: it mustn't stay live. -/
def deleteUnstored (step : Step) (pass : PassRecord) (user : Nat) (method : Option Nat)
    (answer : DeleteAnswer) :
    State :=
  match method, answer with
  | some id, .ok => (s.deleteMethod { user, id }).moveTo step (.storeFailing pass user method true)
  | _, _ => s.moveTo step (.storeFailing pass user method false)

def storeFailedMessage (deleted : Bool) : String :=
  if deleted then "Their pass couldn’t be stored, so it was deleted in Entra. It’s made again shortly."
  else "Their pass couldn’t be stored, and couldn’t be deleted in Entra. It’s made again shortly."

/-- The row noted as not stored, the pass that couldn't be deleted to delete first. -/
def notStored (user : Nat) (method : Option Nat) (deleted : Bool) (next : Nat) (r : PassRecord) :
    PassRecord :=
  { r.noPass with
    status := .waiting
    entraUserId := some user
    staleMethodId := if deleted then none else method
    errorCode := some "store_failed"
    message := some (storeFailedMessage deleted)
    nextAttemptAt := next }

/-- The row's message says what came of the pass, as a reissue's answer does. -/
def storeFailed (step : Step) (user : Nat) (method : Option Nat) (deleted : Bool) (next : Nat) : State :=
  ((s.update step.token (notStored user method deleted next)).tell
    (if !deleted ∧ (step.how = .reissue ∨ s.Matches step.token) then method.map fun id =>
      { user, id } else none)).done
      step

/-- What the holder's check came to: a reveal hands the pass over, a recheck
stops holding one that is spent. -/
def holder (step : Step) (pass : PassRecord) (answer : HolderAnswer) (next : Nat) : State :=
  match answer with
  | .refused refusal => s.moveTo step (.revoking pass refusal)
  | .may spent =>
    if step.how = .reveal then s.done step
    else
      (s.update step.token fun r =>
        { r with passEnc := if spent then none else r.passEnc, nextAttemptAt := next }).done step
  | .unknown =>
    if step.how = .reveal then s.done step
    else (s.update step.token fun r => { r with nextAttemptAt := next }).done step

/-- The refused holder's pass is deleted in Entra. -/
def revoke (step : Step) (pass : PassRecord) (refusal : Refusal) (answer : DeleteAnswer) : State :=
  match pass.entra, answer with
  | some p, .ok => (s.deleteMethod p).moveTo step (.refusing pass refusal true)
  | _, _ => s.moveTo step (.refusing pass refusal (pass.entraMethodId = none))

def revokedMessage (refusal : Refusal) (deleted : Bool) : String :=
  if deleted then refusal.message
  else refusal.message ++
    " OpenADUC couldn’t delete their pass in Entra: delete it in the Microsoft Entra admin center."

/-- The row of a person refused with the reason, its value deleted. -/
def refusedRow (refusal : Refusal) (deleted : Bool) (r : PassRecord) : PassRecord :=
  { r.noPass with
    status := .refused
    errorCode := some refusal.code
    message := some (revokedMessage refusal deleted)
    nextAttemptAt := s.now }

/-- The row's message says where the pass couldn't be deleted. -/
def refuse (step : Step) (pass : PassRecord) (refusal : Refusal) (deleted : Bool) : State :=
  ((s.update step.token (s.refusedRow refusal deleted)).tell
    (if !deleted ∧ s.Matches step.token then pass.entra else none)).done step

/-- A step's next statement. -/
def perform (step : Step) : Phase → Answer → Option State
  | .claimed, .loaded on => some (s.load step on)
  | .deletingStale pass stale, .deleted answer after => some (s.deleteStale step pass stale after answer)
  | .clearingStale pass _, .cleared => some (s.clearStale step pass)
  | .checking pass, .checked answer => some (s.check step pass answer)
  | .creating pass user, .created answer => some (s.create step pass user answer)
  | .recording pass attempt, .recorded stores next => some (s.record step pass stores next attempt)
  | .unstored pass user method, .deleted answer _ => some (s.deleteUnstored step pass user method answer)
  | .storeFailing _ user method deleted, .noted next => some (s.storeFailed step user method deleted next)
  | .rechecking pass, .held answer next => some (s.holder step pass answer next)
  | .revoking pass refusal, .deleted answer _ => some (s.revoke step pass refusal answer)
  | .refusing pass refusal deleted, .noted _ => some (s.refuse step pass refusal deleted)
  | _, _ => none

def findStep (step : Nat) : Option Step :=
  Table.find Step.id step s.steps

end State

/-- What happens to a row: time passes, the sweep, an operator, a step under
way going on, or someone else changing the person's passes in Entra. -/
inductive Action
  | tick (seconds : Nat)
  | purge
  | claimDue
  | reissue
  | reschedule
  | reveal
  | act (step : Nat) (answer : Answer)
  | lapse (p : TapMethod)
  | madeElsewhere (user : Nat)
  deriving DecidableEq, Repr

def step (s : State) : Action → Option State
  | .tick seconds => some { s with now := s.now + seconds }
  | .purge => some s.purge
  | .claimDue => s.claimDue
  | .reissue => s.reissue
  | .reschedule => some s.reschedule
  | .reveal => s.reveal
  | .act step answer => (s.findStep step).bind fun step => s.perform step step.phase answer
  | .lapse p => some (s.deleteMethod p)
  | .madeElsewhere user => some (s.createMethod user)

/-- The row as it is stored with its class, before anything was made for it;
the person may hold other passes. -/
def classPasses : Transition.System State Action where
  init s := s.row = .inserted s.now ∧ s.steps = [] ∧ s.made = [] ∧ s.told = [] ∧ ∀ p ∈ s.live,
    p.id < s.nextMethod
  step := step

end OpenAduc.ClassPasses
