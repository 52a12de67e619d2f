import OpenAduc.Lib.Transition

namespace OpenAduc.UserCreation

/-- A domain controller: each numbers its own changes. -/
abbrev Controller := Nat

/-- The account in AD, as far as a create and others change it. A `pwdLastSet` of 0 asks for a change at next
sign-in; times are otherwise after it. -/
structure Account where
  objectGuid : Nat
  whenCreated : Nat
  enabled : Bool
  pwdLastSet : Option Nat
  lastLogonTimestamp : Option Nat
  usnChanged : Controller → Nat

/-- What someone else does to the account, with the time where AD keeps it. -/
inductive Change
  | setPassword (mustChange : Bool) (time : Nat)
  | enable
  | disable
  | editGroups
  | editAttributes
  | signIn (time : Nat) (renews : Bool)
deriving DecidableEq, Repr

/-- Each controller gives the account a higher number of its own. -/
def Account.numbered (a : Account) (skipped : Controller → Nat) : Account :=
  { a with usnChanged := fun c => a.usnChanged c + 1 + skipped c }

def passwordSetAt (mustChange : Bool) (time : Nat) : Option Nat := some (if mustChange then 0 else time + 1)

/-- A change of one's own, with the numbers each controller passes over for others'. A membership is
a change of the group. Setting what is set already changes nothing, and a disabled account can't
sign in. -/
def Account.apply (a : Account) (x : Change × (Controller → Nat)) : Account :=
  match x.1 with
  | .setPassword mustChange time => { a with pwdLastSet := passwordSetAt mustChange time }.numbered x.2
  | .enable => if a.enabled then a else { a with enabled := true }.numbered x.2
  | .disable => if a.enabled then { a with enabled := false }.numbered x.2 else a
  | .editGroups => a
  | .editAttributes => a.numbered x.2
  | .signIn time renews =>
    if a.enabled ∧ (a.lastLogonTimestamp = none ∨ renews) then
      { a with lastLogonTimestamp := some (time + 1) }.numbered x.2
    else a

structure AccountFingerprint where
  objectGuid : Nat
  whenCreated : Nat
  usnChanged : Option Nat
  pwdLastSet : Option Nat
  lastLogonTimestamp : Option Nat
deriving DecidableEq, Repr

def accountFingerprint (c : Controller) (a : Account) : AccountFingerprint where
  objectGuid := a.objectGuid
  whenCreated := a.whenCreated
  usnChanged := some (a.usnChanged c)
  pwdLastSet := a.pwdLastSet
  lastLogonTimestamp := a.lastLogonTimestamp

inductive UserCreateStep
  | create
  | password
  | groups
  | enable
deriving DecidableEq, Repr

def remainingSteps (planned completed : List UserCreateStep) : List UserCreateStep :=
  planned.filter fun s => ¬completed.contains s

/-- What the steps are run with: the password's must-change and time, and which of them fails. -/
structure StepRun where
  mustChange : Bool
  time : Nat
  fails : UserCreateStep → Bool
  skipped : UserCreateStep → Controller → Nat

def Account.stepped (a : Account) (r : StepRun) (s : UserCreateStep) : Account :=
  match s with
  | .password =>
    { a with pwdLastSet := passwordSetAt r.mustChange r.time, enabled := false }.numbered (r.skipped s)
  | .enable => { a with enabled := true }.numbered (r.skipped s)
  | .create | .groups => a

/-- The steps not yet done, in order, stopping at the first that fails. -/
def runCreateSteps (r : StepRun) (completed : List UserCreateStep) (a : Account) :
    List UserCreateStep → List UserCreateStep × Account
  | [] => (completed, a)
  | s :: rest =>
    if completed.contains s then runCreateSteps r completed a rest
    else if r.fails s then (completed, a)
    else runCreateSteps r (completed ++ [s]) (a.stepped r s) rest

inductive AuditAction
  | userCreate
  | userCreateFinish
deriving DecidableEq, Repr

/-- What the steps left, as an audit row of them has it. -/
structure Progress where
  completed : List UserCreateStep
  remaining : List UserCreateStep
  account : Option AccountFingerprint
deriving DecidableEq, Repr

/-- An audit row of the account's create or of a finish of it; a create names its correlation, a
finish the create's. -/
structure AuditEvent where
  id : Nat
  action : AuditAction
  timestamp : Int
  correlationId : Option Nat
  after : Progress
deriving DecidableEq, Repr

structure UnfinishedCreate where
  createCorrelationId : Nat
  createdAt : Int
  completed : List UserCreateStep
  remaining : List UserCreateStep
  account : Option AccountFingerprint
deriving DecidableEq, Repr

/-- The last row, in the order of their ids, that meets the condition. -/
def lastWhere (cond : AuditEvent → Bool) (trail : List AuditEvent) : Option AuditEvent :=
  (trail.filter cond).getLast?

/-- The latest create of the account, with the progress its latest finish recorded. -/
def findUnfinishedCreate (trail : List AuditEvent) : Option UnfinishedCreate :=
  match lastWhere (fun e => e.action = .userCreate) trail with
  | none => none
  | some create =>
    match create.correlationId with
    | none => none
    | some correlation =>
      let finish := lastWhere
        (fun e => e.action = .userCreateFinish ∧ create.id < e.id ∧ e.correlationId = some correlation) trail
      let after := (finish.map AuditEvent.after).getD create.after
      some {
        createCorrelationId := correlation
        createdAt := create.timestamp
        completed := after.completed
        remaining := after.remaining
        account := after.account }

/-- In milliseconds. -/
def FINISH_WINDOW_MS : Int := 24 * 60 * 60 * 1000

inductive Refusal
  | noUnfinished
  | tooLate
  | changed
deriving DecidableEq, Repr

structure Live where
  fingerprint : AccountFingerprint
  enabled : Bool
deriving DecidableEq, Repr

/-- Why the steps a create left can't be run now, or nothing when they can. -/
def finishRefusal (unfinished : Option UnfinishedCreate) (live : Live) (now : Int) : Option Refusal :=
  match unfinished with
  | none => some .noUnfinished
  | some u =>
    if u.remaining = [] then some .noUnfinished
    else if FINISH_WINDOW_MS < now - u.createdAt then some .tooLate
    else
      match u.account with
      | none => some .changed
      | some was =>
        if was.objectGuid ≠ live.fingerprint.objectGuid ∨
          was.whenCreated ≠ live.fingerprint.whenCreated then some .changed
        else if live.enabled then some .changed
        else if was.usnChanged ≠ none ∧ was.usnChanged = live.fingerprint.usnChanged then none
        else if .password ∈ u.remaining ∧
          (live.fingerprint.pwdLastSet = none ∨ live.fingerprint.pwdLastSet = some 0) ∧
            live.fingerprint.lastLogonTimestamp = none then none
        else some .changed

def liveAt (c : Controller) (a : Account) : Live := ⟨accountFingerprint c a, a.enabled⟩

/-- The account as it is, the trail, and, for what is said of them, the account as the latest
recorded step left it, the controller it was read from, and what others have done since. -/
structure World where
  account : Account
  trail : List AuditEvent
  leftAs : Account
  leftBy : Controller
  since : List (Change × (Controller → Nat))

/-- What someone asks of OpenADUC: when, which steps fail, and from which controller it reads the account. -/
structure Request where
  run : StepRun
  now : Int
  controller : Controller
  /-- Where the live account is read from before a finish. -/
  liveFrom : Controller
  /-- Whether the account can be read back after the steps. -/
  readable : Bool
  /-- Whether a finish is to enable the account. -/
  enabled : Bool

inductive Event
  | others (change : Change) (skipped : Controller → Nat)
  | finish (r : Request)

/-- OpenADUC's steps run, and the row of them written. -/
def World.recorded (w : World) (r : Request) (action : AuditAction) (correlation : Option Nat)
    (planned completed steps : List UserCreateStep) : World :=
  let ran := runCreateSteps r.run completed w.account steps
  { account := ran.2
    trail := w.trail ++ [{
      id := w.trail.length
      action := action
      timestamp := r.now
      correlationId := correlation
      after := {
        completed := ran.1
        remaining := remainingSteps planned ran.1
        account := if r.readable then some (accountFingerprint r.controller ran.2) else none } }]
    leftAs := ran.2
    leftBy := r.controller
    since := [] }

/-- A disabled account with no password, not signed in to. -/
def newAccount (guid whenCreated : Nat) (usn : Controller → Nat) : Account where
  objectGuid := guid
  whenCreated := whenCreated
  enabled := false
  pwdLastSet := some 0
  lastLogonTimestamp := none
  usnChanged := usn

def created (a : Account) (r : Request) (correlation : Option Nat) (planned : List UserCreateStep) : World :=
  { account := a, trail := [], leftAs := a, leftBy := r.controller, since := [] : World }.recorded r
    .userCreate correlation
    planned [.create] planned

def World.step (w : World) : Event → Option World
  | .others change skipped =>
    some { w with account := w.account.apply (change, skipped), since := w.since ++ [(change, skipped)] }
  | .finish r =>
    match findUnfinishedCreate w.trail with
    | none => none
    | some u =>
      if finishRefusal (some u) (liveAt r.liveFrom w.account) r.now = none then
        let planned := u.completed ++ u.remaining.filter fun s => s ≠ .enable ∨ r.enabled
        some (w.recorded r .userCreateFinish (some u.createCorrelationId) planned u.completed
          (remainingSteps planned u.completed))
      else none

def system : Transition.System World Event where
  init w := ∃ guid whenCreated usn r correlation planned,
    w = created (newAccount guid whenCreated usn) r correlation planned
  step := World.step

end OpenAduc.UserCreation
