import OpenAduc.Lib.Table
import OpenAduc.Lib.Transition

namespace OpenAduc.Sessions

/-- A record of `admin_sessions`. Times and limits are in milliseconds. -/
structure AdminSession where
  id : Nat
  createdAt : Int
  lastSeenAt : Int
  expiresAt : Int
  revokedAt : Option Int
  deriving DecidableEq, Repr

/-- A record of `elevated_sessions`. -/
structure ElevatedSession where
  id : Nat
  adminSessionId : Nat
  createdAt : Int
  idleExpiresAt : Int
  absoluteExpiresAt : Int
  revokedAt : Option Int
  deriving DecidableEq, Repr

/-- The settings in force: `session.absolute_timeout_hours`, `session.idle_timeout_minutes`,
and the elevated session's own limits. -/
structure Limits where
  signInAbsolute : Int
  signInIdle : Int
  elevatedIdle : Int
  elevatedAbsolute : Int
  deriving DecidableEq, Repr

/-- `Math.min`. -/
def earlier (a b : Int) : Int :=
  if a ≤ b then a else b

def capped (time : Int) : Option Int → Int
  | none => time
  | some notAfter => earlier time notAfter

/-- `elevationLimits`' idle timeout, capped by the sign-in session's. -/
def Limits.idle (l : Limits) : Int :=
  earlier l.elevatedIdle l.signInIdle

/-- An elevated session's step-up, or an activity `recordElevatedActivity` took
as one, and the idle timeout then in force. -/
structure Activity where
  elevatedId : Nat
  time : Int
  idle : Int
  deriving DecidableEq, Repr

/-- The two tables; what requests hold of elevated sessions, each as it stood when
it was looked up; and, for what is said of them, what has happened so far. -/
structure State where
  admin : List AdminSession
  elevated : List ElevatedSession
  nextId : Nat
  now : Int
  held : List ElevatedSession
  /-- Each step-up's sign-in session, replaced and new. -/
  rotations : List (Nat × Nat)
  activity : List Activity
  /-- The elevated sessions revoked, as the calls return them. -/
  revoked : List Nat
  deriving DecidableEq, Repr

def ElevatedSession.Open (e : ElevatedSession) (adminSessionId : Nat) : Prop :=
  e.adminSessionId = adminSessionId ∧ e.revokedAt = none

instance (e : ElevatedSession) (adminSessionId : Nat) : Decidable (e.Open adminSessionId) :=
  inferInstanceAs (Decidable (_ ∧ _))

/-- Not revoked and past neither its idle end nor its absolute end. -/
def ElevatedSession.Active (e : ElevatedSession) (adminSessionId : Nat) (now : Int) : Prop :=
  e.Open adminSessionId ∧ now < e.idleExpiresAt ∧ now < e.absoluteExpiresAt

instance (e : ElevatedSession) (adminSessionId : Nat) (now : Int) : Decidable (e.Active adminSessionId now) :=
  inferInstanceAs (Decidable (_ ∧ _))

/-- `ORDER BY created_at DESC LIMIT 1`. -/
def newest : List ElevatedSession → Option ElevatedSession
  | [] => none
  | e :: es =>
    match newest es with
    | none => some e
    | some f => some (if f.createdAt ≤ e.createdAt then e else f)

namespace State
variable (s : State)

/-- The session `rotateAndElevate` or a sign-in makes, never outliving `notAfter`. -/
def createAdminSession (limits : Limits) (now : Int) (notAfter : Option Int) : AdminSession × State :=
  let session : AdminSession :=
    { id := s.nextId
      createdAt := now
      lastSeenAt := now
      expiresAt := capped (now + limits.signInAbsolute) notAfter
      revokedAt := none }
  (session, { s with admin := s.admin ++ [session], nextId := s.nextId + 1 })

def createElevatedSession (limits : Limits) (now : Int) (adminSessionId : Nat) (notAfter : Option Int) :
    ElevatedSession × State :=
  let absoluteExpiresAt := capped (now + limits.elevatedAbsolute) notAfter
  let session : ElevatedSession :=
    { id := s.nextId
      adminSessionId
      createdAt := now
      idleExpiresAt := earlier (now + limits.idle) absoluteExpiresAt
      absoluteExpiresAt
      revokedAt := none }
  (session,
    { s with
      elevated := s.elevated ++ [session]
      nextId := s.nextId + 1
      held := s.held ++ [session]
      activity := s.activity ++ [{ elevatedId := session.id, time := now, idle := limits.idle }] })

def revokeElevatedSessionsForAdmin (now : Int) (adminSessionId : Nat) : State :=
  { s with
    elevated := Table.update (fun e => e.Open adminSessionId)
      (fun e => { e with revokedAt := some now }) s.elevated
    revoked := s.revoked ++ (s.elevated.filter fun e => e.Open adminSessionId).map (·.id) }

/-- Revoke a sign-in session, with the elevated sessions it owns. -/
def revokeAdminSession (now : Int) (id : Nat) : State :=
  { s with
    admin := Table.update (fun a => a.id = id ∧ a.revokedAt = none)
      (fun a => { a with revokedAt := some now }) s.admin
    }.revokeElevatedSessionsForAdmin now id

/-- `endOpenElevatedSessions`, at the API's start: the passwords they rest on are gone. -/
def endOpenElevatedSessions (now : Int) : State :=
  { s with
    elevated := Table.update (fun e => e.Active e.adminSessionId now)
      (fun e => { e with revokedAt := some now }) s.elevated
    revoked := s.revoked ++ (s.elevated.filter fun e => e.Active e.adminSessionId now).map (·.id)
    held := [] }

/-- Sign in, with no elevated session, or as first-run setup does with one. -/
def signIn (limits : Limits) (now : Int) (elevate : Bool) : State :=
  let made := s.createAdminSession limits now none
  if elevate then (made.2.createElevatedSession limits now made.1.id (some made.1.expiresAt)).2 else made.2

/-- `rotateAndElevate`, seeded as the step-up route does. -/
def rotateAndElevate (limits : Limits) (now : Int) (old : AdminSession) : State :=
  let made := s.createAdminSession limits now (some old.expiresAt)
  let elevated := (made.2.createElevatedSession limits now made.1.id (some made.1.expiresAt)).2
  let revoked := elevated.revokeAdminSession now old.id
  { revoked with rotations := revoked.rotations ++ [(old.id, made.1.id)] }

def findActiveElevated (adminSessionId : Nat) (now : Int) : Option ElevatedSession :=
  newest (s.elevated.filter fun e => e.Active adminSessionId now)

/-- The request's session seen again, where it is neither revoked, expired nor idle. -/
def resolve (limits : Limits) (now : Int) (id : Nat) : State :=
  { s with
    admin := Table.update
      (fun a => a.id = id ∧ a.revokedAt = none ∧ now < a.expiresAt ∧ now - a.lastSeenAt ≤ limits.signInIdle)
      (fun a => { a with lastSeenAt := now }) s.admin }

/-- A request looks up its elevated session. -/
def look (adminSessionId : Nat) (now : Int) : State :=
  { s with held := s.held ++ (s.findActiveElevated adminSessionId now).toList }

/-- Whether the activity would move the idle end by less than a twentieth of the timeout. -/
def Unwritten (limits : Limits) (next idleExpiresAt : Int) : Prop :=
  20 * (next - idleExpiresAt) < limits.idle ∧ 20 * (idleExpiresAt - next) < limits.idle

instance (limits : Limits) (next idleExpiresAt : Int) : Decidable (Unwritten limits next idleExpiresAt) :=
  inferInstanceAs (Decidable (_ ∧ _))

/-- `recordElevatedActivity`, on the session as the request holds it: the session
as it now stands, or `none` if it ended since. -/
def recordElevatedActivity (limits : Limits) (now : Int) (e : ElevatedSession) :
    Option ElevatedSession × State :=
  let next := earlier (now + limits.idle) e.absoluteExpiresAt
  let active :=
    { s with activity := s.activity ++ [{ elevatedId := e.id, time := now, idle := limits.idle }] }
  if Unwritten limits next e.idleExpiresAt then (some e, active)
  else
    match s.elevated.find? fun row => row.id = e.id ∧ row.revokedAt = none ∧ now < row.idleExpiresAt with
    | none => (none, s)
    | some row =>
      let moved := { row with idleExpiresAt := next }
      (some moved,
        { active with
          elevated := Table.update (fun row => row.id = e.id ∧ row.revokedAt = none ∧ now < row.idleExpiresAt)
            (fun row => { row with idleExpiresAt := next }) s.elevated
          held := s.held ++ [moved] })

end State

inductive Op
  | signIn (elevate : Bool)
  | stepUp (oldAdminSessionId : Nat)
  | resolve (adminSessionId : Nat)
  | look (adminSessionId : Nat)
  /-- The request holding this has been active. -/
  | record (e : ElevatedSession)
  | revoke (adminSessionId : Nat)
  | endStepUp (adminSessionId : Nat)
  | apiStart
  deriving DecidableEq, Repr

/-- One operation, when it runs and the settings in force then. -/
structure Call where
  time : Int
  limits : Limits
  op : Op
  deriving DecidableEq, Repr

def State.apply (s : State) (limits : Limits) (now : Int) : Op → Option State
  | .signIn elevate => some (s.signIn limits now elevate)
  | .stepUp old => (Table.find (·.id) old s.admin).map fun a => s.rotateAndElevate limits now a
  | .resolve id => some (s.resolve limits now id)
  | .look id => some (s.look id now)
  | .record e => if s.held.contains e then some (s.recordElevatedActivity limits now e).2 else none
  | .revoke id => some (s.revokeAdminSession now id)
  | .endStepUp id => some (s.revokeElevatedSessionsForAdmin now id)
  | .apiStart => some (s.endOpenElevatedSessions now)

def empty (now : Int) : State where
  admin := []
  elevated := []
  nextId := 0
  now
  held := []
  rotations := []
  activity := []
  revoked := []

/-- Operations at times that never go back. -/
def system : Transition.System State Call where
  init s := ∃ now, s = empty now
  step s c := if c.time < s.now then none else ({ s with now := c.time } : State).apply c.limits c.time c.op

end OpenAduc.Sessions
