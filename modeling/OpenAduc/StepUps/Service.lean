import OpenAduc.Sessions.Lifetimes
import OpenAduc.StepUps.Cache

namespace OpenAduc.StepUps
open Naming (Text)
open Sessions (ElevatedSession Limits)

/-- A step-up, or first-run setup, whose sessions are stored: the password the directory took has
yet to be cached, and the passwords of the sessions it revoked have yet to go. -/
structure Elevating where
  elevated : ElevatedSession
  password : Text
  revoked : List Nat
  deriving DecidableEq, Repr

/-- What a request, or a job's run, does next with the cache. -/
inductive Pending
  /-- It has found its elevated session active, and reads the password. -/
  | read (elevated : ElevatedSession) (lookedAt : Int)
  /-- It has read the password, and may be activity to record. -/
  | active (elevated : ElevatedSession)
  | extend (id : Nat) (idleExpiresAt : Int)
  | delete (ids : List Nat)
  deriving DecidableEq, Repr

/-- A password read, to bind to the directory with. -/
structure Use where
  adminSessionId : Nat
  elevatedId : Nat
  password : Text
  lookedAt : Int
  readAt : Int

/-- The tables and the process's cache; the sign-in sessions whose cookie has been sent; what is
under way, the cookies still to be sent with it; and, for what is said of them, the password each
elevated session was made with, and those read. -/
structure State where
  sessions : Sessions.State
  cache : Cache
  known : List Nat
  elevating : List Elevating
  sending : List Nat
  pending : List Pending
  proved : List (Nat × Text)
  uses : List Use

inductive Action
  | signIn (limits : Limits)
  | setUp (limits : Limits) (password : Text)
  /-- The directory took the password: the session is rotated. -/
  | stepUp (limits : Limits) (adminSessionId : Nat) (password : Text)
  /-- Its password is cached, and the event recorded. -/
  | cached (e : Elevating)
  /-- The cookie of its sign-in session is sent. -/
  | sent (adminSessionId : Nat)
  /-- A logout, or a step-up that finds nothing allowed any more. -/
  | revoke (adminSessionId : Nat)
  | endStepUp (adminSessionId : Nat)
  | deleted (ids : List Nat)
  | resolve (limits : Limits) (adminSessionId : Nat)
  | look (adminSessionId : Nat)
  | read (e : ElevatedSession) (lookedAt : Int)
  | record (limits : Limits) (e : ElevatedSession)
  /-- Recording fails, and the session is taken as it was. -/
  | unrecorded (e : ElevatedSession)
  | extended (id : Nat) (idleExpiresAt : Int)
  | sweep
  | stop
  | apiStart

/-- An action and when it is. -/
structure Call where
  time : Int
  action : Action

namespace State

/-- The elevated sessions a revocation returns. -/
def openOf (sessions : Sessions.State) (adminSessionId : Nat) : List Nat :=
  (sessions.elevated.filter fun e => e.Open adminSessionId).map (·.id)

/-- A step-up's or setup's new sessions, with the sign-in session's end. -/
def elevate (sessions : Sessions.State) (limits : Limits) (now : Int) (notAfter : Option Int) :
    ElevatedSession × Sessions.State :=
  let made := sessions.createAdminSession limits now notAfter
  made.2.createElevatedSession limits now made.1.id (some made.1.expiresAt)

def act (s : State) (now : Int) : Action → Option State
  | .signIn limits =>
      some { s with sessions := s.sessions.signIn limits now false, known := s.known ++ [s.sessions.nextId] }
  | .setUp limits password =>
    let (elevated, sessions) := elevate s.sessions limits now none
    some { s with
      sessions
      elevating := s.elevating ++ [{ elevated, password, revoked := [] }]
      proved := s.proved ++ [(elevated.id, password)] }
  | .stepUp limits old password =>
    if old ∈ s.known then
      (Table.find (·.id) old s.sessions.admin).map fun a =>
        let (elevated, sessions) := elevate s.sessions limits now (some a.expiresAt)
        { s with
          sessions := s.sessions.rotateAndElevate limits now a
          elevating := s.elevating ++ [{ elevated, password, revoked := openOf sessions a.id }]
          proved := s.proved ++ [(elevated.id, password)] }
    else none
  | .cached e =>
    if e ∈ s.elevating then
      some { s with
        cache := (s.cache.deleteMany e.revoked).set e.elevated.id e.password e.elevated.idleExpiresAt
        sending := s.sending ++ [e.elevated.adminSessionId]
        elevating := s.elevating.erase e }
    else none
  | .sent id => if id ∈ s.sending then some {
    s with known := s.known ++ [id], sending := s.sending.erase id } else none
  | .revoke id =>
    if id ∈ s.known then
      some { s with sessions := s.sessions.revokeAdminSession now id, pending :=
        s.pending ++ [.delete (openOf s.sessions id)] }
    else none
  | .endStepUp id =>
    if id ∈ s.known then
      some { s with
        sessions := s.sessions.revokeElevatedSessionsForAdmin now id
        pending := s.pending ++ [.delete (openOf s.sessions id)] }
    else none
  | .deleted ids =>
    if .delete ids ∈ s.pending then
      some { s with cache := s.cache.deleteMany ids, pending := s.pending.erase (.delete ids) }
    else none
  | .resolve limits id => some { s with sessions := s.sessions.resolve limits now id }
  | .look id =>
    if id ∈ s.known then
      (s.sessions.findActiveElevated id now).map fun e =>
        { s with sessions := s.sessions.look id now, pending := s.pending ++ [.read e now] }
    else none
  | .read e lookedAt =>
    if .read e lookedAt ∈ s.pending then
      let left := s.pending.erase (.read e lookedAt)
      match s.cache.get e.id now with
      | (none, cache) => some { s with cache, pending := left }
      | (some password, cache) =>
        some { s with
          cache
          pending := left ++ [.active e]
          uses := s.uses ++
            [{ adminSessionId := e.adminSessionId, elevatedId := e.id, password, lookedAt, readAt := now }] }
    else none
  | .record limits e =>
    if .active e ∈ s.pending ∧ e ∈ s.sessions.held then
      let left := s.pending.erase (.active e)
      match s.sessions.recordElevatedActivity limits now e with
      | (none, sessions) => some { s with sessions, pending := left }
      | (some moved, sessions) =>
        some { s with sessions, pending := left ++ [.extend moved.id moved.idleExpiresAt] }
    else none
  | .unrecorded e =>
    if .active e ∈ s.pending then
      some { s with pending := s.pending.erase (.active e) ++ [.extend e.id e.idleExpiresAt] } else none
  | .extended id idleExpiresAt =>
    if .extend id idleExpiresAt ∈ s.pending then
      some { s with cache := s.cache.extend id idleExpiresAt, pending :=
        s.pending.erase (.extend id idleExpiresAt) }
    else none
  | .sweep => some { s with cache := s.cache.sweep now }
  | .stop => some { s with cache := s.cache.stop }
  | .apiStart =>
    some { s with sessions := s.sessions.endOpenElevatedSessions now, cache :=
      Cache.empty, elevating := [], sending := [], pending := [] }

end State

/-- One process of the API and the tables, at times that never go back. -/
def stepUps : Transition.System State Call where
  init s := ∃ now, s = ⟨Sessions.empty now, Cache.empty, [], [], [], [], [], []⟩
  step s c :=
    if c.time < s.sessions.now then none
      else ({ s with sessions := { s.sessions with now := c.time } } : State).act c.time c.action

end OpenAduc.StepUps
