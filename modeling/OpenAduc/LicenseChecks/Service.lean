import OpenAduc.Lib.Assoc
import OpenAduc.Lib.Transition
import OpenAduc.LicenseChecks.Store

namespace OpenAduc.LicenseChecks
open BulkJobs (BulkJobRowStatus GroupChange)

/-- An AD group that grants licenses, as the cache has it. -/
structure LicensedGroup where
  id : String
  name : String
  entraGroupId : String
  skus : List EntraGroupSku
  deriving DecidableEq, Repr

/-- A record of the license cache joined with the group it is of. -/
structure CachedLicensedGroup where
  objectGuid : String
  name : Option String
  entraGroupId : String
  skus : List EntraGroupSku
  deriving DecidableEq, Repr

/-- What a look's calls throw. -/
inductive Thrown
  | throttled (retryAfterSeconds : Nat)
  | permission (statusCode : Nat) (message : String) (hint : Option String)
  | directoryUnavailable
  | other
  deriving DecidableEq, Repr

/-- What the directory and Graph answer a look, where it asks. -/
structure Answers where
  /-- The integration has credentials. -/
  graph : Bool
  /-- The person's Entra user, by their SID. -/
  found : Except Thrown (Option String)
  /-- An Entra user's license assignment states. -/
  states : String → Except Thrown (List AssignmentState)

/-- What a look writes to the check it claimed. -/
inductive CheckUpdate
  /-- An outcome without a reading of the licenses, and the code that says why. -/
  | noted (outcome : Outcome) (code : ImportLicenseCheckCode)
  | read (outcome : Outcome) (entraUserId : String) (syncedAt : Nat) (licenses : List CheckedLicense)
      (attempts : Option Nat)
  /-- Gone from Entra since: found again, or not, on the next look. -/
  | gone
  deriving DecidableEq, Repr

def Outcome.status : Outcome → CheckStatus
  | .settled => .settled
  | .waiting _ _ => .waiting
  | .stopped _ => .stopped

def Outcome.message : Outcome → Option String
  | .settled => none
  | .waiting _ message | .stopped message => some message

def Outcome.afterMs : Outcome → Nat
  | .waiting afterMs _ => afterMs
  | _ => 0

namespace CheckUpdate

def apply (now : Nat) (f : FollowUp) : CheckUpdate → FollowUp
  | .noted outcome code =>
    { f with errorCode := some code, status := outcome.status, message := outcome.message }
  | .read outcome entraUserId syncedAt licenses attempts =>
    { f with
      entraUserId := some entraUserId
      syncedAt := some syncedAt
      licenses := some licenses
      checkedAt := some now
      errorCode := none
      attempts := attempts.getD f.attempts
      status := outcome.status
      message := outcome.message }
  | .gone => { f with entraUserId := none }

def nextAttemptAt (now : Nat) : CheckUpdate → Nat
  | .noted outcome _ | .read outcome _ _ _ _ => now + outcome.afterMs
  | .gone => now

end CheckUpdate

namespace Texts
variable (t : Texts)

/-- The groups among these that grant licenses, by their lower-case ids. -/
def licensedGroupsById (cached : List CachedLicensedGroup) (ids : List String) :
    List (String × LicensedGroup) :=
  ((cached.filter fun r => t.lower r.objectGuid ∈ ids.map t.lower).filter fun r => r.skus ≠ []).foldl
    (fun m r => Assoc.set m (t.lower r.objectGuid)
      { id := t.lower r.objectGuid, name := r.name.getD r.objectGuid,
        entraGroupId := r.entraGroupId, skus := r.skus }) []

/-- The groups a row's ids name that grant licenses. -/
def expectedOf (licensed : List (String × LicensedGroup)) (groupIds : List String) :
    List ExpectedLicenseGroup :=
  groupIds.flatMap fun id =>
    match Assoc.get licensed (t.lower id) with
    | some g => [{ groupId := g.id, entraGroupId := g.entraGroupId, name := g.name, skus := g.skus }]
    | none => []

/-- A check for each of the job's rows whose groups grant a license. -/
def storeLicenseChecks (cached : List CachedLicensedGroup) (rows : List ImportRow) (now : Nat) : List Check :=
  let licensed := t.licensedGroupsById cached (rows.flatMap fun r => r.groupIds.map t.lower).eraseDups
  rows.flatMap fun r =>
    let expected := t.expectedOf licensed r.groupIds
    if expected = [] then []
    else [{ FollowUp.inserted expected with rowId := r.id, nextAttemptAt := now, claimToken := none }]

/-- The licensed groups the row's run did join. -/
def joinedGroups (expected : List ExpectedLicenseGroup) (groups : Option (List GroupChange)) :
    List ExpectedLicenseGroup :=
  let joined := ((groups.getD []).filter (·.isMember)).map (t.lower ·.id)
  expected.filter fun g => t.lower g.groupId ∈ joined

def refusedMessage (message : String) (hint : Option String) : String :=
  "Microsoft Graph refused: " ++ message ++
    match hint.filter (· ≠ "") with
    | some hint => " (" ++ hint ++ ")"
    | none => ""

def throttledMs (retryAfterSeconds : Nat) : Nat := Nat.max 30000 (retryAfterSeconds * 1000)

/-- What a look writes where a call threw. -/
def thrown (f : FollowUp) : Thrown → CheckUpdate
  | .throttled retryAfterSeconds =>
    .noted (.waiting (throttledMs retryAfterSeconds)
      "Microsoft Graph is busy: their licenses are read again shortly.") .throttled
  | .permission statusCode message hint =>
    if statusCode = 404 ∧ (f.entraUserId.filter (· ≠ "")).isSome then .gone
    else .noted (.waiting (retryMs f.attempts) (refusedMessage message hint)) .graphRefused
  | .directoryUnavailable =>
    .noted (.waiting (retryMs f.attempts)
      "No domain controller could be reached to find them in Entra.") .directoryUnavailable
  | .other =>
    .noted (.waiting (retryMs f.attempts) "Something went wrong reading their licenses from Entra.")
      .internalError

/-- The person's Entra user, kept from an earlier look or found by their SID. -/
def entraUserOf (f : FollowUp) (a : Answers) : Except Thrown (Option String) :=
  match f.entraUserId.filter (· ≠ "") with
  | some known => .ok (some known)
  | none => a.found.map (·.filter (· ≠ ""))

/-- What the licenses' states come to. Counted from their sync, so a long wait
for it doesn't slow the looks after. -/
def readStates (f : FollowUp) (joined : List ExpectedLicenseGroup) (now : Nat) (entraUserId : String)
    (states : List AssignmentState) : CheckUpdate :=
  let licenses := t.checkedLicenses joined states
  let firstSeen := f.syncedAt.isNone
  let attempts := if firstSeen then 1 else f.attempts
  .read (t.settleOutcome licenses attempts) entraUserId (f.syncedAt.getD now) licenses
    (if firstSeen then some attempts else none)

/-- One look at a claimed check: what it writes, and what a call threw. -/
def look (f : FollowUp) (groups : Option (List GroupChange)) (now : Nat) (a : Answers) :
    CheckUpdate × Option Thrown :=
  let joined := t.joinedGroups f.expected groups
  if joined = [] then
    (.noted
      (.stopped
      "The import didn’t add them to their licensed groups, so there were no licenses to check.")
      .notInGroups, none)
  else if !a.graph then
    (.noted (.waiting (retryMs f.attempts)
      "The Entra integration has no credentials, so Microsoft Graph can’t be asked.") .graphUnavailable, none)
  else
    match entraUserOf f a with
    | .error thrown_ => (thrown f thrown_, some thrown_)
    | .ok none => (.noted (.waiting (retryMs f.attempts) SYNC_WAIT_MESSAGE) .unsynced, none)
    | .ok (some entraUserId) =>
      match a.states entraUserId with
      | .error thrown_ => (thrown f thrown_, some thrown_)
      | .ok states => (t.readStates f joined now entraUserId states, none)

end Texts

namespace State
variable (s : State)

def setStage (p : Nat) (stage : Stage) : State :=
  { s with processes := fun q => if q = p then { s.processes q with stage } else s.processes q }

def updateChecks (cond : Check → Prop) [DecidablePred cond] (set : Check → Check) : State :=
  { s with checks := Table.update cond set s.checks }

def rowOf (id : Nat) : Option ImportRow := Table.find ImportRow.id id s.rows

/-- The waiting, unclaimed checks the sweep's selection finds overdue. -/
def overdueChecks (on : List Nat) : List OverdueCheck :=
  s.checks.filterMap fun c => do
    let r ← s.rowOf c.rowId
    if c.status = .waiting ∧ c.Unclaimed s.now ∧ c.Overdue r on s.now then
      some { rowId := c.rowId, asWaiting := c.asWaiting r on }
    else none

/-- Rows are numbered by the database. -/
def store (t : Texts) (cached : List CachedLicensedGroup) (providerId : Nat)
    (groupIds : List (List String)) : State :=
  let added := groupIds.mapIdx fun i ids =>
    { id := s.nextRow + i, providerId, jobCreatedAt := s.now, groupIds := ids, status := .pending,
      targetId := none,
      groups := none, finishedAt := none : ImportRow }
  { s with
    nextRow := s.nextRow + groupIds.length
    rows := s.rows ++ added
    checks := s.checks ++ t.storeLicenseChecks cached added s.now }

/-- Stop an overdue check, unless it is claimed or done by now. -/
def stopCheck (t : Texts) (o : OverdueCheck) (now : Nat) : State :=
  match t.stopOf o.asWaiting now with
  | none => s
  | some stop =>
    s.updateChecks (fun c => c.rowId = o.rowId ∧ c.status = .waiting ∧ c.Unclaimed s.now)
      fun c => { c with toFollowUp := c.halted stop, claimToken := none }

def stopNext (t : Texts) (p : Nat) : Option State :=
  match (s.processes p).stage with
  | .stopping on now (o :: overdue) => some ((s.stopCheck t o now).setStage p (.stopping on now overdue))
  | .stopping on _ [] => some (s.setStage p (.claiming on))
  | _ => none

def beginSweep (p : Nat) (on : List Nat) (now : Nat) : Option State :=
  match (s.processes p).stage with
  | .idle => some (s.setStage p (.stopping on now (s.overdueChecks on)))
  | _ => none

/-- Claim a due check. The statement takes the one due longest, passing over those
other statements have locked, so it may be any of them. -/
def claimDue (p : Nat) (rowId : Nat) (clock : Nat) : Option State :=
  match (s.processes p).stage with
  | .claiming on =>
    let throttled := (s.processes p).throttledUntil.filterMap fun e => if e.2 > clock then some e.1 else none
    match s.rowOf rowId, Table.find Check.rowId rowId s.checks with
    | some r, some c =>
      if c.Due r on throttled s.now then
        some ({ s.updateChecks (fun c => c.rowId = rowId)
            (fun c => { c with
              toFollowUp := c.begun (r.finishedAt.getD s.now)
              claimToken := some s.nextToken
              nextAttemptAt := s.now + LEASE }) with
          nextToken := s.nextToken + 1 }.setStage p (.claimed on s.nextToken rowId))
      else none
    | _, _ => none
  | _ => none

/-- Read the check the claim named; none, and the sweep ends, where its row is gone. -/
def load (p : Nat) (now : Nat) : Option State :=
  match (s.processes p).stage with
  | .claimed on token rowId =>
    match Table.find Check.rowId rowId s.checks, s.rowOf rowId with
    | some check, some r =>
      some
        (s.setStage p (.checking on token
        { check, providerId := r.providerId, targetId := r.targetId, groups := r.groups } now))
    | _, _ => some (s.setStage p .idle)
  | _ => none

/-- Change the check this token claims, letting the claim go. -/
def update (rowId token now : Nat) (u : CheckUpdate) : State :=
  s.updateChecks (fun c => c.rowId = rowId ∧ c.claimToken = some token)
    fun c => { c with
      toFollowUp := u.apply now c.toFollowUp
      nextAttemptAt := u.nextAttemptAt now
      claimToken := none }

def throttle (p providerId until_ : Nat) : State :=
  { s with processes := fun q =>
      if q = p then
        { s.processes q with throttledUntil := Assoc.set (s.processes q).throttledUntil providerId until_ }
      else s.processes q }

/-- Graph's throttling holds back the directory's checks for as long as Graph asks. -/
def throttleWhere (p providerId clock : Nat) : Option Thrown → State
  | some (.throttled retryAfterSeconds) => s.throttle p providerId (clock +
      Texts.throttledMs retryAfterSeconds)
  | _ => s

/-- The look's answers are in, and it writes what it made of them. -/
def record (t : Texts) (p : Nat) (a : Answers) (clock : Nat) : Option State :=
  match (s.processes p).stage with
  | .checking on token claimed now =>
    let looked := t.look claimed.check.toFollowUp claimed.groups now a
    some
      (((s.throttleWhere p claimed.providerId clock looked.2).update claimed.check.rowId token
      now looked.1).setStage p (.claiming on))
  | _ => none

end State

/-- What happens, in any order: the clock goes on, imports are stored, run and
deleted, and any number of processes each make their sweep's next statement,
find none is due, meet an error, or die. -/
inductive Action
  | tick (ms : Nat)
  | store (cached : List CachedLicensedGroup) (providerId : Nat) (groupIds : List (List String))
  | rowRun (id : Nat) (status : BulkJobRowStatus) (targetId : Option String)
    (groups : Option (List GroupChange))
      (finishedAt : Option Nat)
  | rowDeleted (id : Nat)
  | beginSweep (p : Nat) (on : List Nat) (clock : Nat)
  | stopNext (p : Nat)
  | claimDue (p rowId clock : Nat)
  | load (p clock : Nat)
  | record (p : Nat) (a : Answers) (clock : Nat)
  | endSweep (p : Nat)
  | die (p : Nat)

def step (t : Texts) (s : State) : Action → Option State
  | .tick ms => some { s with now := s.now + ms }
  | .store cached providerId groupIds => some (s.store t cached providerId groupIds)
  | .rowRun id status targetId groups finishedAt =>
    some { s with rows := Table.update (fun r => r.id = id) (fun r =>
      { r with status, targetId, groups, finishedAt }) s.rows }
  | .rowDeleted id =>
    some { s with
      rows := Table.delete (fun r => r.id = id) s.rows
      checks := Table.delete (fun c => c.rowId = id) s.checks }
  | .beginSweep p on clock => s.beginSweep p on clock
  | .stopNext p => s.stopNext t p
  | .claimDue p rowId clock => s.claimDue p rowId clock
  | .load p clock => s.load p clock
  | .record p a clock => s.record t p a clock
  | .endSweep p => some (s.setStage p .idle)
  | .die p => some { s with processes := fun q => if q = p then ⟨.idle, []⟩ else s.processes q }

def State.start : State where
  now := 0
  nextRow := 0
  nextToken := 0
  rows := []
  checks := []
  processes := fun _ => ⟨.idle, []⟩

def licenseChecks (t : Texts) : Transition.System State Action where
  init s := s = State.start
  step := step t

end OpenAduc.LicenseChecks
