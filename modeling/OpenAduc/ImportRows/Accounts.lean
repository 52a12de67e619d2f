import OpenAduc.ImportRows.Rows

namespace OpenAduc.ImportRows
open BulkJobs (RowOutcome)
open UserCreation (UserCreateStep)

/-- What stays as it is: how the code lowers text, and how the database does, when the row's job
was made, and when each account was, by its GUID. -/
structure Setting where
  lower : Lower
  databaseLower : Lower
  jobCreatedAt : Int
  whenCreated : String → Option String

/-- The event of a create that got as far as creating. -/
structure CreateRecord where
  targetId : Option String
  targetDn : String
  completed : List UserCreateStep
  deriving DecidableEq

def AuditEvent.createRecord (event : AuditEvent) : Option CreateRecord :=
  match event.action, event.after with
  | .userCreate, some (.steps _ _ _ _ completed _ _) =>
    if .create ∈ completed then
      some { targetId := event.targetId, targetDn := event.targetDn, completed } else none
  | _, _ => none

/-- The row as stored, the directory's accounts and the row's create events, with what has been. -/
structure World where
  row : Row
  accounts : List DirectoryUser
  events : List CreateRecord
  /-- The accounts created for the row, by GUID, those gone since too. -/
  made : List String
  /-- The DNs they have had. -/
  places : List String
  /-- The account steps a run recorded as done, in the row or in the create's event. -/
  recorded : List UserCreateStep
  /-- The steps the row has stored as done. -/
  stored : List ImportStep

/-- The event is read as it was recorded, where there is one. -/
def reads : Option CreateRecord → Option CreateEvent → Bool
  | none, none => true
  | some r, some found =>
    decide (found.targetId = r.targetId) && decide (found.targetDn = some r.targetDn) &&
      decide (found.completed = some (r.completed.map accountStep))
  | _, _ => false

def Identifier.names (lower : Lower) : Identifier → DirectoryUser → Bool
  | .objectGuid value, u => u.objectGuid = value
  | .distinguishedName value, u => lower u.distinguishedName = lower value
  | .samAccountName value, u => same lower u.samAccountName value

/-- It has one of these names. -/
def DirectoryUser.named (lower : Lower) (dn sam upn : String) (u : DirectoryUser) : Bool :=
  decide (lower u.distinguishedName = lower dn) || same lower u.samAccountName sam ||
    same lower u.userPrincipalName upn

namespace World
variable (set : Setting) (w : World)

/-- No other account has a name of this one's. -/
def free (u : DirectoryUser) : Bool :=
  w.accounts.all fun v => decide (v.objectGuid = u.objectGuid) || !(
    decide (set.lower v.distinguishedName = set.lower u.distinguishedName) ||
      u.samAccountName.any (same set.lower v.samAccountName ·) ||
        u.userPrincipalName.any (same set.lower v.userPrincipalName ·))

/-- No account has the GUID. -/
def absent (guid : String) : Bool := w.accounts.all fun v => decide (v.objectGuid ≠ guid)

/-- A GUID no account of the row's has had, nor anyone else's has. -/
def fresh (guid : String) : Bool := decide (guid ∉ w.made) && w.absent guid

/-- The account a create makes: with the names it writes, where the directory has none of them. -/
def admits (input : UserCreateInput) (u : DirectoryUser) : Bool :=
  decide (u.distinguishedName = input.dn) && decide (u.samAccountName = some input.samAccountName) &&
    decide (u.userPrincipalName = some input.userPrincipalName) && w.fresh u.objectGuid && w.free set u

def makes (u : DirectoryUser) : World :=
  { w with accounts := w.accounts ++ [u], made := w.made ++ [u.objectGuid], places :=
    w.places ++ [u.distinguishedName] }

def notes (event : AuditEvent) : World :=
  match event.createRecord with
  | some create => { w with events := w.events ++ [create], recorded := w.recorded ++ create.completed }
  | none => w

/-- What a create that says it created an account says of it. One whose add the directory failed
says nothing of the account, also where the add had landed. -/
def tells (result : UserCreateResult) (u : DirectoryUser) : Bool :=
  decide (.create ∉ result.completed) ||
    result.user.all (fun v => decide (v.objectGuid = u.objectGuid) &&
      decide (v.distinguishedName = u.distinguishedName)) &&
      result.fingerprint.all fun f => decide (f.objectGuid = u.objectGuid)

/-- The event a later run finds: the last of the name asked for. -/
def lastCreate (dn : String) : Option CreateRecord :=
  (w.events.filter fun e => set.databaseLower e.targetDn = dn).getLast?

/-- Whether an answer is true of the world: what is read is there; it may also not be found, or the
read fail. -/
def backs : (q : Question) → Except Thrown q.Answer → Bool
  | .job, .ok job => job.createdAt = set.jobCreatedAt
  | .createEvent dn, .ok found => reads (w.lastCreate set dn) found
  | .getUser identifier, .ok (some u) => decide (u ∈ w.accounts) && Identifier.names set.lower identifier u
  | .getAccountFingerprint identifier, .ok (some f) =>
    w.accounts.any fun u => Identifier.names set.lower identifier u && decide (f.objectGuid = u.objectGuid) &&
      decide (f.whenCreated = set.whenCreated u.objectGuid)
  | _, _ => true

/-- The world once a question is answered. A create that throws, or returns a failure, may have
made the account, and an event whose recording fails may have been stored. -/
def answered : (q : Question) → Except Thrown q.Answer → Option DirectoryUser → Bool → Option World
  | .createUser input _ _ _, .ok result, some u, _ =>
      if w.admits set input u ∧ tells result u then some (w.makes u) else none
  | .createUser _ _ _ _, .ok result, none, _ => if .create ∈ result.completed then none else some w
  | .createUser input _ _ _, .error _, some u, _ => if w.admits set input u then some (w.makes u) else none
  | .recordEvent event, .ok _, _, _ => some (w.notes event)
  | .recordEvent event, .error _, _, stored => some (if stored then w.notes event else w)
  | q, x, _, _ => if w.backs set q x then some w else none

end World

/-- An account someone else creates or restores, changes or deletes. A step of the row's own
changes none of its names. -/
inductive Change
  | appears (u : DirectoryUser)
  | changes (u : DirectoryUser)
  | goes (guid : String)

def World.changed (set : Setting) (w : World) : Change → Option World
  | .appears u =>
    if w.absent u.objectGuid ∧ w.free set u then
      some { w with
        accounts := w.accounts ++ [u]
        places := if u.objectGuid ∈ w.made then w.places ++ [u.distinguishedName] else w.places }
    else none
  | .changes u =>
    if (w.accounts.any fun v => v.objectGuid = u.objectGuid) ∧ w.free set u then
      some { w with
        accounts := w.accounts.map fun v => if v.objectGuid = u.objectGuid then u else v
        places := if u.objectGuid ∈ w.made then w.places ++ [u.distinguishedName] else w.places }
    else none
  | .goes guid => some { w with accounts := w.accounts.filter fun v => v.objectGuid ≠ guid }

/-- The steps a run's result stores as done. -/
def completedOf (result : Except Thrown (RowOutcome ImportRowProgress)) : List ImportStep :=
  match result with
  | .ok outcome => (outcome.after.map (·.completed)).getD []
  | .error _ => []

def World.records (w : World) (result : Except Thrown (RowOutcome ImportRowProgress)) : World :=
  { w with
    row := w.row.recorded result
    recorded := w.recorded ++ (completedOf result).filterMap isAccountStep
    stored := w.stored ++ completedOf result }

structure RunState where
  world : World
  running : Option (Asking (RowOutcome ImportRowProgress))

inductive RunAction
  | start (correlationId : Option String)
  /-- The question is answered; `made` is the account a create made, `stored` whether an event was
  whose recording failed. -/
  | answer (answers : ∀ q : Question, Except Thrown q.Answer) (made : Option DirectoryUser) (stored : Bool)
  /-- The process stops, or the row's recording fails; a question under way may still be done. -/
  | stop (made : Option DirectoryUser) (stored : Bool)
  | record
  | change (c : Change)

def stopped : Thrown := .other "stopped" false

def RunState.step (set : Setting) (s : RunState) : RunAction → Option RunState
  | .start correlationId =>
    if s.running.isSome then none
    else
      let row := { s.world.row with attempts := s.world.row.attempts + 1 }
      some { world :=
        { s.world with row := row }, running := some (runImportRow set.lower row correlationId) }
  | .answer answers made stored =>
    match s.running with
    | some (.ask q next) => (s.world.answered set q (answers q) made stored).map fun w =>
      { world := w, running := some (next (answers q)) }
    | _ => none
  | .stop made stored =>
    match s.running with
    | some (.ask q _) => (s.world.answered set q (.error stopped) made stored).map fun w =>
      { world := w, running := none }
    | some (.done _) => some { s with running := none }
    | none => none
  | .record =>
    match s.running with
    | some (.done result) => some { world := s.world.records result, running := none }
    | _ => none
  | .change c => (s.world.changed set c).map fun w => { s with world := w }

/-- Every order of one row's runs, answers and stops, and of others' changes, in a directory of
any accounts. -/
def accountRuns (set : Setting) (id : Nat) (input : RowInput) : Transition.System RunState RunAction where
  init s := ∃ accounts, s = {
    world := {
      row := { id, attempts := 0, input, after := none }
      accounts
      events := []
      made := []
      places := []
      recorded := []
      stored := [] }
    running := none }
  step := RunState.step set

end OpenAduc.ImportRows
