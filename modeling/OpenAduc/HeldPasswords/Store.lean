import OpenAduc.Lib.Assoc
import OpenAduc.Lib.Transition
import OpenAduc.Secrets.Envelope

namespace OpenAduc.HeldPasswords
open Naming (Text text unit decimal)
open Secrets (Gcm Key Iv encrypt decrypt)

def HELD_PASSWORD_HOURS : Int := 24

/-- `HELD_FOR`, in milliseconds. -/
def heldUntil (now : Int) : Int := now + HELD_PASSWORD_HOURS * 3600000

/-- What a ciphertext is bound to. -/
def bindingOf (jobId : Nat) (rowId : Option Nat) : Text :=
  text "import_passwords:" ++ decimal jobId ++ unit ':' :: (rowId.map decimal).getD (text "shared")

/-- A record of `import_passwords`; with no row, the password every row of the job gets. -/
structure HeldPassword where
  jobId : Nat
  rowId : Option Nat
  passwordEnc : Text
  expiresAt : Int

/-- A record of `bulk_jobs`. -/
structure Job where
  id : Nat
  resultsDownloadedAt : Option Int

/-- A record of `bulk_job_rows`. -/
structure Row where
  id : Nat
  jobId : Nat

structure TakenPasswords where
  shared : Option Text
  byRow : List (Nat × Text)

/-- What a row's run reads of its password. -/
structure Reading where
  jobId : Nat
  rowId : Nat
  gave : Except Text (Option Text)

/-- A download that got past its checks: what it hands out, or why it fails. -/
structure Download where
  jobId : Nat
  gave : Except Text TakenPasswords

/-- A password held, and for which row of which job. -/
structure Holding where
  jobId : Nat
  rowId : Option Nat
  password : Text

/-- The tables and the database's clock; and, for what is said of them, every password ever held,
every envelope the app has made and what it is bound to, what was read and what was handed out. -/
structure State where
  now : Int
  nextJob : Nat
  nextRow : Nat
  jobs : List Job
  rows : List Row
  held : List HeldPassword
  holdings : List Holding
  envelopes : List (Option Text × Text)
  readings : List Reading
  downloads : List Download

/-- The records `ON CONFLICT` takes for the password's own: a row's by the row alone. -/
def Conflicts (jobId : Nat) (rowId : Option Nat) (h : HeldPassword) : Prop :=
  h.rowId = rowId ∧ (rowId = none → h.jobId = jobId)

instance (jobId : Nat) (rowId : Option Nat) (h : HeldPassword) : Decidable (Conflicts jobId rowId h) :=
  inferInstanceAs (Decidable (_ ∧ _))

/-- The records that may give a row's password. -/
def Serves (jobId rowId : Nat) (now : Int) (h : HeldPassword) : Prop :=
  h.jobId = jobId ∧ (h.rowId = some rowId ∨ h.rowId = none) ∧ now < h.expiresAt

instance (jobId rowId : Nat) (now : Int) (h : HeldPassword) : Decidable (Serves jobId rowId now h) :=
  inferInstanceAs (Decidable (_ ∧ _))

section
variable (aes : Key → Gcm) (key : Key)

/-- Hold a password, replacing any held before. -/
def holdPassword (s : State) (jobId : Nat) (rowId : Option Nat) (password : Text) (iv : Iv) : State :=
  let passwordEnc := encrypt aes key iv password (some (bindingOf jobId rowId))
  let expiresAt := heldUntil s.now
  { s with
    held :=
      if s.held.any (Conflicts jobId rowId ·) then
        Table.update (Conflicts jobId rowId) (fun h => { h with passwordEnc, expiresAt }) s.held
      else s.held ++ [{ jobId, rowId, passwordEnc, expiresAt }]
    holdings := s.holdings ++ [{ jobId, rowId, password := Utf8.decode (Utf8.encode password) }]
    envelopes := s.envelopes ++ [(some (bindingOf jobId rowId), passwordEnc)] }

/-- The password held for the row, else the job's one for every row, while unexpired. -/
def heldPassword (s : State) (jobId rowId : Nat) : Except Text (Option Text) :=
  let held := s.held.filter (Serves jobId rowId s.now ·)
  match (held.find? (·.rowId.isSome)).or held.head? with
  | none => .ok none
  | some own => (decrypt aes key own.passwordEnc (some (bindingOf jobId own.rowId))).map some

/-- Hold the job's passwords from now: it has just finished. -/
def holdFromNow (s : State) (jobId : Nat) : State :=
  { s with
    held := Table.update (fun h => h.jobId = jobId ∧ s.now < h.expiresAt)
      (fun h => { h with expiresAt := heldUntil s.now }) s.held }

def TakenPasswords.put (taken : TakenPasswords) (password : Text) : Option Nat → TakenPasswords
  | none => { taken with shared := some password }
  | some rowId => { taken with byRow := Assoc.set taken.byRow rowId password }

/-- One deleted record, by the API's own clock. -/
def takeOne (jobId : Nat) (now : Int) (taken : TakenPasswords) (h : HeldPassword) :
    Except Text TakenPasswords :=
  if h.expiresAt ≤ now then .ok taken
  else (decrypt aes key h.passwordEnc (some (bindingOf jobId h.rowId))).map (taken.put · h.rowId)

/-- What `takePasswords` returns of the records it deleted. -/
def takeAll (jobId : Nat) (now : Int) (held : List HeldPassword) : Except Text TakenPasswords :=
  held.foldlM (takeOne aes key jobId now) { shared := none, byRow := [] }

/-- `takePasswords` in the transaction that audits the download: it marks the job, deletes its
passwords and hands them out, or leaves everything as it was. Nothing where they were taken already.
-/
def takePasswords (s : State) (jobId : Nat) (now : Int) (audited : Bool) : Option State :=
  if s.jobs.any fun j => j.id = jobId ∧ j.resultsDownloadedAt = none then
    match takeAll aes key jobId now (s.held.filter (·.jobId = jobId)) with
    | .error e => some { s with downloads := s.downloads ++ [{ jobId, gave := .error e }] }
    | .ok taken =>
      if audited then
        some { s with
          jobs := Table.update (·.id = jobId) (fun j => { j with resultsDownloadedAt := some s.now }) s.jobs
          held := Table.delete (·.jobId = jobId) s.held
          downloads := s.downloads ++ [{ jobId, gave := .ok taken }] }
      else none
  else none

/-- Delete the passwords held past their time. -/
def purgeExpiredPasswords (s : State) : State := { s with held := Table.delete (·.expiresAt ≤ s.now) s.held }

/-- A job stored with its rows, and the one password its rows get, if any. -/
def insert (s : State) (rows : Nat) (secret : Option Text) (iv : Iv) : State :=
  let stored : State := { s with
    nextJob := s.nextJob + 1
    nextRow := s.nextRow + rows
    jobs := s.jobs ++ [{ id := s.nextJob, resultsDownloadedAt := none }]
    rows := s.rows ++ (List.range rows).map fun i => { id := s.nextRow + i, jobId := s.nextJob } }
  match secret with
  | none => stored
  | some password => holdPassword aes key stored s.nextJob none password iv

/-- A job deleted, with what refers to it. -/
def discard (s : State) (jobId : Nat) : State :=
  { s with
    jobs := Table.delete (·.id = jobId) s.jobs
    rows := Table.delete (·.jobId = jobId) s.rows
    held := Table.delete (·.jobId = jobId) s.held }

/-- What else the app encrypts: a class's passes by their job and row, and settings bound to nothing. -/
def otherBinding (pass : Option (Nat × Nat)) : Option Text :=
  pass.map fun (jobId, rowId) => text "class_passes:" ++ decimal jobId ++ unit ':' :: decimal rowId

inductive Action
  | tick (ms : Nat)
  | insert (rows : Nat) (secret : Option Text) (iv : Iv)
  | discard (jobId : Nat)
  /-- A row's run holds its password. -/
  | hold (jobId rowId : Nat) (password : Text) (iv : Iv)
  /-- A row's run reads its password. -/
  | read (jobId rowId : Nat)
  | finish (jobId : Nat)
  | purge
  | download (jobId : Nat) (now : Int) (audited : Bool)
  /-- Something else is encrypted. -/
  | encryptOther (secret : Text) (pass : Option (Nat × Nat)) (iv : Iv)
  /-- Someone with the database but no key writes over a ciphertext: with one the app has made, or
  one that opens nothing there. -/
  | tamper (jobId : Nat) (rowId : Option Nat) (passwordEnc : Text)

def isOk {ε α : Type} : Except ε α → Bool
  | .ok _ => true
  | .error _ => false

def State.step (s : State) : Action → Option State
  | .tick ms => some { s with now := s.now + ms }
  | .insert rows secret iv => some (insert aes key s rows secret iv)
  | .discard jobId => some (discard s jobId)
  | .hold jobId rowId password iv =>
    if s.rows.any fun r => r.id = rowId ∧ r.jobId = jobId then
      some (holdPassword aes key s jobId (some rowId) password iv) else none
  | .read jobId rowId =>
    some { s with readings := s.readings ++ [{ jobId, rowId, gave := heldPassword aes key s jobId rowId }] }
  | .finish jobId => some (holdFromNow s jobId)
  | .purge => some (purgeExpiredPasswords s)
  | .download jobId now audited => takePasswords aes key s jobId now audited
  | .encryptOther secret pass iv =>
    some { s with envelopes := s.envelopes ++
      [(otherBinding pass, encrypt aes key iv secret (otherBinding pass))] }
  | .tamper jobId rowId passwordEnc =>
    if passwordEnc ∈ s.envelopes.map Prod.snd ∨
      isOk (decrypt aes key passwordEnc (some (bindingOf jobId rowId))) = false then
      some { s with
        held := Table.update (fun h => h.jobId = jobId ∧ h.rowId = rowId)
          (fun h => { h with passwordEnc }) s.held }
    else none

/-- The tables from when they are made, whoever calls in whatever order. -/
def heldPasswords : Transition.System State Action where
  init s := s.jobs = [] ∧ s.rows = [] ∧ s.held = [] ∧ s.holdings = [] ∧ s.envelopes = [] ∧
    s.readings = [] ∧ s.downloads = []
  step s a := s.step aes key a

end
end OpenAduc.HeldPasswords
