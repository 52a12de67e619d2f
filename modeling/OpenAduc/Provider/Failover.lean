import OpenAduc.Lib.Attempt
import OpenAduc.Naming.Text

namespace OpenAduc.Provider.Failover
open Naming (Text text join trim unit)

/-- What is thrown. -/
inductive Thrown
  /-- An LDAP result other than success. -/
  | result (code : Nat) (name message : Text)
  /-- Several errors at once, one for each address tried. -/
  | aggregate (code : Option Text) (message : Text) (errors : List Thrown)
  /-- Any other `Error`, with Node's code where it has one. -/
  | error (code : Option Text) (name message : Text)
  | stepUpBindFailed
  | directoryUnavailable (message : Text)
  /-- A value that is no `Error`, as `String` shows it. -/
  | other (shown : Text)

def BUSY : Nat := 51

def UNAVAILABLE : Nat := 52

def INVALID_CREDENTIALS : Nat := 49

def NETWORK_ERROR_CODES : List Text :=
  ["ECONNREFUSED", "ECONNRESET", "ECONNABORTED", "ETIMEDOUT", "EHOSTUNREACH", "ENETUNREACH",
    "ENOTFOUND", "EAI_AGAIN",
    "EPIPE"].map text

/-- How the codes of certificate failures start. -/
def CERT_ERROR_CODES : List Text :=
  ["ERR_TLS_", "ERR_SSL_", "UNABLE_TO_", "DEPTH_ZERO_", "SELF_SIGNED_", "CERT_"].map text

/-- ldapts's own timeouts and dropped connections are plain errors. -/
def isConnectionMessage (message : Text) : Bool :=
  message = text "Connection timeout" || (text "Operation timed out").isSuffixOf message ||
    (text "Connection closed before message response").isPrefixOf message

def isConnectionCode (code : Text) : Bool :=
  NETWORK_ERROR_CODES.contains code || CERT_ERROR_CODES.any (·.isPrefixOf code)

mutual

/-- The server couldn't be reached or talked to, so another one may still work. -/
def isDirectoryUnreachable : Thrown → Bool
  | .result code _ _ => code = BUSY || code = UNAVAILABLE
  | .aggregate _ _ errors => someUnreachable errors
  | .error code _ message => code.any isConnectionCode || isConnectionMessage message
  | .stepUpBindFailed => false
  | .directoryUnavailable message => isConnectionMessage message
  | .other _ => false

def someUnreachable : List Thrown → Bool
  | [] => false
  | err :: errors => isDirectoryUnreachable err || someUnreachable errors

end

def Thrown.message : Thrown → Text
  | .result _ _ message | .aggregate _ message _ | .error _ _ message | .directoryUnavailable
      message => message
  | .stepUpBindFailed => text "step-up bind failed"
  | .other _ => []

def Thrown.name : Thrown → Text
  | .result _ name _ | .error _ name _ => name
  | .aggregate .. => text "AggregateError"
  | .directoryUnavailable _ => text "DirectoryUnavailableError"
  | .stepUpBindFailed => text "StepUpBindFailedError"
  | .other _ => []

/-- The first of some texts that isn't empty; the last one when all are. -/
def firstShown : List Text → Text
  | [] => []
  | [last] => last
  | shown :: rest => if shown = [] then firstShown rest else shown

def describeConnectionError (err : Thrown) : Text :=
  match err with
  | .other shown => shown
  | .aggregate code message errors =>
    firstShown [message, (errors.head?.map Thrown.message).getD [], code.getD [], err.name]
  | .error code name message => firstShown [message, code.getD [], name]
  | _ => firstShown [err.message, err.name]

inductive TlsMode
  | ldaps
  | starttls
  deriving DecidableEq

inductive Scheme
  | ldap
  | ldaps
  deriving DecidableEq

/-- A configured server, with the error each call to it ends in during one attempt, if any. -/
structure Server where
  url : Text
  scheme : Option Scheme
  /-- Building the client, whose TLS options read a file. -/
  createClient : Option Thrown
  connect : Option Thrown
  startTLS : Option Thrown
  bind : Option Thrown

inductive Transport
  | tls
  | starttls
  deriving DecidableEq

def transportFor (mode : TlsMode) (s : Server) : Transport :=
  if mode = .starttls ∧ s.scheme = some .ldap then .starttls else .tls

/-- What a server is asked. -/
inductive Event
  | tried (s : Server)
  /-- The credentials sent, and the error they were answered with. -/
  | presented (s : Server) (answer : Option Thrown)
  /-- The operation's own calls, on a bound connection. -/
  | ran (s : Server)

abbrev Ldap (α : Type) := Attempt Thrown (List Event) α

def record (e : Event) : Ldap Unit := modify (· ++ [e])

def createClient (s : Server) : Ldap Unit := Attempt.call s.createClient (record (.tried s))

def startTLS (s : Server) : Ldap Unit := do
  Attempt.call s.connect (pure ())
  Attempt.call s.startTLS (pure ())

/-- A connection that is TLS from its first byte is made here. -/
def bind (mode : TlsMode) (s : Server) : Ldap Unit := do
  if transportFor mode s = .tls then Attempt.call s.connect (pure ())
  record (.presented s s.bind)
  Attempt.call s.bind (pure ())

section
variable (mode : TlsMode)

/-- The error after every server failed: by the last one's. -/
def failure (failures : List (Server × Thrown)) : Thrown :=
  match failures.getLast? with
  | none => .error none (text "Error") (text "LDAP operation failed against all configured URLs")
  | some (_, last) =>
    if isDirectoryUnreachable last then
      .directoryUnavailable (text "no domain controller reachable: " ++
        join (text "; ") (failures.map fun f => f.1.url ++ text ": " ++ describeConnectionError f.2))
    else
      match last with
      | .other _ => .error none (text "Error") (text "LDAP operation failed against all configured URLs")
      | last => last

/-- One server: in StartTLS mode the connection is upgraded first. -/
def attempt {α : Type} (fn : Server → Ldap α) (s : Server) : Ldap α := do
  if transportFor mode s = .starttls then startTLS s
  fn s

/-- The servers still to try, after these failures. -/
def failover {α : Type} (fn : Server → Ldap α) : List (Server × Thrown) → List Server → Ldap α
  | failures, [] => throw (failure failures)
  | failures, s :: rest => do
    createClient s
    tryCatch (attempt mode fn s) fun err => failover fn (failures ++ [(s, err)]) rest

/-- Each configured server until one succeeds. -/
def withFailover {α : Type} (ldapUrls : List Server) (fn : Server → Ldap α) : Ldap α :=
  failover mode fn [] ldapUrls

inductive Reason
  | permissionDenied
  | directoryError
  deriving DecidableEq

/-- A write's own result, or why it was not begun. -/
inductive Written (τ : Type)
  | returned (result : τ)
  | failed (reason : Reason) (errorMessage : Text)

/-- A body that returns its failures, as the writes' do. -/
def writeOn {τ : Type} (body : Server → τ) (s : Server) : Ldap (Written τ) := do
  let refused ← tryCatch (do bind mode s; return false) fun err =>
    if isDirectoryUnreachable err then throw err else return true
  if refused then return .failed .permissionDenied (text "step-up bind failed")
  record (.ran s)
  return .returned (body s)

def asOperator {τ : Type} (ldapUrls : List Server) (body : Server → τ) : Ldap (Written τ) :=
  tryCatch (withFailover mode ldapUrls (writeOn mode body)) fun err =>
    match err with
    | .directoryUnavailable message => return .failed .directoryError message
    | err => throw err

/-- A body whose errors go on to the next server. -/
def readAsOperator {α : Type} (body : Server → Except Thrown α) (s : Server) : Ldap α := do
  tryCatch (bind mode s) fun err => if isDirectoryUnreachable err then throw err else throw .stepUpBindFailed
  record (.ran s)
  liftM (body s)

def _withOperatorBind {α : Type} (ldapUrls : List Server) (body : Server → Except Thrown α) : Ldap α :=
  withFailover mode ldapUrls (readAsOperator mode body)

def readAsService {α : Type} (body : Server → Except Thrown α) (s : Server) : Ldap α := do
  bind mode s
  record (.ran s)
  liftM (body s)

def withServiceBind {α : Type} (ldapUrls : List Server) (body : Server → Except Thrown α) : Ldap α :=
  withFailover mode ldapUrls (readAsService mode body)

/-- The user signing in, as the directory has them. -/
structure Account where
  enabled : Bool

inductive AuthResult
  | ok (user : Account)
  | missingCredentials
  /-- The bind's own error, by its code. -/
  | refused (err : Thrown)
  | notFound
  | disabled
  | directoryError (errorMessage : Text)

/-- What a signed-in user is looked for by. -/
inductive Filter
  | userPrincipalName (value : Text)
  | sAMAccountName (value : Text)

def AT_SIGN : UInt16 := 0x40

def candidates (username : Text) : List Filter :=
  if AT_SIGN ∈ username ∧ unit '=' ∉ username then
    .userPrincipalName username ::
      (if username.takeWhile (· ≠ AT_SIGN) = [] then []
        else [.sAMAccountName (username.takeWhile (· ≠ AT_SIGN))])
  else [.sAMAccountName username]

/-- The first filter that finds a user. -/
def searchUser (search : Filter → Except Thrown (Option Account)) :
    List Filter → Except Thrown (Option Account)
  | [] => .ok none
  | filter :: rest => do
    match ← search filter with
    | some user => return some user
    | none => searchUser search rest

def lookUp (search : Filter → Except Thrown (Option Account)) (username : Text) :
    Except Thrown AuthResult := do
  match ← searchUser search (candidates username) with
  | none => return .notFound
  | some user => return if user.enabled then .ok user else .disabled

/-- What is answered when no server was of use. -/
def unreachableMessage (certificateProblem : Thrown → Option Text) (err : Thrown) : Text :=
  (certificateProblem err).getD (text "cannot reach directory: " ++ describeConnectionError err)

/-- A sign-in on one server. The unbind that ends the look-up may throw too. -/
def signIn (search : Server → Filter → Except Thrown (Option Account))
    (unbind : Server → Option Thrown) (username : Text)
    (s : Server) : Ldap AuthResult := do
  let refused ← tryCatch (do bind mode s; return none) fun err =>
    if isDirectoryUnreachable err then throw err else return some err
  match refused with
  | some err => return .refused err
  | none =>
    record (.ran s)
    let result := lookUp (search s) username
    Attempt.call (unbind s) (pure ())
    liftM result

def authenticateUser (certificateProblem : Thrown → Option Text) (ldapUrls : List Server)
    (search : Server → Filter → Except Thrown (Option Account)) (unbind : Server → Option Thrown)
    (username password : Text) :
    Ldap AuthResult :=
  if trim username = [] ∨ password = [] then return .missingCredentials
  else
    tryCatch (withFailover mode ldapUrls (signIn mode search unbind (trim username))) fun err =>
      return .directoryError (unreachableMessage certificateProblem err)

end

section
variable {mode : TlsMode} {s : Server} {t : List Event} {α τ : Type}

/-- An encrypted connection is made. -/
def Connected (mode : TlsMode) (s : Server) : Prop :=
  s.connect = none ∧ (transportFor mode s = .starttls → s.startTLS = none)

instance (mode : TlsMode) (s : Server) : Decidable (Connected mode s) :=
  inferInstanceAs (Decidable (s.connect = none ∧ (transportFor mode s = .starttls → s.startTLS = none)))

/-- What a server is asked on a connection: the bind, and where that succeeds the operation's calls. -/
def events (mode : TlsMode) (s : Server) : List Event :=
  if Connected mode s then .presented s s.bind :: (if s.bind.isNone then [.ran s] else []) else []

/-- The error of the upgrade, where there is one. -/
def upgradeError (mode : TlsMode) (s : Server) : Option Thrown :=
  if transportFor mode s = .starttls then s.connect.or s.startTLS else none

/-- The error of the bind, which makes a connection that is TLS from its first byte. -/
def bindError (mode : TlsMode) (s : Server) : Option Thrown :=
  (if transportFor mode s = .tls then s.connect else none).or s.bind

@[simp] theorem exec_record (e : Event) : Attempt.exec (record e) t = (.ok (), t ++ [e]) := rfl

/-- An operation on a server is its own, behind the upgrade to TLS. -/
theorem exec_attempt (fn : Server → Ldap α) : Attempt.exec (attempt mode fn s) t =
    match upgradeError mode s with
    | some err => (.error err, t)
    | none => Attempt.exec (fn s) t := by
  unfold attempt upgradeError
  by_cases upgraded : transportFor mode s = .starttls
  · rw [if_pos upgraded, if_pos upgraded, Attempt.exec_bind, startTLS, Attempt.exec_bind]
    cases s.connect with
    | some err => rfl
    | none =>
      cases s.startTLS with
      | some err => rfl
      | none => rfl
  · rw [if_neg upgraded, if_neg upgraded]

/-- A bind presents the credentials, but on a connection that never came about. -/
theorem exec_bindServer : Attempt.exec (bind mode s) t =
    ((match bindError mode s with
      | some err => .error err
      | none => .ok ()),
      if transportFor mode s = .tls ∧ s.connect.isSome then t else t ++ [.presented s s.bind]) := by
  unfold bind bindError
  by_cases direct : transportFor mode s = .tls
  · rw [if_pos direct, if_pos direct, Attempt.exec_bind]
    cases made : s.connect with
    | some err => simp [direct]
    | none =>
      simp only [Attempt.call_none, Attempt.exec_bind, exec_record]
      cases s.bind with
      | some err => simp
      | none => simp
  · rw [if_neg direct, if_neg direct]
    simp only [Attempt.exec_bind, exec_record]
    cases s.bind with
    | some err => simp [direct]
    | none => simp [direct]

/-- What one server's attempt comes to: the upgrade's error, what is made of the bind's, or what is served. -/
def answer (mode : TlsMode) (refused : Thrown → Except Thrown α) (served : Except Thrown α)
    (s : Server) : Except Thrown α :=
  match upgradeError mode s with
  | some err => .error err
  | none =>
    match bindError mode s with
    | some err => refused err
    | none => served

/-- An operation that binds first is refused with the bind, or served. -/
theorem exec_attempt_bound {fn : Server → Ldap α} {refused : Thrown → Except Thrown α}
    {served : Except Thrown α}
    (runs : ∀ t, Attempt.exec (fn s) t =
      match Attempt.exec (bind mode s) t with
      | (.error err, t) => (refused err, t)
      | (.ok (), t) => (served, t ++ [.ran s])) :
    Attempt.exec (attempt mode fn s) t = (answer mode refused served s, t ++ events mode s) := by
  rw [exec_attempt, runs, exec_bindServer]
  unfold answer upgradeError bindError events Connected
  by_cases upgraded : transportFor mode s = .starttls
  · obtain made | ⟨err, made⟩ := s.connect.eq_none_or_eq_some
    · obtain tls | ⟨err, tls⟩ := s.startTLS.eq_none_or_eq_some
      · cases bound : s.bind <;> simp [upgraded, made, tls]
      · simp [upgraded, made, tls]
    · simp [upgraded, made]
  · have direct : transportFor mode s = .tls := by
      cases kind : transportFor mode s with
      | tls => rfl
      | starttls => exact absurd kind upgraded
    obtain made | ⟨err, made⟩ := s.connect.eq_none_or_eq_some
    · cases bound : s.bind <;> simp [direct, made]
    · simp [direct, made]

end

section
variable {mode : TlsMode} {α : Type} {answers : Server → Except Thrown α}

/-- The servers that are tried: up to the first that answers, or whose client can't be made. -/
def walked (answers : Server → Except Thrown α) : List Server → List Server
  | [] => []
  | s :: rest =>
    if s.createClient.isSome then []
    else s :: match answers s with
      | .ok _ => []
      | .error _ => walked answers rest

def trail (mode : TlsMode) (walk : List Server) : List Event :=
  walk.flatMap fun s => .tried s :: events mode s

/-- What the walk comes to after some failures. -/
def outcome (answers : Server → Except Thrown α) : List (Server × Thrown) → List Server → Except Thrown α
  | failures, [] => .error (failure failures)
  | failures, s :: rest =>
    match s.createClient with
    | some err => .error err
    | none =>
      match answers s with
      | .ok a => .ok a
      | .error err => outcome answers (failures ++ [(s, err)]) rest

/-- The walk answers as the first server that answers, else with the failures of them all. -/
theorem exec_failover {fn : Server → Ldap α}
    (runs : ∀ s t, Attempt.exec (attempt mode fn s) t = (answers s, t ++ events mode s))
    (failures : List (Server × Thrown))
    (servers : List Server) (t : List Event) :
    Attempt.exec (failover mode fn failures servers) t =
      (outcome answers failures servers, t ++ trail mode (walked answers servers)) := by
  induction servers generalizing failures t with
  | nil => simp [failover, outcome, walked, trail]
  | cons s rest next =>
    rw [failover, createClient, Attempt.exec_bind]
    unfold outcome walked
    cases s.createClient with
    | some err => simp [trail]
    | none =>
      simp only [Attempt.call_none, exec_record, Attempt.exec_tryCatch, runs]
      cases answers s with
      | ok a => simp [trail]
      | error err => simp [next, trail]

/-- Only a server whose attempt failed is followed by another. -/
theorem walked_pairwise (answers : Server → Except Thrown α) (servers : List Server) :
    (walked answers servers).Pairwise fun s _ => ∃ err, answers s = .error err := by
  induction servers with
  | nil => exact .nil
  | cons s rest next =>
    unfold walked
    split
    · exact .nil
    · cases came : answers s with
      | ok a => exact List.pairwise_singleton _ _
      | error err => exact .cons (fun _ _ => ⟨err, came⟩) next

/-- No server answered where the walk ends in an error. -/
theorem failed_of_outcome {servers : List Server} {failures : List (Server × Thrown)} {err : Thrown}
    (ended : outcome answers failures servers = .error err) {s : Server}
    (tried : s ∈ walked answers servers) :
    ∃ err, answers s = .error err := by
  induction servers generalizing failures with
  | nil => exact absurd tried List.not_mem_nil
  | cons first rest next =>
    unfold outcome at ended
    unfold walked at tried
    cases made : first.createClient with
    | some fault => simp [made] at tried
    | none =>
      simp only [made] at ended tried
      cases came : answers first with
      | ok a => rw [came] at ended; cases ended
      | error fault =>
        rw [came] at ended tried
        rcases List.mem_cons.mp tried with rfl | later
        · exact ⟨fault, came⟩
        · exact next ended later

/-- An answer of the walk is one of a server's. -/
theorem served_of_outcome {servers : List Server} {failures : List (Server × Thrown)} {a : α}
    (ended : outcome answers failures servers = .ok a) : ∃ s, answers s = .ok a := by
  induction servers generalizing failures with
  | nil => cases ended
  | cons first rest next =>
    unfold outcome at ended
    cases made : first.createClient with
    | some fault => rw [made] at ended; cases ended
    | none =>
      simp only [made] at ended
      cases came : answers first with
      | ok b =>
        rw [came] at ended
        exact ⟨first, came.trans ended⟩
      | error fault =>
        rw [came] at ended
        exact next ended

end

end OpenAduc.Provider.Failover
