import OpenAduc.Provider.Failover

namespace OpenAduc.Provider.Failover
open Naming (Text text trim)

def Refuses : Option Thrown → Prop
  | some (.result code _ _) => code = INVALID_CREDENTIALS
  | _ => False

/-- The credentials were answered with a refusal. -/
def Event.Refused : Event → Prop
  | .presented _ answer => Refuses answer
  | _ => False

def Event.Presents : Event → Prop
  | .presented _ _ => True
  | _ => False

def Event.runs : Event → Bool
  | .ran _ => true
  | _ => false

/-- Once one server refused the credentials, they go to no other. -/
def PresentsOnce (events : List Event) : Prop := events.Pairwise fun a b => a.Refused → ¬b.Presents

/-- No encrypted connection, or no answer to the bind but one that says to ask elsewhere. -/
def Unreached (mode : TlsMode) (s : Server) : Prop :=
  (upgradeError mode s).isSome ∨ ∃ err, bindError mode s = some err ∧ isDirectoryUnreachable err

structure WritesOnce {τ : Type} (mode : TlsMode) (result : Except Thrown (Written τ))
    (events : List Event) : Prop where
  atMostOne : (events.filter Event.runs).length ≤ 1
  /-- Nothing follows a body that ran. -/
  last : events.Pairwise fun a _ => a.runs = false
  movesOn : events.Pairwise fun a b => ∀ s t, a = .tried s → b = .tried t → Unreached mode s
  unreachable : ∀ message, result = .ok (.failed .directoryError message) → ∀ e ∈ events, e.runs = false

section
variable {mode : TlsMode} {α : Type} {answers : Server → Except Thrown α}

/-- The walk goes on from it. -/
def Passed (answers : Server → Except Thrown α) (s : Server) : Prop :=
  s.createClient = none ∧ ∃ err, answers s = .error err

/-- A server is tried where every one before it was passed. -/
theorem mem_walked {servers : List Server} {t : Server} :
    t ∈ walked answers servers ↔ ∃ before after, servers = before ++ t :: after ∧
      (∀ s ∈ before, Passed answers s) ∧ t.createClient = none := by
  induction servers with
  | nil => simp [walked]
  | cons first rest next =>
    unfold walked
    constructor
    · intro tried
      split at tried
      · exact absurd tried List.not_mem_nil
      next made =>
        have made : first.createClient = none := by simpa using made
        rcases List.mem_cons.mp tried with rfl | later
        · exact ⟨[], rest, rfl, by simp, made⟩
        · cases came : answers first with
          | ok a => rw [came] at later; exact absurd later List.not_mem_nil
          | error err =>
            rw [came] at later
            obtain ⟨before, after, rfl, passed, client⟩ := next.mp later
            refine ⟨first :: before, after, rfl, ?_, client⟩
            exact List.forall_mem_cons.mpr ⟨⟨made, err, came⟩, passed⟩
    · rintro ⟨before, after, same, passed, client⟩
      cases before with
      | nil =>
        obtain ⟨rfl, rfl⟩ := List.cons.inj same
        simp [client]
      | cons s before =>
        rw [List.cons_append] at same
        obtain ⟨rfl, rfl⟩ := List.cons.inj same
        obtain ⟨⟨made, err, came⟩, passed⟩ := List.forall_mem_cons.mp passed
        have later := next.mpr ⟨before, after, rfl, passed, client⟩
        simp [made, came, later]

/-- Two servers of a walk, the one before the other. -/
theorem walked_pairwise_iff {R : Server → Server → Prop} {servers : List Server} :
    (walked answers servers).Pairwise R ↔
      ∀ before s between t after, servers = before ++ s :: (between ++ t :: after) →
      (∀ x ∈ before ++ s :: between, Passed answers x) → t.createClient = none → R s t := by
  induction servers with
  | nil => simp [walked]
  | cons first rest next =>
    constructor
    · intro pairs before s between t after same passed client
      cases before with
      | nil =>
        obtain ⟨rfl, rfl⟩ := List.cons.inj same
        obtain ⟨⟨made, err, came⟩, between'⟩ := List.forall_mem_cons.mp passed
        have later : t ∈ walked answers (between ++ t :: after) :=
          mem_walked.mpr ⟨between, after, rfl, between', client⟩
        simp only [walked, made, came, Option.isSome_none, Bool.false_eq_true, if_false] at pairs
        exact (List.pairwise_cons.mp pairs).1 t later
      | cons x before =>
        obtain ⟨rfl, rfl⟩ := List.cons.inj same
        obtain ⟨⟨made, err, came⟩, passed⟩ := List.forall_mem_cons.mp passed
        simp only [walked, made, came, Option.isSome_none, Bool.false_eq_true, if_false] at pairs
        exact next.mp (List.pairwise_cons.mp pairs).2 before s between t after rfl passed client
    · intro holds
      unfold walked
      split
      · exact .nil
      next made =>
        have made : first.createClient = none := by simpa using made
        cases came : answers first with
        | ok a => exact List.pairwise_singleton _ _
        | error err =>
          refine .cons (fun t later => ?_) (next.mpr fun before s between t after same passed client => ?_)
          · obtain ⟨between, after, rfl, passed, client⟩ := mem_walked.mp later
            exact holds [] first between t after
              rfl (List.forall_mem_cons.mpr ⟨⟨made, err, came⟩, passed⟩) client
          · subst same
            exact holds (first :: before) s between t after rfl
              (List.forall_mem_cons.mpr ⟨⟨made, err, came⟩, passed⟩) client

/-- Refused credentials are presented once just where no server behind the one that refused is
connected to. -/
theorem presentsOnce_trail {walk : List Server} :
    PresentsOnce (trail mode walk) ↔
      walk.Pairwise fun s t => Connected mode s ∧ Refuses s.bind → ¬Connected mode t := by
  unfold PresentsOnce trail
  rw [List.pairwise_flatMap]
  have own (s : Server) : (Event.tried s :: events mode s).Pairwise fun a b => a.Refused → ¬b.Presents := by
    unfold events
    split
    · split <;> simp [Event.Refused, Event.Presents]
    · simp
  have across (s t : Server) : (∀ a ∈ Event.tried s :: events mode s, ∀ b ∈ Event.tried t :: events mode t,
      a.Refused → ¬b.Presents) ↔ (Connected mode s ∧ Refuses s.bind → ¬Connected mode t) := by
    unfold events
    by_cases left : Connected mode s
    · by_cases right : Connected mode t
      · by_cases l : s.bind.isNone <;> by_cases r : t.bind.isNone <;>
          simp [left, right, l, r, Event.Refused, Event.Presents]
      · by_cases l : s.bind.isNone <;> simp [left, right, l, Event.Refused, Event.Presents]
    · simp [left, Event.Refused]
  simp only [own, across, implies_true, true_and]

end

section
variable {mode : TlsMode} {s : Server} {t : List Event} {α τ : Type}

def writeRefused (err : Thrown) : Except Thrown (Written τ) :=
  if isDirectoryUnreachable err then .error err
    else .ok (.failed .permissionDenied (text "step-up bind failed"))

def signInRefused (err : Thrown) : Except Thrown AuthResult :=
  if isDirectoryUnreachable err then .error err else .ok (.refused err)

def readRefused (err : Thrown) : Except Thrown α :=
  .error (if isDirectoryUnreachable err then err else .stepUpBindFailed)

/-- A sign-in's look-up, and the unbind that ends it. -/
def signedIn (search : Server → Filter → Except Thrown (Option Account))
    (unbind : Server → Option Thrown) (username : Text)
    (s : Server) : Except Thrown AuthResult :=
  match unbind s with
  | some err => .error err
  | none => lookUp (search s) username

theorem exec_writeOn (body : Server → τ) : Attempt.exec (writeOn mode body s) t =
    match Attempt.exec (bind mode s) t with
    | (.error err, t) => (writeRefused err, t)
    | (.ok (), t) => (.ok (.returned (body s)), t ++ [.ran s]) := by
  unfold writeOn writeRefused
  simp only [Attempt.exec_bind, Attempt.exec_tryCatch]
  cases Attempt.exec (bind mode s) t with
  | mk made t =>
    cases made with
    | ok _ => rfl
    | error err => by_cases elsewhere : isDirectoryUnreachable err <;> simp [elsewhere]

theorem exec_readAsOperator (body : Server → Except Thrown α) : Attempt.exec (readAsOperator mode body s) t =
    match Attempt.exec (bind mode s) t with
    | (.error err, t) => (readRefused err, t)
    | (.ok (), t) => (body s, t ++ [.ran s]) := by
  unfold readAsOperator readRefused
  simp only [Attempt.exec_bind, Attempt.exec_tryCatch]
  cases Attempt.exec (bind mode s) t with
  | mk made t =>
    cases made with
    | ok _ => cases body s <;> rfl
    | error err => by_cases elsewhere : isDirectoryUnreachable err <;> simp [elsewhere]

theorem exec_readAsService (body : Server → Except Thrown α) : Attempt.exec (readAsService mode body s) t =
    match Attempt.exec (bind mode s) t with
    | (.error err, t) => (.error err, t)
    | (.ok (), t) => (body s, t ++ [.ran s]) := by
  unfold readAsService
  simp only [Attempt.exec_bind]
  cases Attempt.exec (bind mode s) t with
  | mk made t =>
    cases made with
    | ok _ => cases body s <;> rfl
    | error err => rfl

/-- A sign-in binds, searches and answers for itself. -/
theorem exec_signIn (search : Server → Filter → Except Thrown (Option Account))
    (unbind : Server → Option Thrown)
    (username : Text) : Attempt.exec (signIn mode search unbind username s) t =
    match Attempt.exec (bind mode s) t with
    | (.error err, t) => (signInRefused err, t)
    | (.ok (), t) => (signedIn search unbind username s, t ++ [.ran s]) := by
  unfold signIn signInRefused signedIn
  simp only [Attempt.exec_bind, Attempt.exec_tryCatch]
  cases Attempt.exec (bind mode s) t with
  | mk made t =>
    cases made with
    | ok _ =>
      cases unbind s with
      | some err => rfl
      | none => cases lookUp (search s) username <;> rfl
    | error err => by_cases elsewhere : isDirectoryUnreachable err <;> simp [elsewhere]

def writeAnswer (mode : TlsMode) (body : Server → τ) (s : Server) : Except Thrown (Written τ) :=
  answer mode writeRefused (.ok (.returned (body s))) s

def signInAnswer (mode : TlsMode) (search : Server → Filter → Except Thrown (Option Account))
    (unbind : Server → Option Thrown)
    (username : Text) (s : Server) : Except Thrown AuthResult :=
  answer mode signInRefused (signedIn search unbind username s) s

def readAnswer (mode : TlsMode) (body : Server → Except Thrown α) (s : Server) : Except Thrown α :=
  answer mode readRefused (body s) s

def serviceAnswer (mode : TlsMode) (body : Server → Except Thrown α) (s : Server) : Except Thrown α :=
  answer mode .error (body s) s

theorem exec_asOperator (ldapUrls : List Server) (body : Server → τ) :
    Attempt.exec (asOperator mode ldapUrls body) t =
    ((match outcome (writeAnswer mode body) [] ldapUrls with
      | .error (.directoryUnavailable message) => .ok (.failed .directoryError message)
      | result => result),
      t ++ trail mode (walked (writeAnswer mode body) ldapUrls)) := by
  unfold asOperator withFailover
  have runs (s : Server) (t : List Event) :
      Attempt.exec (attempt mode (writeOn mode body) s) t = (writeAnswer mode body s, t ++ events mode s) :=
    exec_attempt_bound fun t => exec_writeOn body
  rw [Attempt.exec_tryCatch, exec_failover runs]
  cases outcome (writeAnswer mode body) [] ldapUrls with
  | ok a => rfl
  | error err => cases err <;> rfl

theorem exec_withOperatorBind (ldapUrls : List Server) (body : Server → Except Thrown α) :
    (Attempt.exec (_withOperatorBind mode ldapUrls body) t).2 =
      t ++ trail mode (walked (readAnswer mode body) ldapUrls) := by
  unfold _withOperatorBind withFailover
  have runs (s : Server) (t : List Event) :
      Attempt.exec (attempt mode (readAsOperator mode body) s) t =
        (readAnswer mode body s, t ++ events mode s) :=
    exec_attempt_bound fun t => exec_readAsOperator body
  rw [exec_failover runs]

theorem exec_withServiceBind (ldapUrls : List Server) (body : Server → Except Thrown α) :
    (Attempt.exec (withServiceBind mode ldapUrls body) t).2 =
      t ++ trail mode (walked (serviceAnswer mode body) ldapUrls) := by
  unfold withServiceBind withFailover
  have runs (s : Server) (t : List Event) :
      Attempt.exec (attempt mode (readAsService mode body) s) t =
        (serviceAnswer mode body s, t ++ events mode s) :=
    exec_attempt_bound fun t => exec_readAsService body
  rw [exec_failover runs]

/-- A sign-in goes along the servers as any operation does. -/
theorem exec_authenticateUser (certificateProblem : Thrown → Option Text) (ldapUrls : List Server)
    (search : Server → Filter → Except Thrown (Option Account)) (unbind : Server → Option Thrown)
    (username password : Text) :
    (Attempt.exec (authenticateUser mode certificateProblem ldapUrls search unbind username password) t).2 =
      t ++ if trim username = [] ∨ password = [] then []
        else trail mode (walked (signInAnswer mode search unbind (trim username)) ldapUrls) := by
  unfold authenticateUser withFailover
  have runs (s : Server) (t : List Event) :
    Attempt.exec (attempt mode (signIn mode search unbind (trim username)) s) t =
      (signInAnswer mode search unbind (trim username) s, t ++ events mode s) :=
    exec_attempt_bound fun t => exec_signIn search unbind (trim username)
  split
  · simp
  · rw [Attempt.exec_tryCatch, exec_failover runs]
    cases outcome (signInAnswer mode search unbind (trim username)) [] ldapUrls with
    | ok a => rfl
    | error err => rfl

/-- On a connection, it is the bind's answer that decides. -/
theorem answer_connected {refused : Thrown → Except Thrown α} {served : Except Thrown α}
    (made : Connected mode s) :
    answer mode refused served s = match s.bind with
      | some err => refused err
      | none => served := by
  unfold Connected at made
  unfold answer upgradeError bindError
  by_cases upgraded : transportFor mode s = .starttls
  · cases bound : s.bind <;> simp [upgraded, made.1, made.2 upgraded]
  · cases bound : s.bind <;> simp [upgraded, made.1]

theorem bound_iff (mode : TlsMode) (s : Server) : Connected mode s ∧ s.bind = none ↔
    upgradeError mode s = none ∧ bindError mode s = none := by
  unfold Connected upgradeError bindError
  cases transportFor mode s <;> simp [Option.or_eq_none_iff, and_assoc]

/-- A body ran on the server only where its own answer is the server's. -/
theorem answer_of_ran {refused : Thrown → Except Thrown α} {served : Except Thrown α} {e : Event}
    (seen : e ∈ events mode s)
    (ran : e.runs = true) : answer mode refused served s = served := by
  unfold events at seen
  split at seen
  next made =>
    rw [answer_connected made]
    cases bound : s.bind with
    | none => rfl
    | some err =>
      simp only [bound, Option.isNone_some, Bool.false_eq_true, if_false, List.mem_singleton] at seen
      rw [seen] at ran
      cases ran
  · exact absurd seen List.not_mem_nil

theorem reachable_of_refuses {err : Thrown} (refused : Refuses (some err)) :
    isDirectoryUnreachable err = false := by
  cases err with
  | result code name message =>
    have code : code = INVALID_CREDENTIALS := refused
    subst code
    rfl
  | _ => exact refused.elim

/-- Where every refusal is an answer, the credentials are presented once. -/
theorem presentsOnce_of_settled {answers : Server → Except Thrown α} {ldapUrls : List Server}
    (settled : ∀ s err, Connected mode s → s.bind = some err → isDirectoryUnreachable err = false →
      ∃ a, answers s = .ok a) :
    PresentsOnce (trail mode (walked answers ldapUrls)) := by
  refine presentsOnce_trail.mpr ((walked_pairwise answers ldapUrls).imp ?_)
  rintro s t ⟨failed, came⟩ ⟨made, refused⟩
  cases bound : s.bind with
  | none => rw [bound] at refused; exact refused.elim
  | some err =>
    rw [bound] at refused
    obtain ⟨a, same⟩ := settled s err made bound (reachable_of_refuses refused)
    rw [came] at same
    cases same

theorem atMostOne_of_last {events : List Event} (last : events.Pairwise fun a _ => a.runs = false) :
    (events.filter Event.runs).length ≤ 1 := by
  induction events with
  | nil => simp
  | cons first rest next =>
    obtain ⟨before, later⟩ := List.pairwise_cons.mp last
    cases rest with
    | nil => exact List.length_filter_le _ _
    | cons second rest =>
      have idle : first.runs = false := before second List.mem_cons_self
      rw [List.filter_cons_of_neg (by simp [idle])]
      exact next later

theorem writeAnswer_error {body : Server → τ} {err : Thrown} (failed : writeAnswer mode body s = .error err) :
    Unreached mode s := by
  unfold writeAnswer answer at failed
  cases upgrade : upgradeError mode s with
  | some _ => exact .inl (by rw [upgrade]; rfl)
  | none =>
    cases bound : bindError mode s with
    | none => rw [upgrade, bound] at failed; cases failed
    | some fault =>
      refine .inr ⟨fault, bound, ?_⟩
      rw [upgrade, bound] at failed
      by_contra reachable
      simp [writeRefused, reachable] at failed

theorem not_ran_of_error {body : Server → τ} {err : Thrown}
    (failed : writeAnswer mode body s = .error err) {e : Event}
    (seen : e ∈ Event.tried s :: events mode s) : e.runs = false := by
  rcases List.mem_cons.mp seen with rfl | seen
  · rfl
  · by_contra ran
    have served : writeAnswer mode body s = .ok (.returned (body s)) :=
      answer_of_ran seen (by simpa using ran)
    rw [failed] at served
    cases served

/-- A write is sent to one server, and never again once one may have taken it. -/
theorem writesOnce (ldapUrls : List Server) (body : Server → τ) :
    WritesOnce mode (Attempt.exec (asOperator mode ldapUrls body) []).1
      (Attempt.exec (asOperator mode ldapUrls body) []).2 := by
  rw [exec_asOperator]
  dsimp only
  rw [List.nil_append]
  have walk := walked_pairwise (writeAnswer mode body) ldapUrls
  have last : (trail mode (walked (writeAnswer mode body) ldapUrls)).Pairwise fun a _ => a.runs = false := by
    refine List.pairwise_flatMap.mpr ⟨fun s _ => ?_, walk.imp ?_⟩
    · unfold events
      split
      · split <;> simp [Event.runs]
      · simp
    · rintro s t ⟨err, failed⟩ a seen _ _
      exact not_ran_of_error failed seen
  refine ⟨atMostOne_of_last last, last, ?_, ?_⟩
  · refine List.pairwise_flatMap.mpr ⟨fun s _ => ?_, walk.imp ?_⟩
    · unfold events
      split
      · split <;> simp
      · simp
    · rintro s t ⟨err, failed⟩ a seen b _ x y rfl rfl
      have same : x = s := by
        rcases List.mem_cons.mp seen with same | seen
        · exact Event.tried.inj same
        · unfold events at seen
          split at seen
          · split at seen <;> simp at seen
          · exact absurd seen List.not_mem_nil
      rw [same]
      exact writeAnswer_error failed
  · intro message reported e seen
    obtain ⟨s, tried, seen⟩ := List.mem_flatMap.mp seen
    cases came : outcome (writeAnswer mode body) [] ldapUrls with
    | error err =>
      obtain ⟨err, failed⟩ := failed_of_outcome came tried
      exact not_ran_of_error failed seen
    | ok a =>
      rw [came] at reported
      obtain ⟨s, same⟩ := served_of_outcome came
      cases reported
      exfalso
      revert same
      unfold writeAnswer answer writeRefused
      split
      · simp
      · split
        · split <;> simp
        · simp

end

/-- What is asked of the directory, with what its body does on each server. -/
inductive Operation (τ α : Type)
  | asOperator (body : Server → τ)
  | authenticateUser (certificateProblem : Thrown → Option Text)
    (search : Server → Filter → Except Thrown (Option Account))
      (unbind : Server → Option Thrown) (username password : Text)
  | _withOperatorBind (body : Server → Except Thrown α)
  | withServiceBind (body : Server → Except Thrown α)

/-- What the servers are asked. -/
def Operation.events {τ α : Type} (mode : TlsMode) (ldapUrls : List Server) : Operation τ α → List Event
  | .asOperator body => (Attempt.exec (Failover.asOperator mode ldapUrls body) []).2
  | .authenticateUser certificateProblem search unbind username password =>
    (Attempt.exec (Failover.authenticateUser mode certificateProblem ldapUrls search unbind
      username password) []).2
  | ._withOperatorBind body => (Attempt.exec (Failover._withOperatorBind mode ldapUrls body) []).2
  | .withServiceBind body => (Attempt.exec (Failover.withServiceBind mode ldapUrls body) []).2

/-- No write is repeated, and no refused credentials are. -/
def Operation.Right {τ α : Type} (mode : TlsMode) (ldapUrls : List Server) (op : Operation τ α) : Prop :=
  PresentsOnce (op.events mode ldapUrls) ∧
    match op with
    | .asOperator body =>
      WritesOnce mode (Attempt.exec (Failover.asOperator mode ldapUrls body) []).1 (op.events mode ldapUrls)
    | _ => True

/-- A read goes on from the server: its client is made, and it is not both bound to and read from. -/
def PassesOn {α : Type} (mode : TlsMode) (body : Server → Except Thrown α) (s : Server) : Prop :=
  s.createClient = none ∧ ¬(Connected mode s ∧ s.bind = none ∧ ∃ a, body s = .ok a)

/-- A server that refuses the credentials is passed on to one that is connected to. -/
def RefusedThenAsked {α : Type} (mode : TlsMode) (ldapUrls : List Server)
    (body : Server → Except Thrown α) : Prop :=
  ∃ before s between t after, ldapUrls = before ++ s :: (between ++ t :: after) ∧
    (∀ x ∈ before ++ s :: between, PassesOn mode body x) ∧ Connected mode s ∧ Refuses s.bind ∧
    t.createClient = none ∧ Connected mode t

/-- When the operation is right: the writes and the sign-in always. -/
def Operation.Settles {τ α : Type} (mode : TlsMode) (ldapUrls : List Server) : Operation τ α → Prop
  | .asOperator _ | .authenticateUser .. => True
  | ._withOperatorBind body | .withServiceBind body => ¬RefusedThenAsked mode ldapUrls body

section
variable {mode : TlsMode} {α τ : Type}

/-- A server is passed where it is unreachable, or its refusal is thrown. -/
theorem passed_iff {refused : Thrown → Except Thrown α} {body : Server → Except Thrown α} {s : Server}
    (throws : ∀ err, ∃ thrown, refused err = .error thrown) :
    Passed (fun s => answer mode refused (body s) s) s ↔ PassesOn mode body s := by
  have bound := bound_iff mode s
  unfold Passed PassesOn answer
  dsimp only
  rw [← and_assoc (c := ∃ a, body s = .ok a), bound]
  cases upgradeError mode s with
  | some err => simp
  | none =>
    cases bindError mode s with
    | some err =>
      obtain ⟨thrown, same⟩ := throws err
      simp [same]
    | none => cases body s <;> simp

theorem presentsOnce_iff {refused : Thrown → Except Thrown α}
    (throws : ∀ err, ∃ thrown, refused err = .error thrown)
    (ldapUrls : List Server) (body : Server → Except Thrown α) :
    PresentsOnce (trail mode (walked (fun s => answer mode refused (body s) s) ldapUrls)) ↔
      ¬RefusedThenAsked mode ldapUrls body := by
  rw [presentsOnce_trail, walked_pairwise_iff]
  simp only [passed_iff throws]
  constructor
  · rintro once ⟨before, s, between, t, after, same, passed, made, refuses, client, reached⟩
    exact once before s between t after same passed client ⟨made, refuses⟩ reached
  · intro settled before s between t after same passed client refused reached
    exact settled ⟨before, s, between, t, after, same, passed, refused.1, refused.2, client, reached⟩

/-- The writes and the sign-in stop at a refusal; the reads are right where none is passed on. -/
theorem failover_right_iff (mode : TlsMode) (ldapUrls : List Server) (op : Operation τ α) :
    op.Right mode ldapUrls ↔ op.Settles mode ldapUrls := by
  unfold Operation.Right Operation.Settles Operation.events
  cases op with
  | asOperator body =>
    refine iff_of_true ⟨?_, writesOnce ldapUrls body⟩ trivial
    dsimp only
    rw [exec_asOperator]
    refine presentsOnce_of_settled fun s err made bound answered => ?_
    refine ⟨.failed .permissionDenied (text "step-up bind failed"), ?_⟩
    rw [writeAnswer, answer_connected made, bound]
    simp [writeRefused, answered]
  | authenticateUser certificateProblem search unbind username password =>
    refine iff_of_true ⟨?_, trivial⟩ trivial
    dsimp only
    rw [exec_authenticateUser, List.nil_append]
    split
    · exact .nil
    · refine presentsOnce_of_settled fun s err made bound answered => ⟨.refused err, ?_⟩
      rw [signInAnswer, answer_connected made, bound]
      simp [signInRefused, answered]
  | _withOperatorBind body =>
    dsimp only
    rw [exec_withOperatorBind, List.nil_append, and_true]
    exact presentsOnce_iff (fun err => ⟨_, rfl⟩) ldapUrls body
  | withServiceBind body =>
    dsimp only
    rw [exec_withServiceBind, List.nil_append, and_true]
    exact presentsOnce_iff (fun err => ⟨err, rfl⟩) ldapUrls body

end

/-- A domain controller that is reached and answers the bind so. -/
def reachable (url : String) (answer : Option Thrown) : Server :=
  { url := text url, scheme := some .ldaps, createClient := none, connect := none, startTLS := none,
    bind := answer }

/-- With two domain controllers, a wrong password of the service account or of a re-elevation goes to both. -/
theorem refused_credentials_repeated :
    ∃ refused : Thrown, Refuses (some refused) ∧
      ¬(Operation.withServiceBind (fun _ => .ok ()) : Operation Unit Unit).Right .ldaps
          [reachable "ldaps://dc1" (some refused), reachable "ldaps://dc2" (some refused)] ∧
      ¬(Operation._withOperatorBind (fun _ => .ok ()) : Operation Unit Unit).Right .ldaps
          [reachable "ldaps://dc1" (some refused), reachable "ldaps://dc2" (some refused)] := by
  refine ⟨.result INVALID_CREDENTIALS (text "InvalidCredentialsError") [], rfl, ?_, ?_⟩
  · rintro ⟨once, -⟩
    unfold Operation.events PresentsOnce at once
    dsimp only at once
    rw [exec_withServiceBind] at once
    simp [walked, trail, events, Connected, serviceAnswer, answer, upgradeError, bindError,
      reachable, transportFor,
      Event.Refused, Event.Presents, Refuses] at once
  · rintro ⟨once, -⟩
    unfold Operation.events PresentsOnce at once
    dsimp only at once
    rw [exec_withOperatorBind] at once
    simp [walked, trail, events, Connected, readAnswer, readRefused, answer, upgradeError,
      bindError, reachable, transportFor,
      Event.Refused, Event.Presents, Refuses] at once

end OpenAduc.Provider.Failover
