import OpenAduc.UserCreation.Progress

namespace OpenAduc.UserCreation

/-- Someone else sets the account's password, enables or disables it, or signs in as it. -/
def Interferes (a : Account) : Change → Prop
  | .setPassword _ _ => True
  | .enable => a.enabled = false
  | .disable | .signIn _ _ => a.enabled = true
  | .editGroups | .editAttributes => False

def Interfered (a : Account) : List (Change × (Controller → Nat)) → Prop
  | [] => False
  | x :: rest => Interferes a x.1 ∨ Interfered (a.apply x) rest

instance Interferes.decidable (a : Account) : ∀ change, Decidable (Interferes a change)
  | .setPassword _ _ => isTrue trivial
  | .enable => inferInstanceAs (Decidable (_ = _))
  | .disable | .signIn _ _ => inferInstanceAs (Decidable (_ = _))
  | .editGroups | .editAttributes => isFalse id

instance Interfered.decidable : ∀ (a : Account) changes, Decidable (Interfered a changes)
  | _, [] => isFalse id
  | a, x :: rest =>
    have := Interfered.decidable (a.apply x) rest
    inferInstanceAs (Decidable (Interferes a x.1 ∨ Interfered (a.apply x) rest))

/-- Whether the last password set, if any was, asks for a change at next sign-in. -/
def lastPassword : List (Change × (Controller → Nat)) → Option Bool
  | [] => none
  | x :: rest =>
    (lastPassword rest).or (match x.1 with
      | .setPassword mustChange _ => some mustChange
      | _ => none)

def SignedIn (a : Account) : List (Change × (Controller → Nat)) → Prop
  | [] => False
  | x :: rest => (a.enabled = true ∧ ∃ time renews, x.1 = .signIn time renews) ∨ SignedIn (a.apply x) rest

def Account.after (a : Account) (changes : List (Change × (Controller → Nat))) : Account :=
  changes.foldl Account.apply a

section Account
variable {a : Account} {c : Controller} {changes : List (Change × (Controller → Nat))}

theorem numbered_usn_lt (a : Account) (skipped : Controller → Nat) (c : Controller) :
    a.usnChanged c < (a.numbered skipped).usnChanged c := by
  show a.usnChanged c < a.usnChanged c + 1 + skipped c
  omega

/-- A change leaves the account as it is or gives it a higher number. -/
theorem apply_moves (a : Account) (x : Change × (Controller → Nat)) (c : Controller) :
    a.apply x = a ∨ a.usnChanged c < (a.apply x).usnChanged c := by
  obtain ⟨change, skipped⟩ := x
  cases change with
  | setPassword mustChange time => exact Or.inr (numbered_usn_lt _ skipped c)
  | editGroups => exact Or.inl rfl
  | editAttributes => exact Or.inr (numbered_usn_lt _ skipped c)
  | enable =>
    simp only [Account.apply]
    split
    · exact Or.inl rfl
    · exact Or.inr (numbered_usn_lt _ skipped c)
  | disable =>
    simp only [Account.apply]
    split
    · exact Or.inr (numbered_usn_lt _ skipped c)
    · exact Or.inl rfl
  | signIn time renews =>
    simp only [Account.apply]
    split
    · exact Or.inr (numbered_usn_lt _ skipped c)
    · exact Or.inl rfl

theorem apply_usn_le (x : Change × (Controller → Nat)) : a.usnChanged c ≤ (a.apply x).usnChanged c := by
  rcases apply_moves a x c with same | moved
  · exact Nat.le_of_eq (congrArg (fun b => b.usnChanged c) same.symm)
  · exact Nat.le_of_lt moved

theorem after_usn_le : a.usnChanged c ≤ (a.after changes).usnChanged c := by
  induction changes generalizing a with
  | nil => exact Nat.le_refl _
  | cons x rest ih => exact Nat.le_trans (apply_usn_le x) ih

/-- An account that was enabled and is disabled has a higher number. -/
theorem usn_lt_of_disabled (enabled : a.enabled = true) (disabled : (a.after changes).enabled = false) :
    a.usnChanged c < (a.after changes).usnChanged c := by
  induction changes generalizing a with
  | nil => exact Bool.noConfusion (disabled.symm.trans enabled)
  | cons x rest ih =>
    rcases apply_moves a x c with same | moved
    · have shorter : a.after (x :: rest) = a.after rest := by
        show (a.apply x).after rest = a.after rest
        rw [same]
      rw [shorter] at disabled ⊢
      exact ih enabled disabled
    · exact Nat.lt_of_lt_of_le moved after_usn_le

/-- Whoever interferes writes the account, or signs in to an enabled one. -/
theorem apply_interferes {x : Change × (Controller → Nat)} (interferes : Interferes a x.1) :
    a.usnChanged c < (a.apply x).usnChanged c ∨ (a.apply x).enabled = true := by
  obtain ⟨change, skipped⟩ := x
  cases change with
  | setPassword mustChange time => exact Or.inl (numbered_usn_lt _ skipped c)
  | enable =>
    have disabled : a.enabled = false := interferes
    refine Or.inl ?_
    simp only [Account.apply, disabled]
    exact numbered_usn_lt _ skipped c
  | disable =>
    have enabled : a.enabled = true := interferes
    refine Or.inl ?_
    simp only [Account.apply, enabled]
    exact numbered_usn_lt _ skipped c
  | signIn time renews =>
    have enabled : a.enabled = true := interferes
    refine Or.inr ?_
    simp only [Account.apply]
    split
    · exact enabled
    · exact enabled
  | editGroups => exact interferes.elim
  | editAttributes => exact interferes.elim

/-- Interference that leaves the account disabled gives it a higher number at every controller. -/
theorem usn_lt_of_interfered (interfered : Interfered a changes)
    (disabled : (a.after changes).enabled = false) :
    a.usnChanged c < (a.after changes).usnChanged c := by
  induction changes generalizing a with
  | nil => exact interfered.elim
  | cons x rest ih =>
    rcases interfered with here | later
    · rcases apply_interferes here with moved | enabled
      · exact Nat.lt_of_lt_of_le moved after_usn_le
      · exact Nat.lt_of_le_of_lt (apply_usn_le x) (usn_lt_of_disabled enabled disabled)
    · exact Nat.lt_of_le_of_lt (apply_usn_le x) (ih later disabled)

/-- No password, or one to change at next sign-in. -/
def Account.NoPassword (a : Account) : Prop := a.pwdLastSet = none ∨ a.pwdLastSet = some 0

/-- No password stands where the last one set is to be changed at sign-in, or none was set and none
stood. -/
theorem noPassword_after :
    (a.after changes).NoPassword ↔ lastPassword changes = some true ∨ lastPassword changes = none ∧
      a.NoPassword := by
  induction changes generalizing a with
  | nil => simp [lastPassword, Account.after]
  | cons x rest ih =>
    refine (show (a.after (x :: rest)).NoPassword ↔
      ((a.apply x).after rest).NoPassword from Iff.rfl).trans (ih.trans ?_)
    cases last : lastPassword rest with
    | some mustChange => simp [lastPassword, last]
    | none =>
      obtain ⟨change, skipped⟩ := x
      cases change with
      | setPassword mustChange time =>
        cases mustChange <;>
          simp [lastPassword, last, Account.apply, Account.NoPassword, Account.numbered, passwordSetAt]
      | editGroups => simp [lastPassword, last, Account.apply]
      | editAttributes => simp [lastPassword, last, Account.apply, Account.NoPassword, Account.numbered]
      | enable =>
        simp only [lastPassword, last, Account.apply]
        split <;> simp [Account.NoPassword, Account.numbered]
      | disable =>
        simp only [lastPassword, last, Account.apply]
        split <;> simp [Account.NoPassword, Account.numbered]
      | signIn time renews =>
        simp only [lastPassword, last, Account.apply]
        split <;> simp [Account.NoPassword, Account.numbered]

/-- The last sign-in is unset where there has been none. -/
theorem lastLogon_after :
    (a.after changes).lastLogonTimestamp = none ↔ a.lastLogonTimestamp = none ∧ ¬SignedIn a changes := by
  induction changes generalizing a with
  | nil => simp [SignedIn, Account.after]
  | cons x rest ih =>
    refine (show (a.after (x :: rest)).lastLogonTimestamp = none ↔
      ((a.apply x).after rest).lastLogonTimestamp = none from
      Iff.rfl).trans (ih.trans ?_)
    obtain ⟨change, skipped⟩ := x
    simp only [SignedIn, not_or, ← and_assoc]
    refine and_congr_left fun _ => ?_
    cases change with
    | signIn time renews =>
      by_cases enabled : a.enabled = true
      · by_cases fresh : a.lastLogonTimestamp = none
        · simp [Account.apply, enabled, fresh, Account.numbered]
        · cases renews <;> simp [Account.apply, enabled, fresh, Account.numbered]
      · simp [Account.apply, enabled]
    | setPassword mustChange time => simp [Account.apply, Account.numbered]
    | editGroups => simp [Account.apply]
    | editAttributes => simp [Account.apply, Account.numbered]
    | enable =>
      simp only [Account.apply]
      split <;> simp [Account.numbered]
    | disable =>
      simp only [Account.apply]
      split <;> simp [Account.numbered]

theorem apply_identity (x : Change × (Controller → Nat)) :
    (a.apply x).objectGuid = a.objectGuid ∧ (a.apply x).whenCreated = a.whenCreated := by
  obtain ⟨change, skipped⟩ := x
  cases change with
  | setPassword | editGroups | editAttributes => exact ⟨rfl, rfl⟩
  | enable | disable | signIn =>
    simp only [Account.apply]
    split <;> exact ⟨rfl, rfl⟩

theorem after_identity : (a.after changes).objectGuid = a.objectGuid ∧
    (a.after changes).whenCreated = a.whenCreated := by
  induction changes generalizing a with
  | nil => exact ⟨rfl, rfl⟩
  | cons x rest ih =>
    obtain ⟨guid, time⟩ := @ih (a.apply x)
    obtain ⟨guid', time'⟩ := @apply_identity a x
    exact ⟨guid.trans guid', time.trans time'⟩

end Account

theorem lastWhere_append (cond : AuditEvent → Bool) (trail : List AuditEvent) (e : AuditEvent) :
    lastWhere cond (trail ++ [e]) = if cond e then some e else lastWhere cond trail := by
  unfold lastWhere
  rw [List.filter_append]
  cases met : cond e with
  | true => simp [met]
  | false => simp [met]

theorem mem_of_lastWhere {cond : AuditEvent → Bool} {trail : List AuditEvent} {e : AuditEvent}
    (last : lastWhere cond trail = some e) : e ∈ trail := (List.mem_filter.mp (List.mem_of_getLast? last)).1

/-- The rows are numbered in order; the one that counts has the account as it was left, if it could
be read; and others have made of that what it is now. -/
structure Recorded (w : World) : Prop where
  ids : ∀ e ∈ w.trail, e.id < w.trail.length
  latest : ∀ u, findUnfinishedCreate w.trail = some u →
    u.account = none ∨ u.account = some (accountFingerprint w.leftBy w.leftAs)
  account : w.account = w.leftAs.after w.since

theorem findUnfinishedCreate_some {trail : List AuditEvent} {u : UnfinishedCreate}
    (found : findUnfinishedCreate trail = some u) :
    ∃ create, lastWhere (fun e => e.action = .userCreate) trail = some create ∧
      create.correlationId = some u.createCorrelationId := by
  unfold findUnfinishedCreate at found
  split at found
  · cases found
  next create last =>
    split at found
    · cases found
    next correlation named =>
      cases found
      exact ⟨create, last, named⟩

/-- A finish of the create becomes what counts of it. -/
theorem findUnfinishedCreate_append {trail : List AuditEvent} {u u' : UnfinishedCreate} {row : AuditEvent}
    (found : findUnfinishedCreate trail = some u) (ids : ∀ e ∈ trail, e.id < row.id)
    (action : row.action = .userCreateFinish)
    (correlation : row.correlationId = some u.createCorrelationId)
    (found' : findUnfinishedCreate (trail ++ [row]) = some u') :
    u'.account = row.after.account := by
  obtain ⟨create, last, named⟩ := findUnfinishedCreate_some found
  have before : create.id < row.id := ids create (mem_of_lastWhere last)
  unfold findUnfinishedCreate at found'
  rw [lastWhere_append, if_neg (by simp [action]), last] at found'
  simp only [named, lastWhere_append, action, before, correlation, and_self, decide_true, if_true,
    Option.map_some,
    Option.getD_some] at found'
  exact congrArg UnfinishedCreate.account (Option.some.inj found').symm

theorem recorded_created (a : Account) (r : Request) (correlation : Option Nat)
    (planned : List UserCreateStep) :
    Recorded (created a r correlation planned) where
  ids := by simp [created, World.recorded]
  latest u found := by
    cases correlation with
    | none => simp [created, World.recorded, findUnfinishedCreate, lastWhere] at found
    | some correlation =>
      simp only [created, World.recorded, findUnfinishedCreate, lastWhere, List.nil_append] at found ⊢
      cases found
      cases r.readable
      · exact Or.inl rfl
      · exact Or.inr rfl
  account := rfl

/-- Every step keeps the trail telling how the account was left. -/
theorem recorded_step {w w' : World} {e : Event} (holds : Recorded w) (taken : w.step e = some w') :
    Recorded w' := by
  cases e with
  | others change skipped =>
    cases taken
    refine ⟨holds.ids, holds.latest, ?_⟩
    show w.account.apply _ = w.leftAs.after (w.since ++ _)
    rw [holds.account]
    simp [Account.after]
  | finish r =>
    simp only [World.step] at taken
    cases found : findUnfinishedCreate w.trail with
    | none => simp [found] at taken
    | some u =>
      simp only [found] at taken
      split at taken
      · cases taken
        refine ⟨?_, ?_, rfl⟩
        · intro e inside
          simp only [World.recorded, List.mem_append, List.mem_singleton, List.length_append,
            List.length_singleton] at inside ⊢
          rcases inside with old | rfl
          · exact Nat.lt_succ_of_lt (holds.ids e old)
          · exact Nat.lt_succ_self _
        · intro u' found'
          rw [findUnfinishedCreate_append found holds.ids rfl rfl found']
          simp only [World.recorded]
          cases r.readable
          · exact Or.inl rfl
          · exact Or.inr rfl
      · cases taken

theorem recorded_of_reachable {w : World} (reached : system.Reachable w) : Recorded w := by
  refine reached.invariant (fun w init => ?_) fun _ _ _ _ holds _ taken => recorded_step holds taken
  obtain ⟨guid, whenCreated, usn, r, correlation, planned, rfl⟩ := init
  exact recorded_created _ r correlation planned

/-- Others left no trace: the account is disabled, and either another controller's number happens to
be the recorded one, or the password is still to be set, the last password set asks for a change,
and nobody has signed in. -/
structure Unnoticed (w : World) (u : UnfinishedCreate) (c : Controller) (now : Int) : Prop where
  left : u.remaining ≠ []
  timely : now - u.createdAt ≤ FINISH_WINDOW_MS
  known : u.account ≠ none
  disabled : w.account.enabled = false
  unseen : c ≠ w.leftBy ∧ w.account.usnChanged c = w.leftAs.usnChanged w.leftBy ∨
    .password ∈ u.remaining ∧
      (lastPassword w.since = some true ∨ lastPassword w.since = none ∧ w.leftAs.NoPassword) ∧
      w.leftAs.lastLogonTimestamp = none ∧ ¬SignedIn w.leftAs w.since

/-- The finish is let through exactly when others left no trace, or the same controller has the
recorded number. -/
theorem finishRefusal_none_iff {w : World} (recorded : Recorded w) (c : Controller) (now : Int) :
    finishRefusal (findUnfinishedCreate w.trail) (liveAt c w.account) now = none ↔
      ∃ u, findUnfinishedCreate w.trail = some u ∧ u.remaining ≠ [] ∧ now - u.createdAt ≤ FINISH_WINDOW_MS ∧
        u.account ≠ none ∧ w.account.enabled = false ∧
        (w.account.usnChanged c = w.leftAs.usnChanged w.leftBy ∨
          .password ∈ u.remaining ∧ w.account.NoPassword ∧ w.account.lastLogonTimestamp = none) := by
  cases found : findUnfinishedCreate w.trail with
  | none => simp [finishRefusal]
  | some u =>
    have same : (w.account.objectGuid = w.leftAs.objectGuid) ∧
      (w.account.whenCreated = w.leftAs.whenCreated) := by
      rw [recorded.account]
      exact after_identity
    simp only [Option.some.injEq, exists_eq_left']
    unfold finishRefusal
    by_cases left : u.remaining = []
    · simp [left]
    · by_cases late : FINISH_WINDOW_MS < now - u.createdAt
      · have tooLate : ¬now - u.createdAt ≤ FINISH_WINDOW_MS := Int.not_le.mpr late
        simp [left, late, tooLate]
      · have timely : now - u.createdAt ≤ FINISH_WINDOW_MS := Int.not_lt.mp late
        rcases recorded.latest u found with unread | read
        · simp [left, late, unread]
        · have known : u.account ≠ none := by simp [read]
          have numbers : (some (w.leftAs.usnChanged w.leftBy) = some (w.account.usnChanged c)) ↔
              w.account.usnChanged c = w.leftAs.usnChanged w.leftBy := by rw [Option.some.injEq, eq_comm]
          simp only [left, late, timely, read, accountFingerprint, liveAt, same, if_false, ne_eq,
            not_true_eq_false, or_self,
            not_false_eq_true, true_and, numbers, reduceCtorEq, Account.NoPassword]
          cases w.account.enabled with
          | true => simp
          | false =>
            simp only [Bool.false_eq_true, if_false, true_and]
            split
            next same => simp [same]
            next differs =>
              split
              next untouched => simpa using Or.inr untouched
              next touched => simpa [differs] using touched

/-- Finishing overrides nothing others did, except where they interfered and every sign of it that
the refusal looks at is unnoticed. -/
theorem finish_overrides_iff {w : World} (reached : system.Reachable w) (c : Controller) (now : Int) :
    (finishRefusal (findUnfinishedCreate w.trail) (liveAt c w.account) now = none →
      ¬Interfered w.leftAs w.since) ↔
      ¬(Interfered w.leftAs w.since ∧ ∃ u, findUnfinishedCreate w.trail = some u ∧ Unnoticed w u c now) := by
  have recorded := recorded_of_reachable reached
  rw [← not_and', not_iff_not]
  refine and_congr_right fun interfered => (finishRefusal_none_iff recorded c now).trans ?_
  refine exists_congr fun u => and_congr_right fun _ => ?_
  have untraced : w.account.NoPassword ∧ w.account.lastLogonTimestamp = none ↔
      (lastPassword w.since = some true ∨ lastPassword w.since = none ∧ w.leftAs.NoPassword) ∧
        w.leftAs.lastLogonTimestamp = none ∧ ¬SignedIn w.leftAs w.since := by
    rw [recorded.account, noPassword_after, lastLogon_after]
  constructor
  · rintro ⟨left, timely, known, disabled, unseen⟩
    refine ⟨left, timely, known, disabled, ?_⟩
    rcases unseen with number | ⟨password, rest⟩
    · refine Or.inl ⟨fun sameController => ?_, number⟩
      -- The recorded controller's own number has moved.
      rw [recorded.account] at disabled number
      have moved := usn_lt_of_interfered (c := c) interfered disabled
      rw [number, sameController] at moved
      exact Nat.lt_irrefl _ moved
    · exact Or.inr ⟨password, untraced.mp rest⟩
  · rintro ⟨left, timely, known, disabled, unseen⟩
    refine ⟨left, timely, known, disabled, ?_⟩
    rcases unseen with ⟨_, number⟩ | ⟨password, rest⟩
    · exact Or.inl number
    · exact Or.inr ⟨password, untraced.mpr rest⟩

/-- A create whose password step failed, read back from the controller that made it. -/
def passwordFailed : Request where
  run := { mustChange := true, time := 100, fails := fun s => s = .password, skipped := fun _ _ => 0 }
  now := 0
  controller := 1
  liveFrom := 1
  readable := true
  enabled := true

/-- Set up by hand, with a password to change, and disabled as a leaver an hour later. -/
def leaver : List Event :=
  [.others (.setPassword true 200) fun _ => 0, .others .enable fun _ => 0, .others .disable fun _ => 0]

theorem started :
    system.Reachable
    (created (newAccount 7 50 fun _ => 4100) passwordFailed (some 1) [.create, .password, .enable]) :=
  .start ⟨7, 50, fun _ => 4100, passwordFailed, some 1, [.create, .password, .enable], rfl⟩

/-- The finish of the leaver's account is let through, on the word of the very controller that recorded it. -/
theorem leaver_finished : ∃ w, system.Reachable w ∧ Interfered w.leftAs w.since ∧
    finishRefusal (findUnfinishedCreate w.trail) (liveAt w.leftBy w.account) 7200000 = none := by
  have ran :
    ((system.run (created (newAccount 7 50 fun _ => 4100) passwordFailed (some 1)
    [.create, .password, .enable])
      leaver).any fun w => Interfered w.leftAs w.since ∧
        finishRefusal (findUnfinishedCreate w.trail) (liveAt w.leftBy w.account) 7200000 = none) =
          true := by decide +kernel
  exact Transition.System.Reachable.exists_of_run started ran

/-- Where others only changed its groups and title, the account can be finished, and nobody is overridden. -/
theorem finish_overrides_iff_edited : ∃ w, system.Reachable w ∧
    finishRefusal (findUnfinishedCreate w.trail) (liveAt 2 w.account) 7200000 = none ∧
      ¬Interfered w.leftAs w.since := by
  have ran :
    ((system.run (created (newAccount 7 50 fun _ => 4100) passwordFailed (some 1)
    [.create, .password, .enable])
      [.others .editGroups fun _ => 0, .others .editAttributes fun _ => 0]).any fun w =>
        finishRefusal (findUnfinishedCreate w.trail) (liveAt 2 w.account) 7200000 = none ∧
          ¬Interfered w.leftAs w.since) = true := by
    decide +kernel
  obtain ⟨w, reached, let_through, quiet⟩ := Transition.System.Reachable.exists_of_run started ran
  exact ⟨w, reached, let_through, (finish_overrides_iff reached 2 7200000).mpr
    (fun both => quiet both.1) let_through⟩

end OpenAduc.UserCreation
