import OpenAduc.ImportRows.Groups

namespace OpenAduc.ImportRows
open BulkJobs (RowOutcome GroupChange PasswordMode ImportOptions)
open Transition.System (Reach Reachable)

variable {lower : Lower} {s t : RowState} {a : RowAction}

/-- A row done with its groups lists, as a member, each group of its input the account got from
any run of it. -/
def Told (lower : Lower) (s : RowState) : Prop :=
  ∀ progress, s.row.after = some progress → .groups ∈ progress.completed →
    ∀ groupId ∈ s.row.input.groupIds, ∀ gain ∈ s.gained, progress.id = some gain.1 → lower gain.2 = groupId →
      ∃ c ∈ progress.groups, lower c.id = groupId ∧ c.isMember = true

instance : Decidable (Told lower s) :=
  inferInstanceAs (Decidable (∀ progress ∈ s.row.after, .groups ∈ progress.completed →
    ∀ groupId ∈ s.row.input.groupIds, ∀ gain ∈ s.gained, progress.id = some gain.1 → lower gain.2 = groupId →
      ∃ c ∈ progress.groups, lower c.id = groupId ∧ c.isMember = true))

def Row.groups (row : Row) : List GroupChange := (row.after.map (·.groups)).getD []

/-- No step loses what's known of an add: one that's made is answered as made, the run isn't
stopped once it has made one, or with one on its way that's made, and its throwing is not
recorded then, nor over groups the row lists. -/
def Kept (s : RowState) : RowAction → Prop
  | .start _ => True
  | .answer answers landed =>
    match s.running with
    | some (_, .ask q _) => Said.gains ⟨q, answers q⟩ landed = Said.adds ⟨q, answers q⟩
    | _ => True
  | .stop landed =>
    match s.running with
    | some (past, m) => added past = [] ∧ inFlight landed m = []
    | none => True
  | .record =>
    match s.running with
    | some (past, .done (.error err)) => added past = [] ∧ (s.row.recorded (.error err)).groups = s.row.groups
    | _ => True

instance Kept.decidable : ∀ (s : RowState) (a : RowAction), Decidable (Kept s a)
  | _, .start _ => inferInstanceAs (Decidable True)
  | ⟨_, none, _⟩, .answer .. | ⟨_, some (_, .done _), _⟩, .answer .. => inferInstanceAs (Decidable True)
  | ⟨_, some (_, .ask _ _), _⟩, .answer .. => inferInstanceAs (Decidable (_ = _))
  | ⟨_, none, _⟩, .stop _ => inferInstanceAs (Decidable True)
  | ⟨_, some (_, _), _⟩, .stop _ => inferInstanceAs (Decidable (_ ∧ _))
  | ⟨_, none, _⟩, .record | ⟨_, some (_, .ask _ _), _⟩, .record | ⟨_, some (_, .done (.ok _)), _⟩, .record =>
    inferInstanceAs (Decidable True)
  | ⟨_, some (_, .done (.error _)), _⟩, .record => inferInstanceAs (Decidable (_ ∧ _))

/-- What was gained is stored; and where a run is under way, what it added too once it ends well. -/
def Accounted (s : RowState) : Prop :=
  match s.running with
  | none => Stores s.row.after s.gained
  | some (past, m) =>
    ∃ base, s.gained = base ++ added past ∧ Stores s.row.after base ∧ (added past = [] ∨ Undone s.row) ∧
      Adds (Undone s.row) (fun now outcome => Stores outcome.after (base ++ now)) past m

theorem nothing_gained {row : Row} {gains : List (String × String)}
    (stores : Stores row.after gains) (none_ : row.groups = []) :
    gains = [] := by
  unfold Row.groups at none_
  cases after : row.after with
  | none =>
    rw [after] at stores
    exact stores
  | some progress =>
    rw [after] at stores none_
    refine List.eq_nil_iff_forall_not_mem.mpr fun x gained => ?_
    obtain ⟨c, member, _⟩ := stores.entry x gained
    exact List.ne_nil_of_mem member none_

theorem stores_recorded {row : Row} {err : Thrown} {gains : List (String × String)}
    (stores : Stores row.after gains)
    (same : (row.recorded (.error err)).groups = row.groups) :
    Stores (row.recorded (.error err)).after gains := by
  cases err with
  | unavailable audited =>
    cases audited with
    | false => exact stores
    | true => exact nothing_gained stores same.symm
  | refusal code message => exact nothing_gained stores same.symm
  | other name audited => exact nothing_gained stores same.symm

theorem accounted_start {correlationId : Option String} (held : Accounted s)
    (taken : RowState.step lower s (.start correlationId) = some t) : Accounted t := by
  obtain ⟨row, running, gained⟩ := s
  cases running with
  | some _ => cases taken
  | none =>
    rw [← Option.some.inj taken]
    exact ⟨gained, (List.append_nil gained).symm, held, .inl rfl, adds_runImportRow _ correlationId held⟩

/-- An answer leaves every membership gained on the running run's list. -/
theorem accounted_answer {answers : ∀ q : Question, Except Thrown q.Answer} {landed : Bool}
    (held : Accounted s)
    (kept : Kept s (.answer answers landed))
    (taken : RowState.step lower s (.answer answers landed) = some t) : Accounted t := by
  obtain ⟨row, running, gained⟩ := s
  cases running with
  | none => cases taken
  | some run =>
    obtain ⟨past, m⟩ := run
    cases m with
    | done result => cases taken
    | ask q next =>
      rw [← Option.some.inj taken]
      obtain ⟨base, rfl, stores, undone, allowed, adds⟩ := held
      have now : added (past ++ [⟨q, answers q⟩]) = added past ++ Said.gains ⟨q, answers q⟩ landed := by
        rw [added_append, added, added, List.flatMap_singleton, kept]
      refine ⟨base, by rw [now, List.append_assoc], stores, ?_, adds (answers q)⟩
      cases writes : q.writesMembership with
      | true => exact .inr (allowed writes)
      | false =>
        refine undone.imp_left fun none_ => ?_
        rw [added_append, added, added, List.flatMap_singleton, adds_other writes, List.append_nil]
        exact none_

theorem accounted_stop {landed : Bool} (held : Accounted s) (kept : Kept s (.stop landed))
    (taken : RowState.step lower s (.stop landed) = some t) : Accounted t := by
  obtain ⟨row, running, gained⟩ := s
  cases running with
  | none => cases taken
  | some run =>
    obtain ⟨past, m⟩ := run
    obtain ⟨base, rfl, stores, _⟩ := held
    rw [← Option.some.inj taken]
    show Stores row.after (base ++ added past ++ inFlight landed m)
    rwa [kept.1, kept.2, List.append_nil, List.append_nil]

/-- A recorded run has its memberships on the row. -/
theorem accounted_record (held : Accounted s) (kept : Kept s .record)
    (taken : RowState.step lower s .record = some t) :
    Accounted t := by
  obtain ⟨row, running, gained⟩ := s
  cases running with
  | none => cases taken
  | some run =>
    obtain ⟨past, m⟩ := run
    cases m with
    | ask q next => cases taken
    | done result =>
      rw [← Option.some.inj taken]
      obtain ⟨base, rfl, stores, _, ends⟩ := held
      cases result with
      | ok outcome => exact ends outcome rfl
      | error err =>
        show Stores (row.recorded (.error err)).after (base ++ added past)
        rw [kept.1, List.append_nil]
        exact stores_recorded stores kept.2

theorem accounted_step (held : Accounted s) (kept : Kept s a)
    (taken : RowState.step lower s a = some t) : Accounted t := by
  cases a with
  | start => exact accounted_start held taken
  | answer => exact accounted_answer held kept taken
  | stop => exact accounted_stop held kept taken
  | record => exact accounted_record held kept taken

theorem accounted_run {id : Nat} {input : RowInput}
    (reach : (rowRuns lower id input).Reach Kept s) : Accounted s :=
  reach.invariant (fun _ start => start ▸ rfl) fun _ _ _ _ held kept taken => accounted_step held kept taken

theorem told_of_stores {row : Row} {gains : List (String × String)}
    (stores : Stores row.after gains) {progress : ImportRowProgress}
    (stored : row.after = some progress) {gain : String × String} (gained : gain ∈ gains) :
    ∃ c ∈ progress.groups, c.id = gain.2 ∧ c.isMember = true := by
  rw [stored] at stores
  obtain ⟨c, member, same⟩ := stores.entry gain gained
  exact ⟨c, member, same, stores.consistent c member⟩

theorem told_of_accounted (held : Accounted s) : Told lower s := by
  intro progress stored done groupId _ gain gained _ same
  have stores : Stores s.row.after s.gained := by
    obtain ⟨row, running, gained⟩ := s
    cases running with
    | none => exact held
    | some run =>
      obtain ⟨base, rfl, stores, undone, _⟩ := held
      have none_ := undone.resolve_right fun undone => undone progress stored done
      show Stores row.after (base ++ added run.1)
      rwa [none_, List.append_nil]
  obtain ⟨c, member, id, isMember⟩ := told_of_stores stores stored gained
  exact ⟨c, member, id ▸ same, isMember⟩

/-- In every run of a row's runs that loses nothing of an add, what it stores as done with its
groups lists each one the account got. -/
theorem groups_told (lower : Lower) (id : Nat) (input : RowInput) (s : RowState)
    (reach : (rowRuns lower id input).Reach Kept s) :
    Told lower s :=
  told_of_accounted (accounted_run reach)

def asciiLower (s : String) : String := String.ofList (s.toList.map Char.toLower)

/-- A row of one group. -/
def adaInput : RowInput where
  line := 2
  ouDn := "OU=Staff,DC=corp"
  cn := "Ada"
  samAccountName := "ada"
  userPrincipalName := "ada@corp"
  givenName := "Ada"
  surname := "L"
  displayName := "Ada L"
  initials := none
  mail := none
  otherMailbox := none
  mobile := none
  telephoneNumber := none
  employeeId := none
  description := none
  organisation := []
  managerId := none
  groupIds := ["g-1"]
  usageLocation := none
  managerOrdinal := none
  options := { passwordMode := .random, mustChange := false, enabled := false }

def ada : DirectoryUser where
  objectGuid := "u-1"
  distinguishedName := "CN=Ada,OU=Staff,DC=corp"
  samAccountName := some "ada"
  userPrincipalName := some "ada@corp"
  enabled := false
  managerDn := none
  primaryGroupId := some "513"

def adaFingerprint : AccountFingerprint := ⟨"u-1", none, none, none, none⟩

/-- What the directory and the database answer her row, her account created and in the group before,
or not. -/
def adaAnswers (before : Bool) : ∀ q : Question, Except Thrown q.Answer
  | .job => .ok ⟨0, none⟩
  | .createEvent _ =>
    .ok (if before then some
    ⟨some "u-1", some "CN=Ada,OU=Staff,DC=corp", none, some [.create, .password]⟩ else none)
  | .getUser _ => .ok (some ada)
  | .getAccountFingerprint _ => .ok (some adaFingerprint)
  | .randomPassword | .handedOutPassword => .ok "secret"
  | .heldPassword _ | .managerRow _ | .findObject _ => .ok none
  | .holdPassword .. | .recordEvent _ | .forgetDeletedUser _ | .upsertUser
    _ | .reconcileMemberships _ => .ok ()
  | .hasSchemaAttribute _ => .ok true
  | .createUser .. | .finishUserCreate .. =>
    .ok ⟨true, none, none, [.create, .password], none, some ada, some adaFingerprint⟩
  | .cachedGroups _ =>
    .ok [{ id := "g-1", name := "Staff", sid := none, distinguishedName := "CN=Staff,DC=corp" }]
  | .writeMembership .. => .ok ⟨true, some before, none, none⟩
  | .updateManager .. => .ok ⟨true, none, none⟩

def adaStart : RowState :=
  { row := { id := 7, attempts := 0, input := adaInput, after := none }, running := none, gained := [] }

/-- Her row's first run. -/
def adaAdded (asks : Nat) : List RowAction :=
  .start none :: List.replicate asks (.answer (adaAnswers false) false)

theorem groups_told_of_added : ∃ s,
    (rowRuns asciiLower 7 adaInput).run adaStart (adaAdded 13 ++ [.record]) = some s ∧
    s.gained = [("u-1", "g-1")] ∧ s.row.groups = [⟨"g-1", "Staff", true⟩] ∧ Told asciiLower s := by
  have ran : ((rowRuns asciiLower 7 adaInput).run adaStart (adaAdded 13 ++ [.record])).any
      (fun s => s.gained = [("u-1", "g-1")] ∧ s.row.groups = [⟨"g-1", "Staff", true⟩]) = true := by decide
  obtain ⟨s, reached, gained, groups⟩ := Transition.System.exists_of_any ran
  have reach : (rowRuns asciiLower 7 adaInput).Reach Kept s := .of_run (.start rfl) reached (by decide)
  exact ⟨s, reached, gained, groups, groups_told asciiLower 7 adaInput s reach⟩

/-- The process stops once she's in the group; the next run finds her in it, changes nothing and
stores the step as done, with no group. -/
theorem groups_untold_after_stop : ¬∀ s, (rowRuns asciiLower 7 adaInput).Reachable s → Told asciiLower s := by
  intro told
  have ran : ((rowRuns asciiLower 7 adaInput).run adaStart
      (adaAdded 9 ++ [.stop false, .start none] ++
        List.replicate 8 (.answer (adaAnswers true) false) ++ [.record])).any
        (fun s => ¬Told asciiLower s) = true := by decide
  obtain ⟨s, reach, untold⟩ := Transition.System.Reachable.exists_of_run (.start rfl) ran
  exact untold (told s reach)

end OpenAduc.ImportRows
