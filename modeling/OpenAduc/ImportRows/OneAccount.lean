import OpenAduc.ImportRows.Finishing
import OpenAduc.ImportRows.Told

namespace OpenAduc.ImportRows
open BulkJobs (RowOutcome)
open UserCreation (UserCreateStep)

variable {set : Setting} {w w' : World} {s t : RunState} {a : RunAction}

def Row.completed (row : Row) : List ImportStep := (row.after.map (·.completed)).getD []

/-- A step is taken where no other account can be taken for the row's, the database lowers its DN
as the code does, and one made for it but recorded nowhere still keeps others from its names; and
an error thrown is not recorded over a progress with steps done. -/
structure Careful (set : Setting) (s : RunState) (a : RunAction) : Prop where
  settled : s.world.Settled set
  held : s.world.Held set
  kept : a = .record → ∀ err, s.running = some (.done (.error err)) →
    (s.world.row.recorded (.error err)).completed = s.world.row.completed

/-- The steps of an account that are run when a question is asked. -/
def Question.accountSteps : Question → List UserCreateStep
  | .createUser _ steps _ _ | .finishUserCreate _ steps _ _ => steps
  | _ => []

/-- The account a question writes to. -/
def Question.writesTo : Question → Option String
  | .finishUserCreate guid .. | .writeMembership _ guid _ | .updateManager guid _ => some guid
  | _ => none

/-- What never goes wrong with a row. -/
structure Sound (s : RunState) : Prop where
  once : s.world.made.length ≤ 1
  rerun : ∀ q next, s.running = some (.ask q next) → ∀ step ∈ q.accountSteps, step ∉ s.world.recorded
  stored : ∀ step ∈ s.world.stored, step ∈ s.world.row.completed
  writes : ∀ q next, s.running = some (.ask q next) → ∀ guid, q.writesTo = some guid → guid ∈ s.world.made
  account : ∀ progress, s.world.row.after = some progress → ∀ guid, progress.id = some guid →
    guid ∈ s.world.made

structure Running (set : Setting) (s : RunState) : Prop where
  linked : s.world.Linked
  once : s.world.made.length ≤ 1
  holds : ∀ m, s.running = some m → (outside set).Holds Guard
    (fun w' r => ∀ outcome, r = .ok outcome → Ends w' outcome) s.world m

theorem accountStep_of_isAccountStep {step : ImportStep} {own : UserCreateStep}
    (is : isAccountStep step = some own) : accountStep own = step := by
  cases step <;> cases is <;> rfl

/-- What's recorded of a row leaves the accounts and the events. -/
theorem linked_records {result : Except Thrown (RowOutcome ImportRowProgress)} (linked : w.Linked)
    (input : (w.row.recorded result).input = w.row.input)
    (progress : ∀ p, (w.row.recorded result).after = some p → (w.records result).Owned p)
    (nothing : (w.row.recorded result).after = none → completedOf result = [] ∧ w.stored = [] ∧
      ∀ step ∈ w.recorded, ∃ e, w.events.getLast? = some e ∧ step ∈ e.completed) :
    (w.records result).Linked where
  placed := linked.placed
  events e member := by
    obtain ⟨dn, owns⟩ := linked.events e member
    refine ⟨?_, owns.some_, owns.id, owns.place⟩
    rw [dn]
    exact congrArg plannedDn input.symm
  progress := progress
  stored none_ := by
    obtain ⟨done, stored, _⟩ := nothing none_
    show w.stored ++ completedOf result = []
    rw [done, stored]
    rfl
  recorded none_ := by
    obtain ⟨done, _, recorded⟩ := nothing none_
    show ∀ step ∈ w.recorded ++ (completedOf result).filterMap isAccountStep, _
    rw [done, List.filterMap_nil, List.append_nil]
    exact recorded

/-- A run's outcome, stored, still leads to the row's account. -/
theorem linked_records_ok {outcome : RowOutcome ImportRowProgress} (linked : w.Linked)
    (ends : Ends w outcome) :
    (w.records (.ok outcome)).Linked := by
  unfold Ends at ends
  refine linked_records linked rfl (fun p stored => ?_) fun none_ => ?_
  · have after : outcome.after = some p := stored
    rw [after] at ends
    have done : completedOf (.ok outcome) = p.completed := by
      show (outcome.after.map (·.completed)).getD [] = _
      rw [after]
      rfl
    refine ⟨⟨ends.owns.some_, ends.owns.id, ends.owns.place⟩, fun step member => ?_, fun step member => ?_⟩
    · rcases List.mem_append.mp member with old | new
      · exact ends.recorded step old
      · rw [done] at new
        obtain ⟨own, has, is⟩ := List.mem_filterMap.mp new
        rwa [accountStep_of_isAccountStep is]
    · exact (List.mem_append.mp member).elim (ends.stored step) fun new => done ▸ new
  · have after : outcome.after = none := none_
    rw [after] at ends
    refine ⟨?_, linked.stored ends, linked.recorded ends⟩
    show (outcome.after.map (·.completed)).getD [] = _
    rw [after]
    rfl

/-- A run that failed stores nothing that leads elsewhere. -/
theorem linked_records_error {err : Thrown} (linked : w.Linked)
    (same : (w.row.recorded (.error err)).completed = w.row.completed) :
    (w.records (.error err)).Linked := by
  have nulled (none_ : (w.row.recorded (.error err)).after = none) : w.stored = [] ∧
      ∀ step ∈ w.recorded, ∃ e, w.events.getLast? = some e ∧ step ∈ e.completed := by
    cases after : w.row.after with
    | none => exact ⟨linked.stored after, linked.recorded after⟩
    | some p =>
      have owned := linked.progress p after
      have done : p.completed = [] := by
        unfold Row.completed at same
        rw [none_, after] at same
        exact same.symm
      refine ⟨List.eq_nil_iff_forall_not_mem.mpr fun step member => ?_, fun step member => ?_⟩
      · exact nomatch (done ▸ owned.stored step member : step ∈ ([] : List ImportStep))
      · exact nomatch (done ▸ owned.recorded step member : accountStep step ∈ ([] : List ImportStep))
  have back : (w.row.recorded (.error err)).input = w.row.input ∧
      ((w.row.recorded (.error err)).after = w.row.after ∨ (w.row.recorded (.error err)).after = none) := by
    cases err with
    | unavailable audited => cases audited <;> exact ⟨rfl, by simp [Row.recorded]⟩
    | refusal | other => exact ⟨rfl, .inr rfl⟩
  refine linked_records linked back.1 (fun p stored => ?_) fun none_ => ⟨rfl, nulled none_⟩
  have owned := linked.progress p (back.2.elim (fun same => same ▸ stored) fun none_ =>
    nomatch none_.symm.trans stored)
  refine ⟨⟨owned.owns.some_, owned.owns.id, owned.owns.place⟩, fun step member => ?_, fun step member => ?_⟩
  · exact owned.recorded step ((List.append_nil w.recorded) ▸ member)
  · exact owned.stored step ((List.append_nil w.stored) ▸ member)

/-- No second account is made while the one made keeps one of its names, or is recorded. -/
theorem once_of_answered {q : Question} {x : Except Thrown q.Answer} {made : Option DirectoryUser}
    {stored : Bool} (guard : Guard w q)
    (held : w.Held set) (once : w.made.length ≤ 1)
    (answered : w.answered set q x made stored = some w') : w'.made.length ≤ 1 := by
  rcases answered_cases guard answered with rfl | ⟨u, rfl, making⟩ | ⟨event, create, _, _, rfl⟩
  · exact once
  · have none_ : w.made = [] := by
      by_contra some_
      obtain ⟨v, member, named⟩ := held some_ making.guard.after making.guard.events
      have free := List.all_eq_true.mp making.free v member
      rw [decide_eq_false (other_of_fresh making.fresh member), making.dn, making.sam, making.upn,
        Option.any_some, Option.any_some] at free
      rw [Bool.false_or, Bool.not_eq_true'] at free
      exact Bool.false_ne_true (free.symm.trans named)
    show (w.made ++ [u.objectGuid]).length ≤ 1
    rw [none_]
    exact Nat.le_refl 1
  · unfold World.notes
    split <;> exact once

/-- A run starts from what the row has stored. -/
theorem running_start {correlationId : Option String} (held : Running set s)
    (taken : s.step set (.start correlationId) = some t) :
    Running set t := by
  obtain ⟨w, running⟩ := s
  cases running with
  | some m => cases taken
  | none =>
    rw [← Option.some.inj taken]
    have linked : World.Linked { w with row := { w.row with attempts := w.row.attempts + 1 } } := by
      refine ⟨held.linked.placed, fun e member => ?_, fun p stored =>
        ?_, held.linked.stored, held.linked.recorded⟩
      · obtain ⟨dn, owns⟩ := held.linked.events e member
        exact ⟨dn, owns.some_, owns.id, owns.place⟩
      · obtain ⟨owns, recorded, stored⟩ := held.linked.progress p stored
        exact ⟨⟨owns.some_, owns.id, owns.place⟩, recorded, stored⟩
    refine ⟨linked, held.once, fun m same => ?_⟩
    rw [← Option.some.inj same]
    exact holds_runImportRow _ rfl linked correlationId

/-- An answer keeps the run's promise, whatever others did meanwhile. -/
theorem running_answer {answers : ∀ q : Question, Except Thrown q.Answer}
    {made : Option DirectoryUser} {stored : Bool}
    (held : Running set s) (careful : Careful set s (.answer answers made stored))
    (taken : s.step set (.answer answers made stored) = some t) : Running set t := by
  obtain ⟨w, running⟩ := s
  cases running with
  | none => cases taken
  | some m =>
    cases m with
    | done result => cases taken
    | ask q next =>
      obtain ⟨w', answered, rfl⟩ := Option.map_eq_some_iff.mp taken
      have holds := held.holds _ rfl
      refine ⟨held.linked.answered holds.asked answered,
        once_of_answered holds.asked careful.held held.once answered, fun m same => ?_⟩
      rw [← Option.some.inj same]
      exact holds.answered ⟨careful.settled, held.linked, made, stored, answered⟩

/-- A run that stops anywhere leaves what it did found again. -/
theorem running_stop {made : Option DirectoryUser} {stored : Bool} (held : Running set s)
    (careful : Careful set s (.stop made stored))
    (taken : s.step set (.stop made stored) = some t) : Running set t := by
  obtain ⟨w, running⟩ := s
  cases running with
  | none => cases taken
  | some m =>
    cases m with
    | done result =>
      rw [← Option.some.inj taken]
      exact ⟨held.linked, held.once, fun _ same => nomatch same⟩
    | ask q next =>
      obtain ⟨w', answered, rfl⟩ := Option.map_eq_some_iff.mp taken
      have guard := (held.holds _ rfl).asked
      exact ⟨held.linked.answered guard answered,
        once_of_answered guard careful.held held.once answered, fun _ same => nomatch same⟩

/-- What a run comes to is recorded on its row. -/
theorem running_record (held : Running set s) (careful : Careful set s .record)
    (taken : s.step set .record = some t) : Running set t := by
  obtain ⟨w, running⟩ := s
  cases running with
  | none => cases taken
  | some m =>
    cases m with
    | ask q next => cases taken
    | done result =>
      rw [← Option.some.inj taken]
      have ends := (held.holds _ rfl).ended
      refine ⟨?_, held.once, fun _ same => nomatch same⟩
      cases result with
      | ok outcome => exact linked_records_ok held.linked (ends outcome rfl)
      | error err => exact linked_records_error held.linked (careful.kept rfl err rfl)

theorem made_of_changed {c : Change} (changed : w.changed set c = some w') : w'.made = w.made :=
  (grows_of_changed changed).made

theorem running_change {c : Change} (held : Running set s)
    (taken : s.step set (.change c) = some t) : Running set t := by
  obtain ⟨w', changed, rfl⟩ := Option.map_eq_some_iff.mp taken
  refine ⟨held.linked.changed changed, (made_of_changed changed).symm ▸ held.once, fun m same => ?_⟩
  exact (held.holds m same).drift ⟨c, changed⟩

theorem running_step (held : Running set s) (careful : Careful set s a)
    (taken : s.step set a = some t) : Running set t := by
  cases a with
  | start => exact running_start held taken
  | answer => exact running_answer held careful taken
  | stop => exact running_stop held careful taken
  | record => exact running_record held careful taken
  | change => exact running_change held taken

theorem running_run {id : Nat} {input : RowInput}
    (reach : (accountRuns set id input).Reach (Careful set) s) : Running set s := by
  refine reach.invariant (fun s start => ?_) fun _ _ _ _ held careful taken => running_step held careful taken
  obtain ⟨accounts, rfl⟩ := start
  exact ⟨⟨fun _ _ made => (nomatch made), fun _ member => (nomatch member), fun _ stored =>
    (nomatch stored), fun _ => rfl,
    fun _ _ member => nomatch member⟩, Nat.zero_le 1, fun _ same => nomatch same⟩

/-- However a row's runs are stopped, fail and are taken up again, and whatever others do to the
directory's accounts meanwhile, as long as no account of theirs can be taken for the row's, one
made but recorded nowhere keeps others from its names, and no error is recorded over steps done:
the row never gets a second account, runs no step of it again that's recorded as done, loses no
step it stored, and writes to no account but its own. -/
theorem row_sound (set : Setting) (id : Nat) (input : RowInput) (s : RunState)
    (reach : (accountRuns set id input).Reach (Careful set) s) :
    Sound s := by
  have held := running_run reach
  refine ⟨held.once, fun q next running step member => ?_, fun step member =>
    ?_, fun q next running guid writes => ?_, fun p stored guid has => ?_⟩
  · have guard := (held.holds _ running).asked
    cases q with
    | createUser => exact guard.1.recorded ▸ List.not_mem_nil
    | finishUserCreate => exact guard.2 step member
    | _ => cases member
  · unfold Row.completed
    cases after : s.world.row.after with
    | none => exact nomatch (held.linked.stored after ▸ member : step ∈ ([] : List ImportStep))
    | some p => exact (held.linked.progress p after).stored step member
  · have guard := (held.holds _ running).asked
    cases q with
    | finishUserCreate => exact Option.some.inj writes ▸ guard.1
    | writeMembership | updateManager => exact Option.some.inj writes ▸ guard
    | _ => cases writes
  · exact (held.linked.progress p stored).owns.id guid has

def World.keeps (w : World) : Option (Asking (RowOutcome ImportRowProgress)) → RunAction → Bool
  | some (.done (.error err)), .record => decide ((w.row.recorded (.error err)).completed = w.row.completed)
  | _, _ => true

theorem keeps_iff : s.world.keeps s.running a = true ↔
    (a = .record → ∀ err, s.running = some (.done (.error err)) →
      (s.world.row.recorded (.error err)).completed = s.world.row.completed) := by
  unfold World.keeps
  split
  next err running =>
    rw [decide_eq_true_eq]
    refine ⟨fun same _ e is => ?_, fun all => all rfl err running⟩
    cases running.symm.trans is
    exact same
  next other => exact ⟨fun _ record err running => (other err running record).elim, fun _ => rfl⟩

instance : Decidable (w.Apart set) := inferInstanceAs (Decidable (∀ _ ∈ _, _))

instance : Decidable (w.Settled set) :=
  decidable_of_iff (w.Apart set ∧ set.databaseLower (plannedDn w.row.input) =
    set.lower (plannedDn w.row.input))
    ⟨fun both => ⟨both.1, both.2⟩, fun settled => ⟨settled.apart, settled.alike⟩⟩

instance : Decidable (w.Held set) := inferInstanceAs (Decidable (_ → _))

instance : Decidable (Careful set s a) :=
  decidable_of_iff (s.world.Settled set ∧ s.world.Held set ∧ s.world.keeps s.running a = true)
    ⟨fun all => ⟨all.1, all.2.1, keeps_iff.mp all.2.2⟩, fun careful =>
      ⟨careful.settled, careful.held, keeps_iff.mpr careful.kept⟩⟩

def adaSetting : Setting where
  lower := asciiLower
  databaseLower := asciiLower
  jobCreatedAt := 0
  whenCreated _ := some "20260101000000.0Z"

def bob : DirectoryUser :=
  { ada with
    objectGuid := "u-2"
    distinguishedName := "CN=Bob"
    samAccountName := some "bob"
    userPrincipalName := none }

def adaReads : ∀ q : Question, Except Thrown q.Answer
  | .getAccountFingerprint _ => .ok (some { adaFingerprint with whenCreated := some "20260101000000.0Z" })
  | q => adaAnswers false q

/-- Her create fails, though it has landed. -/
def adaFails : ∀ q : Question, Except Thrown q.Answer
  | .createUser .. => .ok ⟨false, some .directoryUnavailable, some "timed out", [], none, none, none⟩
  | q => adaReads q

def adaRuns : List RunAction :=
  .start none :: List.replicate 3 (.answer adaReads none false) ++
    [.answer adaFails (some ada) false, .answer adaReads none false, .record,
      .change (.appears bob), .start none] ++
    List.replicate 16 (.answer adaReads none false) ++
      [.record, .change (.goes "u-1"), .change (.appears ada)]

def adaWorld : RunState where
  world := {
    row := { id := 7, attempts := 0, input := adaInput, after := none }
    accounts := []
    events := []
    made := []
    places := []
    recorded := []
    stored := [] }
  running := none

/-- The next run takes her account on and finishes it; it's deleted and restored since. -/
theorem row_sound_failed_create : ∃ s, (accountRuns adaSetting 7 adaInput).run adaWorld adaRuns = some s ∧
    s.world.made = ["u-1"] ∧ s.world.row.completed = IMPORT_STEPS.filter (· ≠ .enable) ∧ Sound s := by
  have ran : ((accountRuns adaSetting 7 adaInput).run adaWorld adaRuns).any
      (fun s => s.world.made = ["u-1"] ∧
        s.world.row.completed = IMPORT_STEPS.filter (· ≠ .enable)) = true := by
    decide
  obtain ⟨s, reached, made, completed⟩ := Transition.System.exists_of_any ran
  have reach : (accountRuns adaSetting 7 adaInput).Reach (Careful adaSetting) s :=
    .of_run (.start ⟨[], rfl⟩) reached (by decide)
  exact ⟨s, reached, made, completed, row_sound adaSetting 7 adaInput s reach⟩

end OpenAduc.ImportRows
