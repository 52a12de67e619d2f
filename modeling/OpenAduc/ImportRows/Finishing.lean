import OpenAduc.ImportRows.Creating

namespace OpenAduc.ImportRows
open BulkJobs (RowOutcome RowSnapshot Changes BulkMembershipOp)
open UserCreation (UserCreateStep remainingSteps)
open Dialogue (Only Outside only_pure only_throw only_call)

variable {set : Setting} {w w' w₁ w₂ : World} {lower : Lower}

/-- A progress of the same account, with no step lost. -/
structure Extends (old new : ImportRowProgress) : Prop where
  id : new.id = old.id
  dn : new.distinguishedName = old.distinguishedName
  completed : ∀ step ∈ old.completed, step ∈ new.completed

theorem World.Owned.extends {old new : ImportRowProgress} (owned : w.Owned old)
    (extends_ : Extends old new) : w.Owned new where
  owns := by rw [extends_.id, extends_.dn]; exact owned.owns
  recorded step member := extends_.completed _ (owned.recorded step member)
  stored step member := extends_.completed _ (owned.stored step member)

theorem World.Owned.located {progress : ImportRowProgress} {user : DirectoryUser}
    (owned : w.Owned progress) (mine : w.Mine user) :
    w.Owned (located progress user) where
  owns := ⟨owned.owns.some_, fun _ same => Option.some.inj same ▸ mine.made, mine.place⟩
  recorded := owned.recorded
  stored := owned.stored

/-- The steps left are none of those recorded. -/
theorem left_unrecorded {enabled : Bool} {completed : List ImportStep} {recorded : List UserCreateStep}
    (has : ∀ step ∈ recorded, accountStep step ∈ completed) :
    ∀ step ∈ remainingSteps (accountSteps enabled) (completed.filterMap isAccountStep), step ∉ recorded := by
  intro step left member
  obtain ⟨planned, undone⟩ := List.mem_filter.mp left
  have own : isAccountStep (accountStep step) = some step := by
    cases step with
    | groups => cases enabled <;> simp [accountSteps] at planned
    | _ => rfl
  have done : step ∈ completed.filterMap isAccountStep := List.mem_filterMap.mpr ⟨_, has step member, own⟩
  simp [done] at undone

theorem calm_finishAccount (row : Row) (user : DirectoryUser) (steps planned : List UserCreateStep)
    (progress : ImportRowProgress)
    (job : JobFacts) (mine : w.Mine user) (left : ∀ step ∈ steps, step ∉ w.recorded) :
    Calm set (fun _ _ => True) w (finishAccount row user steps planned progress job) := by
  refine (reads_passwordIfLeft row steps job).calm.bind fun w₁ used later _ => ?_
  refine (calm_withAudit (R := fun _ _ => True) ?_ (fun _ _ _ _ => id)
    (by intro same; cases same)).bind fun w₂ r _ _ => calm_pure fun _ _ => trivial
  refine Calm.bind (R := fun _ _ => True) ?_ fun w₂ r later' _ => ?_
  · refine calm_call (by intros; nofun) (by intros; nofun) (fun w' grows => ?_) fun _ _ _ _ _ _ _ _ => trivial
    have on := later.trans grows
    exact ⟨on.made ▸ mine.made, on.recorded ▸ left⟩
  · exact (reads_readBack _ _).calm

theorem extends_merged {progress : ImportRowProgress} {more : List ImportStep} {fallback : Bool} :
    Extends progress
      { progress with completed := mergeSteps progress.completed more, passwordFallback := fallback } :=
  ⟨rfl, rfl, fun _ done => mem_mergeSteps.mpr (.inl done)⟩

/-- What a run goes on with is its row's own. -/
structure Stands (w : World) (standing : Standing) : Prop where
  owned : w.Owned standing.progress
  mine : AllMine w standing.user

theorem Stands.grows {standing : Standing} (stands : Stands w standing) (grows : w.Grows w') :
    Stands w' standing :=
  ⟨stands.owned.grows grows, stands.mine.grows grows⟩

/-- A run goes on only with the row's own account. -/
theorem calm_resume (row : Row) (is : row.input = w.row.input) (job : JobFacts)
    (progress : ImportRowProgress) (owned : w.Owned progress) :
    Calm set (fun w' found => ∀ standing, found = some standing → Stands w' standing) w
      (resume set.lower row job progress) := by
  refine (calm_findCreated _ row.input is owned.owns).bind fun w₁ found later mine => ?_
  cases found with
  | none => exact calm_pure fun w' _ standing same => nomatch same
  | some user =>
    have unfailed : w.Owned { progress with failed := [] } := owned.extends ⟨rfl, rfl, fun _ => id⟩
    have owned := (unfailed.grows later).located (mine user rfl)
    dsimp only
    split
    · exact calm_pure fun w' grows standing same => Option.some.inj same ▸ Stands.grows ⟨owned, mine⟩ grows
    · refine (calm_finishAccount row user _ _ _ job
        (mine user rfl) (left_unrecorded owned.recorded)).bind fun w₂ finished later' _ => ?_
      refine calm_pure fun w' grows standing same => ?_
      rw [← Option.some.inj same]
      exact Stands.grows ⟨owned.extends extends_merged, mine⟩ (later'.trans grows)

theorem touches_call {guid : String} {q : Question} (touches : q.touches guid = true) :
    Touches guid (fun _ => True) (Dialogue.call q) :=
  only_call touches

theorem touches_askDatabase {guid : String} {q : Question} (touches : q.touches guid = true) :
    Touches guid (fun _ => True) (askDatabase q) :=
  only_askDatabase touches

theorem touches_recordEvent {guid : String} {event : AuditEvent} (other : event.action ≠ .userCreate) :
    Touches guid (fun _ => True) (Asking.recordEvent event) :=
  touches_askDatabase (decide_eq_true (createRecord_of_action other))

theorem touches_withAudit {guid : String} {α : Type} {R : α → Prop} {base : AuditEvent}
    {of : α → WriteOpResult} {m : Asking α}
    (touches : Touches guid R m) (other : base.action ≠ .userCreate) : Touches guid R (withAudit base of m) :=
  Only.withAudit touches fun _ same => decide_eq_true (createRecord_of_action (same ▸ other))

/-- A group's change is asked for that user only. -/
theorem touches_changeGroup (op : BulkMembershipOp) (user : DirectoryUser)
    (groups : String → Option ImportGroup) (c : Changes)
    (groupId : String) : Touches user.objectGuid (fun _ => True) (changeGroup op user groups c groupId) := by
  unfold changeGroup
  dsimp only
  split
  · exact (touches_recordEvent (by intro same; cases same)).then fun _ => only_pure trivial
  next group _ =>
    split
    · exact (touches_recordEvent (by intro same; cases same)).then fun _ => only_pure trivial
    · have written : Touches user.objectGuid (fun _ => True)
        (Asking.writeMembership op user.objectGuid group) :=
        touches_call (decide_eq_true rfl)
      refine (Only.attempt (touches_withAudit written (by intro same; cases same))).then fun r => ?_
      split
      · exact only_pure trivial
      · exact only_throw
      · split
        · exact only_pure trivial
        · split <;> exact only_pure trivial

theorem touches_changeGroups (op : BulkMembershipOp) (user : DirectoryUser)
    (groups : String → Option ImportGroup) (c : Changes)
    (groupIds : List String) : Touches user.objectGuid (fun _ => True)
      (changeGroups op user groups c groupIds) := by
  induction groupIds generalizing c with
  | nil => exact only_pure trivial
  | cons groupId rest ih =>
    refine (touches_changeGroup op user groups c groupId).then fun r => ?_
    obtain ⟨c', stopped⟩ := r
    dsimp only
    split
    · exact only_pure trivial
    · exact ih _

theorem touches_membershipRow (op : BulkMembershipOp) (earlier : List BulkJobs.GroupChange)
    (groupIds : List String) (user : DirectoryUser) :
    Touches user.objectGuid (fun _ => True) (membershipRow lower op earlier groupIds user) := by
  refine (reads_findCachedGroups groupIds).touches.then fun cached =>
    (touches_changeGroups op user _ _ groupIds).then fun c => ?_
  split
  · exact (reads_refreshMembershipCache user.objectGuid).touches.then fun _ => only_pure trivial
  · exact only_pure trivial

theorem extends_keptGroups {progress : ImportRowProgress} {after : Option RowSnapshot} :
    Extends progress (keptGroups progress after) := by
  cases after <;> exact ⟨rfl, rfl, fun _ => id⟩

theorem touches_groupsStep (progress : ImportRowProgress) (input : RowInput) (user : DirectoryUser) :
    Touches user.objectGuid (fun r => Extends progress r.1) (groupsStep lower progress input user) := by
  refine (touches_membershipRow _ _ _ user).then fun outcome => ?_
  have kept : Extends progress (keptGroups progress outcome.after) := extends_keptGroups
  cases outcome with
  | ok =>
    refine only_pure ⟨kept.id, kept.dn, fun step done => ?_⟩
    exact mem_mergeSteps.mpr (.inl (kept.completed step done))
  | failed => exact only_pure kept

/-- The manager is written on that user only. -/
theorem touches_writeManager (user : DirectoryUser) (managerDn : String) :
    Touches user.objectGuid (fun _ => True) (writeManager lower user managerDn) := by
  unfold writeManager
  split
  · exact only_throw
  · refine (reads_call rfl).touches.then fun manager => ?_
    cases manager with
    | none => exact only_throw
    | some manager =>
      have written : Touches user.objectGuid (fun _ => True)
        (Asking.updateManager user.objectGuid managerDn) := touches_call (decide_eq_true rfl)
      refine (touches_withAudit written (by intro same; cases same)).then fun r => ?_
      split
      · exact (reads_refresh user.objectGuid).touches.then fun _ => only_pure trivial
      · exact only_pure trivial

theorem touches_pointAt (user : DirectoryUser) (input : RowInput) (managerId : String) :
    Touches user.objectGuid (fun _ => True) (pointAt lower user input managerId) := by
  refine (reads_call rfl).touches.then fun found => ?_
  cases found with
  | none => exact only_pure trivial
  | some managerDn =>
    dsimp only
    split
    · exact only_pure trivial
    · refine (Only.attempt (touches_writeManager user managerDn)).then fun r => ?_
      split <;> first | exact only_pure trivial | exact only_throw

theorem touches_setManager (user : DirectoryUser) (input : RowInput) :
    Touches user.objectGuid (fun _ => True) (setManager lower user input) := by
  unfold setManager
  split
  · refine (reads_askDatabase rfl).touches.then fun manager => ?_
    split
    · exact touches_pointAt user input _
    · exact only_pure trivial
  · split
    · exact touches_pointAt user input _
    · exact only_pure trivial

/-- A run that ends well leaves what the row may store: a progress of its own, or nothing again. -/
def Ends (w : World) (outcome : RowOutcome ImportRowProgress) : Prop :=
  match outcome.after with
  | some progress => w.Owned progress
  | none => w.row.after = none

theorem Ends.grows {outcome : RowOutcome ImportRowProgress} (ends : Ends w outcome)
    (grows : w.Grows w') : Ends w' outcome := by
  unfold Ends at ends ⊢
  split at ends
  · exact World.Owned.grows ends grows
  · rw [grows.row]
    exact ends

theorem ends_of_after {outcome : RowOutcome ImportRowProgress} {progress : ImportRowProgress}
    (after : outcome.after = some progress)
    (owned : w.Owned progress) : Ends w outcome := by
  unfold Ends
  rw [after]
  exact owned

/-- The outcome stores a progress of the same account, with no step lost. -/
def Storing (progress : ImportRowProgress) (outcome : RowOutcome ImportRowProgress) : Prop :=
  ∃ new, outcome.after = some new ∧ Extends progress new

theorem storing_outcomeOf {progress new : ImportRowProgress} {failures : List Failure}
    (extends_ : Extends progress new) :
    Storing progress (outcomeOf new failures) := by
  have kept : Extends progress { new with failed := failures.map fun f => (f.step, f.message) } :=
    ⟨extends_.id, extends_.dn, extends_.completed⟩
  unfold outcomeOf
  split <;> exact ⟨_, rfl, kept⟩

/-- The steps after the create touch that user only, and store what they did. -/
theorem touches_lastSteps (input : RowInput) (user : DirectoryUser) (progress : ImportRowProgress)
    (failures : List Failure) :
    Touches user.objectGuid (Storing progress) (lastSteps lower input user progress failures) := by
  have grouped : Touches user.objectGuid (fun r => Extends progress r.1)
    (groupsIfLeft lower input user progress failures) := by
    unfold groupsIfLeft
    split
    · exact only_pure ⟨rfl, rfl, fun _ => id⟩
    · exact (touches_groupsStep progress input user).bind fun r kept => only_pure kept
  refine grouped.bind fun r kept => ?_
  obtain ⟨new, failures⟩ := r
  show Touches user.objectGuid (Storing progress) (managerIfLeft lower input user new failures)
  unfold managerIfLeft
  split
  · exact only_pure (storing_outcomeOf kept)
  · refine (touches_setManager user input).then fun failure => ?_
    cases failure with
    | some failure => exact only_pure (storing_outcomeOf kept)
    | none =>
      refine only_pure (storing_outcomeOf ⟨kept.id, kept.dn, fun step done => ?_⟩)
      exact mem_mergeSteps.mpr (.inl (kept.completed step done))

theorem extends_withNothingToDo {input : RowInput} {progress : ImportRowProgress} :
    Extends progress (withNothingToDo input progress) := by
  unfold withNothingToDo
  split <;> split <;> exact ⟨rfl, rfl, fun step done => by simp [mem_mergeSteps, done]⟩

/-- What follows on an account found ends in a row that names it. -/
theorem calm_followUp (row : Row) (is : row.input = w.row.input) (standing : Standing)
    (stands : Stands w standing) :
    Calm set Ends w (followUp set.lower row standing) := by
  have left : Extends standing.progress (withNothingToDo row.input standing.progress) :=
    extends_withNothingToDo
  have owned := stands.owned.extends left
  refine (calm_accountOf standing.user stands.mine _ row.input is owned.owns).bind
    fun w₁ user later mine => ?_
  refine (calm_readLive user mine).bind fun w₂ live later' mine' => ?_
  have owned := owned.grows (later.trans later')
  cases live with
  | none =>
    have storing : Storing (withNothingToDo row.input standing.progress)
      (outcomeOf (withNothingToDo row.input standing.progress)
        (notReadBack (withNothingToDo row.input standing.progress) standing.failures)) :=
      storing_outcomeOf ⟨rfl, rfl, fun _ => id⟩
    obtain ⟨new, after, kept⟩ := storing
    exact calm_pure fun w' grows => (ends_of_after after (owned.extends kept)).grows grows
  | some live =>
    have found := owned.located (mine' live rfl)
    have touches : Touches live.objectGuid
      (Storing (located (withNothingToDo row.input standing.progress) live))
        (lastSteps set.lower row.input live
          (located (withNothingToDo row.input standing.progress) live) standing.failures) :=
      touches_lastSteps row.input live _ standing.failures
    refine (calm_of_touches touches (mine' live rfl).made).mono fun w' outcome grows stores =>
      ends_of_after stores.choose_spec.1 ((found.extends stores.choose_spec.2).grows grows)

theorem ends_of_row {outcome : RowOutcome ImportRowProgress} (after : outcome.after = w.row.after)
    (owned : ∀ progress, w.row.after = some progress → w.Owned progress) : Ends w outcome := by
  unfold Ends
  rw [after]
  split
  next progress stored => exact owned progress stored
  next none_ => exact none_

/-- A run started of a row as it's stored. -/
theorem holds_runImportRow (row : Row) (is : row = w.row) (linked : w.Linked)
    (correlationId : Option String) :
    (outside set).Holds Guard (fun w' r => ∀ outcome, r = .ok outcome → Ends w' outcome) w
      (runImportRow set.lower row correlationId) := by
  have owned (progress : ImportRowProgress) (stored : row.after = some progress) : w.Owned progress :=
    linked.progress progress (is ▸ stored)
  have asked : Calm set (fun _ job => job.createdAt = set.jobCreatedAt) w Asking.job :=
    calm_askDatabase (by intros; nofun) (by intros; nofun) (fun _ _ => trivial)
      fun _ _ _ _ _ _ backs _ => of_decide_eq_true backs
  refine asked.chain (fun w₁ job read => ?_) fun w' e _ => fun _ same => nomatch same
  have row₁ : row = w₁.row := is.trans read.1.row.symm
  refine (calm_earlierRuns row row₁ (fun p stored => (owned p stored).grows read.1) job
    (read.2 job rfl)).chain (fun w₂ found left => ?_)
    fun w' e _ => fun _ same => nomatch same
  have row₂ : row = w₂.row := row₁.trans left.1.row.symm
  have left_ := left.2 found rfl
  cases found with
  | none =>
    refine (holds_createAccount row row₂ _ job correlationId left_).chain
      (fun w₃ created made => ?_) fun w' e _ => fun _ same => nomatch same
    have leaves := made.2 created rfl
    cases created with
    | refused outcome =>
      refine Outside.holds_pure fun w' later r same => ?_
      rw [← Except.ok.inj same]
      refine Ends.grows (w := w₃) ?_ (grows_of_drifts later)
      unfold Ends
      rw [show outcome.after = none from leaves]
      show w₃.row.after = none
      rw [made.1]
      exact left_.after
    | ok progress user failure =>
      exact (calm_followUp row (by rw [made.1, row₂]) _ ⟨leaves.1, leaves.2⟩).holds fun _ _ _ ends => ends
  | some progress =>
    refine (calm_resume row (by rw [row₂]) job progress left_).chain (fun w₃ found resumed => ?_)
      fun w' e _ => fun _ same => nomatch same
    cases found with
    | some standing =>
      exact (calm_followUp row (by rw [resumed.1.row, row₂]) standing
        (resumed.2 _ rfl standing rfl)).holds fun _ _ _ ends => ends
    | none =>
      refine Outside.holds_pure fun w' later r same => ?_
      rw [← Except.ok.inj same]
      have on := read.1.trans (left.1.trans (resumed.1.trans (grows_of_drifts later)))
      have row' : row = w'.row := is.trans on.row.symm
      exact ends_of_row (by rw [← row']; rfl) fun p stored => (owned p (row' ▸ stored)).grows on

end OpenAduc.ImportRows
