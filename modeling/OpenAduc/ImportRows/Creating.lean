import OpenAduc.ImportRows.Finding

namespace OpenAduc.ImportRows
open BulkJobs (RowOutcome RowSnapshot Changes BulkMembershipOp)
open UserCreation (UserCreateStep remainingSteps)
open Dialogue (Only Outside only_pure only_throw only_call)

variable {set : Setting} {w w' w₁ w₂ : World} {α : Type} {R : World → α → Prop} {m : Asking α}

theorem createRecord_of_action {event : AuditEvent} (other : event.action ≠ .userCreate) :
    event.createRecord = none := by
  unfold AuditEvent.createRecord
  split
  next same _ => exact absurd same other
  next => rfl

theorem calm_attempt (calm : Calm set R w m) (stable : ∀ w₁ w₂ a, w₁.Grows w₂ → R w₁ a → R w₂ a) :
    Calm set (fun w' r => ∀ a, r = .ok a → R w' a) w (attempt m) := by
  refine Calm.tryCatch (calm.bind fun w₁ a _ held => calm_pure fun w' grows b same => ?_) fun w₁ e _ =>
    calm_pure fun w' _ a same => nomatch same
  rw [← Except.ok.inj same]
  exact stable w₁ w' a grows held

theorem calm_recordEvent {event : AuditEvent} (other : event.action ≠ .userCreate) :
    Calm set (fun _ _ => True) w (Asking.recordEvent event) := by
  refine Calm.tryCatch ?_ fun _ _ _ => calm_throw
  have only : Only (fun q => q = Question.recordEvent event) (fun _ => True)
    (Dialogue.call (Question.recordEvent event) : Asking Unit) :=
    only_call rfl
  refine calm_of_only only fun w' _ q same => ?_
  subst same
  have none_ := createRecord_of_action other
  refine ⟨fun create is => (nomatch none_.symm.trans is), fun x made stored w₂ answered => ?_⟩
  exact (recorded_cases answered).elim id (·.trans (notes_of_none none_))

theorem calm_withAudit {base : AuditEvent} {of : α → WriteOpResult} (calm : Calm set R w m)
    (stable : ∀ w₁ w₂ a, w₁.Grows w₂ → R w₁ a → R w₂ a) (other : base.action ≠ .userCreate) :
    Calm set R w (withAudit base of m) := by
  refine (calm_attempt calm stable).bind fun w₁ r _ held => ?_
  cases r with
  | ok result =>
    refine (calm_recordEvent (by exact other)).bind fun w₂ _ later _ => ?_
    exact calm_pure fun w' grows => stable w₁ w' result (later.trans grows) (held result rfl)
  | error err => exact (calm_recordEvent (by exact other)).bind fun w₂ _ _ _ => calm_throw

/-- A create that made the account speaks of one made for the row, under the name planned. -/
def Speaks (w : World) (r : UserCreateResult) : Prop :=
  .create ∈ r.completed → w.made ≠ [] ∧ plannedDn w.row.input ∈ w.places ∧ AllMine w r.user ∧
    ∀ f, r.fingerprint = some f → f.objectGuid ∈ w.made

theorem Speaks.grows {r : UserCreateResult} (speaks : Speaks w r) (grows : w.Grows w') : Speaks w' r := by
  intro created
  obtain ⟨some_, place, mine, made⟩ := speaks created
  rw [grows.row]
  exact ⟨grows.made ▸ some_, grows.places _ place, mine.grows grows, fun f same => grows.made ▸ made f same⟩

theorem calm_orRead {known : Option α} {P : World → α → Prop} {m : Asking (Option α)}
    (stable : ∀ w₁ w₂ a, w₁.Grows w₂ → P w₁ a → P w₂ a)
    (has : ∀ a, known = some a → P w a) (calm : Calm set (fun w' found => ∀ a, found = some a → P w' a) w m) :
    Calm set (fun w' found => ∀ a, found = some a → P w' a) w (orRead known m) := by
  cases known with
  | some a => exact calm_pure fun w' grows b same => stable w w' b grows (has b same)
  | none => exact calm.tryCatch fun w₁ e _ => calm_pure fun w' _ a same => nomatch same

theorem calm_getAccountFingerprint {dn : String} (some_ : w.made ≠ []) (place : dn ∈ w.places) :
    Calm set (fun w' found => ∀ f : AccountFingerprint, found = some f → f.objectGuid ∈ w'.made) w
      (Asking.getAccountFingerprint (.distinguishedName dn)) := by
  refine calm_call (by intros; nofun) (by intros; nofun) (fun _ _ => trivial)
    fun w₁ w₂ found later settled linked backs after f same => ?_
  rw [same] at backs
  obtain ⟨u, member, told⟩ := List.any_eq_true.mp backs
  simp only [Bool.and_eq_true, decide_eq_true_eq] at told
  rw [told.1.2]
  exact ((mine_of_place some_ place later settled.apart linked member told.1.1).grows after).made

/-- Reading the new account back finds it under the name planned, or nothing. -/
theorem calm_readBack (r : UserCreateResult) (dn : String) (is : dn = plannedDn w.row.input)
    (told : Speaks w r) :
    Calm set Speaks w (readBack r dn) := by
  unfold readBack
  split
  · exact calm_pure fun w' grows => told.grows grows
  next left =>
    have created : .create ∈ r.completed := by
      by_contra none_
      exact left (.inl none_)
    obtain ⟨some_, place, mine, made⟩ := told created
    rw [← is] at place
    refine (calm_orRead (P := World.Mine) (fun _ _ _ grows mine => mine.grows grows) mine
      (calm_getUser_dn some_ place)).bind fun w₁ user later mine => ?_
    have some_ : w₁.made ≠ [] := later.made ▸ some_
    have place := later.places dn place
    refine (calm_orRead (P := fun w f => f.objectGuid ∈ w.made)
      (fun _ _ _ grows made => grows.made ▸ made) (fun f same => later.made ▸ made f same)
      (calm_getAccountFingerprint some_ place)).bind fun w₂ fingerprint later' made =>
        calm_pure fun w' grows _ => ?_
    have on := later'.trans grows
    refine ⟨on.made ▸ some_, ?_, AllMine.grows mine on, fun f same => grows.made ▸ made f same⟩
    rw [on.row, later.row, ← is]
    exact on.places dn place

/-- The world a create leaves: no record of the account yet, and its result speaks of it. -/
structure Asked (w : World) (row : Row) (r : Except Thrown UserCreateResult) : Prop where
  row : w.row = row
  unrecorded : w.Unrecorded
  speaks : ∀ result, r = .ok result → Speaks w result

theorem Asked.grows {row : Row} {r : Except Thrown UserCreateResult} (asked : Asked w row r)
    (grows : w.Grows w') : Asked w' row r where
  row := grows.row.trans asked.row
  unrecorded := asked.unrecorded.grows grows
  speaks result same := (asked.speaks result same).grows grows

theorem World.Unrecorded.makes {u : DirectoryUser} (unrecorded : w.Unrecorded) : (w.makes u).Unrecorded :=
  ⟨unrecorded.after, unrecorded.events, unrecorded.recorded, unrecorded.stored⟩

/-- A create asked as planned. -/
theorem holds_createUser {input : UserCreateInput} (steps : List UserCreateStep) (password : String)
    (mustChange : Bool)
    (unrecorded : w.Unrecorded) (dn : input.dn = plannedDn w.row.input)
    (sam : input.samAccountName = w.row.input.samAccountName)
    (upn : input.userPrincipalName = w.row.input.userPrincipalName) :
    (outside set).Holds Guard (fun w' r => Asked w' w.row r) w
      (Asking.createUser input steps password mustChange) := by
  refine Outside.holds_call (fun w' later => ?_) fun w' x w'' w₃ later answers after => ?_
  · have grows := grows_of_drifts later
    refine ⟨unrecorded.grows grows, ?_⟩
    rw [grows.row]
    exact ⟨dn, sam, upn⟩
  · have grows := grows_of_drifts later
    obtain ⟨_, _, made, stored, answered⟩ := answers
    refine Asked.grows (w := w'') ?_ (grows_of_drifts after)
    rcases created_cases answered with ⟨rfl, none_⟩ | ⟨u, rfl, admits, tells⟩
    · exact ⟨grows.row, unrecorded.grows grows, fun result same created => absurd created (none_ result same)⟩
    · refine ⟨grows.row, (unrecorded.grows grows).makes, fun result same created => ?_⟩
      simp only [World.admits, Bool.and_eq_true, decide_eq_true_eq] at admits
      have told := tells result same
      rw [World.tells, decide_eq_false (not_not.mpr created), Bool.false_or, Bool.and_eq_true] at told
      obtain ⟨user, fingerprint⟩ := told
      have made : u.objectGuid ∈ (w'.makes u).made := List.mem_append_right _ List.mem_cons_self
      have place : u.distinguishedName ∈ (w'.makes u).places := List.mem_append_right _ List.mem_cons_self
      refine ⟨List.ne_nil_of_mem made, ?_, fun v is => ?_, fun f is => ?_⟩
      · show plannedDn w'.row.input ∈ _
        rw [grows.row, ← dn, ← admits.1.1.1.1]
        exact place
      · rw [is, Option.all_some, Bool.and_eq_true, decide_eq_true_eq, decide_eq_true_eq] at user
        exact ⟨user.1 ▸ made, user.2 ▸ place⟩
      · rw [is, Option.all_some, decide_eq_true_eq] at fingerprint
        exact fingerprint ▸ made

theorem holds_attempt {P : World → Except Thrown α → Prop} (holds : (outside set).Holds Guard P w m)
    (stable : ∀ w₁ w₂ r, w₁.Grows w₂ → P w₁ r → P w₂ r) :
    (outside set).Holds Guard (fun w' r => ∃ x, r = .ok x ∧ P w' x) w (attempt m) := by
  have ended : (outside set).Holds Guard (fun w' (r : Except Thrown (Except Thrown α)) =>
      match r with
      | .ok x => P w' x
      | .error e => P w' (.error e)) w (Except.ok <$> m) :=
    holds.chain (fun w₁ a held => Outside.holds_pure fun w' later =>
      stable w₁ w' _ (grows_of_drifts later) held) fun _ _ held => held
  refine ended.catching (fun w' x held => ⟨x, rfl, held⟩) fun w₁ e held =>
    Outside.holds_pure fun w' later => ?_
  exact ⟨.error e, rfl, stable w₁ w' _ (grows_of_drifts later) held⟩

/-- The event is recorded, or isn't, and nothing else of what a run relies on changes. -/
def Noted (w : World) (event : AuditEvent) (w' : World) : Prop :=
  ∃ w₁ w₂, w.Grows w₁ ∧ (w₂ = w₁ ∨ w₂ = w₁.notes event) ∧ w₂.Grows w'

theorem holds_recordEvent {event : AuditEvent} (guard : Guard w (.recordEvent event)) :
    (outside set).Holds Guard (fun w' _ => Noted w event w') w (Asking.recordEvent event) := by
  have asked : (outside set).Holds Guard (fun w' _ => Noted w event w') w
    (Dialogue.call (Question.recordEvent event)) := by
    refine Outside.holds_call (fun w' later create is => ?_) fun w₁ x w₂ w₃ later answers after => ?_
    · have grows := grows_of_drifts later
      obtain ⟨unrecorded, dn, owns⟩ := guard create is
      exact ⟨unrecorded.grows grows, by rw [grows.row, dn], owns.grows grows⟩
    · obtain ⟨_, _, made, stored, answered⟩ := answers
      exact ⟨w₁, w₂, grows_of_drifts later, recorded_cases answered, grows_of_drifts after⟩
  refine asked.catching (fun _ _ noted => noted) fun w₁ e noted => Outside.holds_throw fun w' later => ?_
  obtain ⟨w₂, w₃, before, is, after⟩ := noted
  exact ⟨w₂, w₃, before, is, after.trans (grows_of_drifts later)⟩

theorem Noted.row {event : AuditEvent} (noted : Noted w event w') : w'.row = w.row := by
  obtain ⟨w₁, w₂, before, rfl | rfl, after⟩ := noted
  · rw [after.row, before.row]
  · have same : (w₁.notes event).row = w₁.row := by
      unfold World.notes
      split <;> rfl
    rw [after.row, same, before.row]

/-- What a create leaves of the row: an account made for it, or nothing. -/
def Leaves (w : World) : Created → Prop
  | .ok progress user _ => w.Owned progress ∧ AllMine w user
  | .refused outcome => outcome.after = none

/-- What's said of a create that's been audited: nothing is recorded but the steps it did. -/
structure Audited (w : World) (r : UserCreateResult) : Prop where
  speaks : Speaks w r
  recorded : ∀ step ∈ w.recorded, step ∈ r.completed
  stored : w.stored = []

theorem Audited.grows {r : UserCreateResult} (audited : Audited w r) (grows : w.Grows w') : Audited w' r where
  speaks := audited.speaks.grows grows
  recorded := grows.recorded ▸ audited.recorded
  stored := grows.stored.trans audited.stored

/-- The event of a create says what its result does. -/
theorem createRecord_stepsAudit {base : AuditEvent} {planned : List UserCreateStep}
    {input : UserCreateInput} {r : UserCreateResult}
    {create : CreateRecord} {errorCode : Option BulkJobs.RowErrorCode}
    {errorMessage : Option String} {success : Bool}
    (is : AuditEvent.createRecord { base with
      success, errorCode, errorMessage
      targetId := (stepsAudit planned input r).targetId.orElse fun _ => base.targetId
      before := (stepsAudit planned input r).before
      after := (stepsAudit planned input r).after } = some create) :
    .create ∈ r.completed ∧ create.targetDn = base.targetDn ∧ create.completed = r.completed ∧
      create.targetId = (stepsAudit planned input r).targetId.orElse fun _ => base.targetId := by
  unfold AuditEvent.createRecord at is
  split at is
  next completed _ _ _ after =>
    simp only [stepsAudit] at after
    split at after
    next created =>
      simp only [Option.some.injEq, EventState.steps.injEq] at after
      rw [← after.2.2.2.2.1, if_pos created] at is
      cases is
      exact ⟨created, rfl, rfl, rfl⟩
    next => cases after
  next => cases is

theorem Speaks.notes {r : UserCreateResult} (speaks : Speaks w r) (event : AuditEvent) :
    Speaks (w.notes event) r := by
  unfold World.notes
  split
  · intro created
    obtain ⟨some_, place, mine, made⟩ := speaks created
    exact ⟨some_, place, fun u same => ⟨(mine u same).made, (mine u same).place⟩, made⟩
  · exact speaks

/-- An audit row that lists what was done speaks of the account made. -/
theorem Audited.of_noted {event : AuditEvent} {row : Row} {r : UserCreateResult}
    (asked : Asked w row (.ok r)) (noted : Noted w event w')
    (is : ∀ create, event.createRecord = some create → create.completed = r.completed) : Audited w' r := by
  obtain ⟨w₁, w₂, before, same, after⟩ := noted
  have unrecorded := asked.unrecorded.grows before
  have speaks := (asked.speaks r rfl).grows before
  refine Audited.grows (w := w₂) ?_ after
  have unnoted : Audited w₁ r := ⟨speaks, by rw [unrecorded.recorded]; nofun, unrecorded.stored⟩
  rcases same with rfl | rfl
  · exact unnoted
  · cases noting : event.createRecord with
    | none =>
      rw [notes_of_none noting]
      exact unnoted
    | some create =>
      have speaks := speaks.notes event
      rw [notes_of_some noting, unrecorded.recorded] at speaks ⊢
      exact ⟨speaks, fun step member => is create noting ▸ member, unrecorded.stored⟩

theorem Calm.holds {P : World → Except Thrown α → Prop} (calm : Calm set R w m)
    (meets : ∀ w' r, w.Grows w' → (∀ a, r = .ok a → R w' a) → P w' r) : (outside set).Holds Guard P w m :=
  Outside.Holds.mono calm (fun _ _ => id) fun w' r held => meets w' r held.1 held.2

theorem createRecord_of_after {event : AuditEvent} (none_ : event.after = none) :
    event.createRecord = none := by
  unfold AuditEvent.createRecord
  split
  next some_ => cases none_.symm.trans some_
  next => rfl

theorem made_of_told {r : UserCreateResult} (mine : AllMine w r.user)
    (made : ∀ f, r.fingerprint = some f → f.objectGuid ∈ w.made)
    {guid : String}
    (is : ((r.user.map (·.objectGuid)).orElse fun _ => r.fingerprint.map (·.objectGuid)) =
      some guid) : guid ∈ w.made := by
  cases user : r.user with
  | some u =>
    rw [user] at is
    exact Option.some.inj is ▸ (mine u user).made
  | none =>
    rw [user] at is
    obtain ⟨f, told, same⟩ :=
      Option.map_eq_some_iff.mp (show r.fingerprint.map (·.objectGuid) = some guid from is)
    exact same ▸ made f told

/-- A create that is audited leaves what it did on record, or did nothing that counts. -/
theorem holds_withAudit_create {base : AuditEvent} {planned : List UserCreateStep}
    {input : UserCreateInput} {m : Asking UserCreateResult}
    (dn : base.targetDn = plannedDn w.row.input) (id : base.targetId = none) (none_ : base.after = none)
    (op : (outside set).Holds Guard (fun w' r => Asked w' w.row r) w m) :
    (outside set).Holds Guard (fun w' r => w'.row = w.row ∧ ∀ result, r = .ok result → Audited w' result) w
      (withAudit base (stepsAudit planned input) m) := by
  refine (holds_attempt op fun _ _ _ grows asked => asked.grows grows).chain (fun w₁ r ended => ?_)
    fun w₁ e ended => ?_
  · obtain ⟨x, same, asked⟩ := ended
    rw [Except.ok.inj same]
    cases x with
    | ok result =>
      refine (holds_recordEvent fun create noting => ?_).chain (fun w₂ _ noted => ?_) fun w₂ e noted => ?_
      · obtain ⟨created, dn', _, id'⟩ := createRecord_stepsAudit noting
        obtain ⟨some_, place, mine, made⟩ := asked.speaks result rfl created
        rw [dn', dn, ← asked.row]
        refine ⟨asked.unrecorded, rfl, some_, fun guid is => ?_, place⟩
        rw [id', id] at is
        refine made_of_told mine made ?_
        rw [← is]
        show (stepsAudit planned input result).targetId = _
        cases (stepsAudit planned input result).targetId <;> rfl
      · refine Outside.holds_pure fun w' later => ?_
        have on := grows_of_drifts later
        refine ⟨on.row.trans (noted.row.trans asked.row), fun r same => ?_⟩
        rw [← Except.ok.inj same]
        refine (Audited.of_noted asked noted fun create noting => ?_).grows on
        exact (createRecord_stepsAudit noting).2.2.1
      · exact ⟨noted.row.trans asked.row, fun _ same => nomatch same⟩
    | error err =>
      refine (holds_recordEvent fun create noting => ?_).chain (fun w₂ _ noted => ?_) fun w₂ e noted => ?_
      · rw [createRecord_of_after (by exact none_)] at noting
        cases noting
      · exact Outside.holds_throw fun w' later =>
          ⟨(grows_of_drifts later).row.trans (noted.row.trans asked.row), fun _ same => nomatch same⟩
      · exact ⟨noted.row.trans asked.row, fun _ same => nomatch same⟩
  · obtain ⟨x, same, _⟩ := ended
    cases same

/-- An account is created only of a row no record tells of; what's left of it is the row's own. -/
theorem holds_createAccount (row : Row) (is : row = w.row) (planned : List UserCreateStep)
    (job : JobFacts) (correlationId : Option String)
    (unrecorded : w.Unrecorded) :
    (outside set).Holds Guard (fun w' r => w'.row = w.row ∧ ∀ created, r = .ok created → Leaves w' created) w
      (createAccount row planned job correlationId) := by
  refine (reads_passwordFor row job).calm.chain (fun w₁ used read => ?_) fun w' e read =>
    ⟨read.1.row, fun _ same => nomatch same⟩
  refine ((reads_usageLocationWritable row.input).calm).chain (fun w₂ writable read' => ?_) fun w' e read' =>
    ⟨(read.1.trans read'.1).row, fun _ same => nomatch same⟩
  have grows := read.1.trans read'.1
  have unrecorded := unrecorded.grows grows
  rw [← grows.row] at is ⊢
  have op : (outside set).Holds Guard (fun w' r => Asked w' w₂.row r) w₂ (do
      readBack (← Asking.createUser (createInput row.input (plannedDn row.input) writable) planned
        used.password used.mustChange)
        (plannedDn row.input)) := by
    refine (holds_createUser planned used.password used.mustChange unrecorded ?_ ?_ ?_).chain
      (fun w₃ r asked => ?_) fun _ _ asked =>
      ⟨asked.row, asked.unrecorded, fun _ same => nomatch same⟩
    · rw [← is]; rfl
    · rw [← is]; rfl
    · rw [← is]; rfl
    · refine (calm_readBack r (plannedDn row.input) (by rw [asked.row, is])
        (asked.speaks r rfl)).holds fun w₄ r' later speaks => ?_
      exact ⟨later.row.trans asked.row, asked.unrecorded.grows later, speaks⟩
  refine (holds_withAudit_create (by rw [← is]) rfl rfl op).chain (fun w₃ r audited => ?_) fun w₃ e audited =>
    ⟨audited.1, fun _ same => nomatch same⟩
  have held := audited.2 r rfl
  split
  · refine Outside.holds_pure fun w' later =>
      ⟨(grows_of_drifts later).row.trans audited.1, fun created same => ?_⟩
    rw [← Except.ok.inj same]
    rfl
  next created =>
    refine Outside.holds_pure fun w' later =>
      ⟨(grows_of_drifts later).row.trans audited.1, fun leaves same => ?_⟩
    rw [← Except.ok.inj same]
    have held := held.grows (grows_of_drifts later)
    obtain ⟨some_, place, mine, made⟩ := held.speaks (not_not.mp created)
    refine ⟨⟨⟨some_, fun guid is => made_of_told mine made is, ?_⟩, fun step member =>
      ?_, fun step member => ?_⟩, mine⟩
    · cases user : r.user with
      | none =>
        rw [(grows_of_drifts later).row, audited.1, ← is] at place
        simpa [user] using place
      | some u => simpa [user] using (mine u user).place
    · exact List.mem_map_of_mem (held.recorded step member)
    · exact nomatch (held.stored ▸ member : step ∈ ([] : List ImportStep))

end OpenAduc.ImportRows
