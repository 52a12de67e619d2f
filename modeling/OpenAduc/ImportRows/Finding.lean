import OpenAduc.ImportRows.Calm

namespace OpenAduc.ImportRows
open UserCreation (UserCreateStep)

variable {set : Setting} {w w' w₁ w₂ : World}

theorem calm_askDatabase {q : Question} {R : World → q.Answer → Prop}
    (creates : ∀ input steps password mustChange, q ≠ .createUser input steps password mustChange)
    (records : ∀ event, q ≠ .recordEvent event) (guard : ∀ w', w.Grows w' → Guard w' q)
    (meets : ∀ w₁ w₂ a, w.Grows w₁ → w₁.Settled set → w₁.Linked → w₁.backs set q (.ok a) = true →
      w₁.Grows w₂ → R w₂ a) :
    Calm set R w (askDatabase q) :=
  (calm_call creates records guard meets).tryCatch fun _ _ _ => calm_throw

/-- An account anyone else can't have is one made for the row. -/
theorem mine_of_apart {u : DirectoryUser} (apart : w.Apart set) (linked : w.Linked) (member : u ∈ w.accounts)
    (taken : adoptable set.lower u (set.whenCreated u.objectGuid) w.row.input set.jobCreatedAt = true ∨
      w.made ≠ [] ∧ ((same set.lower u.samAccountName w.row.input.samAccountName &&
          same set.lower u.userPrincipalName w.row.input.userPrincipalName) = true ∨
        ∃ place ∈ w.places, set.lower u.distinguishedName = set.lower place)) : w.Mine u := by
  have made : u.objectGuid ∈ w.made := by
    by_contra other
    obtain ⟨foreign, rest⟩ := apart u member other
    rcases taken with adopted | ⟨some_, named | ⟨place, had, same⟩⟩
    · exact Bool.false_ne_true (foreign.symm.trans adopted)
    · exact Bool.false_ne_true ((rest some_).1.symm.trans named)
    · exact (rest some_).2 place had same
  exact ⟨made, linked.placed u member made⟩

/-- Every account found is one made for the row. -/
def AllMine (w : World) (found : Option DirectoryUser) : Prop := ∀ u, found = some u → w.Mine u

theorem calm_getUser_id {guid : String} (made : guid ∈ w.made) :
    Calm set AllMine w (Asking.getUser (.objectGuid guid)) := by
  refine calm_call (by intros; nofun) (by intros; nofun) (fun _ _ => trivial)
    fun w₁ w₂ found later _ linked backs after u same => ?_
  rw [same] at backs
  obtain ⟨member, is⟩ := Bool.and_eq_true_iff.mp backs
  have id : u.objectGuid = guid := of_decide_eq_true is
  have made' : u.objectGuid ∈ w₁.made := by rwa [id, later.made]
  exact World.Mine.grows ⟨made', linked.placed u (of_decide_eq_true member) made'⟩ after

theorem mine_of_place {u : DirectoryUser} {dn : String} (some_ : w.made ≠ [])
    (place : dn ∈ w.places) (later : w.Grows w₁)
    (apart : w₁.Apart set) (linked : w₁.Linked) (member : u ∈ w₁.accounts)
    (names : Identifier.names set.lower (.distinguishedName dn) u = true) : w₁.Mine u := by
  refine mine_of_apart apart linked member (.inr ⟨later.made ▸ some_, .inr ⟨dn, later.places dn place, ?_⟩⟩)
  exact of_decide_eq_true names

theorem calm_getUser_dn {dn : String} (some_ : w.made ≠ []) (place : dn ∈ w.places) :
    Calm set AllMine w (Asking.getUser (.distinguishedName dn)) := by
  refine calm_call (by intros; nofun) (by intros; nofun) (fun _ _ => trivial)
    fun w₁ w₂ found later settled linked backs after u same => ?_
  rw [same] at backs
  obtain ⟨member, names⟩ := Bool.and_eq_true_iff.mp backs
  exact (mine_of_place some_ place later settled.apart linked (of_decide_eq_true member) names).grows after

/-- What an account found by its logon name is, where it may be taken for the row's. -/
theorem calm_getUser_name (input : RowInput) (is : input = w.row.input) :
    Calm set (fun w' found => ∀ u, found = some u →
        (adoptable set.lower u (set.whenCreated u.objectGuid) input set.jobCreatedAt = true → w'.Mine u) ∧
          (w.made ≠ [] → same set.lower u.userPrincipalName input.userPrincipalName = true → w'.Mine u))
      w (Asking.getUser (.samAccountName input.samAccountName)) := by
  refine calm_call (by intros; nofun) (by intros; nofun) (fun _ _ => trivial)
    fun w₁ w₂ found later settled linked backs after u found_ => ?_
  rw [found_] at backs
  obtain ⟨member, names⟩ := Bool.and_eq_true_iff.mp backs
  rw [is, ← later.row] at names ⊢
  have taken := mine_of_apart settled.apart linked (of_decide_eq_true member)
  refine ⟨fun adopted => (taken (.inl adopted)).grows after, fun some_ upn => ?_⟩
  refine (taken (.inr ⟨later.made ▸ some_, .inl ?_⟩)).grows after
  exact Bool.and_eq_true_iff.mpr ⟨names, upn⟩

theorem AllMine.grows {found : Option DirectoryUser} (mine : AllMine w found) (grows : w.Grows w') :
    AllMine w' found :=
  fun u same => (mine u same).grows grows

theorem calm_findByName (progress : ImportRowProgress) (input : RowInput) (is : input = w.row.input)
    (some_ : w.made ≠ [])
    (place : progress.distinguishedName ∈ w.places) :
    Calm set AllMine w (findByName set.lower progress input) := by
  refine (calm_getUser_dn some_ place).bind fun w₁ byDn later mine => ?_
  cases byDn with
  | some byDn => exact calm_pure fun w' grows => mine.grows grows
  | none =>
    refine (calm_getUser_name input (is.trans (by rw [later.row]))).bind fun w₂ byName _ held =>
      calm_pure fun w' grows u found => ?_
    obtain ⟨named, upn⟩ := Option.filter_eq_some_iff.mp found
    exact ((held u named).2 (later.made ▸ some_) upn).grows grows

theorem calm_findCreated (progress : ImportRowProgress) (input : RowInput) (is : input = w.row.input)
    (owns : w.Owns progress.id progress.distinguishedName) :
    Calm set AllMine w (findCreated set.lower progress input) := by
  unfold findCreated
  split
  · exact calm_findByName progress input is owns.some_ owns.place
  next id has =>
    refine (calm_getUser_id (owns.id id has)).bind fun w₁ byId later mine => ?_
    cases byId with
    | some byId => exact calm_pure fun w' grows => mine.grows grows
    | none =>
      have owns := owns.grows later
      exact calm_findByName progress input (is.trans (by rw [later.row])) owns.some_ owns.place

theorem lastCreate_of_linked (settled : w.Settled set) (linked : w.Linked) :
    w.lastCreate set (set.lower (plannedDn w.row.input)) = w.events.getLast? := by
  have all : w.events.filter
    (fun e => set.databaseLower e.targetDn = set.lower (plannedDn w.row.input)) = w.events := by
    rw [List.filter_eq_self]
    intro e member
    rw [(linked.events e member).1, settled.alike, decide_eq_true_eq]
  rw [World.lastCreate, all]

/-- What earlier runs left is of an account made for the row; where there's nothing, no record tells
of one. -/
def Left (w : World) : Option ImportRowProgress → Prop
  | some progress => w.Owned progress
  | none => w.Unrecorded

theorem Left.grows {found : Option ImportRowProgress} (left : Left w found) (grows : w.Grows w') :
    Left w' found := by
  cases found with
  | some progress => exact World.Owned.grows left grows
  | none => exact World.Unrecorded.grows left grows

/-- An earlier run's create, found in the audit trail, is of the row's account. -/
theorem calm_createdBefore (input : RowInput) (is : input = w.row.input) (fresh : w.row.after = none) :
    Calm set Left w (createdBefore set.lower input) := by
  have asked : Calm set (fun w' found => ∀ w₂, w'.Grows w₂ → Left w₂ (found.map fun create => {
      id := create.targetId
      distinguishedName := create.targetDn.getD (plannedDn input)
      createCorrelationId := create.correlationId
      completed := create.completed.getD [.create]
      groups := []
      failed := []
      passwordFallback := false
      adopted := false })) w (Asking.createEvent (set.lower (plannedDn input))) := by
    refine calm_askDatabase (by intros; nofun) (by intros; nofun) (fun _ _ => trivial)
      fun w₁ w₂ found later settled linked backs after w₃ then_ => ?_
    refine Left.grows (w := w₁) ?_ (after.trans then_)
    have none_ : w₁.row.after = none := by rw [later.row, fresh]
    rw [is, ← later.row] at backs
    have backs : reads (w₁.lastCreate set (set.lower (plannedDn w₁.row.input))) found = true := backs
    rw [lastCreate_of_linked settled linked] at backs
    cases found with
    | none =>
      cases last : w₁.events.getLast? with
      | some e =>
        rw [last] at backs
        cases backs
      | none =>
        refine ⟨none_, List.getLast?_eq_none_iff.mp last, ?_, linked.stored none_⟩
        refine List.eq_nil_iff_forall_not_mem.mpr fun step member => ?_
        obtain ⟨e, some_, _⟩ := linked.recorded none_ step member
        cases last.symm.trans some_
    | some create =>
      cases last : w₁.events.getLast? with
      | none =>
        rw [last] at backs
        cases backs
      | some e =>
        rw [last] at backs
        simp only [reads, Bool.and_eq_true, decide_eq_true_eq] at backs
        obtain ⟨⟨id, dn⟩, completed⟩ := backs
        obtain ⟨_, owns⟩ := linked.events e (List.mem_of_getLast? last)
        refine ⟨?_, fun step member => ?_, fun step member => ?_⟩
        · simp only [id, dn, Option.getD_some]
          exact owns
        · obtain ⟨e', last', has⟩ := linked.recorded none_ step member
          cases last.symm.trans last'
          simp only [completed, Option.getD_some]
          exact List.mem_map_of_mem has
        · exact nomatch (linked.stored none_ ▸ member : step ∈ ([] : List ImportStep))
  refine asked.bind fun w₁ found later left => ?_
  cases found with
  | none => exact calm_pure fun w' grows => left w' grows
  | some create => exact calm_pure fun w' grows => left w' grows

/-- An account adopted for holding the row's names is the row's own. -/
theorem calm_adopt (input : RowInput) (is : input = w.row.input) (job : JobFacts)
    (createdAt : job.createdAt = set.jobCreatedAt)
    (unrecorded : w.Unrecorded) : Calm set Left w (adopt set.lower input job) := by
  refine (calm_getUser_name input is).bind fun w₁ found later held => ?_
  cases found with
  | none => exact calm_pure fun w' grows => unrecorded.grows (later.trans grows)
  | some found =>
    have read : Calm set (fun _ account =>
      ∀ f, account = some f → f.whenCreated = set.whenCreated found.objectGuid) w₁
        (Asking.getAccountFingerprint (.objectGuid found.objectGuid)) := by
      refine calm_call (by intros; nofun) (by intros; nofun) (fun _ _ => trivial)
        fun w₂ w₃ account _ _ _ backs _ f same => ?_
      rw [same] at backs
      obtain ⟨u, _, told⟩ := List.any_eq_true.mp backs
      simp only [Identifier.names, Bool.and_eq_true, decide_eq_true_eq] at told
      rw [told.2, told.1.1]
    refine read.bind fun w₂ account later' created => ?_
    split
    next adopted =>
      refine calm_pure fun w' grows => ?_
      have mine : w₁.Mine found := by
        refine (held found rfl).1 ?_
        cases account with
        | none => simp [adoptable, generalizedTime] at adopted
        | some f =>
          rw [createdAt] at adopted
          rw [← created f rfl]
          exact adopted
      have mine := mine.grows (later'.trans grows)
      have unrecorded := unrecorded.grows (later.trans (later'.trans grows))
      refine ⟨⟨List.ne_nil_of_mem mine.made, fun guid same => ?_, mine.place⟩, fun step member =>
        ?_, fun step member => ?_⟩
      · exact Option.some.inj same ▸ mine.made
      · exact nomatch (unrecorded.recorded ▸ member : step ∈ ([] : List UserCreateStep))
      · exact nomatch (unrecorded.stored ▸ member : step ∈ ([] : List ImportStep))
    next => exact calm_pure fun w' grows => unrecorded.grows (later.trans (later'.trans grows))

/-- What earlier runs left is the row's account, if anything. -/
theorem calm_earlierRuns (row : Row) (is : row = w.row)
    (owned : ∀ progress, row.after = some progress → w.Owned progress)
    (job : JobFacts) (createdAt : job.createdAt = set.jobCreatedAt) :
    Calm set Left w (earlierRuns set.lower row job) := by
  unfold earlierRuns
  split
  next progress stored => exact calm_pure fun w' grows => (owned progress stored).grows grows
  next none_ =>
    refine (calm_createdBefore row.input (by rw [is]) (is ▸ none_)).bind fun w₁ found later left => ?_
    cases found with
    | some progress => exact calm_pure fun w' grows => left.grows grows
    | none =>
      dsimp only
      split
      · exact calm_adopt row.input (by rw [is, later.row]) job createdAt left
      · exact calm_pure fun w' grows => left.grows grows

theorem calm_accountOf (user : Option DirectoryUser) (mine : AllMine w user)
    (progress : ImportRowProgress) (input : RowInput)
    (is : input = w.row.input) (owns : w.Owns progress.id progress.distinguishedName) :
    Calm set AllMine w (accountOf set.lower user progress input) := by
  cases user with
  | some user => exact calm_pure fun w' grows => mine.grows grows
  | none => exact calm_findCreated progress input is owns

theorem calm_refresh {guid : String} (made : guid ∈ w.made) : Calm set AllMine w (refresh guid) := by
  refine (calm_getUser_id made).bind fun w₁ found _ mine => ?_
  cases found with
  | none => exact (reads_askDatabase rfl).calm.bind fun w₂ _ _ _ => calm_pure fun w' _ u same => nomatch same
  | some live =>
    exact (reads_askDatabase rfl).calm.bind fun w₂ _ later _ => calm_pure fun w' grows =>
      mine.grows (later.trans grows)

theorem calm_readLive (user : Option DirectoryUser) (mine : AllMine w user) :
    Calm set AllMine w (readLive user) := by
  cases user with
  | none => exact calm_pure fun w' _ u same => nomatch same
  | some user =>
    refine (calm_refresh (mine user rfl).made).bind fun w₁ live later held => calm_pure fun w' grows => ?_
    cases live with
    | none => exact mine.grows (later.trans grows)
    | some live => exact held.grows grows

end OpenAduc.ImportRows
