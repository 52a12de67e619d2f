import OpenAduc.ClassPasses.Service

namespace OpenAduc.ClassPasses

/-- The pass a step in this phase still has to store, delete or note. -/
def Phase.holds : Phase → Option TapMethod
  | .recording _ (.issued user method _ _) | .unstored _ user method => method.map fun id => { user, id }
  | .storeFailing _ user method deleted => if deleted then none else method.map fun id => { user, id }
  | _ => none

/-- The phases of making a pass. -/
def Phase.makes : Phase → Bool
  | .rechecking _ | .revoking .. | .refusing .. => false
  | _ => true

namespace State
variable (s : State)

/-- While the claim holds, the row names no pass. -/
def Clear (x : Step) : Prop :=
  s.Claims x → s.row.entraMethodId = none ∧ s.row.staleMethodId = none

/-- While the claim holds, the row names the pass the step read. -/
def Read (x : Step) (pass : PassRecord) : Prop :=
  (s.Claims x → s.row.entra = pass.entra) ∧ ∀ p, pass.entra = some p → p.id < s.nextMethod

def Bounded (method : Option Nat) : Prop :=
  ∀ id ∈ method, id < s.nextMethod

/-- What a step under way knows: what the row says while its claim holds, and
which passes are gone. -/
def Knows (x : Step) : Prop :=
  match x.phase with
  | .claimed => s.Claims x → x.how ≠ .issue → s.row.entraMethodId = none
  | .deletingStale _ stale => (s.Claims x → s.row.entraMethodId = none ∧ s.row.stale = some stale) ∧
      stale.id < s.nextMethod
  | .clearingStale _ stale => (s.Claims x → s.row.entraMethodId = none ∧ s.row.stale = some stale) ∧
      stale.id < s.nextMethod ∧ stale ∉ s.live
  | .checking _ | .creating .. => s.Clear x
  | .recording _ (.issued _ method _ _) => s.Clear x ∧ s.Bounded method
  | .recording _ (.unmade _) => s.Claims x → s.row.entraMethodId = none
  | .unstored _ _ method => s.Clear x ∧ s.Bounded method
  | .storeFailing _ user method deleted => s.Clear x ∧ s.Bounded method ∧
      (deleted = true → ∀ id ∈ method, (⟨user, id⟩ : TapMethod) ∉ s.live)
  | .rechecking pass | .revoking pass _ => s.Read x pass
  | .refusing pass _ deleted => s.Read x pass ∧ (deleted = true → ∀ p, pass.entra = some p → p ∉ s.live)

/-- A step that makes a pass has claimed the row, and knows what its phase says. -/
structure Fits (x : Step) : Prop where
  claims : x.phase.makes = true → x.token.isSome
  knows : s.Knows x

/-- A row names at most one pass, by the user it was made for; a row that
isn't issued has none of the class's. -/
structure RowFits (r : PassRecord) (nextMethod : Nat) : Prop where
  one : r.entraMethodId.isSome → r.staleMethodId = none
  user : r.entraMethodId.isSome ∨ r.staleMethodId.isSome → r.entraUserId.isSome
  issued : r.status ≠ .issued → r.entraMethodId = none
  bounded : ∀ p, r.Names p → p.id < nextMethod

/-- The steps under way, each with its own claim, and what the row says while one holds. -/
structure Sound : Prop where
  keyed : Table.Keyed Step.id s.steps
  stepIds : ∀ x ∈ s.steps, x.id < s.nextStep
  claim : ∀ t ∈ s.row.claimToken, t < s.nextToken
  tokens : ∀ x ∈ s.steps, ∀ t ∈ x.token, t < s.nextToken
  single : ∀ x ∈ s.steps, ∀ y ∈ s.steps, x.token.isSome → x.token = y.token → x = y
  live : ∀ p ∈ s.live, p.id < s.nextMethod
  made : ∀ p ∈ s.made, p.id < s.nextMethod
  row : RowFits s.row s.nextMethod
  fits : ∀ x ∈ s.steps, s.Fits x

/-- What one statement of a step does, from `s` to `t`, the step itself aside.
Where it is `kept`, every live pass the row named or the step held is named,
held or told of. -/
structure Statement (kept : Prop) (t : State) (x : Step) (next : Option Phase) : Prop where
  steps : t.steps = s.steps
  nextStep : t.nextStep = s.nextStep
  nextToken : t.nextToken = s.nextToken
  claim : t.row.claimToken = s.row.claimToken ∨ t.row.claimToken = none
  nextMethod : s.nextMethod ≤ t.nextMethod
  live : ∀ p ∈ t.live, p.id < t.nextMethod ∧ (p.id < s.nextMethod → p ∈ s.live)
  made : ∀ p ∈ t.made, p.id < t.nextMethod ∧ (p ∈ s.made ∨ (kept → ∃ phase ∈ next, phase.holds = some p))
  told : ∀ p ∈ s.told, p ∈ t.told
  row : RowFits t.row t.nextMethod
  others : ∀ y ∈ s.steps, y.id ≠ x.id → t.Claims y → s.Claims y ∧ t.row.ids = s.row.ids
  fits : ∀ phase ∈ next, t.Fits { x with phase }
  accounts : kept → ∀ p ∈ t.live, s.row.Names p ∨ x.phase.holds = some p →
    t.row.Names p ∨ (∃ phase ∈ next, phase.holds = some p) ∨ p ∈ t.told
  fenced : x.token.isSome → ¬s.Claims x → t.row = s.row

variable {s} {t : State} {x y : Step} {kept : Prop}

theorem names_of_ids {r r' : PassRecord} (same : r'.ids = r.ids) : r'.entra = r.entra ∧
    r'.stale = r.stale := by
  simp only [PassRecord.ids, Prod.mk.injEq] at same
  simp only [PassRecord.entra, PassRecord.stale, PassRecord.method, same, and_self]

theorem method_eq_some {r : PassRecord} {id : Option Nat} {p : TapMethod} :
    r.method id = some p ↔ r.entraUserId = some p.user ∧ id = some p.id := by
  obtain ⟨user, id'⟩ := p
  cases named : r.entraUserId <;> cases id <;> simp [PassRecord.method, named]

/-- What a step knows stays so through what others do: its claim is lost, or
the row still names what it did; and no pass that is gone comes back. -/
theorem Fits.frame (fits : s.Fits x) (claims : t.Claims x → s.Claims x ∧ t.row.ids = s.row.ids)
    (nextMethod : s.nextMethod ≤ t.nextMethod)
    (gone : ∀ p ∈ t.live, p.id < s.nextMethod → p ∈ s.live) : t.Fits x := by
  have entraId : t.row.ids = s.row.ids → t.row.entraMethodId = s.row.entraMethodId := fun same => by
    simp only [PassRecord.ids, Prod.mk.injEq] at same
    exact same.2.1
  have staleId : t.row.ids = s.row.ids → t.row.staleMethodId = s.row.staleMethodId := fun same => by
    simp only [PassRecord.ids, Prod.mk.injEq] at same
    exact same.2.2
  have clear : s.Clear x → t.Clear x := by
    intro known holds
    obtain ⟨before, same⟩ := claims holds
    rw [entraId same, staleId same]
    exact known before
  have bounded : ∀ {method}, s.Bounded method → t.Bounded method := fun known id member =>
    Nat.lt_of_lt_of_le (known id member) nextMethod
  have read : ∀ {pass}, s.Read x pass → t.Read x pass := by
    intro pass known
    refine ⟨fun holds => ?_, fun p named => Nat.lt_of_lt_of_le (known.2 p named) nextMethod⟩
    obtain ⟨before, same⟩ := claims holds
    rw [(names_of_ids same).1]
    exact known.1 before
  refine ⟨fits.claims, ?_⟩
  have fits := fits.knows
  unfold State.Knows at fits ⊢
  split at fits
  next =>
    intro holds how
    obtain ⟨before, same⟩ := claims holds
    rw [entraId same]
    exact fits before how
  next =>
    refine ⟨fun holds => ?_, Nat.lt_of_lt_of_le fits.2 nextMethod⟩
    obtain ⟨before, same⟩ := claims holds
    rw [entraId same, (names_of_ids same).2]
    exact fits.1 before
  next =>
    refine ⟨fun holds => ?_, Nat.lt_of_lt_of_le fits.2.1 nextMethod, fun member =>
      fits.2.2 (gone _ member fits.2.1)⟩
    obtain ⟨before, same⟩ := claims holds
    rw [entraId same, (names_of_ids same).2]
    exact fits.1 before
  next => exact clear fits
  next => exact clear fits
  next => exact ⟨clear fits.1, bounded fits.2⟩
  next =>
    intro holds
    obtain ⟨before, same⟩ := claims holds
    rw [entraId same]
    exact fits before
  next => exact ⟨clear fits.1, bounded fits.2⟩
  next =>
    exact ⟨clear fits.1, bounded fits.2.1, fun deleted id member back =>
      fits.2.2 deleted id member (gone _ back (fits.2.1 id member))⟩
  next => exact read fits
  next => exact read fits
  next =>
    exact ⟨read fits.1, fun deleted p named back => fits.2 deleted p named (gone p back (fits.1.2 p named))⟩

/-- A step that goes on leaves the others as they are. -/
theorem mem_goOn {next : Option Phase} (keyed : Table.Keyed Step.id s.steps) (member : x ∈ s.steps) :
    y ∈ (s.goOn x next).steps ↔ (y ∈ s.steps ∧ y.id ≠ x.id) ∨ ∃ phase ∈ next, y = { x with phase } := by
  cases next with
  | none => simp [goOn]
  | some phase =>
    simp only [goOn, Table.mem_update, Option.mem_some_iff, exists_eq_left']
    constructor
    · rintro ⟨z, old, rfl⟩
      split
      next same =>
        cases keyed.eq_of_key old member same
        exact .inr rfl
      next other => exact .inl ⟨old, other⟩
    · rintro (⟨old, other⟩ | rfl)
      · exact ⟨y, old, if_neg other⟩
      · exact ⟨x, member, if_pos rfl⟩

/-- A statement keeps the steps sound. -/
theorem Sound.goOn (sound : s.Sound) (member : x ∈ s.steps) {next : Option Phase}
    (made : s.Statement kept t x next) :
    (t.goOn x next).Sound := by
  have memberT : x ∈ t.steps := made.steps ▸ member
  have keyedT : Table.Keyed Step.id t.steps := made.steps ▸ sound.keyed
  have steps : ∀ y ∈ (t.goOn x next).steps, (y ∈ s.steps ∧ y.id ≠ x.id) ∨ ∃ phase ∈ next,
    y = { x with phase } := by
    intro y memberY
    rw [← made.steps]
    exact (mem_goOn keyedT memberT).mp memberY
  have old : ∀ y ∈ (t.goOn x next).steps, ∃ z ∈ s.steps, z.id = y.id ∧ z.token = y.token := by
    intro y memberY
    rcases steps y memberY with ⟨before, _⟩ | ⟨phase, _, rfl⟩
    · exact ⟨y, before, rfl, rfl⟩
    · exact ⟨x, member, rfl, rfl⟩
  refine ⟨?_, ?_, ?_, ?_, ?_, fun p live => (made.live p live).1,
    fun p member => (made.made p member).1, made.row, ?_⟩
  · cases next with
    | none => exact keyedT.delete
    | some phase => exact keyedT.update fun _ _ => rfl
  · intro y memberY
    obtain ⟨z, before, id, _⟩ := old y memberY
    have bound := sound.stepIds z before
    show y.id < t.nextStep
    rw [made.nextStep, ← id]
    exact bound
  · intro token held
    show token < t.nextToken
    rw [made.nextToken]
    rcases made.claim with same | none_
    · exact sound.claim token (same ▸ held)
    · rw [show (t.goOn x next).row.claimToken = none from none_] at held
      cases held
  · intro y memberY token held
    obtain ⟨z, before, _, same⟩ := old y memberY
    show token < t.nextToken
    rw [made.nextToken]
    exact sound.tokens z before token (same ▸ held)
  · intro y memberY z memberZ isSome same
    rcases steps y memberY with ⟨beforeY, otherY⟩ | ⟨phaseY, nextY, rfl⟩ <;>
      rcases steps z memberZ with ⟨beforeZ, otherZ⟩ | ⟨phaseZ, nextZ, rfl⟩
    · exact sound.single y beforeY z beforeZ isSome same
    · exact absurd (congrArg Step.id (sound.single y beforeY x member isSome same)) otherY
    · exact absurd (congrArg Step.id (sound.single x member z beforeZ isSome same)).symm otherZ
    · rw [Option.mem_unique nextY nextZ]
  · intro y memberY
    rcases steps y memberY with ⟨before, other⟩ | ⟨phase, isNext, rfl⟩
    · exact (sound.fits y before).frame (made.others y before other) made.nextMethod fun p live =>
        (made.live p live).2
    · have fits := made.fits phase isNext
      exact ⟨fits.claims, fits.knows⟩

/-- A statement that changes nothing but where the step is. -/
theorem Statement.moved (sound : s.Sound) {next : Option Phase}
    (fits : ∀ phase ∈ next, s.Fits { x with phase })
    (holds : ∀ p, x.phase.holds = some p → ∃ phase ∈ next, phase.holds = some p) :
    s.Statement kept s x next where
  steps := rfl
  nextStep := rfl
  nextToken := rfl
  claim := .inl rfl
  nextMethod := Nat.le_refl _
  live p live := ⟨sound.live p live, fun _ => live⟩
  made p member := ⟨sound.made p member, .inl member⟩
  told _ member := member
  row := sound.row
  others _ _ _ holds := ⟨holds, rfl⟩
  fits := fits
  accounts _ p _ := Or.imp id fun held => .inl (holds p held)
  fenced _ _ := rfl

/-- A statement that deletes a pass in Entra. -/
theorem Statement.deleted (sound : s.Sound) {p : TapMethod} {next : Option Phase}
    (fits : ∀ phase ∈ next, (s.deleteMethod p).Fits { x with phase })
    (holds : ∀ q, x.phase.holds = some q → q = p) : s.Statement kept (s.deleteMethod p) x next where
  steps := rfl
  nextStep := rfl
  nextToken := rfl
  claim := .inl rfl
  nextMethod := Nat.le_refl _
  live q member := by
    have live := (List.mem_filter.mp member).1
    exact ⟨sound.live q live, fun _ => live⟩
  made p member := ⟨sound.made p member, .inl member⟩
  told _ member := member
  row := sound.row
  others _ _ _ holds := ⟨holds, rfl⟩
  fits := fits
  accounts _ q live := Or.imp id fun held => by
    have other := (List.mem_filter.mp live).2
    simp [holds q held] at other
  fenced _ _ := rfl

theorem update_of_matches {token : Option Nat} {set : PassRecord → PassRecord} (matches_ : s.Matches token) :
    s.update token set = { s with row := { set s.row with claimToken := none } } :=
  if_pos matches_

theorem update_of_lost {token : Option Nat} {set : PassRecord → PassRecord} (lost : ¬s.Matches token) :
    s.update token set = s :=
  if_neg lost

theorem claims_of_matches (isSome : x.token.isSome) (matches_ : s.Matches x.token) : s.Claims x := by
  rcases matches_ with none_ | held
  · simp [none_] at isSome
  · exact ⟨isSome, held⟩

/-- A step's last statement, which updates the row where its claim holds, and
may tell the operator of a pass. -/
theorem Statement.updated (sound : s.Sound) {set : PassRecord → PassRecord} {tells : Option TapMethod}
    (row : s.Matches x.token → RowFits (set s.row) s.nextMethod)
    (landed : kept → s.Matches x.token → ∀ p ∈ s.live, s.row.Names p ∨ x.phase.holds = some p →
      (set s.row).Names p ∨ p ∈ s.told ∨ tells = some p)
    (lost : kept → ¬s.Matches x.token → ∀ p ∈ s.live, x.phase.holds = some p → tells = some p) :
    s.Statement kept ((s.update x.token set).tell tells) x none := by
  by_cases matches_ : s.Matches x.token
  · rw [update_of_matches matches_]
    refine ⟨rfl, rfl, rfl, .inr rfl, Nat.le_refl _, fun p live => ⟨sound.live p live, fun _ => live⟩,
      fun p member => ⟨sound.made p member, .inl member⟩, fun p member => ?_, ?_, ?_, by simp, ?_, ?_⟩
    · exact List.mem_append_right _ member
    · have fits := row matches_
      exact ⟨fits.one, fits.user, fits.issued, fits.bounded⟩
    · rintro y _ _ ⟨isSome, held⟩
      rw [← held] at isSome
      cases isSome
    · intro met p live before
      rcases landed met matches_ p live before with named | told | now
      · exact .inl named
      · exact .inr (.inr (List.mem_append_right _ told))
      · exact .inr (.inr (List.mem_append_left _ (by simp [now])))
    · intro isSome lost
      exact absurd (claims_of_matches isSome matches_) lost
  · rw [update_of_lost matches_]
    refine ⟨rfl, rfl, rfl, .inl rfl, Nat.le_refl _, fun p live => ⟨sound.live p live, fun _ => live⟩,
      fun p member => ⟨sound.made p member, .inl member⟩, fun p member => ?_, sound.row,
      fun _ _ _ holds => ⟨holds, rfl⟩, by simp, ?_, fun _ _ => rfl⟩
    · exact List.mem_append_right _ member
    · rintro met p live (named | held)
      · exact .inl named
      · exact .inr (.inr (List.mem_append_left _ (by simp [lost met matches_ p live held])))

/-- A step's last statement that tells nobody of a pass. -/
theorem Statement.updated_untold (sound : s.Sound) {set : PassRecord → PassRecord}
    (row : s.Matches x.token → RowFits (set s.row) s.nextMethod)
    (landed : kept → s.Matches x.token → ∀ p ∈ s.live, s.row.Names p ∨ x.phase.holds = some p →
      (set s.row).Names p)
    (lost : ¬s.Matches x.token → ∀ p, x.phase.holds ≠ some p) :
    s.Statement kept (s.update x.token set) x none :=
  have told : s.Statement kept ((s.update x.token set).tell none) x none :=
    .updated sound row (fun met matches_ p live before => .inl (landed met matches_ p live before))
      fun _ lost' p _ held => absurd held (lost lost' p)
  told

/-- A row that names what it did, its status as before, or with none of the class's. -/
theorem RowFits.of_ids {r r' : PassRecord} {nextMethod : Nat} (fits : RowFits r nextMethod)
    (same : r'.ids = r.ids)
    (status : r'.status = r.status ∨ r.entraMethodId = none) : RowFits r' nextMethod := by
  obtain ⟨entra, stale⟩ := names_of_ids same
  simp only [PassRecord.ids, Prod.mk.injEq] at same
  obtain ⟨user, entraId, staleId⟩ := same
  refine ⟨?_, ?_, ?_, ?_⟩
  · rw [entraId, staleId]
    exact fits.one
  · rw [entraId, staleId, user]
    exact fits.user
  · intro other
    rw [entraId]
    rcases status with status | none_
    · exact fits.issued (status ▸ other)
    · exact none_
  · intro p names
    rw [PassRecord.Names, entra, stale] at names
    exact fits.bounded p names

theorem RowFits.noPass {r : PassRecord} {nextMethod : Nat} (fits : RowFits r nextMethod) :
    RowFits r.noPass nextMethod := by
  refine ⟨by simp [PassRecord.noPass], ?_, fun _ => rfl, ?_⟩
  · rintro (entra | stale)
    · cases entra
    · exact fits.user (.inr stale)
  · rintro p (entra | stale)
    · have none_ := (method_eq_some.mp entra).2
      cases none_
    · exact fits.bounded p (.inr stale)

theorem staleMethodId_eq_none {r : PassRecord} {nextMethod : Nat} (fits : RowFits r nextMethod)
    (none_ : r.stale = none) : r.staleMethodId = none := by
  by_contra some_
  obtain ⟨id, named⟩ := Option.ne_none_iff_exists'.mp some_
  obtain ⟨user, known⟩ := Option.isSome_iff_exists.mp (fits.user (.inr (by simp [named])))
  simp [PassRecord.stale, PassRecord.method, named, known] at none_

/-- Loading the pass decides only where its step goes on. -/
theorem load_spec (sound : s.Sound) (member : x ∈ s.steps) (at_ : x.phase = .claimed) (on : Bool) :
    ∃ next, s.load x on = s.goOn x next ∧ s.Statement kept s x next := by
  have fits := sound.fits x member
  have claims := fits.claims (by simp [at_, Phase.makes])
  have known : s.Claims x → x.how ≠ .issue → s.row.entraMethodId = none := by
    have knows := fits.knows
    unfold Knows at knows
    simpa only [at_] using knows
  refine ⟨some _, rfl, .moved sound ?_ (by simp [at_, Phase.holds])⟩
  simp only [Option.mem_some_iff, forall_eq']
  by_cases again : s.row.status = .issued ∧ x.how = .issue
  · rw [if_pos again]
    exact ⟨by simp [Phase.makes], fun _ => rfl, fun p named => sound.row.bounded p (.inl named)⟩
  · have none_ : s.Claims x → s.row.entraMethodId = none := by
      intro holds
      by_cases issued : s.row.status = .issued
      · exact known holds fun how => again ⟨issued, how⟩
      · exact sound.row.issued issued
    rw [if_neg again]
    split
    · exact ⟨fun _ => claims, none_⟩
    · split
      next stale named =>
        exact ⟨fun _ => claims, fun holds => ⟨none_ holds, named⟩, sound.row.bounded stale (.inr named)⟩
      next named =>
        exact ⟨fun _ => claims, fun holds => ⟨none_ holds, staleMethodId_eq_none sound.row named⟩⟩

/-- A stale pass deleted in Entra is no one's any more, and a failed delete leaves it noted. -/
theorem deleteStale_spec (sound : s.Sound) (member : x ∈ s.steps) {pass : PassRecord} {stale : TapMethod}
    (at_ : x.phase = .deletingStale pass stale) {after : Nat} {answer : DeleteAnswer} :
    ∃ t next, s.deleteStale x pass stale after answer = t.goOn x next ∧ s.Statement kept t x next := by
  have fits := sound.fits x member
  have claims := fits.claims (by simp [at_, Phase.makes])
  have knows := fits.knows
  unfold Knows at knows
  simp only [at_] at knows
  have retry : ∀ why, s.Statement kept s x (some (.recording pass (.unmade why))) := by
    intro why
    refine .moved sound ?_ (by simp [at_, Phase.holds])
    simp only [Option.mem_some_iff, forall_eq']
    exact ⟨fun _ => claims, fun holds => (knows.1 holds).1⟩
  cases answer with
  | ok =>
    refine ⟨s.deleteMethod stale, some (.clearingStale pass stale), rfl,
      .deleted sound ?_ (by simp [at_, Phase.holds])⟩
    simp only [Option.mem_some_iff, forall_eq']
    exact ⟨fun _ => claims, knows.1, knows.2, by simp [deleteMethod]⟩
  | throttled => exact ⟨_, _, rfl, retry _⟩
  | failed => exact ⟨_, _, rfl, retry _⟩

/-- The row forgets a stale pass only once Entra has. -/
theorem clearStale_spec (sound : s.Sound) (member : x ∈ s.steps) {pass : PassRecord} {stale : TapMethod}
    (at_ : x.phase = .clearingStale pass stale) :
    ∃ t next, s.clearStale x pass = t.goOn x next ∧ s.Statement kept t x next := by
  have fits := sound.fits x member
  have claims := fits.claims (by simp [at_, Phase.makes])
  have knows := fits.knows
  unfold Knows at knows
  simp only [at_] at knows
  refine ⟨if s.Claims x then { s with row := { s.row with staleMethodId := none } }
    else s, some (.checking pass),
    rfl, ?_⟩
  by_cases holds : s.Claims x
  · rw [if_pos holds]
    obtain ⟨entra, named⟩ := knows.1 holds
    refine ⟨rfl, rfl, rfl, .inl rfl, Nat.le_refl _, fun p live => ⟨sound.live p live, fun _ => live⟩,
      fun p member => ⟨sound.made p member, .inl member⟩, fun _ member => member, ?_, ?_, ?_, ?_, ?_⟩
    · refine ⟨fun _ => rfl, ?_, sound.row.issued, ?_⟩
      · rintro (entra | none_)
        · exact sound.row.user (.inl entra)
        · cases none_
      · rintro p (entra | none_)
        · exact sound.row.bounded p (.inl entra)
        · have none_ := (method_eq_some.mp none_).2
          cases none_
    · rintro y memberY other ⟨isSome, held⟩
      exact absurd (congrArg Step.id (sound.single y memberY x member isSome (held.symm.trans holds.2))) other
    · simp only [Option.mem_some_iff, forall_eq']
      exact ⟨fun _ => claims, fun _ => ⟨entra, rfl⟩⟩
    · rintro _ p live ((named' | named') | held)
      · exact .inl (.inl named')
      · rw [named] at named'
        cases Option.some.inj named'
        exact absurd live knows.2.2
      · simp [at_, Phase.holds] at held
    · intro _ lost
      exact absurd holds lost
  · rw [if_neg holds]
    refine .moved sound ?_ (by simp [at_, Phase.holds])
    simp only [Option.mem_some_iff, forall_eq']
    exact ⟨fun _ => claims, fun holds' => absurd holds' holds⟩

/-- The checks change nothing of what is stored. -/
theorem check_spec (sound : s.Sound) (member : x ∈ s.steps) {pass : PassRecord}
    (at_ : x.phase = .checking pass)
    {answer : CheckAnswer} : ∃ next, s.check x pass answer = s.goOn x next ∧ s.Statement kept s x next := by
  have fits := sound.fits x member
  have claims := fits.claims (by simp [at_, Phase.makes])
  have knows := fits.knows
  unfold Knows at knows
  simp only [at_] at knows
  have stops : ∀ why, s.Fits { x with phase := .recording pass (.unmade why) } := fun why =>
    ⟨fun _ => claims, fun holds => (knows holds).1⟩
  cases answer with
  | stops why =>
    refine ⟨some _, rfl, .moved sound ?_ (by simp [at_, Phase.holds])⟩
    simp only [Option.mem_some_iff, forall_eq']
    exact stops why
  | ready user =>
    refine ⟨some _, rfl, .moved sound ?_ (by simp [at_, Phase.holds])⟩
    simp only [Option.mem_some_iff, forall_eq']
    split
    · exact stops _
    · exact ⟨fun _ => claims, knows⟩

/-- A pass Entra made, or may have made, is in the hands of the step that asked for it. -/
theorem create_spec (sound : s.Sound) (member : x ∈ s.steps) {pass : PassRecord} {user : Nat}
    (at_ : x.phase = .creating pass user) {answer : CreateAnswer}
    (names : kept → ∀ value expiresAt, answer ≠ .created false value expiresAt) :
    ∃ t next, s.create x pass user answer = t.goOn x next ∧ s.Statement kept t x next := by
  have fits := sound.fits x member
  have claims := fits.claims (by simp [at_, Phase.makes])
  have knows := fits.knows
  unfold Knows at knows
  simp only [at_] at knows
  cases answer with
  | failed why =>
    refine ⟨_, some _, rfl, .moved sound ?_ (by simp [at_, Phase.holds])⟩
    simp only [Option.mem_some_iff, forall_eq']
    exact ⟨fun _ => claims, fun holds => (knows holds).1⟩
  | created named value expiresAt =>
    refine ⟨_, some _, rfl, ?_⟩
    refine ⟨rfl, rfl, rfl, .inl rfl, Nat.le_succ _, ?_, ?_, fun _ member => member, ?_,
      fun _ _ _ holds => ⟨holds, rfl⟩, ?_, ?_, fun _ _ => rfl⟩
    · intro p live
      rcases List.mem_cons.mp live with rfl | old
      · exact ⟨Nat.lt_succ_self _, fun bound => absurd bound (Nat.lt_irrefl _)⟩
      · have live := (List.mem_filter.mp old).1
        exact ⟨Nat.lt_succ_of_lt (sound.live p live), fun _ => live⟩
    · intro p made
      rcases List.mem_cons.mp made with rfl | old
      · refine ⟨Nat.lt_succ_self _, .inr fun met => ?_⟩
        cases named with
        | false => exact absurd rfl (names met value expiresAt)
        | true => exact ⟨_, rfl, rfl⟩
      · exact ⟨Nat.lt_succ_of_lt (sound.made p old), .inl old⟩
    · exact ⟨sound.row.one, sound.row.user, sound.row.issued,
        fun p names => Nat.lt_succ_of_lt (sound.row.bounded p names)⟩
    · simp only [Option.mem_some_iff, forall_eq']
      refine ⟨fun _ => claims, knows, fun id isNew => ?_⟩
      cases named with
      | false => cases isNew
      | true =>
        cases Option.some.inj isNew
        exact Nat.lt_succ_self _
    · rintro _ p _ (named' | held)
      · exact .inl named'
      · simp [at_, Phase.holds] at held

/-- While the claim holds and the row is clear, it names nothing. -/
theorem Clear.not_names {p : TapMethod} (clear : s.Clear x) (holds : s.Claims x) : ¬s.row.Names p := by
  obtain ⟨entra, stale⟩ := clear holds
  rintro (named | named)
  · simp [PassRecord.entra, method_eq_some, entra] at named
  · simp [PassRecord.stale, method_eq_some, stale] at named

theorem unmade_fits (sound : s.Sound) (none_ : s.row.entraMethodId = none) {next : Nat} {why : Unmade} :
    RowFits (s.unmade next s.row why) s.nextMethod ∧ (s.unmade next s.row why).stale = s.row.stale := by
  cases why with
  | later | retry => exact ⟨sound.row.of_ids rfl (.inr none_), rfl⟩
  | unsynced | refused | failed => exact ⟨sound.row.noPass.of_ids rfl (.inr rfl), rfl⟩

/-- A pass is stored with its claim, or its step goes on to delete it. -/
theorem record_spec (sound : s.Sound) (member : x ∈ s.steps) {pass : PassRecord} {attempt : Attempt}
    (at_ : x.phase = .recording pass attempt) {stores : Bool} {next : Nat} :
    ∃ t phase, s.record x pass stores next attempt = t.goOn x phase ∧ s.Statement kept t x phase := by
  have fits := sound.fits x member
  have claims := fits.claims (by simp [at_, Phase.makes])
  have knows := fits.knows
  unfold Knows at knows
  simp only [at_] at knows
  cases attempt with
  | issued user method value expiresAt =>
    obtain ⟨clear, bounded⟩ := knows
    have same : x.phase.holds = method.map fun id => { user, id } := by simp [at_, Phase.holds]
    by_cases lands : stores ∧ s.Matches x.token
    · have clear' := clear (claims_of_matches claims lands.2)
      refine ⟨s.update x.token (stored user method value expiresAt next), none, if_pos lands, ?_⟩
      refine Statement.updated_untold sound (fun _ => ?_) (fun _ _ p _ before => ?_) fun lost =>
        absurd lands.2 lost
      · refine ⟨fun _ => clear'.2, fun _ => rfl, fun other => absurd rfl other, ?_⟩
        rintro p (named | named)
        · exact bounded p.id (method_eq_some.mp named).2
        · simp [PassRecord.stale, method_eq_some, stored, clear'.2] at named
      · rcases before with named | held
        · exact absurd named (clear.not_names (claims_of_matches claims lands.2))
        · rw [same, Option.map_eq_some_iff] at held
          obtain ⟨id, rfl, rfl⟩ := held
          exact .inl rfl
    · refine ⟨s, some (.unstored pass user method), if_neg lands, .moved sound ?_ ?_⟩
      · simp only [Option.mem_some_iff, forall_eq']
        exact ⟨fun _ => claims, clear, bounded⟩
      · intro p held
        exact ⟨_, rfl, held ▸ same.symm⟩
  | unmade why =>
    refine ⟨s.update x.token fun r => s.unmade next r why, none, rfl, ?_⟩
    have none_ : s.Matches x.token → s.row.entraMethodId = none := fun matches_ =>
      knows (claims_of_matches claims matches_)
    refine Statement.updated_untold sound (fun matches_ => ?_) (fun _ matches_ p _ before => ?_)
      (fun _ p held => ?_)
    · exact (unmade_fits sound (none_ matches_)).1
    · rcases before with (named | named) | held
      · simp [PassRecord.entra, method_eq_some, none_ matches_] at named
      · exact .inr ((unmade_fits sound (none_ matches_)).2.trans named)
      · simp [at_, Phase.holds] at held
    · simp [at_, Phase.holds] at held

/-- A pass that was not stored is deleted in Entra, or stays with its step. -/
theorem deleteUnstored_spec (sound : s.Sound) (member : x ∈ s.steps) {pass : PassRecord} {user : Nat}
    {method : Option Nat} (at_ : x.phase = .unstored pass user method) {answer : DeleteAnswer} :
    ∃ t next, s.deleteUnstored x pass user method answer = t.goOn x next ∧ s.Statement kept t x next := by
  have fits := sound.fits x member
  have claims := fits.claims (by simp [at_, Phase.makes])
  have knows := fits.knows
  unfold Knows at knows
  simp only [at_] at knows
  obtain ⟨clear, bounded⟩ := knows
  unfold deleteUnstored
  split
  next id =>
    refine ⟨s.deleteMethod { user, id }, some (.storeFailing pass user (some id) true), rfl,
      .deleted sound ?_ ?_⟩
    · simp only [Option.mem_some_iff, forall_eq']
      refine ⟨fun _ => claims, clear, bounded, fun _ id' same => ?_⟩
      cases Option.some.inj same
      simp [deleteMethod]
    · intro q held
      simp only [at_, Phase.holds, Option.map_some, Option.some.injEq] at held
      exact held.symm
  next =>
    refine ⟨s, some (.storeFailing pass user method false), rfl, .moved sound ?_ ?_⟩
    · simp only [Option.mem_some_iff, forall_eq']
      exact ⟨fun _ => claims, clear, bounded, by simp⟩
    · intro p held
      refine ⟨_, rfl, ?_⟩
      simpa [at_, Phase.holds] using held

/-- What a failed store leaves behind is noted on the row, where the claim is still held. -/
theorem storeFailed_spec (sound : s.Sound) (member : x ∈ s.steps) {pass : PassRecord} {user : Nat}
    {method : Option Nat} {deleted : Bool} (at_ : x.phase = .storeFailing pass user method deleted)
    {next : Nat}
    (noted : kept → deleted = false → ∀ id ∈ method, x.how = .reissue ∨ s.Claims x ∨
      (⟨user, id⟩ : TapMethod) ∉ s.live) :
    ∃ t phase, s.storeFailed x user method deleted next = t.goOn x phase ∧ s.Statement kept t x phase := by
  have fits := sound.fits x member
  have claims := fits.claims (by simp [at_, Phase.makes])
  have knows := fits.knows
  unfold Knows at knows
  simp only [at_] at knows
  obtain ⟨clear, bounded, gone⟩ := knows
  have held : ∀ p, x.phase.holds = some p → deleted = false ∧ ∃ id, method = some id ∧ p = ⟨user, id⟩ := by
    intro p held
    simp only [at_, Phase.holds] at held
    cases deleted with
    | true => cases held
    | false =>
      obtain ⟨id, named, same⟩ := Option.map_eq_some_iff.mp held
      exact ⟨rfl, id, named, same.symm⟩
  refine ⟨_, none, rfl, .updated sound (fun _ => ?_) (fun _ matches_ p _ before => ?_)
    (fun met lost p live holds => ?_)⟩
  · refine ⟨fun entra => absurd entra (by simp [notStored, PassRecord.noPass]), fun _ =>
      rfl, fun _ => rfl, ?_⟩
    rintro p (named | named)
    · have none_ := (method_eq_some.mp named).2
      cases none_
    · obtain ⟨_, stale⟩ := method_eq_some.mp named
      cases deleted with
      | true => cases stale
      | false => exact bounded p.id stale
  · rcases before with named | holds
    · exact absurd named (clear.not_names (claims_of_matches claims matches_))
    · obtain ⟨rfl, id, rfl, rfl⟩ := held p holds
      exact .inl (.inr rfl)
  · obtain ⟨rfl, id, rfl, rfl⟩ := held p holds
    rcases noted met rfl id rfl with how | claimed | dead
    · simp [how]
    · exact absurd (.inr claimed.2) lost
    · exact absurd live dead

/-- The second look at who holds the pass decides whether it is shown or revoked. -/
theorem holder_spec (sound : s.Sound) (member : x ∈ s.steps) {pass : PassRecord}
    (at_ : x.phase = .rechecking pass)
    {answer : HolderAnswer} {next : Nat} :
    ∃ t phase, s.holder x pass answer next = t.goOn x phase ∧ s.Statement kept t x phase := by
  have knows := (sound.fits x member).knows
  unfold Knows at knows
  simp only [at_] at knows
  have finished : s.Statement kept s x none := .moved sound (by simp) (by simp [at_, Phase.holds])
  have updated : ∀ set : PassRecord → PassRecord, (∀ r, (set r).ids = r.ids ∧ (set r).status = r.status) →
      s.Statement kept (s.update x.token set) x none := by
    intro set same
    refine Statement.updated_untold sound (fun _ => sound.row.of_ids (same _).1 (.inl (same _).2))
      (fun _ _ p _ before => ?_) (fun _ p held => ?_)
    · rcases before with named | held
      · rw [PassRecord.Names, (names_of_ids (same _).1).1, (names_of_ids (same _).1).2]
        exact named
      · simp [at_, Phase.holds] at held
    · simp [at_, Phase.holds] at held
  cases answer with
  | refused refusal =>
    refine ⟨s, some (.revoking pass refusal), rfl, .moved sound ?_ (by simp [at_, Phase.holds])⟩
    simp only [Option.mem_some_iff, forall_eq']
    exact ⟨by simp [Phase.makes], knows⟩
  | may spent =>
    by_cases how : x.how = .reveal
    · exact ⟨s, none, if_pos how, finished⟩
    · exact ⟨_, none, if_neg how, updated _ fun _ => ⟨rfl, rfl⟩⟩
  | unknown =>
    by_cases how : x.how = .reveal
    · exact ⟨s, none, if_pos how, finished⟩
    · exact ⟨_, none, if_neg how, updated _ fun _ => ⟨rfl, rfl⟩⟩

/-- A pass whose holder has changed is deleted in Entra, or kept on the row. -/
theorem revoke_spec (sound : s.Sound) (member : x ∈ s.steps) {pass : PassRecord} {refusal : Refusal}
    (at_ : x.phase = .revoking pass refusal) {answer : DeleteAnswer} :
    ∃ t next, s.revoke x pass refusal answer = t.goOn x next ∧ s.Statement kept t x next := by
  have knows := (sound.fits x member).knows
  unfold Knows at knows
  simp only [at_] at knows
  unfold revoke
  split
  next p named =>
    refine ⟨s.deleteMethod p, some (.refusing pass refusal true), rfl,
      .deleted sound ?_ (by simp [at_, Phase.holds])⟩
    simp only [Option.mem_some_iff, forall_eq']
    refine ⟨by simp [Phase.makes], knows, fun _ q named' => ?_⟩
    rw [named] at named'
    cases Option.some.inj named'
    simp [deleteMethod]
  next =>
    refine ⟨s, some (.refusing pass refusal (pass.entraMethodId = none)), rfl,
      .moved sound ?_ (by simp [at_, Phase.holds])⟩
    simp only [Option.mem_some_iff, forall_eq']
    refine ⟨by simp [Phase.makes], knows, fun none_ q named' => ?_⟩
    rw [decide_eq_true_eq] at none_
    simp [PassRecord.entra, method_eq_some, none_] at named'

/-- A refusal clears the row only of a pass that is gone. -/
theorem refuse_spec (sound : s.Sound) (member : x ∈ s.steps) {pass : PassRecord} {refusal : Refusal}
    {deleted : Bool}
    (at_ : x.phase = .refusing pass refusal deleted)
    (own : kept → x.token = none → ∀ p, s.row.entra = some p → pass.entra = some p ∨ p ∉ s.live) :
    ∃ t next, s.refuse x pass refusal deleted = t.goOn x next ∧ s.Statement kept t x next := by
  have knows := (sound.fits x member).knows
  unfold Knows at knows
  simp only [at_] at knows
  obtain ⟨⟨read, _⟩, gone⟩ := knows
  refine ⟨_, none, rfl, .updated sound (fun _ => sound.row.noPass.of_ids rfl (.inr rfl))
    (fun met matches_ p live before => ?_) (fun _ _ p _ held => ?_)⟩
  · rcases before with (named | named) | held
    · have same : pass.entra = some p ∨ p ∉ s.live := by
        cases token : x.token with
        | none => exact own met token p named
        | some t =>
          have holds := claims_of_matches (by simp [token]) matches_
          exact .inl ((read holds).symm.trans named)
      rcases same with same | dead
      · cases deleted with
        | true => exact absurd live (gone rfl p same)
        | false => exact .inr (.inr (by simp [matches_, same]))
      · exact absurd live dead
    · exact .inl (.inr named)
    · simp [at_, Phase.holds] at held
  · simp [at_, Phase.holds] at held

end State

end OpenAduc.ClassPasses
