import OpenAduc.ClassPasses.Claims

namespace OpenAduc.ClassPasses
namespace State
variable (s : State)

/-- A create whose answer doesn't name the pass it made. -/
def unnamed (x : Step) (answer : Answer) : Bool :=
  match x.phase, answer with
  | .creating .., .created (.created named ..) => !named
  | _, _ => false

/-- The pass a step that couldn't delete it is about to note in the row, its operator told nothing else. -/
def noting (x : Step) (answer : Answer) : Option TapMethod :=
  match x.phase, answer with
  | .storeFailing _ user method false, .noted _ =>
    if x.how = .reissue then none else method.map fun id => { user, id }
  | _, _ => none

/-- The row a reveal read, whose holder it is about to refuse. -/
def revealed (x : Step) (answer : Answer) : Option PassRecord :=
  match x.phase, answer with
  | .refusing pass .., .noted _ => if x.token = none then some pass else none
  | _, _ => none

/-- A statement is kept where a create's answer names its pass; where a pass
that couldn't be stored or deleted is noted, the claim still holds (or the
pass is gone); and where a reveal refuses, the row names no live pass but the
one it read. -/
def Keeps (x : Step) (answer : Answer) : Prop :=
  unnamed x answer = false ∧
    (∀ p ∈ noting x answer, s.Claims x ∨ p ∉ s.live) ∧
    ∀ pass ∈ revealed x answer, ∀ p ∈ s.row.entra, pass.entra = some p ∨ p ∉ s.live

instance (x : Step) (answer : Answer) : Decidable (s.Keeps x answer) :=
  inferInstanceAs (Decidable (_ ∧ (∀ _ ∈ _, _) ∧ ∀ _ ∈ _, ∀ _ ∈ _, _))

/-- The step an action lets go on, and what it is answered. -/
def acting : Action → Option (Step × Answer)
  | .act step answer => (s.findStep step).map fun x => (x, answer)
  | _ => none

def Kept (a : Action) : Prop :=
  ∀ p ∈ s.acting a, s.Keeps p.1 p.2

instance (a : Action) : Decidable (s.Kept a) :=
  inferInstanceAs (Decidable (∀ _ ∈ _, _))

/-- Every live pass OpenADUC made is named by the row, held by a step under
way, or one the operator was told couldn't be deleted. -/
def Accounted : Prop :=
  ∀ p ∈ s.made, p ∈ s.live → s.row.Names p ∨ (∃ x ∈ s.steps, x.phase.holds = some p) ∨ p ∈ s.told

variable {s} {t s' : State} {x : Step} {answer : Answer}

/-- Whatever phase a step is in, what it does there meets its statement. -/
theorem perform_spec (sound : s.Sound) (member : x ∈ s.steps) (taken : s.perform x x.phase answer = some s') :
    ∃ t next, s' = t.goOn x next ∧ s.Statement (s.Keeps x answer) t x next := by
  unfold perform at taken
  split at taken
  next on at_ =>
    cases Option.some.inj taken
    obtain ⟨next, same, made⟩ := load_spec sound member at_ on
    exact ⟨s, next, same, made⟩
  next at_ =>
    cases Option.some.inj taken
    exact deleteStale_spec sound member at_
  next at_ =>
    cases Option.some.inj taken
    exact clearStale_spec sound member at_
  next at_ =>
    cases Option.some.inj taken
    obtain ⟨next, same, made⟩ := check_spec sound member at_
    exact ⟨s, next, same, made⟩
  next pass user answer at_ =>
    cases Option.some.inj taken
    refine create_spec sound member at_ fun keeps value expiresAt same => ?_
    have named := keeps.1
    simp [unnamed, at_, same] at named
  next at_ =>
    cases Option.some.inj taken
    exact record_spec sound member at_
  next at_ =>
    cases Option.some.inj taken
    exact deleteUnstored_spec sound member at_
  next pass user method deleted next at_ =>
    cases Option.some.inj taken
    refine storeFailed_spec sound member at_ fun keeps notDeleted id same => ?_
    subst notDeleted
    cases same
    by_cases how : x.how = .reissue
    · exact .inl how
    · exact .inr (keeps.2.1 ⟨user, id⟩ (by simp [noting, at_, how]))
  next at_ =>
    cases Option.some.inj taken
    exact holder_spec sound member at_
  next at_ =>
    cases Option.some.inj taken
    exact revoke_spec sound member at_
  next pass refusal deleted _ at_ =>
    cases Option.some.inj taken
    refine refuse_spec sound member at_ fun keeps untokened p named => ?_
    exact keeps.2.2 pass (by simp [revealed, at_, untokened]) p named
  next => cases taken

/-- A kept statement leaves every pass accounted for. -/
theorem Accounted.goOn {kept : Prop} {next : Option Phase} (accounted : s.Accounted)
    (sound : s.Sound) (member : x ∈ s.steps)
    (made : s.Statement kept t x next) (met : kept) : (t.goOn x next).Accounted := by
  have memberT : x ∈ t.steps := made.steps ▸ member
  have keyedT : Table.Keyed Step.id t.steps := made.steps ▸ sound.keyed
  have goes : ∀ {p}, (∃ phase ∈ next, phase.holds = some p) → ∃ y ∈ (t.goOn x next).steps,
    y.phase.holds = some p := by
    rintro p ⟨phase, isNext, held⟩
    exact ⟨{ x with phase }, (mem_goOn keyedT memberT).mpr (.inr ⟨phase, isNext, rfl⟩), held⟩
  intro p isMade live
  rcases (made.made p isMade).2 with old | new
  · have before := (made.live p live).2 (sound.made p old)
    have after : s.row.Names p ∨ x.phase.holds = some p →
        (t.goOn x next).row.Names p ∨ (∃ y ∈ (t.goOn x next).steps, y.phase.holds = some p) ∨
          p ∈ (t.goOn x next).told := by
      intro known
      rcases made.accounts met p live known with named | held | told
      · exact .inl named
      · exact .inr (.inl (goes held))
      · exact .inr (.inr told)
    rcases accounted p old before with named | ⟨y, memberY, held⟩ | told
    · exact after (.inl named)
    · by_cases same : y.id = x.id
      · cases sound.keyed.eq_of_key memberY member same
        exact after (.inr held)
      · refine .inr (.inl ⟨y, (mem_goOn keyedT memberT).mpr (.inl ⟨made.steps ▸ memberY, same⟩), held⟩)
    · exact .inr (.inr (made.told p told))
  · exact .inr (.inl (goes (new met)))

/-- A change to the row or to Entra that no step under way makes. -/
structure Beside (s t : State) : Prop where
  steps : t.steps = s.steps
  nextStep : t.nextStep = s.nextStep
  nextToken : s.nextToken ≤ t.nextToken
  claim : ∀ token ∈ t.row.claimToken, token ∈ s.row.claimToken ∨ s.nextToken ≤ token ∧ token < t.nextToken
  nextMethod : s.nextMethod ≤ t.nextMethod
  live : ∀ p ∈ t.live, p.id < t.nextMethod ∧ (p.id < s.nextMethod → p ∈ s.live)
  made : t.made = s.made
  told : t.told = s.told
  row : RowFits t.row t.nextMethod
  others : ∀ y ∈ s.steps, t.Claims y → s.Claims y ∧ t.row.ids = s.row.ids
  names : ∀ p, s.row.Names p → t.row.Names p

/-- What happens beside the steps keeps every pass accounted for. -/
theorem Sound.beside (sound : s.Sound) (beside : s.Beside t) : t.Sound where
  keyed := beside.steps ▸ sound.keyed
  stepIds := by
    rw [beside.steps, beside.nextStep]
    exact sound.stepIds
  claim token held := by
    rcases beside.claim token held with old | new
    · exact Nat.lt_of_lt_of_le (sound.claim token old) beside.nextToken
    · exact new.2
  tokens := by
    rw [beside.steps]
    exact fun y member token held => Nat.lt_of_lt_of_le (sound.tokens y member token held) beside.nextToken
  single := by
    rw [beside.steps]
    exact sound.single
  live p member := (beside.live p member).1
  made p member := Nat.lt_of_lt_of_le (sound.made p (beside.made ▸ member)) beside.nextMethod
  row := beside.row
  fits := by
    rw [beside.steps]
    exact fun y member => (sound.fits y member).frame (beside.others y member) beside.nextMethod fun p live =>
      (beside.live p live).2

theorem Accounted.beside (accounted : s.Accounted) (sound : s.Sound) (beside : s.Beside t) : t.Accounted := by
  intro p made live
  rw [beside.made] at made
  rcases accounted p made ((beside.live p live).2 (sound.made p made)) with named | held | told
  · exact .inl (beside.names p named)
  · rw [beside.steps]
    exact .inr (.inl held)
  · rw [beside.told]
    exact .inr (.inr told)

/-- A step begins with a claim of its own, or with none. -/
theorem Sound.begin (sound : s.Sound) {token : Option Nat} {how : How} {phase : Phase}
    (given : ∀ t ∈ token, t < s.nextToken ∧ ∀ y ∈ s.steps, t ∉ y.token)
    (fits : s.Fits { id := s.nextStep, token, how, phase }) : (s.begin token how phase).Sound := by
  have new : ∀ y ∈ (s.begin token how phase).steps, y ∈ s.steps ∨
    y = { id := s.nextStep, token, how, phase } := by
    intro y member
    rcases List.mem_append.mp member with old | new
    · exact .inl old
    · exact .inr (List.mem_singleton.mp new)
  refine ⟨?_, ?_, sound.claim, ?_, ?_, sound.live, sound.made, sound.row, ?_⟩
  · refine sound.keyed.append (by simp [Table.Keyed]) fun y member z memberZ => ?_
    rw [List.mem_singleton.mp memberZ]
    exact Nat.ne_of_lt (sound.stepIds y member)
  · intro y member
    rcases new y member with old | rfl
    · exact Nat.lt_succ_of_lt (sound.stepIds y old)
    · exact Nat.lt_succ_self _
  · intro y member t held
    rcases new y member with old | rfl
    · exact sound.tokens y old t held
    · exact (given t held).1
  · intro y member z memberZ isSome same
    obtain ⟨t, held⟩ := Option.isSome_iff_exists.mp isSome
    rcases new y member with old | rfl <;> rcases new z memberZ with oldZ | rfl
    · exact sound.single y old z oldZ isSome same
    · exact absurd held ((given t (same.symm.trans held)).2 y old)
    · exact absurd (same.symm.trans held) ((given t held).2 z oldZ)
    · rfl
  · intro y member
    rcases new y member with old | rfl
    · have before := sound.fits y old
      exact ⟨before.claims, before.knows⟩
    · exact ⟨fits.claims, fits.knows⟩

theorem Accounted.begin (accounted : s.Accounted) {token : Option Nat} {how : How} {phase : Phase} :
    (s.begin token how phase).Accounted := by
  intro p made live
  rcases accounted p made live with named | ⟨y, member, held⟩ | told
  · exact .inl named
  · exact .inr (.inl ⟨y, List.mem_append_left _ member, held⟩)
  · exact .inr (.inr told)

/-- What a reissue or a reschedule makes of the row still names what it named. -/
theorem replaced_fits {r : PassRecord} {nextMethod : Nat} (fits : RowFits r nextMethod) :
    RowFits (replaced r) nextMethod ∧ ∀ p, r.Names p ↔ (replaced r).Names p := by
  have names : ∀ p, r.Names p ↔ (replaced r).Names p := by
    intro p
    simp only [PassRecord.Names, PassRecord.entra, PassRecord.stale, method_eq_some, replaced,
      PassRecord.noPass]
    cases entra : r.entraMethodId with
    | none => simp
    | some id =>
      have stale := fits.one (by simp [entra])
      simp [stale]
  refine ⟨⟨fun isSome => absurd isSome (by simp [replaced, PassRecord.noPass]), ?_, fun _ => rfl, ?_⟩, names⟩
  · intro known
    refine fits.user ?_
    rcases known with none_ | known
    · cases none_
    · cases entra : r.entraMethodId with
      | none =>
        refine .inr ?_
        simpa [replaced, entra] using known
      | some => exact .inl rfl
  · exact fun p named => fits.bounded p ((names p).mpr named)

theorem claimed_beside (sound : s.Sound) {set : PassRecord → PassRecord}
    (row : RowFits (set s.row) s.nextMethod)
    (names : ∀ p, s.row.Names p → (set s.row).Names p) :
    s.Beside { s with
      nextToken := s.nextToken + 1
      row := { set s.row with claimToken := some s.nextToken, nextAttemptAt := s.now + lease } } := by
  refine ⟨rfl, rfl, Nat.le_succ _, ?_, Nat.le_refl _, fun p live =>
    ⟨sound.live p live, fun _ => live⟩, rfl, rfl,
    ⟨row.one, row.user, row.issued, row.bounded⟩, ?_, names⟩
  · intro token held
    cases Option.some.inj held
    exact .inr ⟨Nat.le_refl _, Nat.lt_succ_self _⟩
  · rintro y member ⟨_, held⟩
    exact absurd (sound.tokens y member s.nextToken held.symm) (Nat.lt_irrefl _)

/-- A claim, by the sweep or a reissue. -/
theorem claimed_sound (sound : s.Sound) {set : PassRecord → PassRecord} {how : How}
    (row : RowFits (set s.row) s.nextMethod) (names : ∀ p, s.row.Names p → (set s.row).Names p)
    (cleared : how ≠ .issue → (set s.row).entraMethodId = none) :
    (s.claimed set how).Sound ∧ (s.Accounted → (s.claimed set how).Accounted) := by
  have beside := claimed_beside sound row names
  refine ⟨(sound.beside beside).begin ?_ ⟨fun _ => rfl, fun _ => cleared⟩, fun accounted =>
    (accounted.beside sound beside).begin⟩
  intro token isNew
  cases Option.some.inj isNew
  refine ⟨Nat.lt_succ_self _, fun y member held => ?_⟩
  exact absurd (sound.tokens y member s.nextToken held) (Nat.lt_irrefl _)

/-- Every step keeps the steps under way sound, and a kept one every pass accounted for. -/
theorem sound_step (sound : s.Sound) {a : Action} (taken : step s a = some s') :
    s'.Sound ∧ (s.Accounted → s.Kept a → s'.Accounted) := by
  have beside : ∀ {t : State}, s.Beside t → t.Sound ∧ (s.Accounted → s.Kept a → t.Accounted) := fun beside =>
    ⟨sound.beside beside, fun accounted _ => accounted.beside sound beside⟩
  cases a with
  | tick seconds =>
    cases Option.some.inj taken
    exact beside ⟨rfl, rfl, Nat.le_refl _, fun _ => .inl, Nat.le_refl _,
      fun p live => ⟨sound.live p live, fun _ => live⟩, rfl, rfl, sound.row, fun _ _ holds => ⟨holds, rfl⟩,
      fun _ named => named⟩
  | purge =>
    cases Option.some.inj taken
    exact beside ⟨rfl, rfl, Nat.le_refl _, fun _ => .inl, Nat.le_refl _,
      fun p live => ⟨sound.live p live, fun _ => live⟩, rfl, rfl, sound.row.of_ids rfl (.inl rfl),
      fun _ _ holds => ⟨holds, rfl⟩, fun _ named => named⟩
  | lapse p =>
    cases Option.some.inj taken
    refine beside ⟨rfl, rfl, Nat.le_refl _, fun _ => .inl, Nat.le_refl _, fun q member =>
      ?_, rfl, rfl, sound.row,
      fun _ _ holds => ⟨holds, rfl⟩, fun _ named => named⟩
    have live := (List.mem_filter.mp member).1
    exact ⟨sound.live q live, fun _ => live⟩
  | madeElsewhere user =>
    cases Option.some.inj taken
    refine beside ⟨rfl, rfl, Nat.le_refl _, fun _ => .inl, Nat.le_succ _, fun q member => ?_, rfl, rfl,
      ⟨sound.row.one, sound.row.user, sound.row.issued, fun p named =>
        Nat.lt_succ_of_lt (sound.row.bounded p named)⟩,
      fun _ _ holds => ⟨holds, rfl⟩, fun _ named => named⟩
    rcases List.mem_cons.mp member with rfl | old
    · exact ⟨Nat.lt_succ_self _, fun bound => absurd bound (Nat.lt_irrefl _)⟩
    · have live := (List.mem_filter.mp old).1
      exact ⟨Nat.lt_succ_of_lt (sound.live q live), fun _ => live⟩
  | reschedule =>
    cases Option.some.inj taken
    obtain ⟨row, names⟩ := replaced_fits sound.row
    refine beside ⟨rfl, rfl, Nat.le_refl _, by simp [State.reschedule], Nat.le_refl _,
      fun p live => ⟨sound.live p live, fun _ => live⟩, rfl, rfl,
        ⟨row.one, row.user, row.issued, row.bounded⟩, ?_,
      fun p => (names p).mp⟩
    rintro y _ ⟨isSome, held⟩
    rw [← held] at isSome
    cases isSome
  | claimDue =>
    simp only [step, State.claimDue] at taken
    split at taken
    · cases Option.some.inj taken
      refine (claimed_sound sound ?_ ?_ ?_).imp_right fun after accounted _ => after accounted
      · exact sound.row.of_ids rfl (.inl rfl)
      · exact fun _ named => named
      · exact fun other => absurd rfl other
    · cases taken
  | reissue =>
    simp only [step, State.reissue] at taken
    split at taken
    · cases Option.some.inj taken
      obtain ⟨row, names⟩ := replaced_fits sound.row
      refine (claimed_sound sound ?_ ?_ ?_).imp_right fun after accounted _ => after accounted
      · exact ⟨row.one, row.user, row.issued, row.bounded⟩
      · exact fun p => (names p).mp
      · exact fun _ => rfl
    · cases taken
  | reveal =>
    simp only [step, State.reveal] at taken
    split at taken
    · cases Option.some.inj taken
      refine ⟨sound.begin (by simp) ⟨by simp [Phase.makes], fun holds => ?_, fun p named => ?_⟩,
        fun accounted _ => accounted.begin⟩
      · simp [Claims] at holds
      · exact sound.row.bounded p (.inl named)
    · cases taken
  | act id answer =>
    obtain ⟨x, found, taken⟩ := Option.bind_eq_some_iff.mp taken
    have member := (Table.find_mem found).1
    obtain ⟨t, next, rfl, made⟩ := perform_spec sound member taken
    refine ⟨sound.goOn member made, fun accounted kept => accounted.goOn sound member made ?_⟩
    exact kept (x, answer) (by simp [acting, found])

/-- Every state a run reaches is sound, and where every step is kept, accounts for every pass. -/
theorem sound_of_reach {meets : State → Action → Prop} (reach : classPasses.Reach meets s) : s.Sound := by
  refine reach.invariant (P := fun s => s.Sound) (fun s init => ?_) fun _ _ _ _ sound _ taken =>
    (sound_step sound taken).1
  obtain ⟨row, steps, made, _, live⟩ := init
  refine ⟨by simp [steps, Table.Keyed], by simp [steps], by simp [row, PassRecord.inserted], by simp [steps],
    by simp [steps], live, by simp [made], ?_, by simp [steps]⟩
  rw [row]
  constructor <;>
    simp [PassRecord.inserted, PassRecord.Names, PassRecord.entra, PassRecord.stale, method_eq_some]

theorem accounted_of_reach (reach : classPasses.Reach Kept s) : s.Accounted := by
  refine reach.invariant (P := fun s => s.Accounted) (fun s init => ?_)
    fun _ _ _ before accounted kept taken =>
    (sound_step (sound_of_reach before) taken).2 accounted kept
  simp [Accounted, init.2.2.1]

/-- What only ever grows: the tokens and the step ids given out. -/
structure Onward (s t : State) : Prop where
  nextToken : s.nextToken ≤ t.nextToken
  nextStep : s.nextStep ≤ t.nextStep
  claim : ∀ token ∈ t.row.claimToken, token ∈ s.row.claimToken ∨ s.nextToken ≤ token
  steps : ∀ y ∈ t.steps, (∃ x ∈ s.steps, x.id = y.id ∧ x.token = y.token) ∨ s.nextStep ≤ y.id

theorem Onward.refl : s.Onward s :=
  ⟨Nat.le_refl _, Nat.le_refl _, fun _ => .inl, fun y member => .inl ⟨y, member, rfl, rfl⟩⟩

theorem Onward.trans {u : State} (first : s.Onward t) (second : t.Onward u) : s.Onward u := by
  refine ⟨Nat.le_trans first.nextToken second.nextToken, Nat.le_trans first.nextStep second.nextStep, ?_, ?_⟩
  · intro token held
    rcases second.claim token held with old | new
    · exact first.claim token old
    · exact .inr (Nat.le_trans first.nextToken new)
  · intro z member
    rcases second.steps z member with ⟨y, memberY, id, token⟩ | new
    · rcases first.steps y memberY with ⟨x, memberX, idX, tokenX⟩ | new
      · exact .inl ⟨x, memberX, idX.trans id, tokenX.trans token⟩
      · exact .inr (id ▸ new)
    · exact .inr (Nat.le_trans first.nextStep new)

theorem Onward.begin {token : Option Nat} {how : How} {phase : Phase} :
    s.Onward (s.begin token how phase) := by
  refine ⟨Nat.le_refl _, Nat.le_succ _, fun _ => .inl, fun y member => ?_⟩
  rcases List.mem_append.mp member with old | new
  · exact .inl ⟨y, old, rfl, rfl⟩
  · rw [List.mem_singleton.mp new]
    exact .inr (Nat.le_refl _)

theorem Onward.claimed {set : PassRecord → PassRecord} {how : How} : s.Onward (s.claimed set how) := by
  refine ⟨Nat.le_succ _, Nat.le_succ _, fun token held => .inr ?_, fun y member => ?_⟩
  · cases Option.some.inj held
    exact Nat.le_refl _
  · rcases List.mem_append.mp member with old | new
    · exact .inl ⟨y, old, rfl, rfl⟩
    · rw [List.mem_singleton.mp new]
      exact .inr (Nat.le_refl _)

theorem Onward.goOn {kept : Prop} {next : Option Phase} (sound : s.Sound) (member : x ∈ s.steps)
    (made : s.Statement kept t x next) : s.Onward (t.goOn x next) := by
  refine ⟨Nat.le_of_eq made.nextToken.symm, Nat.le_of_eq made.nextStep.symm, fun token held =>
    ?_, fun y memberY => .inl ?_⟩
  · rcases made.claim with same | none_
    · exact .inl (same ▸ held)
    · rw [show (t.goOn x next).row.claimToken = none from none_] at held
      cases held
  · rcases (mem_goOn (made.steps ▸ sound.keyed) (made.steps ▸ member)).mp
      memberY with ⟨old, _⟩ | ⟨phase, _, rfl⟩
    · exact ⟨y, made.steps ▸ old, rfl, rfl⟩
    · exact ⟨x, member, rfl, rfl⟩

/-- A pass once accounted for stays so. -/
theorem onward_step (sound : s.Sound) {a : Action} (taken : step s a = some s') : s.Onward s' := by
  cases a with
  | tick | purge | lapse | madeElsewhere =>
    cases Option.some.inj taken
    exact ⟨Nat.le_refl _, Nat.le_refl _, fun _ => .inl, fun y member => .inl ⟨y, member, rfl, rfl⟩⟩
  | reschedule =>
    cases Option.some.inj taken
    exact ⟨Nat.le_refl _, Nat.le_refl
      _, by simp [State.reschedule], fun y member => .inl ⟨y, member, rfl, rfl⟩⟩
  | claimDue =>
    simp only [step, State.claimDue] at taken
    split at taken
    · cases Option.some.inj taken
      exact .claimed
    · cases taken
  | reissue =>
    simp only [step, State.reissue] at taken
    split at taken
    · cases Option.some.inj taken
      exact .claimed
    · cases taken
  | reveal =>
    simp only [step, State.reveal] at taken
    split at taken
    · cases Option.some.inj taken
      exact .begin
    · cases taken
  | act id answer =>
    obtain ⟨x, found, taken⟩ := Option.bind_eq_some_iff.mp taken
    have member := (Table.find_mem found).1
    obtain ⟨t, next, rfl, made⟩ := perform_spec sound member taken
    exact .goOn sound member made

theorem onward_of_path {meets : State → Action → Prop} (reach : classPasses.Reach meets s)
    (path : classPasses.Path meets s t) : s.Onward t :=
  path.invariant (P := fun t => s.Onward t) reach .refl fun _ _ _ before onward _ taken =>
    onward.trans (onward_step (sound_of_reach before) taken)

end State

open State

/-- In every run of kept steps, every live pass OpenADUC made is named by the
row, held by a step under way, or one the operator was told couldn't be
deleted; and a step whose claim was taken away never changes the row again. -/
theorem passes_accounted {s : State} (reach : classPasses.Reach Kept s) :
    s.Accounted ∧ ∀ x ∈ s.steps, ∀ token ∈ x.token, s.row.claimToken ≠ some token →
      ∀ u, classPasses.Path (fun _ _ => True) s u → ∀ answer v, step u (.act x.id answer) = some v →
        v.row = u.row := by
  refine ⟨accounted_of_reach reach, fun x member token held lost u path answer v taken => ?_⟩
  have sound := sound_of_reach reach
  have onward := onward_of_path reach.reachable path
  obtain ⟨y, found, taken⟩ := Option.bind_eq_some_iff.mp taken
  obtain ⟨memberY, named⟩ := Table.find_mem found
  have token_ : y.token = some token := by
    rcases onward.steps y memberY with ⟨z, memberZ, id, same⟩ | new
    · cases sound.keyed.eq_of_key memberZ member (id.trans named)
      exact same.symm.trans held
    · have bound := sound.stepIds x member
      omega
  have unclaimed : ¬u.Claims y := by
    rintro ⟨_, claims⟩
    rcases onward.claim token (claims.trans token_) with old | new
    · exact lost old
    · have bound := sound.tokens x member token held
      omega
  obtain ⟨t, next, rfl, made⟩ := perform_spec (sound_of_reach (reach.reachable.path path)) memberY taken
  exact made.fenced (by simp [token_]) unclaimed

/-- A row for a pass, the person's first looked at. -/
def start : State where
  now := 0
  nextToken := 0
  nextStep := 0
  nextMethod := 0
  row := .inserted 0
  live := []
  steps := []
  made := []
  told := []

/-- A step that has claimed the row makes its pass, and stores it. -/
def makes (step : Nat) : List Action :=
  [.act step (.checked (.ready 0)), .act step (.created (.created true "pass" 3600)),
    .act step (.recorded true 0)]

/-- The sweep makes a pass, an operator starts to reveal it, class is moved and
the sweep makes the pass again. -/
def madeAgain : List Action :=
  [.claimDue, .act 0 (.loaded true)] ++ makes 0 ++ [.reveal, .reschedule, .claimDue, .act 2 (.loaded true),
    .act 2 (.deleted .ok 0), .act 2 .cleared] ++ makes 2

/-- The reveal finds the holder an administrator, and takes away the pass it read. -/
def refusesRead : List Action :=
  [.act 1 (.held (.refused { code := "privileged", message := "They’re an administrator." }) 0),
    .act 1 (.deleted .ok 0), .act 1 (.noted 0)]

theorem start_init : classPasses.init start :=
  ⟨rfl, rfl, rfl, rfl, by simp [start]⟩

theorem passes_accounted_again :
    ∃ s, classPasses.run start madeAgain = some s ∧ s.live = [⟨0, 1⟩] ∧ s.Accounted := by
  have ran : ((classPasses.run start madeAgain).any fun s =>
      classPasses.MeetsAlong Kept start madeAgain ∧ s.live = [⟨0, 1⟩]) = true := by decide +kernel
  obtain ⟨s, reached, met, live⟩ := Transition.System.exists_of_any ran
  exact ⟨s, reached, live, (passes_accounted (.of_run (.start start_init) reached met)).1⟩

/-- A reveal that lands after the pass was made again clears the new pass's id. -/
theorem not_accounted :
    ¬∀ s, classPasses.Reachable s → s.Accounted ∧ ∀ x ∈ s.steps, ∀ token ∈ x.token,
      s.row.claimToken ≠ some token →
      ∀ u, classPasses.Path (fun _ _ => True) s u → ∀ answer v, step u (.act x.id answer) = some v →
        v.row = u.row := by
  intro holds
  have ran : ((classPasses.run start (madeAgain ++ refusesRead)).any fun s =>
      ∃ p ∈ s.made, p ∈ s.live ∧ ¬s.row.Names p ∧ s.steps = [] ∧ p ∉ s.told) = true := by decide +kernel
  obtain ⟨s, reach, p, made, live, unnamed, none_, untold⟩ :=
    Transition.System.Reachable.exists_of_run (.start start_init) ran
  rcases (holds s reach).1 p made live with named | ⟨x, member, _⟩ | told
  · exact unnamed named
  · rw [none_] at member
    cases member
  · exact untold told

end OpenAduc.ClassPasses
