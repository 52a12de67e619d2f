import OpenAduc.LicenseChecks.Service

namespace OpenAduc.LicenseChecks
open BulkJobs (GroupChange)

/-- What happens to one person's follow-up. -/
inductive Event
  | begin (at_ : Nat)
  | look (groups : Option (List GroupChange)) (now : Nat) (a : Answers)
  | stop (w : WaitingCheck) (now : Nat)

/-- Groups that all grant some license. -/
def Granting (expected : List ExpectedLicenseGroup) : Prop :=
  expected ≠ [] ∧ ∀ g ∈ expected, g.skus ≠ []

/-- What a check is for: one person's follow-up, as if nobody else worked on it. A
look reads it and writes it at once, it waits until it is settled or stopped,
and then nothing happens to it any more. There are no claims and no leases. -/
def followUps (t : Texts) : Transition.System FollowUp Event where
  init f := ∃ expected, Granting expected ∧ f = .inserted expected
  step f e :=
    if f.status ≠ .waiting then none
    else
      match e with
      | .begin at_ => some (f.begun at_)
      | .look groups now a =>
        if f.startedAt.isSome then some ((t.look f groups now a).1.apply now f) else none
      | .stop w now => (t.stopOf w now).map f.halted

variable {t : Texts} {f f' : FollowUp} {e : Event}

/-- What a step of a follow-up is. -/
theorem followUps_cases (taken : (followUps t).step f e = some f') :
    f.status = .waiting ∧
      ((∃ at_, f' = f.begun at_) ∨
        (∃ groups now a, f.startedAt.isSome ∧ f' = (t.look f groups now a).1.apply now f) ∨
        ∃ w now stop, t.stopOf w now = some stop ∧ f' = f.halted stop) := by
  change (if f.status ≠ .waiting then none else _) = some f' at taken
  split at taken
  next => cases taken
  next waiting =>
    refine ⟨not_not.mp waiting, ?_⟩
    cases e with
    | begin at_ => exact .inl ⟨at_, (Option.some.inj taken).symm⟩
    | look groups now a =>
      dsimp only at taken
      split at taken
      next started => exact .inr (.inl ⟨groups, now, a, started, (Option.some.inj taken).symm⟩)
      next => cases taken
    | stop w now =>
      obtain ⟨stop, is, rfl⟩ := Option.map_eq_some_iff.mp taken
      exact .inr (.inr ⟨w, now, stop, is, rfl⟩)

/-- What is so of a follow-up whenever it is looked at. -/
structure FollowUp.WellFormed (f : FollowUp) : Prop where
  granting : Granting f.expected
  /-- Entra lists every license of a settled one, and there is one. -/
  settled : f.status = .settled → f.message = none ∧ f.errorCode = none ∧
    ∃ licenses, f.licenses = some licenses ∧ licenses ≠ [] ∧ ∀ l ∈ licenses, l.state ≠ .pending
  /-- One that waits though Entra was read waits for a license Entra doesn't list yet. -/
  waiting : f.status = .waiting → ∀ licenses, f.licenses = some licenses → ∃ l ∈ licenses, l.state = .pending
  stopped : f.status = .stopped → f.message.isSome ∧ f.errorCode.isSome
  licensed : f.licenses.isSome = f.syncedAt.isSome
  checked : f.checkedAt.isSome = f.syncedAt.isSome
  known : f.entraUserId.isSome → f.syncedAt.isSome
  started : f.syncedAt.isSome → f.startedAt.isSome
  looked : 0 < f.attempts ↔ f.startedAt.isSome
  /-- Each license it lists is one its groups grant. -/
  granted : ∀ licenses, f.licenses = some licenses →
    ∀ l ∈ licenses, ∃ g ∈ f.expected, ∃ sku ∈ g.skus, l.skuId = sku.skuId ∧ l.group = g.name

theorem wellFormed_inserted {expected : List ExpectedLicenseGroup} (granting : Granting expected) :
    (FollowUp.inserted expected).WellFormed where
  granting := granting
  settled is := CheckStatus.noConfusion is
  waiting _ _ is := Option.noConfusion rfl (heq_of_eq is)
  stopped is := CheckStatus.noConfusion is
  licensed := rfl
  checked := rfl
  known is := is
  started is := is
  looked := ⟨fun is => absurd is (Nat.lt_irrefl 0), fun is => Bool.noConfusion is⟩
  granted _ is := Option.noConfusion rfl (heq_of_eq is)

/-- What a look writes, by what it says of Entra. -/
inductive Texts.Looked (t : Texts) (f : FollowUp) (now : Nat) : CheckUpdate → Prop
  | noted (afterMs : Nat) (message : String) (code : ImportLicenseCheckCode) :
    Looked t f now (.noted (.waiting afterMs message) code)
  | stopped (message : String) (code : ImportLicenseCheckCode) :
    Looked t f now (.noted (.stopped message) code)
  | read (joined : List ExpectedLicenseGroup) (entraUserId : String) (states : List AssignmentState)
    (some_ : joined ≠ [])
      (among : ∀ g ∈ joined, g ∈ f.expected) : Looked t f now (t.readStates f joined now entraUserId states)
  | gone : Looked t f now .gone

theorem looked_thrown {now : Nat} (thrown_ : Thrown) : t.Looked f now (Texts.thrown f thrown_) := by
  cases thrown_ with
  | throttled | directoryUnavailable | other => exact .noted _ _ _
  | permission =>
    unfold Texts.thrown
    dsimp only
    split
    · exact .gone
    · exact .noted _ _ _

/-- A look writes one of these, by what Entra answers. -/
theorem looked_look (groups : Option (List GroupChange)) (now : Nat) (a : Answers) :
    t.Looked f now (t.look f groups now a).1 := by
  unfold Texts.look
  dsimp only
  split
  next => exact .stopped _ _
  next some_ =>
    split
    next => exact .noted _ _ _
    next =>
      cases entraUserOf : Texts.entraUserOf f a with
      | error thrown_ => exact looked_thrown thrown_
      | ok entraUser =>
        cases entraUser with
        | none => exact .noted _ _ _
        | some entraUserId =>
          dsimp only
          cases a.states entraUserId with
          | error thrown_ => exact looked_thrown thrown_
          | ok states => exact .read _ _ _ some_ fun g member => (List.mem_filter.mp member).1

/-- A reading lists each license of the joined groups, and one at least. -/
theorem mem_checkedLicenses {expected : List ExpectedLicenseGroup} {states : List AssignmentState}
    {l : CheckedLicense} :
    l ∈ t.checkedLicenses expected states ↔
      ∃ g ∈ expected, ∃ sku ∈ g.skus, t.checkedLicense states g sku = l := by
  simp only [Texts.checkedLicenses, List.mem_flatMap, List.mem_map]

theorem checkedLicenses_ne_nil {expected : List ExpectedLicenseGroup}
    {states : List AssignmentState} (granting : Granting expected) :
    t.checkedLicenses expected states ≠ [] := by
  obtain ⟨g, member⟩ := List.exists_mem_of_ne_nil expected granting.1
  obtain ⟨sku, grants⟩ := List.exists_mem_of_ne_nil g.skus (granting.2 g member)
  exact List.ne_nil_of_mem (mem_checkedLicenses.mpr ⟨g, member, sku, grants, rfl⟩)

theorem settleOutcome_cases (licenses : List CheckedLicense) (attempts : Nat) :
    (t.settleOutcome licenses attempts = .settled ∧ ∀ l ∈ licenses, l.state ≠ .pending) ∨
      ((∃ afterMs message, t.settleOutcome licenses attempts = .waiting afterMs message) ∧
        ∃ l ∈ licenses, l.state = .pending) := by
  unfold Texts.settleOutcome
  split
  next all => exact .inl ⟨rfl, all⟩
  next left =>
    refine .inr ⟨⟨_, _, rfl⟩, ?_⟩
    simpa using left

/-- What a look writes leaves the follow-up well formed. -/
theorem wellFormed_looked {now : Nat} {u : CheckUpdate} (looked : t.Looked f now u)
    (well : f.WellFormed) (waits : f.status = .waiting)
    (started : f.startedAt.isSome) : (u.apply now f).WellFormed := by
  cases looked with
  | noted afterMs message code =>
    exact { well with
      settled := fun is => CheckStatus.noConfusion is
      waiting := fun _ => well.waiting waits
      stopped := fun is => CheckStatus.noConfusion is }
  | stopped message code =>
    exact { well with
      settled := fun is => CheckStatus.noConfusion is
      waiting := fun is => CheckStatus.noConfusion is
      stopped := fun _ => ⟨rfl, rfl⟩ }
  | gone =>
    exact { well with known := fun is => Bool.noConfusion is }
  | read joined entraUserId states some_ among =>
    have granting : Granting joined := ⟨some_, fun g member => well.granting.2 g (among g member)⟩
    have attempted :
      0 < (if f.syncedAt.isNone then some
      (if f.syncedAt.isNone then 1 else f.attempts) else none).getD f.attempts := by
      split
      next => exact Nat.one_pos
      next => exact well.looked.mpr started
    have granted : ∀ l ∈ t.checkedLicenses joined states, ∃ g ∈ f.expected, ∃ sku ∈ g.skus,
      l.skuId = sku.skuId ∧ l.group = g.name := by
      intro l member
      obtain ⟨g, inJoined, sku, grants, rfl⟩ := mem_checkedLicenses.mp member
      exact ⟨g, among g inJoined, sku, grants, rfl, rfl⟩
    have outcome := settleOutcome_cases (t := t) (t.checkedLicenses joined states)
      (if f.syncedAt.isNone then 1 else f.attempts)
    refine
      { granting := well.granting
        settled := fun is => ?_
        waiting := fun is licenses read => ?_
        stopped := fun is => ?_
        licensed := rfl
        checked := rfl
        known := fun _ => rfl
        started := fun _ => started
        looked := ⟨fun _ => started, fun _ => attempted⟩
        granted := fun licenses read => ?_ }
    · change (t.settleOutcome _ _).status = .settled at is
      rcases outcome with ⟨settles, all⟩ | ⟨⟨afterMs, message, waits⟩, _⟩
      · refine ⟨?_, rfl, _, rfl, checkedLicenses_ne_nil granting, all⟩
        change (t.settleOutcome _ _).message = none
        rw [settles]
        rfl
      · rw [waits] at is
        cases is
    · change (t.settleOutcome _ _).status = .waiting at is
      cases Option.some.inj read
      rcases outcome with ⟨settles, _⟩ | ⟨_, left⟩
      · rw [settles] at is
        cases is
      · exact left
    · change (t.settleOutcome _ _).status = .stopped at is
      rcases outcome with ⟨settles, _⟩ | ⟨⟨afterMs, message, waits⟩, _⟩
      · rw [settles] at is
        cases is
      · rw [waits] at is
        cases is
    · cases Option.some.inj read
      exact granted

theorem wellFormed_step (well : f.WellFormed) (taken : (followUps t).step f e = some f') : f'.WellFormed := by
  obtain ⟨waits, ⟨at_, rfl⟩ | ⟨groups, now, a, started, rfl⟩ | ⟨w, now, stop, _, rfl⟩⟩ :=
    followUps_cases taken
  · have begun : (f.begun at_).startedAt.isSome := by
      unfold FollowUp.begun
      cases f.startedAt <;> rfl
    exact { well with
      started := fun _ => begun
      looked := ⟨fun _ => begun, fun _ => Nat.succ_pos _⟩ }
  · exact wellFormed_looked (looked_look groups now a) well waits started
  · exact { well with
      settled := fun is => CheckStatus.noConfusion is
      waiting := fun is => CheckStatus.noConfusion is
      stopped := fun _ => ⟨rfl, rfl⟩ }

/-- What a follow-up keeps from one time to a later one. -/
structure FollowUp.Keeps (f f' : FollowUp) : Prop where
  expected : f'.expected = f.expected
  startedAt : ∀ at_, f.startedAt = some at_ → f'.startedAt = some at_
  syncedAt : ∀ at_, f.syncedAt = some at_ → f'.syncedAt = some at_
  ended : f.status ≠ .waiting → f' = f

theorem FollowUp.Keeps.refl (f : FollowUp) : f.Keeps f := ⟨rfl, fun _ => id, fun _ => id, fun _ => rfl⟩

theorem FollowUp.Keeps.trans {f'' : FollowUp} (first : f.Keeps f') (then_ : f'.Keeps f'') : f.Keeps f'' where
  expected := then_.expected.trans first.expected
  startedAt at_ is := then_.startedAt at_ (first.startedAt at_ is)
  syncedAt at_ is := then_.syncedAt at_ (first.syncedAt at_ is)
  ended ended := by
    have same := first.ended ended
    rw [same] at then_
    exact then_.ended ended

theorem keeps_looked {now : Nat} {u : CheckUpdate} (looked : t.Looked f now u) (waits : f.status = .waiting) :
    f.Keeps (u.apply now f) := by
  cases looked with
  | noted | stopped | gone => exact ⟨rfl, fun _ => id, fun _ => id, fun ended => absurd waits ended⟩
  | read joined entraUserId states =>
    refine ⟨rfl, fun _ => id, fun at_ is => ?_, fun ended => absurd waits ended⟩
    change some (f.syncedAt.getD now) = some at_
    rw [is]
    rfl

theorem keeps_step (taken : (followUps t).step f e = some f') : f.Keeps f' := by
  obtain ⟨waits, ⟨at_, rfl⟩ | ⟨groups, now, a, _, rfl⟩ | ⟨w, now, stop, _, rfl⟩⟩ := followUps_cases taken
  · refine ⟨rfl, fun at_ is => ?_, fun _ => id, fun ended => absurd waits ended⟩
    change f.startedAt.or _ = some at_
    rw [is]
    rfl
  · exact keeps_looked (looked_look groups now a) waits
  · exact ⟨rfl, fun _ => id, fun _ => id, fun ended => absurd waits ended⟩

theorem keeps_path {meets : FollowUp → Event → Prop} (path : (followUps t).Path meets f f') : f.Keeps f' := by
  induction path with
  | refl => exact .refl f
  | tail _ _ taken ih => exact ih.trans (keeps_step taken)

theorem wellFormed_reach (reach : (followUps t).Reachable f) : f.WellFormed := by
  refine reach.invariant (fun f init => ?_) fun f f' e _ well _ taken => wellFormed_step well taken
  obtain ⟨expected, granting, rfl⟩ := init
  exact wellFormed_inserted granting

end OpenAduc.LicenseChecks
