import OpenAduc.LicenseChecks.Claims

namespace OpenAduc.LicenseChecks
open BulkJobs (GroupChange)

variable {t : Texts} {s s' : State} {a : Action}

/-- What a stage may rely on: the check its token claims, where it claims one still,
is the one it named, and after reading it, that very record. -/
def State.Holds (s : State) : Stage → Prop
  | .claimed _ token rowId =>
      token < s.nextToken ∧ ∀ c ∈ s.checks, c.claimToken = some token → c.rowId = rowId
  | .checking _ token claimed _ =>
    token < s.nextToken ∧ ∀ c ∈ s.checks, c.claimToken = some token → c = claimed.check
  | _ => True

structure State.Held (s : State) : Prop where
  keyed : Table.Keyed Check.rowId s.checks
  rows : ∀ c ∈ s.checks, c.rowId < s.nextRow
  claims : ∀ c ∈ s.checks, ∀ token, c.claimToken = some token → token < s.nextToken ∧
    c.status = .waiting ∧ c.startedAt.isSome
  staged : ∀ p, s.Holds (s.processes p).stage

theorem held_start : State.start.Held where
  keyed := List.nodup_nil
  rows _ member := nomatch member
  claims _ member := nomatch member
  staged _ := trivial

/-- A claim found after a statement was there before it, or is the one it made. -/
theorem effect_claims (keyed : Table.Keyed Check.rowId s.checks) (effect : Effect t s s')
    {c : Check} (member : c ∈ s'.checks)
    {token : Nat} (claims : c.claimToken = some token) :
    c ∈ s.checks ∨ token = s.nextToken ∧ s.nextToken < s'.nextToken ∧ c.status = .waiting ∧
      c.startedAt.isSome := by
  cases effect with
  | same is =>
    rw [is] at member
    exact .inl member
  | stored added fresh distinct inserted is =>
    rw [is] at member
    rcases List.mem_append.mp member with before | new
    · exact .inl before
    · rw [(inserted c new).2.2] at claims
      cases claims
  | deleted id is =>
    rw [is] at member
    exact .inl (Table.mem_delete.mp member).1
  | stopped o now stop why is | recorded p on token claimed now answers stage is =>
    rw [is] at member
    obtain ⟨x, before, made⟩ := Table.mem_update.mp member
    split at made
    next =>
      rw [← made] at claims
      cases claims
    next =>
      rw [← made]
      exact .inl before
  | claimed rowId at_ old found waits is next =>
    rw [is] at member
    obtain ⟨x, before, made⟩ := Table.mem_update.mp member
    split at made
    next named =>
      obtain ⟨inChecks, oldNamed⟩ := Table.find_mem found
      have same := keyed.eq_of_key before inChecks (named.trans oldNamed.symm)
      have started : (x.begun at_).startedAt.isSome := by
        unfold FollowUp.begun
        cases x.startedAt <;> rfl
      rw [← made] at claims ⊢
      exact .inr ⟨(Option.some.inj claims).symm, next, same ▸ waits, started⟩
    next =>
      rw [← made]
      exact .inl before

/-- Each row's check stays its only one. -/
theorem effect_keyed (held : s.Held) (effect : Effect t s s') : Table.Keyed Check.rowId s'.checks := by
  cases effect with
  | same is =>
    rw [is]
    exact held.keyed
  | stored added fresh keyed inserted is =>
    rw [is]
    refine held.keyed.append keyed fun x before y new same => ?_
    exact absurd (held.rows x before) (Nat.not_lt.mpr (same ▸ (fresh y new).1))
  | deleted id is =>
    rw [is]
    exact held.keyed.delete
  | stopped o now stop why is =>
    rw [is]
    exact held.keyed.update fun _ _ => rfl
  | claimed rowId at_ c found waits is next =>
    rw [is]
    exact held.keyed.update fun _ _ => rfl
  | recorded p on token claimed now answers stage is =>
    rw [is]
    exact held.keyed.update fun _ _ => rfl

/-- Every check is of a row stored before. -/
theorem effect_rows (held : s.Held) (taken : Taken t s a s') {c : Check} (member : c ∈ s'.checks) :
    c.rowId < s'.nextRow := by
  have before : ∀ x ∈ s.checks, x.rowId < s'.nextRow :=
    fun x inChecks => (held.rows x inChecks).trans_le taken.nextRow
  cases taken.effect with
  | same is =>
    rw [is] at member
    exact before c member
  | stored added fresh keyed inserted is =>
    rw [is] at member
    rcases List.mem_append.mp member with old | new
    · exact before c old
    · exact (fresh c new).2
  | deleted id is =>
    rw [is] at member
    exact before c (Table.mem_delete.mp member).1
  | stopped o now stop why is | recorded p on token claimed now answers stage is =>
    rw [is] at member
    obtain ⟨x, inChecks, made⟩ := Table.mem_update.mp member
    rw [← made]
    split <;> exact before x inChecks
  | claimed rowId at_ old found waits is next =>
    rw [is] at member
    obtain ⟨x, inChecks, made⟩ := Table.mem_update.mp member
    rw [← made]
    split <;> exact before x inChecks

/-- What a stage relies on stays so while its claims are those there were. -/
theorem holds_mono {stage : Stage} (holds : s.Holds stage) (later : s.nextToken ≤ s'.nextToken)
    (kept : ∀ c ∈ s'.checks, ∀ token, token < s.nextToken → c.claimToken = some token →
      c ∈ s.checks) : s'.Holds stage := by
  cases stage with
  | claimed on token rowId =>
    exact ⟨holds.1.trans_le later, fun c member claims =>
      holds.2 c (kept c member token holds.1 claims) claims⟩
  | checking on token claimed now =>
    exact ⟨holds.1.trans_le later, fun c member claims =>
      holds.2 c (kept c member token holds.1 claims) claims⟩
  | idle | stopping | claiming => trivial

/-- Every step keeps one claim for each check at most, and the table in order. -/
theorem held_taken (held : s.Held) (taken : Taken t s a s') : s'.Held := by
  have kept : ∀ c ∈ s'.checks, ∀ token, token < s.nextToken → c.claimToken = some token → c ∈ s.checks := by
    intro c member token old claims
    rcases effect_claims held.keyed taken.effect member claims with before | ⟨fresh, _⟩
    · exact before
    · exact absurd old (Nat.not_lt.mpr fresh.ge)
  refine ⟨effect_keyed held taken.effect, fun c =>
    effect_rows held taken, fun c member token claims => ?_, fun p => ?_⟩
  · rcases effect_claims held.keyed taken.effect member claims with before | ⟨fresh, next, waits, started⟩
    · obtain ⟨old, waits⟩ := held.claims c before token claims
      exact ⟨old.trans_le taken.nextToken, waits⟩
    · exact ⟨fresh ▸ next, waits, started⟩
  · cases taken.moves p with
    | same is =>
      rw [is]
      exact holds_mono (held.staged p) taken.nextToken kept
    | ended is | began on now was is | stopping on now o overdue was is | claiming on is =>
      rw [is]
      trivial
    | claimed on rowId was is next named =>
      rw [is]
      refine ⟨next, fun c member claims => ?_⟩
      rcases named c member claims with is | before
      · exact is
      · exact absurd (held.claims c before _ claims).1 (Nat.lt_irrefl _)
    | loaded on token rowId claimed now was is found checks =>
      have claimHeld := held.staged p
      rw [was] at claimHeld
      rw [is]
      refine ⟨claimHeld.1.trans_le taken.nextToken, fun c member claims => ?_⟩
      rw [checks] at member
      obtain ⟨inChecks, named⟩ := Table.find_mem found
      exact held.keyed.eq_of_key member inChecks ((claimHeld.2 c member claims).trans named.symm)

theorem held_reach (reach : (licenseChecks t).Reachable s) : s.Held :=
  reach.invariant (fun _ init => init ▸ held_start) fun _ _ _ _ held _ taken =>
    held_taken held (taken_of_step taken)

/-- A statement leaves a check alone, or is one step of its follow-up, taken at once:
a look's update lands only on the record the look has read. Only a claim leaves it claimed. -/
theorem followed_taken (held : s.Held) (taken : Taken t s a s') {c c' : Check}
    (member : c ∈ s.checks) (member' : c' ∈ s'.checks)
    (same : c'.rowId = c.rowId) :
    c' = c ∨ ∃ e, (followUps t).step c.toFollowUp e = some c'.toFollowUp ∧
      (c'.claimToken = none ∨ ∃ at_, c'.toFollowUp = c.begun at_) := by
  have one {x : Check} (inChecks : x ∈ s.checks) (is : x.rowId = c.rowId) : x = c :=
    held.keyed.eq_of_key inChecks member is
  cases taken.effect with
  | same is =>
    rw [is] at member'
    exact .inl (one member' same)
  | stored added fresh keyed inserted is =>
    rw [is] at member'
    rcases List.mem_append.mp member' with before | new
    · exact .inl (one before same)
    · exact absurd (held.rows c member) (Nat.not_lt.mpr (same ▸ (fresh c' new).1))
  | deleted id is =>
    rw [is] at member'
    exact .inl (one (Table.mem_delete.mp member').1 same)
  | stopped o now stop why is =>
    rw [is] at member'
    obtain ⟨x, inChecks, made⟩ := Table.mem_update.mp member'
    split at made
    next met =>
      rw [← made] at same ⊢
      cases one inChecks same
      refine .inr ⟨.stop o.asWaiting now, ?_, .inl rfl⟩
      simp [followUps, met.2.1, why]
    next =>
      rw [← made] at same ⊢
      exact .inl (one inChecks same)
  | claimed rowId at_ old found waits is next =>
    rw [is] at member'
    obtain ⟨x, inChecks, made⟩ := Table.mem_update.mp member'
    split at made
    next named =>
      rw [← made] at same ⊢
      cases one inChecks same
      obtain ⟨oldIn, oldNamed⟩ := Table.find_mem found
      cases one oldIn (oldNamed.trans named.symm)
      refine .inr ⟨.begin at_, ?_, .inr ⟨at_, rfl⟩⟩
      simp [followUps, waits]
    next =>
      rw [← made] at same ⊢
      exact .inl (one inChecks same)
  | recorded p on token claimed now answers stage is =>
    rw [is] at member'
    obtain ⟨x, inChecks, made⟩ := Table.mem_update.mp member'
    split at made
    next met =>
      have read := held.staged p
      rw [stage] at read
      have asRead : x = claimed.check := read.2 x inChecks met.2
      obtain ⟨_, waits, started⟩ := held.claims x inChecks token met.2
      rw [← made] at same ⊢
      rw [← one inChecks same]
      refine .inr ⟨.look claimed.groups now answers, ?_, .inl rfl⟩
      simp [followUps, waits, started, ← asRead]
    next =>
      rw [← made] at same ⊢
      exact .inl (one inChecks same)

/-- Where a check comes from: it was there before, or has just been stored. -/
theorem check_origin (taken : Taken t s a s') {c' : Check} (member' : c' ∈ s'.checks) :
    (∃ c ∈ s.checks, c'.rowId = c.rowId) ∨ s.nextRow ≤ c'.rowId ∧ Granting c'.expected ∧
      c'.toFollowUp = .inserted c'.expected := by
  cases taken.effect with
  | same is =>
    rw [is] at member'
    exact .inl ⟨c', member', rfl⟩
  | stored added fresh keyed inserted is =>
    rw [is] at member'
    rcases List.mem_append.mp member' with before | new
    · exact .inl ⟨c', before, rfl⟩
    · exact .inr ⟨(fresh c' new).1, (inserted c' new).1, (inserted c' new).2.1⟩
  | deleted id is =>
    rw [is] at member'
    exact .inl ⟨c', (Table.mem_delete.mp member').1, rfl⟩
  | stopped o now stop why is | recorded p on token claimed now answers stage is =>
    rw [is] at member'
    obtain ⟨x, inChecks, made⟩ := Table.mem_update.mp member'
    rw [← made]
    exact .inl ⟨x, inChecks, by split <;> rfl⟩
  | claimed rowId at_ old found waits is next =>
    rw [is] at member'
    obtain ⟨x, inChecks, made⟩ := Table.mem_update.mp member'
    rw [← made]
    exact .inl ⟨x, inChecks, by split <;> rfl⟩

/-- Every check there is has come about by a follow-up's own steps. -/
theorem followUp_reach (reach : (licenseChecks t).Reachable s) {c : Check} (member : c ∈ s.checks) :
    (followUps t).Reachable c.toFollowUp := by
  have all : ∀ c ∈ s.checks, (followUps t).Reachable c.toFollowUp := by
    refine reach.invariant (P := fun s => ∀ c ∈ s.checks, (followUps t).Reachable c.toFollowUp) ?_ ?_
    · rintro _ rfl c member
      cases member
    · intro s s' a before ih _ step c' member'
      have taken := taken_of_step step
      rcases check_origin taken member' with ⟨c, member, same⟩ | ⟨_, granting, inserted⟩
      · rcases followed_taken (held_reach before) taken member member' same with is | ⟨e, step, _⟩
        · exact is ▸ ih c member
        · exact .next (ih c member) trivial step
      · exact .start ⟨c'.expected, granting, inserted⟩
  exact all c member

theorem nextRow_path (path : (licenseChecks t).Path (fun _ _ => True) s s') : s.nextRow ≤ s'.nextRow := by
  induction path with
  | refl => exact Nat.le_refl _
  | tail _ _ step ih => exact ih.trans (taken_of_step step).nextRow

/-- A check found again under its row's number is further along its follow-up, or the same. -/
theorem followed_path (reach : (licenseChecks t).Reachable s)
    (path : (licenseChecks t).Path (fun _ _ => True) s s') {c : Check}
    (member : c ∈ s.checks) : ∀ c' ∈ s'.checks, c'.rowId = c.rowId →
      (followUps t).Path (fun _ _ => True) c.toFollowUp c'.toFollowUp ∧ (c.status ≠ .waiting → c' = c) := by
  induction path with
  | refl =>
    intro c' member' same
    cases (held_reach reach).keyed.eq_of_key member' member same
    exact ⟨.refl, fun _ => rfl⟩
  | tail previous _ step ih =>
    intro c' member' same
    have taken := taken_of_step step
    rcases check_origin taken member' with ⟨m, inMid, named⟩ | ⟨fresh, _⟩
    · obtain ⟨before, ended⟩ := ih m inMid (named.symm.trans same)
      rcases followed_taken (held_reach (reach.path previous)) taken inMid member'
        named with is | ⟨e, further, _⟩
      · rw [is]
        exact ⟨before, ended⟩
      · refine ⟨.tail before trivial further, fun closed => ?_⟩
        have waits := (followUps_cases further).1
        rw [ended closed] at waits
        exact absurd waits closed
    · have old := ((held_reach reach).rows c member).trans_le (nextRow_path previous)
      exact absurd old (Nat.not_lt.mpr (same ▸ fresh))

/-- However many processes sweep, die with a claim in hand or come back after their lease, and
whatever happens to the imports meanwhile: a check goes through the steps of one person's
follow-up, each taken on what the last left, it keeps what it has come to know, says what it
may say, and once settled or stopped it stays as it is. -/
theorem check_followed (t : Texts) (s s' : State) (reach : (licenseChecks t).Reachable s)
    (path : (licenseChecks t).Path (fun _ _ => True) s s') (c : Check) (member : c ∈ s.checks)
    (c' : Check) (member' : c' ∈ s'.checks)
    (same : c'.rowId = c.rowId) :
    (followUps t).Reachable c.toFollowUp ∧ (followUps t).Path (fun _ _ => True) c.toFollowUp c'.toFollowUp ∧
      c.Keeps c'.toFollowUp ∧ c'.WellFormed ∧ (c.status ≠ .waiting → c' = c) := by
  have followUp := followUp_reach reach member
  obtain ⟨further, ended⟩ := followed_path reach path member c' member' same
  exact ⟨followUp, further, keeps_path further, wellFormed_reach (followUp.path further), ended⟩

def plainTexts : Texts where
  lower s := String.ofList (s.toList.map Char.toLower)
  productNames _ := none

def staffLicense : CachedLicensedGroup :=
  { objectGuid := "g-1", name := some "Staff", entraGroupId := "e-1", skus := [⟨"sku-1", some "PART"⟩] }

def notYet : Answers := { graph := true, found := .ok none, states := fun _ => .ok [] }

def assigned : Answers :=
  { graph := true, found := .ok (some "ada"), states := fun _ =>
    .ok [⟨"SKU-1", some "E-1", some "Active", none⟩] }

/-- Two processes look at one person. -/
def firstClaims : List Action :=
  [.store [staffLicense] 1 [["G-1"]],
    .rowRun 0 .succeeded (some "u-1") (some [⟨"g-1", "Staff", true⟩]) (some 0),
    .beginSweep 0 [1] 0, .stopNext 0, .claimDue 0 0 0, .load 0 0]

/-- The first comes back after its lease, and writes nothing. -/
def secondLooks : List Action :=
  [.tick LEASE, .beginSweep 1 [1] LEASE, .stopNext 1, .claimDue 1 0 LEASE, .load 1 LEASE,
    .record 1 assigned LEASE,
    .record 0 notYet LEASE]

def adaCheck (f : FollowUp) (token : Option Nat) : Check :=
  { f with rowId := 0, nextAttemptAt := LEASE, claimToken := token }

def adaWaiting : FollowUp :=
  { FollowUp.inserted [⟨"g-1", "e-1", "Staff", [⟨"sku-1", some "PART"⟩]⟩]
    with startedAt := some 0, attempts := 1 }

def adaSettled : FollowUp :=
  { adaWaiting with
    status := .settled, entraUserId := some "ada", licenses :=
      some [⟨"sku-1", some "PART", "Staff", .active, none⟩]
    syncedAt := some LEASE, checkedAt := some LEASE }

theorem check_followed_settled : ∃ s s', (licenseChecks plainTexts).run .start firstClaims = some s ∧
    (licenseChecks plainTexts).run s secondLooks = some s' ∧
    adaCheck adaWaiting (some 0) ∈ s.checks ∧ adaCheck adaSettled none ∈ s'.checks ∧
    (followUps plainTexts).Path (fun _ _ => True) adaWaiting adaSettled := by
  have ran : ((licenseChecks plainTexts).run .start firstClaims).any
    (fun s => adaCheck adaWaiting (some 0) ∈ s.checks ∧
      (((licenseChecks plainTexts).run s secondLooks).any
        fun s' => adaCheck adaSettled none ∈ s'.checks) = true) = true := by decide
  obtain ⟨s, first, member, ran'⟩ := Transition.System.exists_of_any ran
  obtain ⟨s', second, member'⟩ := Transition.System.exists_of_any ran'
  have reach : (licenseChecks plainTexts).Reachable s :=
    .of_run (.start rfl) first Transition.System.meetsAlong_true
  have path := Transition.System.Path.of_run second Transition.System.meetsAlong_true
  exact ⟨s, s', first, second, member, member',
    (check_followed plainTexts s s' reach path _ member _ member' rfl).2.1⟩

end OpenAduc.LicenseChecks
