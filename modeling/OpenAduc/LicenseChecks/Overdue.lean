import OpenAduc.LicenseChecks.Followed

namespace OpenAduc.LicenseChecks

variable {t : Texts} {s s' : State} {c c' : Check} {r : ImportRow} {on : List Nat}
    {now clock p : Nat} {a : Action}

/-- The selection finds what `stopOf` stops. -/
theorem overdue_iff : c.Overdue r on now ↔ (t.stopOf (c.asWaiting r on) now).isSome := by
  have off : r.providerId ∉ on ↔ (c.asWaiting r on).licensesOn = false := by simp [Check.asWaiting]
  have started : (c.startedAt.or r.finishedAt).getD r.jobCreatedAt = (c.asWaiting r on).startedAt := rfl
  have synced : (c.syncedAt.any fun x => decide (x + SETTLE_WINDOW_MS ≤ now)) = true ↔
      ∃ syncedAt, (c.asWaiting r on).syncedAt = some syncedAt ∧ syncedAt + SETTLE_WINDOW_MS ≤ now := by
    rw [Option.any_eq_true]
    simp only [decide_eq_true_eq]
    rfl
  rw [stopOf_isSome, Check.Overdue, off, started, synced]
  rfl

/-- What is overdue stays so. -/
theorem stops_later (overdue : c.Overdue r on now) (later : now ≤ clock) :
    (t.stopOf (c.asWaiting r on) clock).isSome := by
  refine stopOf_isSome.mpr ((stopOf_isSome.mp ((overdue_iff (t := t)).mp overdue)).imp_right ?_)
  rintro (⟨unsynced, passed⟩ | ⟨syncedAt, synced, passed⟩)
  · exact .inl ⟨unsynced, passed.trans later⟩
  · exact .inr ⟨syncedAt, synced, passed.trans later⟩

/-- What a check is after the stops of a sweep that reads its clock once it has made its selection. -/
def State.sweptCheck (s : State) (t : Texts) (on : List Nat) (clock : Nat) (c : Check) : Check :=
  match s.rowOf c.rowId with
  | none => c
  | some r =>
    if c.status = .waiting ∧ c.Unclaimed s.now ∧ (t.stopOf (c.asWaiting r on) s.now).isSome then
      match t.stopOf (c.asWaiting r on) clock with
      | some stop => { c with toFollowUp := c.halted stop, claimToken := none }
      | none => c
    else c

theorem mem_overdueChecks {o : OverdueCheck} :
    o ∈ s.overdueChecks on ↔ ∃ c ∈ s.checks, ∃ r, s.rowOf c.rowId = some r ∧ c.status = .waiting ∧
      c.Unclaimed s.now ∧
      c.Overdue r on s.now ∧ o = { rowId := c.rowId, asWaiting := c.asWaiting r on } := by
  unfold State.overdueChecks
  simp only [List.mem_filterMap, Option.bind_eq_bind, Option.bind_eq_some_iff]
  refine exists_congr fun c => and_congr_right fun _ => exists_congr fun r => and_congr_right fun _ => ?_
  by_cases met : c.status = .waiting ∧ c.Unclaimed s.now ∧ c.Overdue r on s.now
  · rw [if_pos met]
    exact ⟨fun is => ⟨met.1, met.2.1, met.2.2, (Option.some.inj is).symm⟩, fun ⟨_, _, _, is⟩ =>
      congrArg some is.symm⟩
  · rw [if_neg met]
    exact ⟨fun is => Option.noConfusion rfl (heq_of_eq is), fun ⟨waits, free, overdue, _⟩ =>
      absurd ⟨waits, free, overdue⟩ met⟩

/-- What stopping one overdue check makes of a check. -/
def stopBy (t : Texts) (clock now : Nat) (c : Check) (o : OverdueCheck) : Check :=
  match t.stopOf o.asWaiting clock with
  | none => c
  | some stop =>
    if c.rowId = o.rowId ∧ c.status = .waiting ∧ c.Unclaimed now then
      { c with toFollowUp := c.halted stop, claimToken := none } else c

theorem checks_stopCheck {o : OverdueCheck} : (s.stopCheck t o clock).checks = s.checks.map fun c =>
    stopBy t clock s.now c o := by
  unfold State.stopCheck stopBy
  cases t.stopOf o.asWaiting clock with
  | none => exact (List.map_id _).symm
  | some stop => rfl

/-- A check no stop is of stays as it is, and so does one that has ended. -/
theorem stopBy_other {overdue : List OverdueCheck}
    (other : (∀ o ∈ overdue, o.rowId ≠ c.rowId) ∨ c.status ≠ .waiting) :
    overdue.foldl (stopBy t clock now) c = c := by
  induction overdue with
  | nil => rfl
  | cons o overdue ih =>
    have here : stopBy t clock now c o = c := by
      unfold stopBy
      split
      · rfl
      · refine if_neg fun met => ?_
        rcases other with none_ | ended
        · exact none_ o List.mem_cons_self met.1.symm
        · exact ended met.2.1
    rw [List.foldl_cons, here]
    exact ih (other.imp_left fun none_ x member => none_ x (List.mem_cons_of_mem _ member))

/-- Stops of one check all for one reason stop it for that. -/
theorem stopBy_own {overdue : List OverdueCheck} {own : OverdueCheck} {stop : Stop}
    (some_ : own ∈ overdue) (named : own.rowId = c.rowId)
    (all : ∀ o ∈ overdue, o.rowId = c.rowId → o = own)
    (why : t.stopOf own.asWaiting clock = some stop) (waits : c.status = .waiting)
    (free : c.Unclaimed now) : overdue.foldl (stopBy t clock now) c =
      { c with toFollowUp := c.halted stop, claimToken := none } := by
  induction overdue with
  | nil => cases some_
  | cons o overdue ih =>
    rw [List.foldl_cons]
    by_cases is : o.rowId = c.rowId
    · have same := all o List.mem_cons_self is
      rw [same] at is ⊢
      have stopped : stopBy t clock now c own =
        { c with toFollowUp := c.halted stop, claimToken := none } := by
        unfold stopBy
        rw [why]
        exact if_pos ⟨is.symm, waits, free⟩
      rw [stopped]
      exact stopBy_other (.inr CheckStatus.noConfusion)
    · have here : stopBy t clock now c o = c := by
        unfold stopBy
        split
        · rfl
        · exact if_neg fun met => is met.1.symm
      rw [here]
      refine ih ?_ fun x member => all x (List.mem_cons_of_mem _ member)
      rcases List.mem_cons.mp some_ with rfl | later
      · exact absurd named is
      · exact later

/-- The stops the selection asks for make each check what `stopOf` says of it. -/
theorem stops_swept (keyed : Table.Keyed Check.rowId s.checks) (member : c ∈ s.checks)
    (later : s.now ≤ clock) :
    (s.overdueChecks on).foldl (stopBy t clock s.now) c = s.sweptCheck t on clock c := by
  have own : ∀ o ∈ s.overdueChecks on, o.rowId = c.rowId → ∃ r, s.rowOf c.rowId = some r ∧
    c.status = .waiting ∧
      c.Unclaimed s.now ∧ c.Overdue r on s.now ∧ o = { rowId := c.rowId, asWaiting := c.asWaiting r on } := by
    intro o inOverdue named
    obtain ⟨x, inChecks, r, isRow, waits, free, overdue, is⟩ := mem_overdueChecks.mp inOverdue
    have same : x = c := keyed.eq_of_key inChecks member (by rw [← named, is])
    exact same ▸ ⟨r, isRow, waits, free, overdue, is⟩
  unfold State.sweptCheck
  cases isRow : s.rowOf c.rowId with
  | none =>
    refine stopBy_other (.inl fun o inOverdue named => ?_)
    obtain ⟨r, is, _⟩ := own o inOverdue named
    rw [isRow] at is
    cases is
  | some r =>
    dsimp only
    split
    next met =>
      have overdue : c.Overdue r on s.now := overdue_iff.mpr met.2.2
      obtain ⟨stop, why⟩ := Option.isSome_iff_exists.mp (stops_later (t := t) overdue later)
      have own_ : ({ rowId := c.rowId, asWaiting := c.asWaiting r on } : OverdueCheck) ∈ s.overdueChecks on :=
        mem_overdueChecks.mpr ⟨c, member, r, isRow, met.1, met.2.1, overdue, rfl⟩
      rw [why]
      refine stopBy_own own_ rfl (fun o inOverdue named => ?_) why met.1 met.2.1
      obtain ⟨r', is, _, _, _, same⟩ := own o inOverdue named
      cases isRow.symm.trans is
      exact same
    next not =>
      refine stopBy_other (.inl fun o inOverdue named => ?_)
      obtain ⟨r', is, waits, free, overdue, _⟩ := own o inOverdue named
      cases isRow.symm.trans is
      exact not ⟨waits, free, overdue_iff.mp overdue⟩

/-- A sweep's stops, one after another, are the selection's stops of each check. -/
theorem run_stops {overdue : List OverdueCheck} (stage : (s.processes p).stage = .stopping on clock overdue) :
    ∃ s', (licenseChecks t).run s (List.replicate (overdue.length + 1) (.stopNext p)) = some s' ∧
      (s'.processes p).stage = .claiming on ∧ s'.checks = s.checks.map fun c =>
      overdue.foldl (stopBy t clock s.now) c := by
  induction overdue generalizing s with
  | nil =>
    have step : s.stopNext t p = some (s.setStage p (.claiming on)) := by
      unfold State.stopNext
      rw [stage]
    refine ⟨s.setStage p (.claiming on), ?_, by rw [stage_setStage, if_pos rfl], (List.map_id _).symm⟩
    change (s.stopNext t p).bind _ = _
    rw [step]
    rfl
  | cons o overdue ih =>
    have step : s.stopNext t p = some ((s.stopCheck t o clock).setStage p (.stopping on clock overdue)) := by
      unfold State.stopNext
      rw [stage]
    have now_ : (s.stopCheck t o clock).now = s.now := by
      unfold State.stopCheck
      split <;> rfl
    obtain ⟨s', ran, claiming, checks⟩ :=
      @ih ((s.stopCheck t o clock).setStage p (.stopping on clock overdue)) (by
      rw [stage_setStage, if_pos rfl])
    refine ⟨s', ?_, claiming, ?_⟩
    · change (s.stopNext t p).bind _ = _
      rw [step]
      exact ran
    · rw [checks]
      change List.map (fun c => overdue.foldl (stopBy t clock (s.stopCheck t o clock).now) c)
        (s.stopCheck t o clock).checks = _
      rw [now_, checks_stopCheck, List.map_map]
      rfl

theorem swept_alone (keyed : Table.Keyed Check.rowId s.checks) (later : s.now ≤ clock)
    (begun : s.beginSweep p on clock = some s') :
    ∃ last, (licenseChecks t).run s'
      (List.replicate ((s.overdueChecks on).length + 1) (.stopNext p)) = some last ∧
      (last.processes p).stage = .claiming on ∧ last.checks = s.checks.map (s.sweptCheck t on clock) := by
  unfold State.beginSweep at begun
  split at begun
  next =>
    cases begun
    have stage : ((s.setStage p (.stopping on clock (s.overdueChecks on))).processes p).stage =
        .stopping on clock (s.overdueChecks on) := stage_setStage_self
    obtain ⟨last, ran, claiming, checks⟩ := run_stops (t := t) stage
    refine ⟨last, ran, claiming, checks.trans (List.map_congr_left fun c member => ?_)⟩
    exact stops_swept keyed member later
  next => cases begun

/-- A follow-up that has gone on since: ended, looked at again, or found in Entra. -/
def FollowUp.WentOn (f f' : FollowUp) : Prop :=
  f'.status ≠ .waiting ∨ f.attempts < f'.attempts ∨ f.syncedAt = none ∧ f'.syncedAt.isSome

/-- Attempts only grow, save that they start again once the person has synced. -/
theorem attempts_step {f f' : FollowUp} {e : Event} (taken : (followUps t).step f e = some f') :
    f.attempts ≤ f'.attempts ∨ f.syncedAt = none ∧ f'.syncedAt.isSome := by
  obtain ⟨waits, ⟨at_, rfl⟩ | ⟨groups, now, a, _, rfl⟩ | ⟨w, now, stop, _, rfl⟩⟩ := followUps_cases taken
  · exact .inl (Nat.le_succ _)
  · have looked := looked_look (t := t) (f := f) groups now a
    generalize (t.look f groups now a).1 = u at looked
    cases looked with
    | noted | stopped | gone => exact .inl (Nat.le_refl _)
    | read joined entraUserId states some_ among =>
      cases synced : f.syncedAt with
      | none => exact .inr ⟨rfl, rfl⟩
      | some at_ =>
        left
        change f.attempts ≤ (if f.syncedAt.isNone then
          some (if f.syncedAt.isNone then 1 else f.attempts) else none).getD f.attempts
        rw [synced]
        exact Nat.le_refl _
  · exact .inl (Nat.le_refl _)

/-- A follow-up that goes on keeps to its order. -/
theorem FollowUp.WentOn.step {f f' f'' : FollowUp} {e : Event} (before : f.WentOn f') (keeps : f.Keeps f')
    (taken : (followUps t).step f' e = some f'') : f.WentOn f'' := by
  have later := keeps_step taken
  obtain ⟨waits, _⟩ := followUps_cases taken
  rcases before with ended | more | ⟨unsynced, synced⟩
  · exact absurd waits ended
  · rcases attempts_step taken with kept | ⟨was, is⟩
    · exact .inr (.inl (more.trans_le kept))
    · refine .inr (.inr ⟨?_, is⟩)
      cases synced : f.syncedAt with
      | none => rfl
      | some at_ =>
        have still := keeps.syncedAt at_ synced
        rw [was] at still
        cases still
  · obtain ⟨at_, is⟩ := Option.isSome_iff_exists.mp synced
    exact .inr (.inr ⟨unsynced, by rw [later.syncedAt at_ is]; rfl⟩)

/-- What an overdue check may have become before the sweep comes to it: nobody has claimed it since. -/
def Check.Tracked (c c' : Check) : Prop :=
  c.WentOn c'.toFollowUp ∨ c.attempts ≤ c'.attempts ∧ (c' = c ∨ c'.claimToken = none)

/-- Any step leaves a check tracked, or stops it. -/
theorem tracked_taken {m : Check} (held : s.Held) (taken : Taken t s a s')
    (keeps : c.Keeps m.toFollowUp) (tracked : c.Tracked m)
    (member : m ∈ s.checks) (member' : c' ∈ s'.checks) (same : c'.rowId = m.rowId) : c.Tracked c' := by
  rcases followed_taken held taken member member' same with is | ⟨e, step, left⟩
  · exact is ▸ tracked
  · rcases tracked with wentOn | ⟨fewer, _⟩
    · exact .inl (wentOn.step keeps step)
    · rcases left with free | ⟨at_, begun⟩
      · rcases attempts_step step with kept | ⟨was, is⟩
        · exact .inr ⟨fewer.trans kept, .inr free⟩
        · refine .inl (.inr (.inr ⟨?_, is⟩))
          cases synced : c.syncedAt with
          | none => rfl
          | some at_ =>
            have still := keeps.syncedAt at_ synced
            rw [was] at still
            cases still
      · refine .inl (.inr (.inl ?_))
        rw [begun]
        exact Nat.lt_succ_of_le fewer

/-- Nobody cuts this process's sweep short. -/
def Uncut (p : Nat) (_ : State) (a : Action) : Prop :=
  a ≠ .endSweep p ∧ a ≠ .die p

/-- How far a process's stops have come: an overdue check is still to stop, or has gone on. -/
def Stopping (s : State) (on : List Nat) (clock p : Nat) (c : Check) (r : ImportRow) (s' : State) : Prop :=
  (∃ overdue, (s'.processes p).stage = .stopping on clock overdue ∧ s.now ≤ s'.now ∧
      { rowId := c.rowId, asWaiting := c.asWaiting r on } ∈ overdue ∧ ∀ c' ∈ s'.checks,
        c'.rowId = c.rowId → c.Tracked c') ∨
    ∀ c' ∈ s'.checks, c'.rowId = c.rowId → c.WentOn c'.toFollowUp

theorem wentOn_taken {m : State} (held : m.Held) (taken : Taken t m a s')
    (keeps : ∀ x ∈ m.checks, x.rowId = c.rowId → c.Keeps x.toFollowUp) (old : c.rowId < m.nextRow)
    (wentOn : ∀ x ∈ m.checks, x.rowId = c.rowId → c.WentOn x.toFollowUp) (member' : c' ∈ s'.checks)
    (named : c'.rowId = c.rowId) :
    c.WentOn c'.toFollowUp := by
  rcases check_origin taken member' with ⟨x, member, same⟩ | ⟨fresh, _⟩
  · have before := wentOn x member (same.symm.trans named)
    rcases followed_taken held taken member member' same with is | ⟨e, step, _⟩
    · exact is ▸ before
    · exact before.step (keeps x member (same.symm.trans named)) step
  · exact absurd old (Nat.not_lt.mpr (named ▸ fresh))

/-- The sweep comes to an overdue check: it stops it, unless it is claimed or has ended since. -/
theorem wentOn_stopCheck {m : State} {stop : Stop}
    (why : t.stopOf (c.asWaiting r on) now = some stop) (free : c.Unclaimed s.now)
    (later : s.now ≤ m.now) (tracked : ∀ x ∈ m.checks, x.rowId = c.rowId → c.Tracked x)
    (member' : c' ∈ (m.stopCheck t { rowId := c.rowId, asWaiting := c.asWaiting r on } now).checks)
    (named : c'.rowId = c.rowId) :
    c.WentOn c'.toFollowUp := by
  unfold State.stopCheck at member'
  rw [why] at member'
  obtain ⟨x, member, is⟩ := Table.mem_update.mp member'
  split at is
  next met =>
    rw [← is]
    exact .inl CheckStatus.noConfusion
  next spared =>
    rw [← is] at named ⊢
    rcases tracked x member named with wentOn | ⟨_, same | unclaimed⟩
    · exact wentOn
    · refine .inl fun waits => spared ⟨named, waits, ?_⟩
      rw [same]
      exact free.imp_right (Nat.le_trans · later)
    · exact .inl fun waits => spared ⟨named, waits, .inl unclaimed⟩

/-- Nobody else's step puts an overdue check out of the sweep's reach, unless it ends or is claimed.
-/
theorem stopping_taken {m : State} (held : m.Held) (taken : Taken t m a s') (uncut : Uncut p m a)
    (keeps : ∀ x ∈ m.checks, x.rowId = c.rowId → c.Keeps x.toFollowUp) (old : c.rowId < m.nextRow)
    (overdue : c.Overdue r on s.now) (onTime : s.now ≤ clock) (free : c.Unclaimed s.now)
    (so : Stopping s on clock p c r m) :
    Stopping s on clock p c r s' := by
  rcases so with ⟨left, stage, later, awaited, tracked⟩ | wentOn
  · have still : ∀ c' ∈ s'.checks, c'.rowId = c.rowId → c.Tracked c' := by
      intro c' member' named
      rcases check_origin taken member' with ⟨x, member, same⟩ | ⟨fresh, _⟩
      · have asked := same.symm.trans named
        exact tracked_taken held taken (keeps x member asked) (tracked x member asked) member member' same
      · exact absurd old (Nat.not_lt.mpr (named ▸ fresh))
    cases taken.moves p with
    | same is => exact .inl ⟨left, is.trans stage, later.trans taken.now, awaited, still⟩
    | ended is why =>
      rcases why with cut | died | ⟨_, _, _, claimed⟩
      · exact absurd cut uncut.1
      · exact absurd died uncut.2
      · cases stage.symm.trans claimed
    | stopping on' now' o rest was is checks =>
      cases stage.symm.trans was
      rcases List.mem_cons.mp awaited with this | awaited
      · obtain ⟨stop, why⟩ := Option.isSome_iff_exists.mp (stops_later (t := t) overdue onTime)
        refine .inr fun c' member' named => ?_
        rw [checks, ← this] at member'
        exact wentOn_stopCheck why free later tracked member' named
      · exact .inl ⟨rest, is, later.trans taken.now, awaited, still⟩
    | claiming on' is was =>
      rcases was with ⟨now', was⟩ | ⟨_, _, _, was⟩
      · cases stage.symm.trans was
        cases awaited
      · cases stage.symm.trans was
    | began _ _ was | claimed _ _ was | loaded _ _ _ _ _ was => cases stage.symm.trans was
  · exact .inr fun c' => wentOn_taken held taken keeps old wentOn

/-- What the stops of a sweep come to: taken one after another they stop each waiting check nobody
has claimed, and that `stopOf` stops as the sweep selects them, for the reason it gives by the
sweep's clock, read since, and change no other. Whatever else happens meanwhile, once they are
done no such check is left as it was: it's gone, has ended, or somebody has looked at it since. -/
theorem sweep_stops (t : Texts) (s s₀ : State) (reach : (licenseChecks t).Reachable s) (p : Nat)
    (on : List Nat) (clock : Nat)
    (later : s.now ≤ clock) (begun : s.beginSweep p on clock = some s₀) :
    (∃ last, (licenseChecks t).run s₀
      (List.replicate ((s.overdueChecks on).length + 1) (.stopNext p)) = some last ∧
      (last.processes p).stage = .claiming on ∧ last.checks = s.checks.map (s.sweptCheck t on clock)) ∧
    ∀ s', (licenseChecks t).Path (Uncut p) s₀ s' → (s'.processes p).stage = .claiming on →
      ∀ c ∈ s.checks, ∀ r, s.rowOf c.rowId = some r → c.status = .waiting → c.Unclaimed s.now →
      c.Overdue r on s.now →
        ∀ c' ∈ s'.checks, c'.rowId = c.rowId → c.WentOn c'.toFollowUp := by
  have held := held_reach reach
  refine ⟨swept_alone held.keyed later begun, fun s' path done c member r isRow waits free overdue => ?_⟩
  have reach₀ : (licenseChecks t).Reachable s₀ := .next (a := .beginSweep p on clock) reach trivial begun
  have first : (s₀.processes p).stage = .stopping on clock (s.overdueChecks on) ∧
    s₀.checks = s.checks ∧ s₀.now = s.now := by
    unfold State.beginSweep at begun
    split at begun
    next =>
      cases begun
      exact ⟨stage_setStage_self, rfl, rfl⟩
    next => cases begun
  have member₀ : c ∈ s₀.checks := first.2.1 ▸ member
  have so : Stopping s on clock p c r s' := by
    clear done
    induction path with
    | refl =>
      refine .inl ⟨_, first.1, first.2.2.ge,
        mem_overdueChecks.mpr ⟨c, member, r, isRow, waits, free, overdue, rfl⟩, fun c' member' same => ?_⟩
      have only := (held_reach reach₀).keyed.eq_of_key member' member₀ same
      exact .inr ⟨by rw [only], .inl only⟩
    | @tail mid last a previous uncut step ih =>
      have past : (licenseChecks t).Path (fun _ _ => True) s₀ mid := previous.mono fun _ _ _ => trivial
      have keeps : ∀ x ∈ mid.checks, x.rowId = c.rowId → c.Keeps x.toFollowUp := fun x inMid same =>
        keeps_path (followed_path reach₀ past member₀ x inMid same).1
      have old := ((held_reach reach₀).rows c member₀).trans_le (nextRow_path past)
      exact stopping_taken (held_reach (reach₀.path past)) (taken_of_step step) uncut keeps old
        overdue later free ih
  rcases so with ⟨left, stage, _⟩ | wentOn
  · cases done.symm.trans stage
  · exact wentOn

/-- Two people a day after their accounts were made: one hasn't synced, the other is being looked at. -/
def dayOfTwo : List Action :=
  [.store [staffLicense] 1 [["G-1"], ["G-1"]],
    .rowRun 0 .succeeded (some "u-1") (some [⟨"g-1", "Staff", true⟩]) (some 0),
    .rowRun 1 .succeeded (some "u-2") (some [⟨"g-1", "Staff", true⟩]) (some 0), .beginSweep 0 [1] 0,
      .stopNext 0,
    .claimDue 0 0 0, .load 0 0, .record 0 notYet 0, .tick (SYNC_WINDOW_MS - MINUTE),
      .claimDue 0 1 0, .tick MINUTE]

/-- Of the two, the sweep stops the one that hasn't synced. -/
theorem two_sweep_stops : ∃ s s₀ last, (licenseChecks plainTexts).run .start dayOfTwo = some s ∧
    s.beginSweep 1 [1] (s.now + 5) = some s₀ ∧
      (licenseChecks plainTexts).run s₀ (List.replicate 2 (.stopNext 1)) = some last ∧
    last.checks.map (·.errorCode) = [some .syncTimeout, none] := by
  have ran : ((licenseChecks plainTexts).run .start dayOfTwo).any (fun s => (s.overdueChecks [1]).length = 1 ∧
      (s.processes 1).stage = .idle ∧ (s.checks.map (s.sweptCheck plainTexts [1] (s.now + 5))).map
        (·.errorCode) = [some .syncTimeout, none]) = true := by
    decide
  obtain ⟨s, reached, one, idle, codes⟩ := Transition.System.exists_of_any ran
  have begun : s.beginSweep 1 [1] (s.now + 5) =
    some (s.setStage 1 (.stopping [1] (s.now + 5) (s.overdueChecks [1]))) := by
    unfold State.beginSweep
    rw [idle]
  have reach : (licenseChecks plainTexts).Reachable s :=
    .of_run (.start rfl) reached Transition.System.meetsAlong_true
  obtain ⟨last, stops, _, checks⟩ :=
    (sweep_stops plainTexts s _ reach 1 [1] (s.now + 5) (Nat.le_add_right _ _) begun).1
  rw [one] at stops
  exact ⟨s, _, last, reached, begun, stops, by rw [checks, codes]⟩

end OpenAduc.LicenseChecks
