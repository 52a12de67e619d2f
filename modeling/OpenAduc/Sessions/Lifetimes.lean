import Mathlib.Logic.Relation
import OpenAduc.Sessions.Service

namespace OpenAduc.Sessions

theorem earlier_le_left (a b : Int) : earlier a b ≤ a := by
  unfold earlier
  split <;> omega

theorem earlier_le_right (a b : Int) : earlier a b ≤ b := by
  unfold earlier
  split <;> omega

theorem newest_mem {es : List ElevatedSession} {e : ElevatedSession} (is : newest es = some e) : e ∈ es := by
  induction es generalizing e with
  | nil => cases is
  | cons f es ih =>
    cases rest : newest es with
    | none =>
      simp only [newest, rest, Option.some.injEq] at is
      exact is ▸ List.mem_cons_self
    | some g =>
      simp only [newest, rest, Option.some.injEq] at is
      split at is
      · exact is ▸ List.mem_cons_self
      · exact List.mem_cons_of_mem _ (is ▸ ih rest)

/-- What is found active is one of the table's open sessions, before both its ends. -/
theorem findActiveElevated_some {s : State} {adminSessionId : Nat} {now : Int} {e : ElevatedSession}
    (found : s.findActiveElevated adminSessionId now = some e) :
    e ∈ s.elevated ∧ e.Active adminSessionId now := by
  have member := newest_mem found
  simpa using member

/-- A step-up of this session led to that one, one after another. -/
def State.Chain (s : State) : Nat → Nat → Prop :=
  Relation.ReflTransGen fun old new => (old, new) ∈ s.rotations

/-- What holds of the sessions' ends between any two operations. -/
structure Lifetimes (s : State) : Prop where
  /-- Idle end, absolute end and the sign-in session's expiry come in order. -/
  ordered : ∀ e ∈ s.elevated, e.idleExpiresAt ≤ e.absoluteExpiresAt ∧
    ∃ a, Table.find (·.id) e.adminSessionId s.admin = some a ∧ e.absoluteExpiresAt ≤ a.expiresAt
  /-- No chain of step-ups makes a sign-in session last longer than its first. -/
  chained : ∀ first last, s.Chain first last → ∀ a b, Table.find (·.id) first s.admin = some a →
    Table.find (·.id) last s.admin = some b → b.expiresAt ≤ a.expiresAt
  /-- None of a replaced sign-in session's elevated sessions is found active. -/
  replaced : ∀ old new, (old, new) ∈ s.rotations → ∀ t, s.findActiveElevated old t = none
  /-- One found active was never revoked, and was stepped up or active less than
  the idle timeout then in force before. -/
  active : ∀ id t e, s.now ≤ t → s.findActiveElevated id t = some e → e.id ∉ s.revoked ∧
    ∃ x ∈ s.activity, x.elevatedId = e.id ∧ x.time ≤ t ∧ t < x.time + x.idle

/-- The invariant the operations keep. -/
structure State.Inv (s : State) : Prop where
  admin : Table.Keyed (·.id) s.admin
  elevated : Table.Keyed (·.id) s.elevated
  freshAdmin : ∀ a ∈ s.admin, a.id < s.nextId
  freshElevated : ∀ e ∈ s.elevated, e.id < s.nextId
  ends : ∀ e ∈ s.elevated, e.idleExpiresAt ≤ e.absoluteExpiresAt
  owned : ∀ e ∈ s.elevated, ∃ a ∈ s.admin, a.id = e.adminSessionId ∧ e.absoluteExpiresAt ≤ a.expiresAt
  held : ∀ h ∈ s.held, ∀ e ∈ s.elevated, e.id = h.id → e.absoluteExpiresAt = h.absoluteExpiresAt
  heldFresh : ∀ h ∈ s.held, h.id < s.nextId
  rotated : ∀ old new, (old, new) ∈ s.rotations →
    (∃ a ∈ s.admin, ∃ b ∈ s.admin, a.id = old ∧ b.id = new ∧ b.expiresAt ≤ a.expiresAt) ∧
      ∀ e ∈ s.elevated, e.adminSessionId = old → e.revokedAt ≠ none
  active : ∀ e ∈ s.elevated, ∃ x ∈ s.activity, x.elevatedId = e.id ∧ x.time ≤ s.now ∧
    e.idleExpiresAt ≤ x.time + x.idle
  revoked : ∀ id ∈ s.revoked, id < s.nextId ∧ ∀ e ∈ s.elevated, e.id = id → e.revokedAt ≠ none

namespace State
variable {s : State} {limits : Limits} {now : Int}

theorem Inv.wait (inv : s.Inv) (later : s.now ≤ now) : ({ s with now } : State).Inv := by
  refine { inv with active := ?_ }
  intro e member
  obtain ⟨x, inLog, its, before, ends⟩ := inv.active e member
  have before' : x.time ≤ now := by omega
  exact ⟨x, inLog, its, before', ends⟩

/-- Updating elevated sessions in a way that neither takes a revocation back nor moves an end past
its bounds. -/
theorem Inv.update {cond : ElevatedSession → Prop} [DecidablePred cond]
    {set : ElevatedSession → ElevatedSession}
    (inv : s.Inv)
    (same : ∀ e, (set e).id = e.id ∧ (set e).adminSessionId = e.adminSessionId ∧
      (set e).absoluteExpiresAt = e.absoluteExpiresAt)
    (revokes : ∀ e, e.revokedAt ≠ none → (set e).revokedAt ≠ none)
    (ends : ∀ e ∈ s.elevated, cond e → (set e).idleExpiresAt ≤ e.absoluteExpiresAt ∧
      ∃ x ∈ s.activity, x.elevatedId = e.id ∧ x.time ≤ s.now ∧ (set e).idleExpiresAt ≤ x.time + x.idle) :
    ({ s with elevated := Table.update cond set s.elevated } : State).Inv where
  admin := inv.admin
  elevated := inv.elevated.update fun e _ => (same e).1
  freshAdmin := inv.freshAdmin
  freshElevated := by
    refine Table.forall_update.mpr fun e member => ⟨fun _ => ?_, fun _ => inv.freshElevated e member⟩
    rw [(same e).1]
    exact inv.freshElevated e member
  ends := by
    refine Table.forall_update.mpr fun e member => ⟨fun met => ?_, fun _ => inv.ends e member⟩
    rw [(same e).2.2]
    exact (ends e member met).1
  owned := by
    refine Table.forall_update.mpr fun e member => ⟨fun _ => ?_, fun _ => inv.owned e member⟩
    rw [(same e).2.1, (same e).2.2]
    exact inv.owned e member
  held := by
    intro h inHeld
    refine Table.forall_update.mpr fun e member => ⟨fun _ its => ?_, fun _ => inv.held h inHeld e member⟩
    rw [(same e).1] at its
    rw [(same e).2.2]
    exact inv.held h inHeld e member its
  heldFresh := inv.heldFresh
  rotated := by
    intro old new rotation
    refine ⟨(inv.rotated old new rotation).1, Table.forall_update.mpr fun e member =>
      ⟨fun _ its => ?_, fun _ => ?_⟩⟩
    · rw [(same e).2.1] at its
      exact revokes e ((inv.rotated old new rotation).2 e member its)
    · exact (inv.rotated old new rotation).2 e member
  active := by
    refine Table.forall_update.mpr fun e member => ⟨fun met => ?_, fun _ => inv.active e member⟩
    rw [(same e).1]
    exact (ends e member met).2
  revoked := by
    intro id inLog
    refine ⟨(inv.revoked id inLog).1, Table.forall_update.mpr fun e member => ⟨fun _ its => ?_, fun _ => ?_⟩⟩
    · rw [(same e).1] at its
      exact revokes e ((inv.revoked id inLog).2 e member its)
    · exact (inv.revoked id inLog).2 e member

/-- Revoking elevated sessions, and saying which. -/
theorem Inv.revoke {cond : ElevatedSession → Prop} [DecidablePred cond] (inv : s.Inv) (time : Int) :
    ({ s with
      elevated := Table.update cond (fun e => { e with revokedAt := some time }) s.elevated
      revoked := s.revoked ++ (s.elevated.filter fun e => cond e).map (·.id) } : State).Inv := by
  have updated : ({ s with elevated := Table.update cond (fun e =>
    { e with revokedAt := some time }) s.elevated } : State).Inv :=
    inv.update (fun _ => ⟨rfl, rfl, rfl⟩) (by simp) fun e member _ => ⟨inv.ends e member, inv.active e member⟩
  refine { updated with revoked := ?_ }
  intro id inLog
  obtain old | new := List.mem_append.mp inLog
  · exact updated.revoked id old
  · obtain ⟨r, inFilter, rfl⟩ := List.mem_map.mp new
    obtain ⟨member, met⟩ := List.mem_filter.mp inFilter
    refine ⟨inv.freshElevated r member, Table.forall_update.mpr fun e inTable =>
      ⟨fun _ _ => by simp, fun unmet its => ?_⟩⟩
    have one : e = r := inv.elevated.eq_of_key inTable member its
    exact absurd (one ▸ of_decide_eq_true met) unmet

/-- Recording that a sign-in session was seen changes none of its ends. -/
theorem Inv.seen (inv : s.Inv) {cond : AdminSession → Prop} [DecidablePred cond]
    {set : AdminSession → AdminSession}
    (same : ∀ a, (set a).id = a.id ∧ (set a).expiresAt = a.expiresAt) :
    ({ s with admin := Table.update cond set s.admin } : State).Inv := by
  have kept : ∀ a ∈ s.admin, ∃ b ∈ Table.update cond set s.admin, b.id = a.id ∧
    b.expiresAt = a.expiresAt := by
    intro a member
    by_cases met : cond a
    · exact ⟨set a, Table.mem_update.mpr ⟨a, member, if_pos met⟩, same a⟩
    · exact ⟨a, Table.mem_update.mpr ⟨a, member, if_neg met⟩, rfl, rfl⟩
  refine { inv with
    admin := inv.admin.update fun a _ => (same a).1, freshAdmin := ?_, owned := ?_, rotated := ?_ }
  · refine Table.forall_update.mpr fun a member => ⟨fun _ => ?_, fun _ => inv.freshAdmin a member⟩
    rw [(same a).1]
    exact inv.freshAdmin a member
  · intro e member
    obtain ⟨a, inTable, its, within⟩ := inv.owned e member
    obtain ⟨b, inTable', sameId, sameExpiry⟩ := kept a inTable
    exact ⟨b, inTable', sameId.trans its, sameExpiry ▸ within⟩
  · intro old new rotation
    obtain ⟨⟨a, inA, b, inB, isOld, isNew, within⟩, revoked⟩ := inv.rotated old new rotation
    obtain ⟨a', inA', idA, expiryA⟩ := kept a inA
    obtain ⟨b', inB', idB, expiryB⟩ := kept b inB
    exact ⟨⟨a', inA', b', inB', idA.trans isOld, idB.trans isNew, by omega⟩, revoked⟩

/-- A new sign-in session. -/
theorem Inv.createAdmin (inv : s.Inv) (limits : Limits) (now : Int) (notAfter : Option Int) :
    (s.createAdminSession limits now notAfter).2.Inv := by
  refine {
    admin := ?_, elevated := inv.elevated, freshAdmin := ?_, freshElevated := ?_, ends :=
      inv.ends, owned := ?_,
    held := inv.held, heldFresh := ?_, rotated := ?_, active := inv.active, revoked := ?_ }
  · refine inv.admin.append (by simp [Table.Keyed]) ?_
    intro a member b new
    have fresh := inv.freshAdmin a member
    simp only [List.mem_singleton] at new
    subst new
    show a.id ≠ s.nextId
    omega
  · intro a member
    show a.id < s.nextId + 1
    obtain old | rfl : a ∈ s.admin ∨ a = (s.createAdminSession limits now notAfter).1 := by
      simpa [createAdminSession] using member
    · have := inv.freshAdmin a old
      omega
    · exact Nat.lt_succ_self _
  · intro e member
    have := inv.freshElevated e member
    show e.id < s.nextId + 1
    omega
  · intro e member
    obtain ⟨a, inTable, its⟩ := inv.owned e member
    exact ⟨a, List.mem_append_left _ inTable, its⟩
  · intro h member
    have := inv.heldFresh h member
    show h.id < s.nextId + 1
    omega
  · intro old new rotation
    obtain ⟨⟨a, inA, b, inB, both⟩, revoked⟩ := inv.rotated old new rotation
    exact ⟨⟨a, List.mem_append_left _ inA, b, List.mem_append_left _ inB, both⟩, revoked⟩
  · intro id inLog
    obtain ⟨before, revoked⟩ := inv.revoked id inLog
    refine ⟨?_, revoked⟩
    show id < s.nextId + 1
    omega

theorem capped_le {time notAfter : Int} : capped time (some notAfter) ≤ notAfter :=
  earlier_le_right _ _

/-- A new elevated session of a sign-in session no step-up has replaced, within its life. -/
theorem Inv.createElevated (inv : s.Inv) (limits : Limits) {owner : AdminSession} (there : owner ∈ s.admin)
    (standing : ∀ old new, (old, new) ∈ s.rotations → old ≠ owner.id) :
    (s.createElevatedSession limits s.now owner.id (some owner.expiresAt)).2.Inv := by
  have split : ∀ e ∈ (s.createElevatedSession limits s.now owner.id (some owner.expiresAt)).2.elevated,
      e ∈ s.elevated ∨ e = (s.createElevatedSession limits s.now owner.id (some owner.expiresAt)).1 := by
    intro e member
    simpa [createElevatedSession] using member
  refine {
    admin := inv.admin, elevated := ?_, freshAdmin := ?_, freshElevated := ?_, ends := ?_, owned := ?_,
    held := ?_, heldFresh := ?_, rotated := ?_, active := ?_, revoked := ?_ }
  · refine inv.elevated.append (by simp [Table.Keyed]) ?_
    intro e member f new
    have fresh := inv.freshElevated e member
    simp only [List.mem_singleton] at new
    subst new
    show e.id ≠ s.nextId
    omega
  · intro a member
    have := inv.freshAdmin a member
    show a.id < s.nextId + 1
    omega
  · intro e member
    show e.id < s.nextId + 1
    obtain old | rfl := split e member
    · have := inv.freshElevated e old
      omega
    · exact Nat.lt_succ_self _
  · intro e member
    obtain old | rfl := split e member
    · exact inv.ends e old
    · exact earlier_le_right _ _
  · intro e member
    obtain old | rfl := split e member
    · exact inv.owned e old
    · exact ⟨owner, there, rfl, capped_le⟩
  · intro h inHeld e member its
    obtain oldHeld | rfl : h ∈ s.held ∨
      h = (s.createElevatedSession limits s.now owner.id (some owner.expiresAt)).1 := by
      simpa [createElevatedSession] using inHeld
    · obtain old | rfl := split e member
      · exact inv.held h oldHeld e old its
      · have fresh := inv.heldFresh h oldHeld
        have same : s.nextId = h.id := its
        omega
    · obtain old | rfl := split e member
      · have fresh := inv.freshElevated e old
        have same : e.id = s.nextId := its
        omega
      · rfl
  · intro h inHeld
    show h.id < s.nextId + 1
    obtain oldHeld | rfl : h ∈ s.held ∨
      h = (s.createElevatedSession limits s.now owner.id (some owner.expiresAt)).1 := by
      simpa [createElevatedSession] using inHeld
    · have := inv.heldFresh h oldHeld
      omega
    · exact Nat.lt_succ_self _
  · intro old new rotation
    refine ⟨(inv.rotated old new rotation).1, ?_⟩
    intro e member its
    obtain before | rfl := split e member
    · exact (inv.rotated old new rotation).2 e before its
    · exact absurd its.symm (standing old new rotation)
  · intro e member
    obtain old | rfl := split e member
    · obtain ⟨x, inLog, rest⟩ := inv.active e old
      exact ⟨x, List.mem_append_left _ inLog, rest⟩
    · refine ⟨_, List.mem_append_right _ List.mem_cons_self, rfl, Int.le_refl _, ?_⟩
      exact earlier_le_left _ _
  · intro id inLog
    obtain ⟨before, revoked⟩ := inv.revoked id inLog
    refine ⟨?_, ?_⟩
    · show id < s.nextId + 1
      omega
    · intro e member its
      obtain old | rfl := split e member
      · exact revoked e old its
      · have same : s.nextId = id := its
        omega

theorem Inv.revokeElevated (inv : s.Inv) (now : Int) (id : Nat) :
    (s.revokeElevatedSessionsForAdmin now id).Inv :=
  inv.revoke now

theorem Inv.revokeAdmin (inv : s.Inv) (now : Int) (id : Nat) : (s.revokeAdminSession now id).Inv := by
  have shut : ({ s with
      admin := Table.update (fun a => a.id = id ∧ a.revokedAt = none)
        (fun a => { a with revokedAt := some now }) s.admin
      } : State).Inv := inv.seen fun _ => ⟨rfl, rfl⟩
  exact shut.revokeElevated now id

/-- A sign-in session that is revoked leaves none of its elevated sessions open. -/
theorem revokeAdmin_closes (now : Int) (id : Nat) :
    ∀ e ∈ (s.revokeAdminSession now id).elevated, e.adminSessionId = id → e.revokedAt ≠ none := by
  refine Table.forall_update.mpr fun e _ => ⟨fun _ _ => by simp, fun shut its => ?_⟩
  intro unrevoked
  exact shut ⟨its, unrevoked⟩

theorem Inv.signIn (inv : s.Inv) (limits : Limits) (elevate : Bool) :
    (s.signIn limits s.now elevate).Inv := by
  have made := inv.createAdmin limits s.now none
  unfold State.signIn
  split
  · refine made.createElevated limits (List.mem_append_right _ List.mem_cons_self) ?_
    intro old new rotation isNew
    obtain ⟨⟨a, inA, _, _, isOld, _⟩, _⟩ := inv.rotated old new rotation
    have fresh := inv.freshAdmin a inA
    have same : old = s.nextId := isNew
    omega
  · exact made

/-- A step-up: the new session no later than the old one's end, the old one's elevated sessions over. -/
theorem Inv.rotateAndElevate (inv : s.Inv) (limits : Limits) {old : AdminSession} (there : old ∈ s.admin) :
    (s.rotateAndElevate limits s.now old).Inv := by
  let made := s.createAdminSession limits s.now (some old.expiresAt)
  let elevated := (made.2.createElevatedSession limits s.now made.1.id (some made.1.expiresAt)).2
  have fresh := inv.freshAdmin old there
  have inMade : made.1 ∈ made.2.admin := List.mem_append_right _ List.mem_cons_self
  have elevatedInv : elevated.Inv := by
    refine (inv.createAdmin limits s.now (some old.expiresAt)).createElevated limits inMade ?_
    intro first new rotation isNew
    obtain ⟨⟨a, inA, _, _, isFirst, _⟩, _⟩ := inv.rotated first new rotation
    have before := inv.freshAdmin a inA
    have same : first = s.nextId := isNew
    omega
  have revokedInv := elevatedInv.revokeAdmin s.now old.id
  refine { revokedInv with rotated := ?_ }
  intro first new rotation
  have either : (first, new) ∈ (elevated.revokeAdminSession s.now old.id).rotations ∨
    (first, new) ∈ [(old.id, made.1.id)] :=
    List.mem_append.mp rotation
  obtain before | now := either
  · exact revokedInv.rotated first new before
  · obtain ⟨rfl, rfl⟩ : first = old.id ∧ new = made.1.id := by simpa using now
    refine ⟨?_, revokeAdmin_closes s.now old.id⟩
    -- The revocation writes neither id nor expiry of the two rows.
    have kept : ∀ a ∈ elevated.admin, ∃ b ∈ (elevated.revokeAdminSession s.now old.id).admin,
        b.id = a.id ∧ b.expiresAt = a.expiresAt := by
      intro a member
      by_cases met : a.id = old.id ∧ a.revokedAt = none
      · exact ⟨_, Table.mem_update.mpr ⟨a, member, if_pos met⟩, rfl, rfl⟩
      · exact ⟨_, Table.mem_update.mpr ⟨a, member, if_neg met⟩, rfl, rfl⟩
    obtain ⟨a, inA, idA, expiryA⟩ := kept old (List.mem_append_left _ there)
    obtain ⟨b, inB, idB, expiryB⟩ := kept made.1 inMade
    have within : made.1.expiresAt ≤ old.expiresAt := capped_le
    exact ⟨a, inA, b, inB, idA, idB, by omega⟩

/-- Looking for an elevated session changes no end. -/
theorem Inv.look (inv : s.Inv) (adminSessionId : Nat) (now : Int) : (s.look adminSessionId now).Inv := by
  have found : ∀ h ∈ (s.look adminSessionId now).held, h ∈ s.held ∨ h ∈ s.elevated := by
    intro h member
    obtain old | new := List.mem_append.mp member
    · exact .inl old
    · exact .inr (findActiveElevated_some (Option.mem_toList.mp new)).1
  refine { inv with held := ?_, heldFresh := ?_ }
  · intro h member e inTable its
    obtain old | row := found h member
    · exact inv.held h old e inTable its
    · rw [inv.elevated.eq_of_key inTable row its]
  · intro h member
    obtain old | row := found h member
    · exact inv.heldFresh h old
    · exact inv.freshElevated h row

theorem Inv.logged (inv : s.Inv) (x : Activity) : ({ s with activity := s.activity ++ [x] } : State).Inv := by
  refine { inv with active := ?_ }
  intro e member
  obtain ⟨y, inLog, rest⟩ := inv.active e member
  exact ⟨y, List.mem_append_left _ inLog, rest⟩

/-- Activity leaves an idle end a full timeout away, at most, and never past the absolute end. -/
theorem Inv.record (inv : s.Inv) (limits : Limits) {h : ElevatedSession} (inHeld : h ∈ s.held) :
    (s.recordElevatedActivity limits s.now h).2.Inv := by
  let x : Activity := { elevatedId := h.id, time := s.now, idle := limits.idle }
  have active : ({ s with activity := s.activity ++ [x] } : State).Inv := inv.logged x
  by_cases unwritten : Unwritten limits (earlier (s.now + limits.idle) h.absoluteExpiresAt) h.idleExpiresAt
  · simp only [recordElevatedActivity, if_pos unwritten]
    exact active
  · simp only [recordElevatedActivity, if_neg unwritten]
    split
    · exact inv
    next row found =>
      have moved : ({ s with
          activity := s.activity ++ [x]
          elevated := Table.update (fun row => row.id = h.id ∧
            row.revokedAt = none ∧ s.now < row.idleExpiresAt)
            (fun row =>
              { row with idleExpiresAt := earlier (s.now + limits.idle) h.absoluteExpiresAt }) s.elevated
          } : State).Inv := by
        refine active.update (fun _ => ⟨rfl, rfl, rfl⟩) (fun _ revoked => revoked) ?_
        intro e member met
        have absolute := inv.held h inHeld e member met.1
        refine ⟨?_, x, List.mem_append_right _ List.mem_cons_self, met.1.symm, Int.le_refl _,
          earlier_le_left _ _⟩
        rw [absolute]
        exact earlier_le_right _ _
      have rowIn := List.mem_of_find?_eq_some found
      have rowIs : row.id = h.id ∧ row.revokedAt = none ∧ s.now < row.idleExpiresAt := by
        simpa using List.find?_some found
      refine { moved with held := ?_, heldFresh := ?_ }
      · intro g inHeld' e member its
        obtain old | new := List.mem_append.mp inHeld'
        · exact moved.held g old e member its
        · simp only [List.mem_singleton] at new
          subst new
          have absolute : ∀ f ∈ s.elevated, f.id = row.id → f.absoluteExpiresAt = row.absoluteExpiresAt := by
            intro f inTable same
            rw [inv.elevated.eq_of_key inTable rowIn same]
          obtain ⟨f, inTable, rfl⟩ := Table.mem_update.mp member
          split at its
          · rw [if_pos ‹_›]
            exact absolute f inTable its
          · rw [if_neg ‹_›]
            exact absolute f inTable its
      · intro g inHeld'
        obtain old | new := List.mem_append.mp inHeld'
        · exact inv.heldFresh g old
        · simp only [List.mem_singleton] at new
          subst new
          exact inv.freshElevated row rowIn

theorem Inv.apiStart (inv : s.Inv) (now : Int) : (s.endOpenElevatedSessions now).Inv := by
  have revoked : ({ s with
      elevated := Table.update (fun e => e.Active e.adminSessionId now)
        (fun e => { e with revokedAt := some now }) s.elevated
      revoked := s.revoked ++ (s.elevated.filter fun e => e.Active e.adminSessionId now).map
        (·.id) } : State).Inv :=
    inv.revoke now
  exact { revoked
    with held := by simp [endOpenElevatedSessions], heldFresh := by simp [endOpenElevatedSessions] }

/-- Each operation keeps the invariant. -/
theorem Inv.apply (inv : s.Inv) {limits : Limits} {op : Op} {t : State}
    (taken : s.apply limits s.now op = some t) :
    t.Inv := by
  cases op with
  | signIn elevate =>
    cases Option.some.inj taken
    exact inv.signIn limits elevate
  | stepUp id =>
    obtain ⟨old, found, rfl⟩ := Option.map_eq_some_iff.mp taken
    exact inv.rotateAndElevate limits (Table.find_mem found).1
  | resolve id =>
    cases Option.some.inj taken
    exact inv.seen fun _ => ⟨rfl, rfl⟩
  | look id =>
    cases Option.some.inj taken
    exact inv.look id s.now
  | record e =>
    simp only [State.apply] at taken
    split at taken
    next inHeld =>
      cases Option.some.inj taken
      exact inv.record limits (List.contains_iff_mem.mp inHeld)
    next => cases taken
  | revoke id =>
    cases Option.some.inj taken
    exact inv.revokeAdmin s.now id
  | endStepUp id =>
    cases Option.some.inj taken
    exact inv.revokeElevated s.now id
  | apiStart =>
    cases Option.some.inj taken
    exact inv.apiStart s.now

theorem inv_empty (now : Int) : (empty now).Inv where
  admin := .nil
  elevated := .nil
  freshAdmin := by simp [empty]
  freshElevated := by simp [empty]
  ends := by simp [empty]
  owned := by simp [empty]
  held := by simp [empty]
  heldFresh := by simp [empty]
  rotated := by simp [empty]
  active := by simp [empty]
  revoked := by simp [empty]

theorem inv_of_reachable (reach : system.Reachable s) : s.Inv := by
  refine reach.invariant (P := State.Inv) ?_ ?_
  · rintro s ⟨now, rfl⟩
    exact inv_empty now
  · intro s t c _ inv _ taken
    simp only [system] at taken
    split at taken
    · cases taken
    next order => exact (inv.wait (by omega)).apply taken

/-- Along a chain of step-ups, expiries only come forward. -/
theorem Inv.chain (inv : s.Inv) {first last : Nat} (chain : s.Chain first last) :
    ∀ a ∈ s.admin, a.id = first → ∀ b ∈ s.admin, b.id = last → b.expiresAt ≤ a.expiresAt := by
  induction chain with
  | refl =>
    intro a inA isFirst b inB isLast
    have one : b = a := inv.admin.eq_of_key inB inA (isLast.trans isFirst.symm)
    exact Int.le_of_eq (congrArg AdminSession.expiresAt one)
  | tail _ rotation ih =>
    intro a inA isFirst b inB isLast
    obtain ⟨⟨old, inOld, new, inNew, isOld, isNew, within⟩, _⟩ := inv.rotated _ _ rotation
    have before := ih a inA isFirst old inOld isOld
    have one : b = new := inv.admin.eq_of_key inB inNew (isLast.trans isNew.symm)
    rw [one]
    omega

/-- The invariant has every lifetime in order. -/
theorem Inv.lifetimes (inv : s.Inv) : Lifetimes s where
  ordered := by
    intro e member
    obtain ⟨a, inA, its, within⟩ := inv.owned e member
    exact ⟨inv.ends e member, a, inv.admin.find_iff.mpr ⟨inA, its⟩, within⟩
  chained := by
    intro first last chain a b foundA foundB
    obtain ⟨inA, isFirst⟩ := Table.find_mem foundA
    obtain ⟨inB, isLast⟩ := Table.find_mem foundB
    exact inv.chain chain a inA isFirst b inB isLast
  replaced := by
    intro old new rotation t
    cases found : s.findActiveElevated old t with
    | none => rfl
    | some e =>
      obtain ⟨member, ⟨its, unrevoked⟩, _⟩ := findActiveElevated_some found
      exact absurd unrevoked ((inv.rotated old new rotation).2 e member its)
  active := by
    intro id t e later found
    obtain ⟨member, ⟨_, unrevoked⟩, beforeIdle, _⟩ := findActiveElevated_some found
    obtain ⟨x, inLog, its, past, ends⟩ := inv.active e member
    refine ⟨fun revoked => (inv.revoked e.id revoked).2 e member rfl unrevoked, x, inLog,
      its, by omega, by omega⟩

end State

/-- Whatever the operations, their order and the settings in force at each, sessions
end when they should. -/
theorem session_lifetimes {s : State} (reach : system.Reachable s) : Lifetimes s :=
  (State.inv_of_reachable reach).lifetimes

/-- Sign in, step up, and be active a minute later, under the default limits. -/
def dayLimits : Limits where
  signInAbsolute := 43200000
  signInIdle := 3600000
  elevatedIdle := 900000
  elevatedAbsolute := 14400000

/-- The elevated session as the next request finds it. -/
def steppedUp : ElevatedSession where
  id := 2
  adminSessionId := 1
  createdAt := 2000
  idleExpiresAt := 902000
  absoluteExpiresAt := 14402000
  revokedAt := none

def morning : List Call :=
  [⟨1000, dayLimits, .signIn false⟩, ⟨2000, dayLimits, .stepUp 0⟩, ⟨62000, dayLimits, .record steppedUp⟩]

theorem session_lifetimes_morning : ∃ s, Lifetimes s ∧ (s.findActiveElevated 1 950000).isSome = true := by
  obtain ⟨s, ran, found⟩ := Transition.System.exists_of_any (o := system.run (empty 0) morning)
    (p := fun s => (s.findActiveElevated 1 950000).isSome = true) (by decide +kernel)
  have started : system.Reachable (empty 0) := .start ⟨0, rfl⟩
  exact ⟨s, session_lifetimes (started.of_run ran Transition.System.meetsAlong_true), found⟩

end OpenAduc.Sessions
