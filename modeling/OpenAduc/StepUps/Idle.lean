import OpenAduc.StepUps.Passwords

namespace OpenAduc.StepUps
open Naming (Text text)
open Sessions (ElevatedSession AdminSession Limits earlier earlier_le_left earlier_le_right)

def Action.recorded : Action → Option (Limits × ElevatedSession)
  | .record limits e => some (limits, e)
  | _ => none

/-- Activity comes under no shorter an idle timeout than what was taken of its session before. -/
def Unshortened (s : State) (c : Call) : Prop :=
  ∀ r ∈ c.action.recorded, ∀ x ∈ s.sessions.activity, x.elevatedId = r.2.id → x.idle ≤ r.1.idle

instance (s : State) (c : Call) : Decidable (Unshortened s c) := inferInstanceAs (Decidable (∀ _ ∈ _, _))

/-- Rows stay, and none's idle end is pulled back. -/
def Onward (s t : Sessions.State) : Prop :=
  ∀ row ∈ s.elevated, ∃ row' ∈ t.elevated, row'.id = row.id ∧ row.idleExpiresAt ≤ row'.idleExpiresAt

/-- Its session's idle end is no earlier. -/
def State.Idles (s : State) (id : Nat) (time : Int) : Prop :=
  ∃ row ∈ s.sessions.elevated, row.id = id ∧ time ≤ row.idleExpiresAt

def State.Waits (s : State) : Pending → Prop
  | .read e _ | .active e => s.Idles e.id e.idleExpiresAt
  | .extend id idleExpiresAt => s.Idles id idleExpiresAt
  | .delete _ => True

/-- Nothing cached or under way is to last past its session's idle end. -/
structure State.Timely (s : State) : Prop where
  cache : s.cache.Tidy fun id expiresAt _ => s.Idles id expiresAt
  elevating : ∀ e ∈ s.elevating, s.Idles e.elevated.id e.elevated.idleExpiresAt
  pending : ∀ p ∈ s.pending, s.Waits p

section
variable {s s' : State} {t u : Sessions.State} {e : ElevatedSession} {c : Call} {limits : Limits}
    {id : Nat} {now : Int}

theorem Onward.trans {v : Sessions.State} (first : Onward t u) (rest : Onward u v) : Onward t v := by
  intro row member
  obtain ⟨row', member', same, later⟩ := first row member
  obtain ⟨row'', member'', same', later'⟩ := rest row' member'
  exact ⟨row'', member'', same'.trans same, Int.le_trans later later'⟩

theorem onward_append {more : List ElevatedSession} (elevated : u.elevated = t.elevated ++ more) :
    Onward t u :=
  fun row member => ⟨row, elevated ▸ List.mem_append_left _ member, rfl, Int.le_refl _⟩

theorem onward_same (elevated : u.elevated = t.elevated) : Onward t u :=
  onward_append (elevated.trans (List.append_nil _).symm)

/-- What is changed keeps its number, and its idle end comes no earlier. -/
theorem onward_update {cond : ElevatedSession → Prop} [DecidablePred cond]
    {set : ElevatedSession → ElevatedSession}
    (elevated : u.elevated = Table.update cond set t.elevated)
    (later : ∀ row ∈ t.elevated, cond row → (set row).id = row.id ∧
      row.idleExpiresAt ≤ (set row).idleExpiresAt) : Onward t u := by
  intro row member
  by_cases meets : cond row
  · obtain ⟨same, on⟩ := later row member meets
    exact ⟨set row, elevated ▸ Table.mem_update.mpr ⟨row, member, if_pos meets⟩, same, on⟩
  · exact ⟨row, elevated ▸ Table.mem_update.mpr ⟨row, member, if_neg meets⟩, rfl, Int.le_refl _⟩

theorem onward_revoke (t : Sessions.State) (now : Int) (id : Nat) :
    Onward t (t.revokeElevatedSessionsForAdmin now id) :=
  onward_update rfl fun _ _ _ => ⟨rfl, Int.le_refl _⟩

theorem onward_revokeAdmin (t : Sessions.State) (now : Int) (id : Nat) :
    Onward t (t.revokeAdminSession now id) :=
  onward_update rfl fun _ _ _ => ⟨rfl, Int.le_refl _⟩

theorem idles_onward {time : Int} (onward : Onward s.sessions s'.sessions)
    (idles : s.Idles id time) : s'.Idles id time := by
  obtain ⟨row, member, its, before⟩ := idles
  obtain ⟨row', member', same, later⟩ := onward row member
  exact ⟨row', member', same.trans its, Int.le_trans before later⟩

theorem waits_onward {p : Pending} (onward : Onward s.sessions s'.sessions) (waits : s.Waits p) :
    s'.Waits p := by
  cases p with
  | read | active | extend => exact idles_onward onward waits
  | delete => trivial

theorem State.Timely.next (timely : s.Timely) (onward : Onward s.sessions s'.sessions)
    (cache : s'.cache.Tidy fun id expiresAt _ => s.Idles id expiresAt)
    (elevating : ∀ e ∈ s'.elevating, e ∈ s.elevating ∨ s'.Idles e.elevated.id e.elevated.idleExpiresAt)
    (pending : ∀ p ∈ s'.pending, p ∈ s.pending ∨ s'.Waits p) : s'.Timely where
  cache := cache.mono fun _ _ _ _ idles => idles_onward onward idles
  elevating e member := (elevating e member).elim (fun old => idles_onward onward (timely.elevating e old)) id
  pending p member := (pending p member).elim (fun old => waits_onward onward (timely.pending p old)) id

/-- The sessions changed, with more to delete. -/
theorem State.Timely.sessions (timely : s.Timely) (onward : Onward s.sessions t) (deletes : List (List Nat)) :
    ({ s with sessions := t, pending := s.pending ++ deletes.map .delete } : State).Timely := by
  refine timely.next onward timely.cache (fun _ => .inl) fun p member => ?_
  rcases List.mem_append.mp member with old | added
  · exact .inl old
  · obtain ⟨ids, _, rfl⟩ := List.mem_map.mp added
    exact .inr trivial

theorem timely_recached (timely : s.Timely) {cache : Cache}
    (tidy : cache.Tidy fun id expiresAt _ => s.Idles id expiresAt) (p : Pending) :
    ({ s with cache, pending := s.pending.erase p } : State).Timely :=
  timely.next (onward_same rfl) tidy (fun _ => .inl) fun _ member => .inl (List.mem_of_mem_erase member)

/-- A step-up's sessions are made, and those before it ended. -/
theorem timely_elevate (timely : s.Timely) {notAfter : Option Int} {made : ElevatedSession × Sessions.State}
    (is : State.elevate s.sessions limits now notAfter = made) (onward : Onward made.2 t)
    {password : Text} {revoked : List Nat}
    {proved : List (Nat × Text)} :
    ({ s with
      sessions := t
      elevating := s.elevating ++ [{ elevated := made.1, password, revoked }]
      proved } : State).Timely := by
  obtain ⟨_, _, _, _, rows, _⟩ := elevate_made limits now notAfter s.sessions
  rw [is] at rows
  refine timely.next ((onward_append rows).trans onward) timely.cache (fun f member => ?_) fun _ => .inl
  rcases List.mem_append.mp member with old | added
  · exact .inl old
  · cases List.mem_singleton.mp added
    have there : made.1 ∈ made.2.elevated := rows ▸ List.mem_append_right _ (List.mem_singleton_self _)
    exact .inr (onward made.1 there)

/-- Reading a password leaves nothing promised past an idle end. -/
theorem timely_read (timely : s.Timely) {lookedAt : Int}
    (taken : s.act now (.read e lookedAt) = some s') : s'.Timely := by
  unfold State.act at taken
  dsimp only at taken
  split at taken
  next listed =>
    have waits : s.Waits (.read e lookedAt) := timely.pending _ listed
    have tidy : (s.cache.get e.id now).2.Tidy fun id expiresAt _ => s.Idles id expiresAt :=
      tidy_get timely.cache
    split at taken
    next cache gave =>
      rw [gave] at tidy
      cases Option.some.inj taken
      exact timely_recached timely tidy _
    next password cache gave =>
      rw [gave] at tidy
      cases Option.some.inj taken
      refine timely.next (onward_same rfl) tidy (fun _ => .inl) fun q member => ?_
      rcases List.mem_append.mp member with old | added
      · exact .inl (List.mem_of_mem_erase old)
      · cases List.mem_singleton.mp added
        exact .inr waits
  next => cases taken

/-- Recorded under no shorter a timeout, activity never pulls an idle end back. -/
theorem onward_record (inv : t.Inv) (held : e ∈ t.held)
    (longer : ∀ x ∈ t.activity, x.elevatedId = e.id → x.idle ≤ limits.idle) :
    Onward t (t.recordElevatedActivity limits t.now e).2 := by
  unfold Sessions.State.recordElevatedActivity
  dsimp only
  split
  next => exact onward_same rfl
  next =>
    split
    next => exact onward_same rfl
    next row found =>
      refine onward_update rfl fun row member meets => ⟨rfl, ?_⟩
      obtain ⟨x, taken, its, before, ends⟩ := inv.active row member
      have long := longer x taken (its.trans meets.1)
      have within := inv.ends row member
      have absolute := inv.held e held row member meets.1
      show row.idleExpiresAt ≤ earlier (t.now + limits.idle) e.absoluteExpiresAt
      unfold earlier
      split <;> omega

/-- What recording returns lasts no longer than the row it leaves. -/
theorem recorded_idles (idles : s.Idles e.id e.idleExpiresAt) {moved : ElevatedSession}
    (recorded : s.sessions.recordElevatedActivity limits now e = (some moved, t)) :
    ∃ row ∈ t.elevated, row.id = moved.id ∧ moved.idleExpiresAt ≤ row.idleExpiresAt := by
  unfold Sessions.State.recordElevatedActivity at recorded
  dsimp only at recorded
  split at recorded
  next =>
    cases recorded
    exact idles
  next =>
    split at recorded
    next => cases recorded
    next row found =>
      cases recorded
      have meets := List.find?_some found
      simp only [decide_eq_true_eq] at meets
      exact ⟨_, Table.mem_update.mpr ⟨row, List.mem_of_find?_eq_some found, if_pos meets⟩, rfl, Int.le_refl _⟩

/-- Recorded activity moves its session's idle end on. -/
theorem timely_record (inv : s.Inv) (timely : s.Timely)
    (longer : ∀ x ∈ s.sessions.activity, x.elevatedId = e.id → x.idle ≤ limits.idle)
    (taken : s.act s.sessions.now (.record limits e) = some s') : s'.Timely := by
  unfold State.act at taken
  dsimp only at taken
  split at taken
  next may =>
    have waits : s.Idles e.id e.idleExpiresAt := timely.pending _ may.1
    have onward : Onward s.sessions (s.sessions.recordElevatedActivity limits s.sessions.now e).2 :=
      onward_record inv.sessions may.2 longer
    split at taken
    next sessions recorded =>
      rw [recorded] at onward
      cases Option.some.inj taken
      exact timely.next onward timely.cache (fun _ => .inl) fun _ member =>
        .inl (List.mem_of_mem_erase member)
    next moved sessions recorded =>
      rw [recorded] at onward
      cases Option.some.inj taken
      refine timely.next onward timely.cache (fun _ => .inl) fun q member => ?_
      rcases List.mem_append.mp member with old | added
      · exact .inl (List.mem_of_mem_erase old)
      · cases List.mem_singleton.mp added
        exact .inr (recorded_idles waits recorded)
  next => cases taken

/-- No action shortens what a cached password was promised. -/
theorem timely_act (inv : s.Inv) (timely : s.Timely) {a : Action} (longer : Unshortened s ⟨s.sessions.now, a⟩)
    (taken : s.act s.sessions.now a = some s') : s'.Timely := by
  cases a with
  | signIn limits =>
    cases Option.some.inj taken
    exact timely.next (onward_same rfl) timely.cache (fun _ => .inl) fun _ => .inl
  | setUp limits password =>
    cases Option.some.inj taken
    exact timely_elevate timely rfl (onward_same rfl)
  | stepUp limits old password =>
    obtain ⟨_, taken⟩ := Option.ite_none_right_eq_some.mp taken
    obtain ⟨a, _, rfl⟩ := Option.map_eq_some_iff.mp taken
    have onward : Onward (State.elevate s.sessions limits s.sessions.now (some a.expiresAt)).2
        (s.sessions.rotateAndElevate limits s.sessions.now a) := onward_revokeAdmin _ _ _
    exact timely_elevate timely rfl onward
  | cached f =>
    obtain ⟨listed, taken⟩ := Option.ite_none_right_eq_some.mp taken
    cases Option.some.inj taken
    exact timely.next (onward_same rfl)
      (tidy_set (tidy_deleteMany f.revoked timely.cache) (timely.elevating f listed))
      (fun g member => .inl (List.mem_of_mem_erase member)) fun _ => .inl
  | sent id =>
    obtain ⟨_, taken⟩ := Option.ite_none_right_eq_some.mp taken
    cases Option.some.inj taken
    exact timely.next (onward_same rfl) timely.cache (fun _ => .inl) fun _ => .inl
  | revoke id =>
    obtain ⟨_, taken⟩ := Option.ite_none_right_eq_some.mp taken
    cases Option.some.inj taken
    exact timely.sessions (onward_revokeAdmin _ _ id) [_]
  | endStepUp id =>
    obtain ⟨_, taken⟩ := Option.ite_none_right_eq_some.mp taken
    cases Option.some.inj taken
    exact timely.sessions (onward_revoke _ _ id) [_]
  | deleted ids =>
    obtain ⟨_, taken⟩ := Option.ite_none_right_eq_some.mp taken
    cases Option.some.inj taken
    exact timely_recached timely (tidy_deleteMany ids timely.cache) _
  | resolve limits id =>
    cases Option.some.inj taken
    exact timely.next (onward_same rfl) timely.cache (fun _ => .inl) fun _ => .inl
  | look id =>
    obtain ⟨_, taken⟩ := Option.ite_none_right_eq_some.mp taken
    obtain ⟨e, found, rfl⟩ := Option.map_eq_some_iff.mp taken
    refine timely.next (onward_same rfl) timely.cache (fun _ => .inl) fun p member => ?_
    rcases List.mem_append.mp member with old | added
    · exact .inl old
    · cases List.mem_singleton.mp added
      exact .inr ⟨e, (Sessions.findActiveElevated_some found).1, rfl, Int.le_refl _⟩
  | read e lookedAt => exact timely_read timely taken
  | record limits e => exact timely_record inv timely (longer _ rfl) taken
  | unrecorded e =>
    obtain ⟨listed, taken⟩ := Option.ite_none_right_eq_some.mp taken
    cases Option.some.inj taken
    refine timely.next (onward_same rfl) timely.cache (fun _ => .inl) fun p member => ?_
    rcases List.mem_append.mp member with old | added
    · exact .inl (List.mem_of_mem_erase old)
    · cases List.mem_singleton.mp added
      exact .inr (timely.pending _ listed)
  | extended id idleExpiresAt =>
    obtain ⟨listed, taken⟩ := Option.ite_none_right_eq_some.mp taken
    cases Option.some.inj taken
    exact timely_recached timely (tidy_extend timely.cache fun _ _ _ => timely.pending _ listed) _
  | sweep =>
    cases Option.some.inj taken
    exact timely.next (onward_same rfl)
      (tidy_evictEach (·.expiresAt ≤ s.sessions.now) timely.cache).1 (fun _ => .inl) fun _ => .inl
  | stop =>
    cases Option.some.inj taken
    exact timely.next (onward_same rfl) (tidy_evictEach (fun _ => true) timely.cache).1
      (fun _ => .inl) fun _ => .inl
  | apiStart =>
    cases Option.some.inj taken
    exact timely.next (onward_update rfl fun _ _ _ => ⟨rfl, Int.le_refl _⟩) tidy_empty
      (fun _ member => absurd member List.not_mem_nil) fun _ member => absurd member List.not_mem_nil

theorem timely_step (inv : s.Inv) (timely : s.Timely) (longer : Unshortened s c)
    (taken : stepUps.step s c = some s') : s'.Timely := by
  change (if _ then none else _) = some s' at taken
  split at taken
  next => cases taken
  next onTime =>
    have waited := timely.sessions (t := { s.sessions with now := c.time }) (onward_same rfl) []
    rw [List.map_nil, List.append_nil] at waited
    refine timely_act (inv.wait (Int.not_lt.mp onTime)) waited ?_ taken
    exact longer

theorem timely_reach (reach : stepUps.Reach Unshortened s) : s.Timely := by
  refine reach.invariant (fun s init => ?_) fun s t c previous timely longer taken => ?_
  · obtain ⟨now, rfl⟩ := init
    exact ⟨tidy_empty, by simp, by simp⟩
  · exact timely_step (inv_reach previous.reachable) timely longer taken

theorem cachedUntil_idle (inv : s.Inv) (timely : s.Timely) : s.CachedUntil (·.idleExpiresAt) := by
  intro i b has unwiped
  obtain ⟨row, member, entry, its, got, at_, _, isOpen⟩ := cachedUntil_absolute inv i b has unwiped
  obtain ⟨_, _, _, row', member', its', within⟩ := timely.cache.own row.id entry got
  have one : row' = row := inv.sessions.elevated.eq_of_key member' member its'
  exact ⟨row, member, entry, its, got, at_, one ▸ within, isOpen⟩

/-- A password is read before its session's idle end. -/
def State.ReadsBefore (s : State) (ends : ElevatedSession → Int) : Prop :=
  ∀ time e lookedAt s', stepUps.step s ⟨time, .read e lookedAt⟩ = some s' → ∀ u ∈ s'.uses, u ∈ s.uses ∨
    ∃ row ∈ s.sessions.elevated, row.id = u.elevatedId ∧ time < ends row

/-- What is read is read before the idle end. -/
theorem readsBefore_idle (timely : s.Timely) : s.ReadsBefore (·.idleExpiresAt) := by
  intro time e lookedAt s' taken u member
  change (if _ then none else _) = some s' at taken
  split at taken
  next => cases taken
  next =>
    unfold State.act at taken
    dsimp only at taken
    split at taken
    next =>
      split at taken
      next =>
        cases Option.some.inj taken
        exact .inl member
      next password cache gave =>
        cases Option.some.inj taken
        rcases List.mem_append.mp member with old | added
        · exact .inl old
        · cases List.mem_singleton.mp added
          obtain ⟨_, _, ⟨row, listed, its, within⟩, inTime, _⟩ :=
            get_some timely.cache (congrArg Prod.fst gave)
          exact .inr ⟨row, listed, its, Int.lt_of_lt_of_le inTime within⟩
    next => cases taken

/-- In any run: a password is in the cache's memory only for a session that is open, or about to
lose it, and in one buffer, cached until the session's end at the latest; sweeps leave none of a
session that has ended, and the process's end none; what a request binds with is what the directory
took when the session was made, which had not ended, nor been revoked as it was found. The end is
the idle one too, as long as the timeout is not shortened while the session is open. -/
theorem passwords_kept (reach : stepUps.Reachable s) :
    s.CachedUntil (·.absoluteExpiresAt) ∧ (∀ u ∈ s.uses, s.Proper u) ∧ Table.Keyed Prod.fst s.proved ∧
      s.SweepsEnded (·.absoluteExpiresAt) ∧
      (∀ time s', stepUps.step s ⟨time, .stop⟩ = some s' → ∀ b ∈ s'.cache.buffers, b.Wiped) ∧
      (stepUps.Reach Unshortened s →
        s.CachedUntil (·.idleExpiresAt) ∧ s.SweepsEnded (·.idleExpiresAt) ∧
        s.ReadsBefore (·.idleExpiresAt)) := by
  have inv := inv_reach reach
  refine ⟨cachedUntil_absolute inv, inv.uses, inv.proved, fun time s' taken b =>
    ?_, fun time s' taken b => stopped inv taken, fun kept => ?_⟩
  · exact swept inv taken (cachedUntil_absolute (inv_step inv taken))
  · have timely := timely_reach kept
    refine ⟨cachedUntil_idle inv timely, fun time s' taken b => ?_, readsBefore_idle timely⟩
    have after : s'.Timely :=
      timely_step inv timely (c := ⟨time, .sweep⟩) (fun _ none_ => nomatch none_) taken
    exact swept inv taken (cachedUntil_idle (inv_step inv taken) after)

end

def anHour : Limits := ⟨60, 30, 10, 40⟩

def nothingYet : State := ⟨Sessions.empty 0, Cache.empty, [], [], [], [], [], []⟩

/-- A step-up, and a request that binds with its password. -/
def stepUpAndUse : List Call :=
  [⟨0, .signIn anHour⟩, ⟨1, .stepUp anHour 0 (text "pw")⟩,
    ⟨2, .cached ⟨⟨2, 1, 1, 11, 41, none⟩, text "pw", []⟩⟩, ⟨2, .sent 1⟩, ⟨3, .look 1⟩,
      ⟨4, .read ⟨2, 1, 1, 11, 41, none⟩ 3⟩,
    ⟨5, .record anHour ⟨2, 1, 1, 11, 41, none⟩⟩, ⟨6, .extended 2 15⟩]

theorem stepUp_passwords_kept : ∃ s s', stepUps.run nothingYet stepUpAndUse = some s ∧
    stepUps.run s [⟨7, .revoke 1⟩, ⟨8, .deleted [2]⟩] = some s' ∧
    s.cache.entries = [(2, ⟨0, 15⟩)] ∧ s.uses.map Use.password = [text "pw"] ∧ (∀ u ∈ s.uses, s.Proper u) ∧
    s.CachedUntil (·.idleExpiresAt) ∧ s'.cache.buffers.map Buffer.bytes = [[0, 0]] := by
  have ran : (stepUps.run nothingYet stepUpAndUse).any (fun s => s.cache.entries = [(2, ⟨0, 15⟩)] ∧
      s.uses.map Use.password = [text "pw"] ∧
        ((stepUps.run s [⟨7, .revoke 1⟩, ⟨8, .deleted [2]⟩]).any fun s' =>
        s'.cache.buffers.map Buffer.bytes = [[0, 0]]) = true) = true := by
    decide
  obtain ⟨s, reached, cached, used, out⟩ := Transition.System.exists_of_any ran
  obtain ⟨s', ended, wiped⟩ := Transition.System.exists_of_any out
  have kept : stepUps.Reach Unshortened s := .of_run (.start ⟨0, rfl⟩) reached (by decide)
  obtain ⟨_, proper, _, _, _, idle⟩ := passwords_kept kept.reachable
  exact ⟨s, s', reached, ended, cached, used, proper, (idle kept).1, wiped⟩

end OpenAduc.StepUps
