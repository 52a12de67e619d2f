import OpenAduc.StepUps.Kept

namespace OpenAduc.StepUps
open Naming (Text text)
open Sessions (ElevatedSession AdminSession Limits earlier earlier_le_right)

section
variable {s s' : State} {t : Sessions.State} {e : ElevatedSession} {now : Int} {c : Call}
    {limits : Limits} {id : Nat}

/-- The sessions a step-up makes are new, and in order. -/
theorem elevate_made (limits : Limits) (now : Int) (notAfter : Option Int) (sessions : Sessions.State) :
    (State.elevate sessions limits now notAfter).1.id = sessions.nextId + 1 ∧
      (State.elevate sessions limits now notAfter).1.adminSessionId = sessions.nextId ∧
      (State.elevate sessions limits now notAfter).1.idleExpiresAt ≤
      (State.elevate sessions limits now notAfter).1.absoluteExpiresAt ∧
      (State.elevate sessions limits now notAfter).1.revokedAt = none ∧
      (State.elevate sessions limits now notAfter).2.elevated = sessions.elevated ++
      [(State.elevate sessions limits now notAfter).1] ∧
      (State.elevate sessions limits now notAfter).2.nextId = sessions.nextId + 2 :=
  ⟨rfl, rfl, earlier_le_right _ _, rfl, rfl, rfl⟩

theorem inv_signIn (inv : s.Inv) (limits : Limits) :
    ({ s with sessions := s.sessions.signIn limits s.sessions.now false, known := s.known ++
      [s.sessions.nextId] } : State).Inv := by
  have later : Later (fun _ => False) s.sessions (s.sessions.signIn limits s.sessions.now false) :=
    later_of_elevated rfl (Nat.le_succ _) (Int.le_refl _)
  have same : s.grow (s.sessions.signIn limits s.sessions.now false) [] [] [] [s.sessions.nextId] =
      { s with sessions := s.sessions.signIn limits s.sessions.now false, known :=
        s.known ++ [s.sessions.nextId] } := by simp [State.grow]
  refine same ▸ inv.grow (inv.sessions.signIn limits false) later (fun _ _ _ isOne => isOne.elim)
    (fun _ isOne => isOne.elim)
    ⟨List.nodup_nil, by simp⟩ (fun id member => ?_) ⟨List.nodup_nil, by simp⟩ (by simp)
  cases List.mem_singleton.mp member
  exact ⟨Nat.le_refl _, Nat.lt_succ_self _⟩

/-- A first-run setup proves its password and waits to cache it. -/
theorem inv_setUp (inv : s.Inv) (limits : Limits) (password : Text) {made : ElevatedSession × Sessions.State}
    (is : State.elevate s.sessions limits s.sessions.now none = made) :
    ({ s with
      sessions := made.2
      elevating := s.elevating ++ [{ elevated := made.1, password, revoked := [] }]
      proved := s.proved ++ [(made.1.id, password)] } : State).Inv := by
  obtain ⟨idIs, adminIs, ends, isOpen, rows, next⟩ := elevate_made limits s.sessions.now none s.sessions
  rw [is] at idIs adminIs ends isOpen rows next
  have after : made.2.Inv := by
    have signedIn := inv.sessions.signIn limits true
    exact (congrArg Prod.snd is) ▸ signedIn
  have later : Later (fun _ => False) s.sessions made.2 := is ▸ later_elevate none
  have same : s.grow made.2 [] [{ elevated := made.1, password, revoked := [] }] [(made.1.id, password)] [] =
      { s with
        sessions := made.2
        elevating := s.elevating ++ [{ elevated := made.1, password, revoked := [] }]
        proved := s.proved ++ [(made.1.id, password)] } := by simp [State.grow]
  refine same ▸ inv.grow after later (fun _ _ _ isOne => isOne.elim) (fun _ isOne => isOne.elim)
    ⟨List.nodup_singleton _, fun x member => ?_⟩ (by simp)
      ⟨List.nodup_singleton _, fun f member => ?_⟩ (by simp)
  · cases List.mem_singleton.mp member
    dsimp only
    omega
  · cases List.mem_singleton.mp member
    refine ⟨adminIs.ge, List.mem_append_right _ (List.mem_singleton_self _), fun listed =>
      ?_, fun listed => ?_, ?_, ends, made.1, ?_,
      ⟨rfl, rfl, rfl⟩, isOpen⟩
    · rw [same] at listed
      have below := inv.known_lt _ listed
      dsimp only at below
      omega
    · have below := inv.sending_lt _ listed
      dsimp only at below
      omega
    · rw [same]
      dsimp only
      omega
    · rw [same]
      exact rows ▸ List.mem_append_right _ (List.mem_singleton_self _)

theorem mem_openOf {row : ElevatedSession} {sessions : Sessions.State}
    (member : row ∈ sessions.elevated) (owner : row.adminSessionId = id)
    (isOpen : row.revokedAt = none) : row.id ∈ State.openOf sessions id :=
  List.mem_map_of_mem (List.mem_filter.mpr ⟨member, decide_eq_true ⟨owner, isOpen⟩⟩)

/-- A step-up proves its password, and waits to delete the replaced session's. -/
theorem inv_stepUp (inv : s.Inv) (limits : Limits) (password : Text) {a : AdminSession}
    (there : a ∈ s.sessions.admin)
    (known : a.id ∈ s.known) {made : ElevatedSession × Sessions.State}
    (is : State.elevate s.sessions limits s.sessions.now (some a.expiresAt) = made) :
    ({ s with
      sessions := s.sessions.rotateAndElevate limits s.sessions.now a
      elevating := s.elevating ++ [{ elevated := made.1, password, revoked := State.openOf made.2 a.id }]
      proved := s.proved ++ [(made.1.id, password)] } : State).Inv := by
  obtain ⟨idIs, adminIs, ends, isOpen, rows, next⟩ :=
    elevate_made limits s.sessions.now (some a.expiresAt) s.sessions
  rw [is] at idIs adminIs ends isOpen rows next
  have below := inv.known_lt a.id known
  have rotated : (s.sessions.rotateAndElevate limits s.sessions.now a).elevated =
      Table.update (fun e => e.Open a.id) (fun e => { e with revokedAt := some s.sessions.now })
        made.2.elevated := is ▸ rfl
  have nextIs : (s.sessions.rotateAndElevate limits s.sessions.now a).nextId = s.sessions.nextId + 2 := rfl
  have stays : made.1 ∈ (s.sessions.rotateAndElevate limits s.sessions.now a).elevated := by
    have apart : ¬made.1.Open a.id := fun isOf => by
      have owner := isOf.1
      omega
    rw [rotated, rows]
    exact Table.mem_update.mpr ⟨made.1, List.mem_append_right _ (List.mem_singleton_self _), if_neg apart⟩
  have same : s.grow (s.sessions.rotateAndElevate limits s.sessions.now a) []
      [{ elevated := made.1, password, revoked := State.openOf made.2 a.id }] [(made.1.id, password)] [] =
      { s with
        sessions := s.sessions.rotateAndElevate limits s.sessions.now a
        elevating := s.elevating ++ [{ elevated := made.1, password, revoked := State.openOf made.2 a.id }]
        proved := s.proved ++ [(made.1.id, password)] } := by simp [State.grow]
  refine same ▸ inv.grow (inv.sessions.rotateAndElevate limits there)
    (later_rotate s.sessions limits a) (fun row member wasOpen owner => ?_)
    (fun row owner => owner ▸ known) ⟨List.nodup_singleton _, fun x member => ?_⟩ (by simp)
      ⟨List.nodup_singleton _, fun f member => ?_⟩ (by simp)
  · have stayed : row ∈ made.2.elevated := rows ▸ List.mem_append_left _ member
    exact .inr ⟨_, List.mem_singleton_self _, mem_openOf stayed owner wasOpen⟩
  · cases List.mem_singleton.mp member
    dsimp only
    omega
  · cases List.mem_singleton.mp member
    refine ⟨adminIs.ge, List.mem_append_right _ (List.mem_singleton_self _), fun listed =>
      ?_, fun listed => ?_, ?_, ends, made.1, ?_,
      ⟨rfl, rfl, rfl⟩, isOpen⟩
    · rw [same] at listed
      have before := inv.known_lt _ listed
      dsimp only at before
      omega
    · have before := inv.sending_lt _ listed
      dsimp only at before
      omega
    · rw [same]
      dsimp only
      omega
    · rw [same]
      exact stays

theorem inv_revoked (inv : s.Inv) (known : id ∈ s.known) (after : t.Inv)
    (later : Later (fun row => row.adminSessionId = id) s.sessions t) :
    ({ s with sessions := t, pending := s.pending ++ [.delete (State.openOf s.sessions id)] } :
      State).Inv := by
  have same : s.grow t [.delete (State.openOf s.sessions id)] [] [] [] =
      { s with sessions := t, pending := s.pending ++ [.delete (State.openOf s.sessions id)] } := by
        simp [State.grow]
  refine same ▸ inv.grow after later (fun row member wasOpen owner => ?_)
    (fun row owner => owner ▸ known) ⟨List.nodup_nil, by simp⟩ (by simp)
    ⟨List.nodup_nil, by simp⟩ fun p member => ?_
  · exact .inl ⟨_, List.mem_singleton_self _, mem_openOf member owner wasOpen⟩
  · cases List.mem_singleton.mp member
    trivial

/-- A start ends the elevated sessions and holds no password. -/
theorem inv_apiStart (inv : s.Inv) :
    ({ s with
      sessions := s.sessions.endOpenElevatedSessions s.sessions.now
      cache := Cache.empty
      elevating := []
      sending := []
      pending := [] } : State).Inv := by
  have later : Later (fun _ => True) s.sessions (s.sessions.endOpenElevatedSessions s.sessions.now) := by
    refine ⟨fun row member => ?_, Nat.le_refl _, Int.le_refl _⟩
    by_cases active : row.Active row.adminSessionId s.sessions.now
    · exact ⟨_, Table.mem_update.mpr ⟨row, member, if_pos active⟩, ⟨rfl, rfl, rfl⟩,
        .inr ⟨trivial, active.1.2, rfl⟩⟩
    · exact ⟨row, Table.mem_update.mpr ⟨row, member, if_neg active⟩, ⟨rfl, rfl, rfl⟩, .inl rfl⟩
  have proper : ∀ s' : State, s'.sessions = s.sessions.endOpenElevatedSessions s.sessions.now →
    s'.proved = s.proved →
      ∀ u ∈ s.uses, s'.Proper u := by
    intro s' sessions proved u member
    exact proper_later (sessions ▸ later) (fun _ listed => proved ▸ listed) (inv.uses u member)
  exact {
    sessions := inv.sessions.apiStart s.sessions.now
    proved := inv.proved
    proved_lt := inv.proved_lt
    known_lt := inv.known_lt
    sending_lt := fun id member => absurd member List.not_mem_nil
    cache := tidy_empty
    apart := List.nodup_nil
    begun := fun e member => absurd member List.not_mem_nil
    pending := fun p member => absurd member List.not_mem_nil
    uses := proper _ rfl rfl }

/-- A proven password is cached for its own session. -/
theorem inv_cached (inv : s.Inv) {f : Elevating} (listed : f ∈ s.elevating) :
    ({ s with
      cache := (s.cache.deleteMany f.revoked).set f.elevated.id f.password f.elevated.idleExpiresAt
      sending := s.sending ++ [f.elevated.adminSessionId]
      elevating := s.elevating.erase f } : State).Inv := by
  have once : s.elevating.Nodup := inv.apart.of_map
  have begun := inv.begun f listed
  refine { inv with
    sending_lt := fun id member => ?_
    cache := tidy_set ((tidy_deleteMany f.revoked inv.cache).mono fun id e got bytes kept => ?_) ?_
    apart := List.Nodup.sublist (List.erase_sublist.map _) inv.apart
    begun := fun g member => ?_
    pending := fun p member => fits_later (later_refl _) (inv.pending p member)
    uses := fun u member => proper_later (later_refl _) (fun _ is => is) (inv.uses u member) }
  · rcases List.mem_append.mp member with old | added
    · exact inv.sending_lt id old
    · cases List.mem_singleton.mp added
      exact begun.fresh
  · rw [get_deleteMany] at got
    split at got
    next => cases got
    next stays =>
      obtain ⟨proved, row, member, its, ends, isOpen⟩ := kept
      refine ⟨proved, row, member, its, ends, isOpen.imp_right ?_⟩
      rintro (pending | ⟨g, isIn, goes⟩)
      · exact .inl pending
      · have other : g ≠ f := by
          rintro rfl
          exact stays goes
        exact .inr ⟨g, (List.mem_erase_of_ne other).mpr isIn, goes⟩
  · obtain ⟨row, member, same, isOpen⟩ := begun.row
    exact ⟨⟨f.password, begun.proved, rfl⟩, row, member,
      same.id.symm, same.absoluteExpiresAt ▸ begun.ends, .inl isOpen⟩
  · obtain ⟨other, isIn⟩ := once.mem_erase_iff.mp member
    have its := inv.begun g isIn
    refine { its with unsent := fun sending => ?_ }
    rcases List.mem_append.mp sending with old | added
    · exact its.unsent old
    · exact other (inv.apart.eq_of_key isIn listed (List.mem_singleton.mp added))

/-- A cookie sent makes its session known. -/
theorem inv_sent (inv : s.Inv) (listed : id ∈ s.sending) :
    ({ s with known := s.known ++ [id], sending := s.sending.erase id } : State).Inv := by
  refine { inv with
    known_lt := fun id' member => ?_
    sending_lt := fun id' member => inv.sending_lt id' (List.mem_of_mem_erase member)
    cache := inv.cache
    begun := fun f member => ?_
    pending := fun p member => fits_later (later_refl _) (inv.pending p member)
    uses := fun u member => proper_later (later_refl _) (fun _ is => is) (inv.uses u member) }
  · rcases List.mem_append.mp member with old | added
    · exact inv.known_lt id' old
    · cases List.mem_singleton.mp added
      exact inv.sending_lt _ listed
  · have its := inv.begun f member
    refine { its with unknown := fun known => ?_, unsent :=
      fun sending => its.unsent (List.mem_of_mem_erase sending) }
    rcases List.mem_append.mp known with old | added
    · exact its.unknown old
    · cases List.mem_singleton.mp added
      exact its.unsent listed

/-- Deleting cached passwords wipes them. -/
theorem inv_deleted (inv : s.Inv) (ids : List Nat) :
    ({ s with cache := s.cache.deleteMany ids, pending := s.pending.erase (.delete ids) } : State).Inv := by
  refine { inv with
    cache := (tidy_deleteMany ids inv.cache).mono fun id e got bytes kept => ?_
    begun := fun g member => { inv.begun g member with }
    pending := fun p member => fits_later (later_refl _) (inv.pending p (List.mem_of_mem_erase member))
    uses := fun u member => proper_later (later_refl _) (fun _ is => is) (inv.uses u member) }
  rw [get_deleteMany] at got
  split at got
  next => cases got
  next stays =>
    obtain ⟨proved, row, member, its, ends, isOpen⟩ := kept
    refine ⟨proved, row, member, its, ends, isOpen.imp_right ?_⟩
    rintro (⟨ids', listed, goes⟩ | elevating)
    · have other : Pending.delete ids' ≠ .delete ids := fun same => stays (Pending.delete.inj same ▸ goes)
      exact .inl ⟨ids', (List.mem_erase_of_ne other).mpr listed, goes⟩
    · exact .inr elevating

theorem State.Inv.used (inv : s.Inv) {u : Use} (proper : s.Proper u) :
    ({ s with uses := s.uses ++ [u] } : State).Inv := by
  refine { inv with cache := inv.cache, begun := fun g member =>
    { inv.begun g member with }, pending := inv.pending, uses := fun v member => ?_ }
  rcases List.mem_append.mp member with old | added
  · exact inv.uses v old
  · cases List.mem_singleton.mp added
    exact proper

theorem proper_read (inv : s.Inv) {lookedAt : Int} (fits : s.Fits (.read e lookedAt)) {password : Text}
    (read : (s.cache.get e.id now).1 = some password) :
    s.Proper { adminSessionId :=
  e.adminSessionId, elevatedId := e.id, password, lookedAt, readAt := now } := by
  obtain ⟨_, before, row, member, same, after⟩ := fits
  obtain ⟨expiresAt, bytes, ⟨⟨p, listed, is⟩, row', member', its, ends, _⟩, inTime, rfl⟩ :=
    get_some inv.cache read
  have one : row' = row := inv.sessions.elevated.eq_of_key member' member (its.trans same.id)
  subst one
  exact ⟨⟨p, listed, is ▸ rfl⟩, before, row', member, its,
    same.adminSessionId.symm, by dsimp only; omega, after⟩

/-- A request binds with the password its session was made with. -/
theorem inv_read (inv : s.Inv) {lookedAt : Int} (listed : .read e lookedAt ∈ s.pending)
    (taken : s.act now (.read e lookedAt) = some s') : s'.Inv := by
  have fits := inv.pending _ listed
  have others : ∀ ids, Pending.read e lookedAt ≠ .delete ids := by simp
  have tidy : (s.cache.get e.id now).2.Tidy s.Kept := tidy_get inv.cache
  unfold State.act at taken
  dsimp only at taken
  rw [if_pos listed] at taken
  cases gave : s.cache.get e.id now with
  | mk read cache =>
    rw [gave] at taken tidy
    have kept := (inv.recached tidy).done others
    cases read with
    | none =>
      cases Option.some.inj taken
      exact kept
    | some password =>
      cases Option.some.inj taken
      have proper := proper_read inv fits (congrArg Prod.fst gave)
      obtain ⟨ends, _, row, member, same, _⟩ := fits
      exact (kept.pend (p := .active e) ⟨ends, row, member, same⟩).used
        (proper_later (later_refl _) (fun _ is => is) proper)

/-- What recording returns ends no later than the session does. -/
theorem recorded_ends (holds : s.Holds e) (after : t.Inv) {moved : ElevatedSession}
    (recorded : s.sessions.recordElevatedActivity limits s.sessions.now e = (some moved, t)) :
    ∃ row ∈ t.elevated, row.id = moved.id ∧ moved.idleExpiresAt ≤ row.absoluteExpiresAt := by
  obtain ⟨ends, row, member, same⟩ := holds
  unfold Sessions.State.recordElevatedActivity at recorded
  dsimp only at recorded
  split at recorded
  next =>
    cases recorded
    exact ⟨row, member, same.id.symm, same.absoluteExpiresAt ▸ ends⟩
  next =>
    split at recorded
    next => cases recorded
    next found isFound =>
      cases recorded
      have meets := List.find?_some isFound
      simp only [decide_eq_true_eq] at meets
      refine ⟨_, Table.mem_update.mpr ⟨found, List.mem_of_find?_eq_some isFound, if_pos meets⟩, rfl, ?_⟩
      exact after.ends _ (Table.mem_update.mpr ⟨found, List.mem_of_find?_eq_some isFound, if_pos meets⟩)

/-- Recorded activity keeps the session the password is for. -/
theorem inv_record (inv : s.Inv) (listed : .active e ∈ s.pending) (held : e ∈ s.sessions.held)
    (taken : s.act s.sessions.now (.record limits e) = some s') : s'.Inv := by
  have holds : s.Holds e := inv.pending _ listed
  have others : ∀ ids, Pending.active e ≠ .delete ids := by simp
  have after := inv.sessions.record limits held
  have later : Later (fun _ => False) s.sessions
    (s.sessions.recordElevatedActivity limits s.sessions.now e).2 := later_record ..
  unfold State.act at taken
  dsimp only at taken
  rw [if_pos ⟨listed, held⟩] at taken
  cases recorded : s.sessions.recordElevatedActivity limits s.sessions.now e with
  | mk moved sessions =>
    rw [recorded] at taken after later
    have kept := (inv.unended after later).done others
    cases moved with
    | none =>
      cases Option.some.inj taken
      exact kept
    | some moved =>
      cases Option.some.inj taken
      exact kept.pend (recorded_ends holds after recorded)

theorem inv_unrecorded (inv : s.Inv) (listed : .active e ∈ s.pending) :
    ({ s with pending := s.pending.erase (.active e) ++ [.extend e.id e.idleExpiresAt] } : State).Inv := by
  obtain ⟨ends, row, member, same⟩ : s.Holds e := inv.pending _ listed
  have kept := inv.done (p := .active e) (by simp)
  exact kept.pend (p := .extend e.id e.idleExpiresAt)
    ⟨row, member, same.id.symm, same.absoluteExpiresAt ▸ ends⟩

theorem inv_extended (inv : s.Inv) {idleExpiresAt : Int} (listed : .extend id idleExpiresAt ∈ s.pending) :
    ({ s with cache := s.cache.extend id idleExpiresAt, pending :=
  s.pending.erase (.extend id idleExpiresAt) } : State).Inv := by
  obtain ⟨row, member, its, within⟩ : s.Fits (.extend id idleExpiresAt) := inv.pending _ listed
  have tidy : (s.cache.extend id idleExpiresAt).Tidy s.Kept := by
    refine tidy_extend inv.cache fun old bytes kept => ?_
    obtain ⟨proved, row', member', its', _, isOpen⟩ := kept
    have one : row' = row := inv.sessions.elevated.eq_of_key member' member (its'.trans its.symm)
    exact ⟨proved, row', member', its', one ▸ within, isOpen⟩
  exact (inv.recached tidy).done (p := .extend id idleExpiresAt) (by simp)

theorem inv_look (inv : s.Inv) (found : s.sessions.findActiveElevated id s.sessions.now = some e) :
    ({ s with sessions := s.sessions.look id s.sessions.now, pending :=
  s.pending ++ [.read e s.sessions.now] } : State).Inv := by
  obtain ⟨member, active⟩ := Sessions.findActiveElevated_some found
  have looked :=
    inv.unended (inv.sessions.look id s.sessions.now) (later_of_elevated rfl (Nat.le_refl _) (Int.le_refl _))
  refine looked.pend (p := .read e s.sessions.now) ⟨inv.sessions.ends e member, Int.le_refl _, e,
    member, ⟨rfl, rfl, rfl⟩, ?_⟩
  intro t revoked
  rw [active.1.2] at revoked
  cases revoked

/-- Every action keeps the invariant. -/
theorem inv_act (inv : s.Inv) {a : Action} (taken : s.act s.sessions.now a = some s') : s'.Inv := by
  cases a with
  | signIn limits =>
    cases Option.some.inj taken
    exact inv_signIn inv limits
  | setUp limits password =>
    cases Option.some.inj taken
    exact inv_setUp inv limits password rfl
  | stepUp limits old password =>
    obtain ⟨known, taken⟩ := Option.ite_none_right_eq_some.mp taken
    obtain ⟨a, found, rfl⟩ := Option.map_eq_some_iff.mp taken
    obtain ⟨there, rfl⟩ := Table.find_mem found
    exact inv_stepUp inv limits password there known rfl
  | cached f =>
    obtain ⟨listed, taken⟩ := Option.ite_none_right_eq_some.mp taken
    cases Option.some.inj taken
    exact inv_cached inv listed
  | sent id =>
    obtain ⟨listed, taken⟩ := Option.ite_none_right_eq_some.mp taken
    cases Option.some.inj taken
    exact inv_sent inv listed
  | revoke id =>
    obtain ⟨known, taken⟩ := Option.ite_none_right_eq_some.mp taken
    cases Option.some.inj taken
    exact inv_revoked inv known (inv.sessions.revokeAdmin s.sessions.now id) (later_revokeAdmin s.sessions id)
  | endStepUp id =>
    obtain ⟨known, taken⟩ := Option.ite_none_right_eq_some.mp taken
    cases Option.some.inj taken
    exact inv_revoked inv known (inv.sessions.revokeElevated s.sessions.now id) (later_revoke s.sessions id)
  | deleted ids =>
    obtain ⟨_, taken⟩ := Option.ite_none_right_eq_some.mp taken
    cases Option.some.inj taken
    exact inv_deleted inv ids
  | resolve limits id =>
    cases Option.some.inj taken
    exact inv.unended (inv.sessions.seen fun _ =>
      ⟨rfl, rfl⟩) (later_of_elevated rfl (Nat.le_refl _) (Int.le_refl _))
  | look id =>
    obtain ⟨_, taken⟩ := Option.ite_none_right_eq_some.mp taken
    obtain ⟨e, found, rfl⟩ := Option.map_eq_some_iff.mp taken
    exact inv_look inv found
  | read e lookedAt =>
    by_cases listed : .read e lookedAt ∈ s.pending
    · exact inv_read inv listed taken
    · change (if _ then _ else none) = some s' at taken
      rw [if_neg listed] at taken
      cases taken
  | record limits e =>
    by_cases may : .active e ∈ s.pending ∧ e ∈ s.sessions.held
    · exact inv_record inv may.1 may.2 taken
    · change (if _ then _ else none) = some s' at taken
      rw [if_neg may] at taken
      cases taken
  | unrecorded e =>
    obtain ⟨listed, taken⟩ := Option.ite_none_right_eq_some.mp taken
    cases Option.some.inj taken
    exact inv_unrecorded inv listed
  | extended id idleExpiresAt =>
    obtain ⟨listed, taken⟩ := Option.ite_none_right_eq_some.mp taken
    cases Option.some.inj taken
    exact inv_extended inv listed
  | sweep =>
    cases Option.some.inj taken
    exact inv.recached (tidy_evictEach _ inv.cache).1
  | stop =>
    cases Option.some.inj taken
    exact inv.recached (tidy_evictEach _ inv.cache).1
  | apiStart =>
    cases Option.some.inj taken
    exact inv_apiStart inv

theorem inv_step (inv : s.Inv) (taken : stepUps.step s c = some s') : s'.Inv := by
  change (if _ then none else _) = some s' at taken
  split at taken
  next => cases taken
  next onTime => exact inv_act (inv.wait (Int.not_lt.mp onTime)) taken

theorem inv_start (init : stepUps.init s) : s.Inv := by
  obtain ⟨now, rfl⟩ := init
  exact {
    sessions := Sessions.State.inv_empty now
    proved := List.nodup_nil
    proved_lt := by simp
    known_lt := by simp
    sending_lt := by simp
    cache := tidy_empty
    apart := List.nodup_nil
    begun := by simp
    pending := by simp
    uses := by simp }

theorem inv_reach (reach : stepUps.Reachable s) : s.Inv :=
  reach.invariant (fun _ => inv_start) fun _ _ _ _ inv _ taken => inv_step inv taken

/-- A password still in the cache's memory belongs to a session, which is open or about to lose it,
and is cached until that session's end at the latest. -/
def State.CachedUntil (s : State) (ends : ElevatedSession → Int) : Prop :=
  ∀ i b, s.cache.buffers[i]? = some b → ¬b.Wiped → ∃ row ∈ s.sessions.elevated, ∃ entry, row.id = b.of ∧
    Assoc.get s.cache.entries row.id = some entry ∧ entry.password = i ∧ entry.expiresAt ≤ ends row ∧
      (row.revokedAt = none ∨ s.Deleting row.id)

/-- A sweep leaves none of a session that has ended. -/
def State.SweepsEnded (s : State) (ends : ElevatedSession → Int) : Prop :=
  ∀ time s', stepUps.step s ⟨time, .sweep⟩ = some s' → ∀ b ∈ s'.cache.buffers, ¬b.Wiped →
    ∃ row ∈ s'.sessions.elevated, row.id = b.of ∧ time < ends row

theorem cachedUntil_absolute (inv : s.Inv) : s.CachedUntil (·.absoluteExpiresAt) := by
  intro i b has unwiped
  rcases inv.cache.wiped i b has with zeros | ⟨entry, got, rfl⟩
  · exact absurd zeros unwiped
  · obtain ⟨_, _, _, _, row, member, its, ends, isOpen⟩ := inv.cache.own b.of entry got
    exact ⟨row, member, entry, its, its ▸ got, rfl, ends, its ▸ isOpen⟩

/-- A sweep leaves no buffer of an ended session unwiped. -/
theorem swept (inv : s.Inv) {ends : ElevatedSession → Int} {time : Int}
    (taken : stepUps.step s ⟨time, .sweep⟩ = some s')
    (cached : s'.CachedUntil ends) {b : Buffer} (member : b ∈ s'.cache.buffers) (unwiped : ¬b.Wiped) :
    ∃ row ∈ s'.sessions.elevated, row.id = b.of ∧ time < ends row := by
  obtain ⟨i, has⟩ := List.mem_iff_getElem?.mp member
  obtain ⟨row, listed, entry, its, got, _, within, _⟩ := cached i b has unwiped
  refine ⟨row, listed, its, ?_⟩
  change (if _ then none else _) = some s' at taken
  split at taken
  next => cases taken
  next =>
    cases Option.some.inj taken
    have stays := (tidy_evictEach _ inv.cache).2 row.id entry got
    have later : time < entry.expiresAt := by simpa using stays
    omega

/-- As the process ends, none is left. -/
theorem stopped (inv : s.Inv) {time : Int} (taken : stepUps.step s ⟨time, .stop⟩ = some s') {b : Buffer}
    (member : b ∈ s'.cache.buffers) : b.Wiped := by
  by_contra unwiped
  obtain ⟨i, has⟩ := List.mem_iff_getElem?.mp member
  obtain ⟨row, _, entry, _, got, _⟩ := cachedUntil_absolute (inv_step inv taken) i b has unwiped
  change (if _ then none else _) = some s' at taken
  split at taken
  next => cases taken
  next =>
    cases Option.some.inj taken
    have stays := (tidy_evictEach _ inv.cache).2 row.id entry got
    cases stays

end
end OpenAduc.StepUps
