import OpenAduc.StepUps.Service

namespace OpenAduc.StepUps
open Naming (Text)
open Sessions (ElevatedSession AdminSession Limits earlier earlier_le_right)

/-- One row at two times. -/
structure Same (row' row : ElevatedSession) : Prop where
  id : row'.id = row.id
  adminSessionId : row'.adminSessionId = row.adminSessionId
  absoluteExpiresAt : row'.absoluteExpiresAt = row.absoluteExpiresAt

/-- Rows stay; one that is revoked then is of those given, and was open. -/
structure Later (revokes : ElevatedSession → Prop) (s t : Sessions.State) : Prop where
  rows : ∀ row ∈ s.elevated, ∃ row' ∈ t.elevated, Same row' row ∧
    (row'.revokedAt = row.revokedAt ∨ revokes row ∧ row.revokedAt = none ∧ row'.revokedAt = some s.now)
  nextId : s.nextId ≤ t.nextId
  now : s.now ≤ t.now

section
variable {revokes : ElevatedSession → Prop} {s t u : Sessions.State} {limits : Limits} {now : Int}
    {id : Nat} {notAfter : Option Int}

theorem later_append {more : List ElevatedSession} (elevated : t.elevated = s.elevated ++ more)
    (nextId : s.nextId ≤ t.nextId)
    (now : s.now ≤ t.now) : Later revokes s t :=
  ⟨fun row member => ⟨row, elevated ▸ List.mem_append_left _ member, ⟨rfl, rfl, rfl⟩, .inl rfl⟩, nextId, now⟩

theorem later_of_elevated (elevated : t.elevated = s.elevated) (nextId : s.nextId ≤ t.nextId)
    (now : s.now ≤ t.now) :
    Later revokes s t :=
  later_append (elevated.trans (List.append_nil _).symm) nextId now

theorem later_refl (s : Sessions.State) : Later (fun _ => False) s s :=
  later_of_elevated rfl (Nat.le_refl _) (Int.le_refl _)

/-- Rows a sign-in session's end revokes. -/
theorem later_revoke (s : Sessions.State) (id : Nat) :
    Later (fun row => row.adminSessionId = id) s (s.revokeElevatedSessionsForAdmin s.now id) := by
  refine ⟨fun row member => ?_, Nat.le_refl _, Int.le_refl _⟩
  by_cases isOpen : row.Open id
  · exact ⟨_, Table.mem_update.mpr ⟨row, member, if_pos isOpen⟩, ⟨rfl, rfl, rfl⟩,
      .inr ⟨isOpen.1, isOpen.2, rfl⟩⟩
  · exact ⟨row, Table.mem_update.mpr ⟨row, member, if_neg isOpen⟩, ⟨rfl, rfl, rfl⟩, .inl rfl⟩

theorem later_revokeAdmin (s : Sessions.State) (id : Nat) :
    Later (fun row => row.adminSessionId = id) s (s.revokeAdminSession s.now id) := by
  have ended := later_revoke { s with
    admin := Table.update (fun a => a.id = id ∧ a.revokedAt = none)
      (fun a => { a with revokedAt := some s.now }) s.admin } id
  exact ⟨ended.rows, ended.nextId, ended.now⟩

theorem later_elevate (notAfter : Option Int) : Later revokes s (State.elevate s limits now notAfter).2 :=
  later_append rfl (by simp only [State.elevate, Sessions.State.createElevatedSession,
    Sessions.State.createAdminSession]; omega) (Int.le_refl _)

theorem later_rotate (s : Sessions.State) (limits : Limits) (a : AdminSession) :
    Later (fun row => row.adminSessionId = a.id) s (s.rotateAndElevate limits s.now a) := by
  have made : Later (fun row => row.adminSessionId = a.id) s
    (State.elevate s limits s.now (some a.expiresAt)).2 := later_elevate _
  have ended := later_revokeAdmin (State.elevate s limits s.now (some a.expiresAt)).2 a.id
  refine ⟨fun row member => ?_, Nat.le_trans made.nextId ended.nextId, Int.le_refl _⟩
  exact ended.rows row (List.mem_append_left _ member)

/-- Recording activity revokes nothing and moves no absolute end. -/
theorem later_record (s : Sessions.State) (limits : Limits) (e : ElevatedSession) :
    Later revokes s (s.recordElevatedActivity limits s.now e).2 := by
  unfold Sessions.State.recordElevatedActivity
  dsimp only
  split
  next => exact later_of_elevated rfl (Nat.le_refl _) (Int.le_refl _)
  next =>
    split
    next => exact later_of_elevated rfl (Nat.le_refl _) (Int.le_refl _)
    next row found =>
      refine ⟨fun row member => ?_, Nat.le_refl _, Int.le_refl _⟩
      refine ⟨_, Table.mem_update.mpr ⟨row, member, rfl⟩, ?_, ?_⟩
      · split <;> exact ⟨rfl, rfl, rfl⟩
      · split <;> exact .inl rfl

end

/-- Its password is about to go. -/
def State.Deleting (s : State) (id : Nat) : Prop :=
  (∃ ids, .delete ids ∈ s.pending ∧ id ∈ ids) ∨ ∃ e ∈ s.elevating, id ∈ e.revoked

/-- What is so of a cached password: it is the one its session was made with, it ends no later than
that does, and the session is open or the password is about to go. -/
def State.Kept (s : State) (id : Nat) (expiresAt : Int) (bytes : List UInt8) : Prop :=
  (∃ p, (id, p) ∈ s.proved ∧ bytes = Utf8.encode p) ∧
    ∃ row ∈ s.sessions.elevated, row.id = id ∧ expiresAt ≤ row.absoluteExpiresAt ∧
      (row.revokedAt = none ∨ s.Deleting id)

/-- A session as something under way holds it. -/
def State.Holds (s : State) (e : ElevatedSession) : Prop :=
  e.idleExpiresAt ≤ e.absoluteExpiresAt ∧ ∃ row ∈ s.sessions.elevated, Same e row

def State.Fits (s : State) : Pending → Prop
  | .read e lookedAt =>
    e.idleExpiresAt ≤ e.absoluteExpiresAt ∧ lookedAt ≤ s.sessions.now ∧
      ∃ row ∈ s.sessions.elevated, Same e row ∧ ∀ t, row.revokedAt = some t → lookedAt ≤ t
  | .active e => s.Holds e
  | .extend id idleExpiresAt =>
    ∃ row ∈ s.sessions.elevated, row.id = id ∧ idleExpiresAt ≤ row.absoluteExpiresAt
  | .delete _ => True

/-- A step-up whose password is still to be cached: its sessions are nobody's yet, so nobody has
revoked them. -/
structure State.Begun (s : State) (e : Elevating) : Prop where
  proved : (e.elevated.id, e.password) ∈ s.proved
  unknown : e.elevated.adminSessionId ∉ s.known
  unsent : e.elevated.adminSessionId ∉ s.sending
  fresh : e.elevated.adminSessionId < s.sessions.nextId
  ends : e.elevated.idleExpiresAt ≤ e.elevated.absoluteExpiresAt
  row : ∃ row ∈ s.sessions.elevated, Same e.elevated row ∧ row.revokedAt = none

/-- A password read was the one its session was made with, before that ended, and when it was found
the session was open. -/
def State.Proper (s : State) (u : Use) : Prop :=
  (∃ p, (u.elevatedId, p) ∈ s.proved ∧ u.password = Utf8.decode (Utf8.encode p)) ∧
    u.lookedAt ≤ s.sessions.now ∧
    ∃ row ∈ s.sessions.elevated, row.id = u.elevatedId ∧ row.adminSessionId = u.adminSessionId ∧
      u.readAt < row.absoluteExpiresAt ∧
      ∀ t, row.revokedAt = some t → u.lookedAt ≤ t

structure State.Inv (s : State) : Prop where
  sessions : s.sessions.Inv
  proved : Table.Keyed Prod.fst s.proved
  proved_lt : ∀ x ∈ s.proved, x.1 < s.sessions.nextId
  known_lt : ∀ id ∈ s.known, id < s.sessions.nextId
  sending_lt : ∀ id ∈ s.sending, id < s.sessions.nextId
  cache : s.cache.Tidy s.Kept
  apart : Table.Keyed (fun e : Elevating => e.elevated.adminSessionId) s.elevating
  begun : ∀ e ∈ s.elevating, s.Begun e
  pending : ∀ p ∈ s.pending, s.Fits p
  uses : ∀ u ∈ s.uses, s.Proper u

section
variable {s s' : State} {t : Sessions.State} {revokes : ElevatedSession → Prop}
    {e : ElevatedSession} {now : Int} {c : Call}

theorem Same.trans {x y z : ElevatedSession} (first : Same x y) (second : Same y z) : Same x z :=
  ⟨first.id.trans second.id, first.adminSessionId.trans second.adminSessionId,
    first.absoluteExpiresAt.trans second.absoluteExpiresAt⟩

theorem Same.symm {x y : ElevatedSession} (same : Same x y) : Same y x :=
  ⟨same.id.symm, same.adminSessionId.symm, same.absoluteExpiresAt.symm⟩

/-- Rows later in a run are the same ones. -/
theorem holds_later (later : Later revokes s.sessions s'.sessions) (holds : s.Holds e) : s'.Holds e := by
  obtain ⟨ends, row, member, same⟩ := holds
  obtain ⟨row', member', same', _⟩ := later.rows row member
  exact ⟨ends, row', member', same.trans same'.symm⟩

theorem revoked_later {row row' : ElevatedSession} {at_ : Int} (before : at_ ≤ now)
    (changed : row'.revokedAt = row.revokedAt ∨ revokes row ∧ row.revokedAt = none ∧
      row'.revokedAt = some now)
    (after : ∀ t, row.revokedAt = some t → at_ ≤ t) : ∀ t, row'.revokedAt = some t → at_ ≤ t := by
  intro t is
  rcases changed with same | ⟨_, _, new⟩
  · exact after t (same ▸ is)
  · rw [new] at is
    cases is
    exact before

theorem fits_later (later : Later revokes s.sessions s'.sessions) {p : Pending} (fits : s.Fits p) :
    s'.Fits p := by
  cases p with
  | read e lookedAt =>
    obtain ⟨ends, before, row, member, same, after⟩ := fits
    obtain ⟨row', member', same', changed⟩ := later.rows row member
    exact ⟨ends, Int.le_trans before later.now, row', member', same.trans same'.symm,
      revoked_later before changed after⟩
  | active e => exact holds_later later fits
  | extend id idleExpiresAt =>
    obtain ⟨row, member, its, ends⟩ := fits
    obtain ⟨row', member', same', _⟩ := later.rows row member
    exact ⟨row', member', same'.id.trans its, same'.absoluteExpiresAt ▸ ends⟩
  | delete ids => trivial

theorem proper_later (later : Later revokes s.sessions s'.sessions)
    (proved : ∀ x ∈ s.proved, x ∈ s'.proved) {u : Use}
    (proper : s.Proper u) : s'.Proper u := by
  obtain ⟨⟨p, listed, is⟩, before, row, member, its, owner, inTime, after⟩ := proper
  obtain ⟨row', member', same', changed⟩ := later.rows row member
  refine ⟨⟨p, proved _ listed, is⟩, Int.le_trans before later.now, row', member',
    same'.id.trans its, same'.adminSessionId.trans owner, ?_, ?_⟩
  · exact same'.absoluteExpiresAt ▸ inTime
  · exact revoked_later before changed after

theorem begun_later (later : Later revokes s.sessions s'.sessions)
    (proved : ∀ x ∈ s.proved, x ∈ s'.proved) {e : Elevating}
    (unknown : e.elevated.adminSessionId ∉ s'.known) (unsent : e.elevated.adminSessionId ∉ s'.sending)
    (spared : ∀ row, row.adminSessionId = e.elevated.adminSessionId → ¬revokes row)
    (begun : s.Begun e) : s'.Begun e := by
  obtain ⟨row, member, same, isOpen⟩ := begun.row
  obtain ⟨row', member', same', changed⟩ := later.rows row member
  refine ⟨proved _ begun.proved, unknown, unsent, Nat.lt_of_lt_of_le begun.fresh later.nextId,
    begun.ends, row', member',
    same.trans same'.symm, ?_⟩
  rcases changed with stays | ⟨isOne, _, _⟩
  · exact stays.trans isOpen
  · exact absurd isOne (spared row same.adminSessionId.symm)

theorem kept_later (later : Later revokes s.sessions s'.sessions)
    (proved : ∀ x ∈ s.proved, x ∈ s'.proved) {id : Nat} {expiresAt : Int}
    {bytes : List UInt8} (deleting : s.Deleting id → s'.Deleting id)
    (revoked : ∀ row ∈ s.sessions.elevated, row.id = id → row.revokedAt = none → revokes row → s'.Deleting id)
    (kept : s.Kept id expiresAt bytes) : s'.Kept id expiresAt bytes := by
  obtain ⟨⟨p, listed, is⟩, row, member, its, ends, isOpen⟩ := kept
  obtain ⟨row', member', same', changed⟩ := later.rows row member
  refine ⟨⟨p, proved _ listed, is⟩, row', member', same'.id.trans its, same'.absoluteExpiresAt ▸ ends, ?_⟩
  rcases changed with stays | ⟨isOne, wasOpen, _⟩
  · exact isOpen.imp (fun none_ => stays.trans none_) deleting
  · exact .inr (revoked row member its wasOpen isOne)

/-- The sessions changed, with more under way. -/
def State.grow (s : State) (sessions : Sessions.State) (pending : List Pending) (elevating : List Elevating)
    (proved : List (Nat × Text)) (known : List Nat) : State :=
  { s with
    sessions
    pending := s.pending ++ pending
    elevating := s.elevating ++ elevating
    proved := s.proved ++ proved
    known := s.known ++ known }

/-- Whatever is revoked is about to go, and no step-up's own session is; what is new is numbered
after what was. -/
theorem State.Inv.grow (inv : s.Inv) (after : t.Inv) (later : Later revokes s.sessions t)
    {pending : List Pending}
    {elevating : List Elevating} {proved : List (Nat × Text)} {known : List Nat}
    (revoked : ∀ row ∈ s.sessions.elevated, row.revokedAt = none → revokes row →
      (∃ ids, .delete ids ∈ pending ∧ row.id ∈ ids) ∨ ∃ e ∈ elevating, row.id ∈ e.revoked)
    (spared : ∀ row, revokes row → row.adminSessionId ∈ s.known)
    (newProved : Table.Keyed Prod.fst proved ∧ ∀ x ∈ proved, s.sessions.nextId ≤ x.1 ∧ x.1 < t.nextId)
    (newKnown : ∀ id ∈ known, s.sessions.nextId ≤ id ∧ id < t.nextId)
    (newElevating : Table.Keyed (fun e : Elevating => e.elevated.adminSessionId) elevating ∧
      ∀ e ∈ elevating, s.sessions.nextId ≤ e.elevated.adminSessionId ∧
      (s.grow t pending elevating proved known).Begun e)
    (fits : ∀ p ∈ pending, (s.grow t pending elevating proved known).Fits p) :
    (s.grow t pending elevating proved known).Inv := by
  have later' : Later revokes s.sessions (s.grow t pending elevating proved known).sessions := later
  have kept : ∀ x ∈ s.proved, x ∈ (s.grow t pending elevating proved known).proved :=
    fun x member => List.mem_append_left _ member
  exact {
    sessions := after
    proved := inv.proved.append newProved.1 fun x member y isNew same => by
      have below := inv.proved_lt x member
      have above := (newProved.2 y isNew).1
      omega
    proved_lt := fun x member => by
      rcases List.mem_append.mp member with old | added
      · exact Nat.lt_of_lt_of_le (inv.proved_lt x old) later.nextId
      · exact (newProved.2 x added).2
    known_lt := fun id member => by
      rcases List.mem_append.mp member with old | added
      · exact Nat.lt_of_lt_of_le (inv.known_lt id old) later.nextId
      · exact (newKnown id added).2
    sending_lt := fun id member => Nat.lt_of_lt_of_le (inv.sending_lt id member) later.nextId
    cache := inv.cache.mono fun id e _ bytes holds => by
      refine kept_later later' kept ?_ ?_ holds
      · rintro (⟨ids, listed, isIn⟩ | ⟨e, listed, isIn⟩)
        · exact .inl ⟨ids, List.mem_append_left _ listed, isIn⟩
        · exact .inr ⟨e, List.mem_append_left _ listed, isIn⟩
      · rintro row member rfl wasOpen isOne
        rcases revoked row member wasOpen isOne with ⟨ids, listed, isIn⟩ | ⟨e, listed, isIn⟩
        · exact .inl ⟨ids, List.mem_append_right _ listed, isIn⟩
        · exact .inr ⟨e, List.mem_append_right _ listed, isIn⟩
    apart := inv.apart.append newElevating.1 fun e member f isNew same => by
      have below := (inv.begun e member).fresh
      have above := (newElevating.2 f isNew).1
      omega
    begun := fun e member => by
      rcases List.mem_append.mp member with old | added
      · have begun := inv.begun e old
        refine begun_later later' kept (fun listed => ?_) begun.unsent
          (fun row owner isOne => begun.unknown (owner ▸ spared row isOne)) begun
        rcases List.mem_append.mp listed with was | isNew
        · exact begun.unknown was
        · exact absurd begun.fresh (Nat.not_lt.mpr (newKnown _ isNew).1)
      · exact (newElevating.2 e added).2
    pending := fun p member => by
      rcases List.mem_append.mp member with old | added
      · exact fits_later later' (inv.pending p old)
      · exact fits p added
    uses := fun u member => proper_later later' kept (inv.uses u member) }

theorem grow_nothing : s.grow t [] [] [] [] = { s with sessions := t } := by simp [State.grow]

/-- The sessions changed, none of them ended. -/
theorem State.Inv.unended (inv : s.Inv) (after : t.Inv)
    (later : Later (fun _ => False) s.sessions t) : ({ s with sessions := t } : State).Inv :=
  grow_nothing ▸ inv.grow after later (fun _ _ _ isOne => isOne.elim) (fun _ isOne => isOne.elim)
    ⟨List.nodup_nil, by simp⟩ (by simp)
    ⟨List.nodup_nil, by simp⟩ (by simp)

theorem State.Inv.wait (inv : s.Inv) (order : s.sessions.now ≤ now) :
    ({ s with sessions := { s.sessions with now } } : State).Inv :=
  inv.unended (inv.sessions.wait order) (later_of_elevated rfl (Nat.le_refl _) order)

/-- Something under way done with: nothing was about to go by it. -/
theorem State.Inv.done (inv : s.Inv) {p : Pending} (other : ∀ ids, p ≠ .delete ids) :
    ({ s with pending := s.pending.erase p } : State).Inv := by
  refine { inv with cache := inv.cache.mono fun id e _ bytes kept => ?_, begun :=
    fun e member => ?_, pending := fun q member => ?_, uses := fun u member => ?_ }
  · obtain ⟨proved, row, member, its, ends, isOpen⟩ := kept
    refine ⟨proved, row, member, its, ends, isOpen.imp_right ?_⟩
    rintro (⟨ids, listed, isIn⟩ | rest)
    · exact .inl ⟨ids, (List.mem_erase_of_ne (other ids).symm).mpr listed, isIn⟩
    · exact .inr rest
  · exact { inv.begun e member with }
  · exact fits_later (later_refl _) (inv.pending q (List.mem_of_mem_erase member))
  · exact inv.uses u member

/-- More under way of what is already there. -/
theorem State.Inv.pend (inv : s.Inv) {p : Pending} (fits : s.Fits p) :
    ({ s with pending := s.pending ++ [p] } : State).Inv := by
  have same : s.grow s.sessions [p] [] [] [] = { s with pending := s.pending ++ [p] } := by simp [State.grow]
  refine same ▸ inv.grow inv.sessions (later_refl _) (fun _ _ _ isOne => isOne.elim)
    (fun _ isOne => isOne.elim)
    ⟨List.nodup_nil, by simp⟩ (by simp) ⟨List.nodup_nil, by simp⟩ fun q member => ?_
  cases List.mem_singleton.mp member
  exact fits_later (later_refl _) fits

/-- The cache changed. -/
theorem State.Inv.recached (inv : s.Inv) {cache : Cache} (tidy : cache.Tidy s.Kept) :
    ({ s with cache } : State).Inv :=
  { inv with cache := tidy, begun := fun e member =>
    { inv.begun e member with }, pending := inv.pending, uses := inv.uses }

end
end OpenAduc.StepUps
