import OpenAduc.HeldPasswords.Store

namespace OpenAduc.HeldPasswords
open Naming (Text text unit decimal)
open Secrets (Gcm Key Iv encrypt decrypt bytesOfAad decrypt_encrypt)

/-- What the passwords are held for, with nothing encrypted: for each row of a job, or all of them,
a password and until when; what the jobs gave their one download, and what runs were given. -/
structure Vault where
  now : Int
  holds : Nat → Option Nat → Option (Text × Int)
  taken : List (Nat × (Option Nat → Option Text))
  given : List (Nat × Nat × Option Text)

namespace Vault

/-- A password that is still held then. -/
def live (v : Vault) (now : Int) (jobId : Nat) (rowId : Option Nat) : Option Text :=
  ((v.holds jobId rowId).filter fun held => now < held.2).map Prod.fst

inductive Event
  | tick (ms : Nat)
  | hold (jobId : Nat) (rowId : Option Nat) (password : Text)
  | read (jobId rowId : Nat)
  | finish (jobId : Nat)
  | purge
  | discard (jobId : Nat)
  | take (jobId : Nat) (now : Int)

def forget (v : Vault) (jobId : Nat) : Vault :=
  { v with holds := fun j r => if j = jobId then none else v.holds j r }

def step (v : Vault) : Event → Option Vault
  | .tick ms => some { v with now := v.now + ms }
  | .hold jobId rowId password =>
    some { v with holds := fun j r => if j = jobId ∧ r = rowId then some (password, heldUntil v.now)
      else v.holds j r }
  | .read jobId rowId =>
    some { v with given :=
      v.given ++ [(jobId, rowId, (v.live v.now jobId (some rowId)).or (v.live v.now jobId none))] }
  | .finish jobId =>
    some { v with
      holds := fun j r =>
        (v.holds j r).map fun held => if j = jobId ∧ v.now < held.2 then (held.1, heldUntil v.now) else held }
  | .purge => some { v with holds := fun j r => (v.holds j r).filter fun held => v.now < held.2 }
  | .discard jobId => some (v.forget jobId)
  | .take jobId now =>
    if jobId ∈ v.taken.map Prod.fst then none
    else some { v.forget jobId with taken := v.taken ++ [(jobId, v.live now jobId)] }

end Vault

/-- The vault, empty. -/
def vault : Transition.System Vault Vault.Event where
  init v := v.holds = (fun _ _ => none) ∧ v.taken = [] ∧ v.given = []
  step := Vault.step

def TakenPasswords.gives (taken : TakenPasswords) : Option Nat → Option Text
  | none => taken.shared
  | some rowId => Assoc.get taken.byRow rowId

def HeldPassword.key (h : HeldPassword) : Nat × Option Nat := (h.jobId, h.rowId)

/-- Rows and jobs are numbered apart, and a password is a row's own or its job's. -/
structure State.Sound (s : State) : Prop where
  rows : Table.Keyed Row.id s.rows
  rows_lt : ∀ r ∈ s.rows, r.id < s.nextRow
  jobs : Table.Keyed Job.id s.jobs
  jobs_lt : ∀ j ∈ s.jobs, j.id < s.nextJob
  held : Table.Keyed HeldPassword.key s.held
  owned : ∀ h ∈ s.held, ∀ r, h.rowId = some r → { id := r, jobId := h.jobId } ∈ s.rows
  /-- A job that has handed its passwords out is marked. -/
  marked : ∀ d ∈ s.downloads, ∀ taken, d.gave = .ok taken →
    d.jobId < s.nextJob ∧ ∀ j ∈ s.jobs, j.id = d.jobId → j.resultsDownloadedAt ≠ none

section
variable {aes : Key → Gcm} {key : Key} {s s' : State} {v : Vault} {a : Action} {jobId jobId' : Nat}
    {rowId rowId' : Option Nat}
  {password : Text} {iv : Iv} {now : Int}

/-- The record a password replaces is the one of its own row and job. -/
theorem conflicts_iff (sound : s.Sound)
    (own : ∀ r, rowId = some r → { id := r, jobId := jobId } ∈ s.rows) {h : HeldPassword}
    (member : h ∈ s.held) : Conflicts jobId rowId h ↔ h.key = (jobId, rowId) := by
  unfold Conflicts HeldPassword.key
  rw [Prod.mk.injEq]
  constructor
  · rintro ⟨sameRow, sameJob⟩
    refine ⟨?_, sameRow⟩
    cases which : rowId with
    | none => exact sameJob which
    | some r =>
      have rowOf := sound.owned h member r (sameRow.trans which)
      have rowOf' := own r which
      exact congrArg Row.jobId (sound.rows.eq_of_key rowOf rowOf' rfl)
  · rintro ⟨rfl, rfl⟩
    exact ⟨rfl, fun _ => rfl⟩

/-- The record a password is held in, by its row and job. -/
def State.at_ (s : State) (jobId : Nat) (rowId : Option Nat) : Option HeldPassword :=
  Table.find HeldPassword.key (jobId, rowId) s.held

theorem at_some {h : HeldPassword} (found : s.at_ jobId rowId = some h) :
    h ∈ s.held ∧ h.jobId = jobId ∧ h.rowId = rowId := by
  obtain ⟨member, same⟩ := Table.find_mem found
  exact ⟨member, congrArg Prod.fst same, congrArg Prod.snd same⟩

/-- Holding a password gives its row's record the new ciphertext and end, and leaves the others alone. -/
theorem at_holdPassword (sound : s.Sound) (own : ∀ r, rowId = some r → { id := r, jobId := jobId } ∈ s.rows) :
    (holdPassword aes key s jobId rowId password iv).at_ jobId' rowId' =
      if jobId' = jobId ∧ rowId' = rowId then
        some {
          jobId
          rowId
          passwordEnc := encrypt aes key iv password (some (bindingOf jobId rowId))
          expiresAt := heldUntil s.now }
      else s.at_ jobId' rowId' := by
  unfold State.at_ holdPassword
  dsimp only
  split
  next replaced =>
    obtain ⟨h, member, isIt⟩ := List.any_eq_true.mp replaced
    have keyOf := (conflicts_iff sound own member).mp (of_decide_eq_true isIt)
    have kept : ∀ h, Conflicts jobId rowId h →
        ({ h with
          passwordEnc := encrypt aes key iv password (some (bindingOf jobId rowId))
          expiresAt := heldUntil s.now } : HeldPassword).key = h.key := fun _ _ => rfl
    rw [Table.find_update kept]
    by_cases asked : jobId' = jobId ∧ rowId' = rowId
    · obtain ⟨rfl, rfl⟩ := asked
      have found : Table.find HeldPassword.key (jobId', rowId') s.held = some h :=
        keyOf ▸ sound.held.find_eq member
      have sameJob : h.jobId = jobId' := congrArg Prod.fst keyOf
      have sameRow : h.rowId = rowId' := congrArg Prod.snd keyOf
      rw [found, Option.map_some, if_pos (of_decide_eq_true isIt), if_pos ⟨rfl, rfl⟩, sameJob, sameRow]
    · rw [if_neg asked]
      cases found : Table.find HeldPassword.key (jobId', rowId') s.held with
      | none => rfl
      | some g =>
        obtain ⟨memberG, keyG⟩ := Table.find_mem found
        have apart : ¬Conflicts jobId rowId g := by
          rw [conflicts_iff sound own memberG, keyG, Prod.mk.injEq]
          exact asked
        rw [Option.map_some, if_neg apart]
  next absent =>
    rw [Table.find_append]
    by_cases asked : jobId' = jobId ∧ rowId' = rowId
    · obtain ⟨rfl, rfl⟩ := asked
      have missing : Table.find HeldPassword.key (jobId', rowId') s.held = none := by
        cases found : Table.find HeldPassword.key (jobId', rowId') s.held with
        | none => rfl
        | some g =>
          obtain ⟨memberG, keyG⟩ := Table.find_mem found
          exact absurd (List.any_eq_true.mpr
            ⟨g, memberG, decide_eq_true ((conflicts_iff sound own memberG).mpr keyG)⟩) absent
      rw [missing, if_pos ⟨rfl, rfl⟩]
      simp [Table.find, HeldPassword.key]
    · have other : ¬(jobId = jobId' ∧ rowId = rowId') := fun same => asked ⟨same.1.symm, same.2.symm⟩
      rw [if_neg asked]
      simp [Table.find, HeldPassword.key, other]

theorem at_delete {cond : HeldPassword → Prop} [DecidablePred cond] (sound : s.Sound) :
    Table.find HeldPassword.key (jobId, rowId) (Table.delete cond s.held) =
      (s.at_ jobId rowId).filter fun h => ¬cond h :=
  sound.held.find_delete

theorem keyed_holdPassword (sound : s.Sound)
    (own : ∀ r, rowId = some r → { id := r, jobId := jobId } ∈ s.rows) :
    Table.Keyed HeldPassword.key (holdPassword aes key s jobId rowId password iv).held := by
  unfold holdPassword
  dsimp only
  split
  next => exact sound.held.update fun _ _ => rfl
  next absent =>
    refine sound.held.append (List.nodup_singleton _) fun h member added isNew same => absent ?_
    cases List.mem_singleton.mp isNew
    exact List.any_eq_true.mpr ⟨h, member, decide_eq_true ((conflicts_iff sound own member).mpr same)⟩

/-- A password held replaces the row's own, and leaves the others. -/
theorem mem_holdPassword (sound : s.Sound)
    (own : ∀ r, rowId = some r → { id := r, jobId := jobId } ∈ s.rows) {h : HeldPassword}
    (member : h ∈ (holdPassword aes key s jobId rowId password iv).held) :
    h.key = (jobId, rowId) ∧ h.passwordEnc =
      encrypt aes key iv password (some (bindingOf jobId rowId)) ∨ h ∈ s.held := by
  unfold holdPassword at member
  dsimp only at member
  split at member
  next =>
    obtain ⟨g, memberG, rfl⟩ := Table.mem_update.mp member
    split
    next conflicts => exact .inl ⟨(conflicts_iff sound own memberG).mp conflicts, rfl⟩
    next => exact .inr memberG
  next =>
    rcases List.mem_append.mp member with old | added
    · exact .inr old
    · cases List.mem_singleton.mp added
      exact .inl ⟨rfl, rfl⟩

theorem sound_holdPassword (sound : s.Sound)
    (own : ∀ r, rowId = some r → { id := r, jobId := jobId } ∈ s.rows) :
    (holdPassword aes key s jobId rowId password iv).Sound := by
  refine { sound with held := keyed_holdPassword sound own, owned := fun h member r isRow => ?_ }
  rcases mem_holdPassword sound own member with ⟨keyOf, _⟩ | old
  · have sameJob : h.jobId = jobId := congrArg Prod.fst keyOf
    have sameRow : h.rowId = rowId := congrArg Prod.snd keyOf
    exact sameJob ▸ own r (sameRow ▸ isRow)
  · exact sound.owned h old r isRow

/-- Rows of a new job are its own. -/
theorem sound_stored (sound : s.Sound) (rows : Nat) :
    ({ s with
      nextJob := s.nextJob + 1
      nextRow := s.nextRow + rows
      jobs := s.jobs ++ [{ id := s.nextJob, resultsDownloadedAt := none }]
      rows := s.rows ++ (List.range rows).map fun i =>
        { id := s.nextRow + i, jobId := s.nextJob } } : State).Sound := by
  refine ⟨sound.rows.append ?_ ?_, ?_, sound.jobs.append (List.nodup_singleton _) ?_, ?_, sound.held, ?_, ?_⟩
  · rw [Table.Keyed, List.map_map]
    refine List.Nodup.map (fun i j same => ?_) List.nodup_range
    exact Nat.add_left_cancel same
  · intro r member added isNew same
    obtain ⟨i, _, rfl⟩ := List.mem_map.mp isNew
    have below := sound.rows_lt r member
    have value : r.id = s.nextRow + i := same
    omega
  · intro r member
    change r.id < s.nextRow + rows
    rcases List.mem_append.mp member with old | added
    · have below := sound.rows_lt r old
      omega
    · obtain ⟨i, inside, rfl⟩ := List.mem_map.mp added
      have below := List.mem_range.mp inside
      change s.nextRow + i < s.nextRow + rows
      omega
  · intro j member added isNew same
    cases List.mem_singleton.mp isNew
    exact absurd same (Nat.ne_of_lt (sound.jobs_lt j member))
  · intro j member
    rcases List.mem_append.mp member with old | added
    · exact Nat.lt_succ_of_lt (sound.jobs_lt j old)
    · cases List.mem_singleton.mp added
      exact Nat.lt_succ_self _
  · intro h member r isRow
    exact List.mem_append_left _ (sound.owned h member r isRow)
  · intro d member taken gave
    obtain ⟨below, isMarked⟩ := sound.marked d member taken gave
    refine ⟨Nat.lt_succ_of_lt below, fun j memberJ same => ?_⟩
    rcases List.mem_append.mp memberJ with old | added
    · exact isMarked j old same
    · cases List.mem_singleton.mp added
      exact absurd same.symm (Nat.ne_of_lt below)

/-- A download hands the passwords out, or fails with nothing changed. -/
theorem takePasswords_cases {audited : Bool} (taken : takePasswords aes key s jobId now audited = some s') :
    (∃ j ∈ s.jobs, j.id = jobId ∧ j.resultsDownloadedAt = none) ∧
      ((∃ e, takeAll aes key jobId now (s.held.filter (·.jobId = jobId)) = .error e ∧
          s' = { s with downloads := s.downloads ++ [{ jobId, gave := .error e }] }) ∨
        ∃ got, takeAll aes key jobId now (s.held.filter (·.jobId = jobId)) = .ok got ∧
          s' = { s with
            jobs := Table.update (·.id = jobId) (fun j => { j with resultsDownloadedAt := some s.now }) s.jobs
            held := Table.delete (·.jobId = jobId) s.held
            downloads := s.downloads ++ [{ jobId, gave := .ok got }] }) := by
  unfold takePasswords at taken
  split at taken
  next unmarked =>
    obtain ⟨j, member, isIt⟩ := List.any_eq_true.mp unmarked
    refine ⟨⟨j, member, by simpa using isIt⟩, ?_⟩
    split at taken
    next e failed => exact .inl ⟨e, failed, (Option.some.inj taken).symm⟩
    next got gave =>
      split at taken
      next => exact .inr ⟨got, gave, (Option.some.inj taken).symm⟩
      next => cases taken
  next => cases taken

theorem mem_rows {rowId : Nat} (has : (s.rows.any fun r => r.id = rowId ∧ r.jobId = jobId) = true) :
    { id := rowId, jobId := jobId } ∈ s.rows := by
  obtain ⟨r, member, same⟩ := List.any_eq_true.mp has
  obtain ⟨rfl, rfl⟩ : r.id = rowId ∧ r.jobId = jobId := by simpa using same
  exact member

/-- A download leaves the tables sound. -/
theorem sound_take {audited : Bool} (sound : s.Sound)
    (taken : takePasswords aes key s jobId now audited = some s') : s'.Sound := by
  obtain ⟨⟨j, memberJ, sameJ, _⟩, ⟨e, _, rfl⟩ | ⟨got, _, rfl⟩⟩ := takePasswords_cases taken
  · refine { sound with marked := fun d member given gave => ?_ }
    rcases List.mem_append.mp member with old | added
    · exact sound.marked d old given gave
    · cases List.mem_singleton.mp added
      cases gave
  · have jobsKept : ∀ j : Job, j.id = jobId →
      ({ j with resultsDownloadedAt := some s.now } : Job).id = j.id := fun _ _ => rfl
    refine ⟨sound.rows, sound.rows_lt, sound.jobs.update jobsKept, ?_, sound.held.delete, ?_, ?_⟩
    · exact Table.forall_update.mpr fun j member =>
        ⟨fun _ => sound.jobs_lt j member, fun _ => sound.jobs_lt j member⟩
    · intro h member r isRow
      exact sound.owned h (Table.mem_delete.mp member).1 r isRow
    · intro d member given gave
      rcases List.mem_append.mp member with old | added
      · obtain ⟨below, isMarked⟩ := sound.marked d old given gave
        refine ⟨below, Table.forall_update.mpr fun j memberOld =>
          ⟨fun _ _ => Option.some_ne_none _, fun _ => isMarked j memberOld⟩⟩
      · cases List.mem_singleton.mp added
        refine ⟨sameJ ▸ sound.jobs_lt j memberJ, Table.forall_update.mpr fun j _ =>
          ⟨fun _ _ => Option.some_ne_none _, fun other same => ?_⟩⟩
        exact absurd same other

/-- Every step leaves the tables sound. -/
theorem sound_step (sound : s.Sound) (taken : s.step aes key a = some s') : s'.Sound := by
  cases a with
  | tick ms =>
    cases Option.some.inj taken
    exact { sound with }
  | insert rows secret iv =>
    cases Option.some.inj taken
    cases secret with
    | none => exact sound_stored sound rows
    | some password => exact sound_holdPassword (sound_stored sound rows) (by simp)
  | discard jobId =>
    cases Option.some.inj taken
    refine ⟨sound.rows.delete, fun r member => sound.rows_lt r (Table.mem_delete.mp member).1,
      sound.jobs.delete,
      fun j member => sound.jobs_lt j (Table.mem_delete.mp member).1, sound.held.delete, ?_, ?_⟩
    · intro h member r isRow
      obtain ⟨old, other⟩ := Table.mem_delete.mp member
      exact Table.mem_delete.mpr ⟨sound.owned h old r isRow, other⟩
    · intro d member given gave
      obtain ⟨below, isMarked⟩ := sound.marked d member given gave
      exact ⟨below, fun j memberJ => isMarked j (Table.mem_delete.mp memberJ).1⟩
  | hold jobId rowId password iv =>
    obtain ⟨has, taken⟩ := Option.ite_none_right_eq_some.mp taken
    cases Option.some.inj taken
    refine sound_holdPassword sound fun r same => ?_
    cases same
    exact mem_rows has
  | read jobId rowId =>
    cases Option.some.inj taken
    exact { sound with }
  | finish jobId =>
    cases Option.some.inj taken
    refine { sound with held := sound.held.update fun _ _ => rfl, owned := ?_ }
    exact Table.forall_update.mpr fun h member =>
      ⟨fun _ => sound.owned h member, fun _ => sound.owned h member⟩
  | purge =>
    cases Option.some.inj taken
    exact { sound with
      held := sound.held.delete
      owned := fun h member => sound.owned h (Table.mem_delete.mp member).1 }
  | download jobId now audited => exact sound_take sound taken
  | encryptOther secret pass iv =>
    cases Option.some.inj taken
    exact { sound with }
  | tamper jobId rowId passwordEnc =>
    obtain ⟨_, taken⟩ := Option.ite_none_right_eq_some.mp taken
    cases Option.some.inj taken
    refine { sound with held := sound.held.update fun _ _ => rfl, owned := ?_ }
    exact Table.forall_update.mpr fun h member =>
      ⟨fun _ => sound.owned h member, fun _ => sound.owned h member⟩

theorem sound_init (init : (heldPasswords aes key).init s) : s.Sound := by
  obtain ⟨jobs, rows, held, _, _, _, downloads⟩ := init
  refine ⟨?_, ?_, ?_, ?_, ?_, ?_, ?_⟩
  · rw [rows]
    exact List.nodup_nil
  · simp [rows]
  · rw [jobs]
    exact List.nodup_nil
  · simp [jobs]
  · rw [held]
    exact List.nodup_nil
  · simp [held]
  · simp [downloads]

theorem sound_reach {meets : State → Action → Prop}
    (reach : (heldPasswords aes key).Reach meets s) : s.Sound :=
  reach.invariant (fun _ => sound_init) fun _ _ _ _ sound _ taken => sound_step sound taken

end
end OpenAduc.HeldPasswords
