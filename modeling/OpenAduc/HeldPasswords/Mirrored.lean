import OpenAduc.HeldPasswords.Vault

namespace OpenAduc.HeldPasswords
open Naming (Text text unit decimal)
open Secrets (Gcm Key Iv encrypt decrypt decrypt_own clearGcm clear_authentic clearKey firstIv)

section
variable (aes : Key → Gcm) (key : Key)

/-- What a record's ciphertext opens as, where it is. -/
def HeldPassword.opened (h : HeldPassword) : Except Text Text :=
  decrypt aes key h.passwordEnc (some (bindingOf h.jobId h.rowId))

/-- The password a record holds, where it opens. -/
def HeldPassword.password (h : HeldPassword) : Text :=
  match h.opened aes key with
  | .ok p => p
  | .error _ => []

/-- Everything the tables hold, read and handed out is what the vault has and gave: no more, no less
and nothing else. -/
structure Mirrors (s : State) (v : Vault) : Prop where
  now : v.now = s.now
  readable : ∀ h ∈ s.held, h.opened aes key = .ok (h.password aes key)
  holds : ∀ jobId rowId, v.holds jobId rowId = (s.at_ jobId rowId).map fun h =>
    (h.password aes key, h.expiresAt)
  taken : s.downloads.map (fun d => (d.jobId, d.gave.map TakenPasswords.gives)) =
    v.taken.map fun t => (t.1, .ok t.2)
  given : s.readings.map (fun r => (r.jobId, r.rowId, r.gave)) = v.given.map fun g => (g.1, g.2.1, .ok g.2.2)

/-- Nobody writes over the ciphertexts. -/
def Action.Honest : Action → Prop
  | .tamper .. => False
  | _ => True

/-- What an action is to the vault; a password is held as UTF-8 gives it back. -/
def State.events (s : State) : Action → List Vault.Event
  | .tick ms => [.tick ms]
  | .insert _ none _ | .encryptOther .. | .tamper .. => []
  | .insert _ (some password) _ => [.hold s.nextJob none (Utf8.decode (Utf8.encode password))]
  | .discard jobId => [.discard jobId]
  | .hold jobId rowId password _ => [.hold jobId (some rowId) (Utf8.decode (Utf8.encode password))]
  | .read jobId rowId => [.read jobId rowId]
  | .finish jobId => [.finish jobId]
  | .purge => [.purge]
  | .download jobId now _ => [.take jobId now]

end

section
variable {aes : Key → Gcm} {key : Key} {s s' : State} {v : Vault} {a : Action} {jobId rowId : Nat}
    {row row' : Option Nat}
  {password : Text} {iv : Iv} {now : Int} {h : HeldPassword}

theorem opened_encrypt (faithful : (aes key).Faithful) {expiresAt : Int} :
    HeldPassword.opened aes key
      ⟨jobId, row, encrypt aes key iv password (some (bindingOf jobId row)), expiresAt⟩ =
      .ok (Utf8.decode (Utf8.encode password)) :=
  decrypt_own faithful

theorem password_of_opened {p : Text} (opens : h.opened aes key = .ok p) : h.password aes key = p := by
  simp only [HeldPassword.password, opens]

theorem filter_live (expired : (s.at_ jobId row).filter (fun h => now < h.expiresAt) = some h) :
    h ∈ s.held ∧ h.jobId = jobId ∧ h.rowId = row ∧ now < h.expiresAt := by
  obtain ⟨found, inTime⟩ := Option.filter_eq_some_iff.mp expired
  obtain ⟨member, sameJob, sameRow⟩ := at_some found
  exact ⟨member, sameJob, sameRow, of_decide_eq_true inTime⟩

theorem live_eq (mirrors : Mirrors aes key s v) :
    v.live now jobId row = ((s.at_ jobId row).filter fun h => now < h.expiresAt).map
      (·.password aes key) := by
  unfold Vault.live
  rw [mirrors.holds]
  cases s.at_ jobId row with
  | none => rfl
  | some h =>
    rw [Option.map_some]
    by_cases inTime : now < h.expiresAt
    · rw [Option.filter_some_pos (by simpa using inTime), Option.filter_some_pos (by simpa using inTime)]
      rfl
    · rw [Option.filter_some_neg (by simpa using inTime), Option.filter_some_neg (by simpa using inTime)]
      rfl

/-- The record that gives a row its password: its own, else the job's one. -/
theorem own_or_shared (sound : s.Sound) :
    (((s.held.filter (Serves jobId rowId s.now ·)).find? (·.rowId.isSome)).or
      (s.held.filter (Serves jobId rowId s.now ·)).head?) =
      ((s.at_ jobId (some rowId)).filter fun h => s.now < h.expiresAt).or
        ((s.at_ jobId none).filter fun h => s.now < h.expiresAt) := by
  have own : (s.held.filter (Serves jobId rowId s.now ·)).find? (·.rowId.isSome) =
      (s.at_ jobId (some rowId)).filter fun h => s.now < h.expiresAt := by
    unfold State.at_
    rw [← sound.held.find_where, List.find?_filter]
    congr 1
    funext h
    rw [Bool.eq_iff_iff, decide_eq_true_iff, decide_eq_true_iff, decide_eq_true_iff,
      HeldPassword.key, Prod.mk.injEq]
    unfold Serves
    constructor
    · rintro ⟨⟨job, which | which, inTime⟩, isRow⟩
      · exact ⟨⟨job, which⟩, inTime⟩
      · rw [which] at isRow
        cases isRow
    · rintro ⟨⟨job, which⟩, inTime⟩
      exact ⟨⟨job, .inl which, inTime⟩, by rw [which]; rfl⟩
  rw [own, List.head?_filter]
  cases ownIs : (s.at_ jobId (some rowId)).filter fun h => s.now < h.expiresAt with
  | some h => rfl
  | none =>
    rw [Option.none_or, Option.none_or]
    unfold State.at_
    rw [← sound.held.find_where, ← List.head?_filter, ← List.head?_filter]
    refine congrArg List.head? (List.filter_congr fun h member => ?_)
    rw [Bool.eq_iff_iff, decide_eq_true_iff, decide_eq_true_iff, HeldPassword.key, Prod.mk.injEq]
    unfold Serves
    constructor
    · rintro ⟨job, which | which, inTime⟩
      · have found : s.at_ jobId (some rowId) = some h := by
          unfold State.at_
          rw [← job, ← which]
          exact sound.held.find_eq member
        rw [found, Option.filter_some_pos (by simpa using inTime)] at ownIs
        cases ownIs
      · exact ⟨⟨job, which⟩, inTime⟩
    · rintro ⟨⟨job, which⟩, inTime⟩
      exact ⟨job, .inr which, inTime⟩

/-- A row reads what the vault has for it, else for its job. -/
theorem heldPassword_eq (sound : s.Sound) (mirrors : Mirrors aes key s v) :
    heldPassword aes key s jobId rowId =
      .ok ((v.live v.now jobId (some rowId)).or (v.live v.now jobId none)) := by
  unfold heldPassword
  dsimp only
  rw [own_or_shared sound, live_eq mirrors, live_eq mirrors, mirrors.now]
  cases own : (s.at_ jobId (some rowId)).filter fun h => s.now < h.expiresAt with
  | some h =>
    obtain ⟨member, sameJob, _, _⟩ := filter_live own
    have opens := mirrors.readable h member
    unfold HeldPassword.opened at opens
    rw [sameJob] at opens
    simp only [Option.some_or, Option.map_some, opens, Except.map]
  | none =>
    cases all : (s.at_ jobId none).filter fun h => s.now < h.expiresAt with
    | some h =>
      obtain ⟨member, sameJob, _, _⟩ := filter_live all
      have opens := mirrors.readable h member
      unfold HeldPassword.opened at opens
      rw [sameJob] at opens
      simp only [Option.none_or, Option.map_none, Option.map_some, opens, Except.map]
    | none => rfl

theorem gives_put (taken : TakenPasswords) (p : Text) :
    (taken.put p row).gives row' = if row' = row then some p else taken.gives row' := by
  cases row with
  | none => cases row' <;> simp [TakenPasswords.put, TakenPasswords.gives]
  | some r => cases row' <;> simp [TakenPasswords.put, TakenPasswords.gives]

/-- What the records give when each opens: every unexpired one its password. -/
theorem takeAll_gives (held : List HeldPassword) (ofJob : ∀ h ∈ held, h.jobId = jobId)
    (keyed : Table.Keyed HeldPassword.rowId held)
    (readable : ∀ h ∈ held, h.opened aes key = .ok (h.password aes key)) (taken : TakenPasswords) :
    ∃ got, held.foldlM (takeOne aes key jobId now) taken = .ok got ∧
      ∀ r, got.gives r =
      (((Table.find HeldPassword.rowId r held).filter fun h => now < h.expiresAt).map (·.password aes key)).or
        (taken.gives r) := by
  induction held generalizing taken with
  | nil => exact ⟨taken, rfl, fun r => rfl⟩
  | cons h held ih =>
    have parts := List.nodup_cons.mp keyed
    have absent : Table.find HeldPassword.rowId h.rowId held = none := by
      refine List.find?_eq_none.mpr fun g member => ?_
      simp only [decide_eq_true_eq]
      exact fun same => parts.1 (same ▸ List.mem_map_of_mem member)
    have rest := ih (fun g member => ofJob g (List.mem_cons_of_mem _ member)) parts.2
      (fun g member => readable g (List.mem_cons_of_mem _ member))
    have own := readable h (List.mem_cons_self ..)
    unfold HeldPassword.opened at own
    rw [ofJob h (List.mem_cons_self ..)] at own
    have finds : ∀ r, Table.find HeldPassword.rowId r (h :: held) =
        if r = h.rowId then some h else Table.find HeldPassword.rowId r held := by
      intro r
      unfold Table.find
      rw [List.find?_cons]
      by_cases same : h.rowId = r
      · simp [same]
      · simp [same, Ne.symm same]
    by_cases expired : h.expiresAt ≤ now
    · obtain ⟨got, ran, gives⟩ := rest taken
      refine ⟨got, ?_, fun r => ?_⟩
      · rw [List.foldlM_cons, takeOne, if_pos expired]
        exact ran
      · rw [gives, finds]
        by_cases same : r = h.rowId
        · rw [if_pos same, same, absent, Option.filter_some_neg (by simpa using expired)]
          rfl
        · rw [if_neg same]
    · obtain ⟨got, ran, gives⟩ := rest (taken.put (h.password aes key) h.rowId)
      refine ⟨got, ?_, fun r => ?_⟩
      · rw [List.foldlM_cons, takeOne, if_neg expired, own]
        exact ran
      · rw [gives, finds, gives_put]
        by_cases same : r = h.rowId
        · rw [if_pos same, if_pos same, same, absent, Option.filter_some_pos (by simpa using expired)]
          rfl
        · rw [if_neg same, if_neg same]

theorem keyed_ofJob (sound : s.Sound) : Table.Keyed HeldPassword.rowId (s.held.filter (·.jobId = jobId)) := by
  refine List.Nodup.map_on (fun g memberG h memberH same => ?_) (sound.held.of_map.filter _)
  obtain ⟨memberG, jobG⟩ := List.mem_filter.mp memberG
  obtain ⟨memberH, jobH⟩ := List.mem_filter.mp memberH
  exact sound.held.eq_of_key memberG memberH
    (Prod.ext ((of_decide_eq_true jobG).trans (of_decide_eq_true jobH).symm) same)

theorem find_ofJob : Table.find HeldPassword.rowId row (s.held.filter (·.jobId = jobId)) =
    s.at_ jobId row := by
  unfold State.at_ Table.find
  rw [List.find?_filter]
  congr 1
  funext h
  simp [HeldPassword.key, Prod.mk.injEq]

/-- A download hands out just what the vault has live. -/
theorem takeAll_eq (sound : s.Sound) (mirrors : Mirrors aes key s v) :
    ∃ got, takeAll aes key jobId now (s.held.filter (·.jobId = jobId)) = .ok got ∧
      got.gives = v.live now jobId := by
  have readable : ∀ h ∈ s.held.filter (·.jobId = jobId), h.opened aes key = .ok (h.password aes key) :=
    fun h member => mirrors.readable h (List.mem_filter.mp member).1
  have ofJob : ∀ h ∈ s.held.filter (·.jobId = jobId), h.jobId = jobId :=
    fun h member => of_decide_eq_true (List.mem_filter.mp member).2
  obtain ⟨got, ran, gives⟩ :=
    takeAll_gives _ ofJob (keyed_ofJob sound) readable { shared := none, byRow := [] }
  refine ⟨got, ran, funext fun r => ?_⟩
  have none_yet : TakenPasswords.gives { shared := none, byRow := [] } r = none := by
    cases r <;> rfl
  rw [gives, find_ofJob, none_yet, Option.or_none, live_eq mirrors]

/-- A password held is put into the vault. -/
theorem mirrors_hold (faithful : (aes key).Faithful) (sound : s.Sound)
    (own : ∀ r, row = some r → { id := r, jobId := jobId } ∈ s.rows) (mirrors : Mirrors aes key s v) :
    Mirrors aes key (holdPassword aes key s jobId row password iv) { v with
      holds := fun j r =>
        if j = jobId ∧ r = row then some (Utf8.decode (Utf8.encode password), heldUntil v.now)
          else v.holds j r } where
  now := mirrors.now
  readable h member := by
    rcases mem_holdPassword sound own member with ⟨keyOf, enc⟩ | old
    · have sameJob : h.jobId = jobId := congrArg Prod.fst keyOf
      have sameRow : h.rowId = row := congrArg Prod.snd keyOf
      have opens : h.opened aes key = .ok (Utf8.decode (Utf8.encode password)) := by
        unfold HeldPassword.opened
        rw [enc, sameJob, sameRow]
        exact decrypt_own faithful
      rw [password_of_opened opens, opens]
    · exact mirrors.readable h old
  holds j r := by
    rw [at_holdPassword sound own]
    dsimp only
    by_cases asked : j = jobId ∧ r = row
    · rw [if_pos asked, if_pos asked, Option.map_some, password_of_opened (opened_encrypt faithful),
        mirrors.now]
    · rw [if_neg asked, if_neg asked]
      exact mirrors.holds j r
  taken := mirrors.taken
  given := mirrors.given

/-- What a job's delete leaves is what the vault forgets. -/
theorem forgets (sound : s.Sound) (mirrors : Mirrors aes key s v) (j : Nat) (r : Option Nat) :
    (v.forget jobId).holds j r =
      (Table.find HeldPassword.key (j, r) (Table.delete (·.jobId = jobId) s.held)).map fun h =>
        (h.password aes key, h.expiresAt) := by
  rw [at_delete sound]
  unfold Vault.forget
  dsimp only
  rw [mirrors.holds]
  cases found : s.at_ j r with
  | none => simp
  | some h =>
    have sameJob : h.jobId = j := (at_some found).2.1
    by_cases isIt : j = jobId
    · rw [if_pos isIt, Option.filter_some_neg (by simpa [sameJob] using isIt)]
      rfl
    · rw [if_neg isIt, Option.filter_some_pos (by simpa [sameJob] using isIt)]

theorem mirrors_discard (sound : s.Sound) (mirrors : Mirrors aes key s v) :
    Mirrors aes key (discard s jobId) (v.forget jobId) where
  now := mirrors.now
  readable h member := mirrors.readable h (Table.mem_delete.mp member).1
  holds j r := forgets sound mirrors j r
  taken := mirrors.taken
  given := mirrors.given

/-- A finished job's passwords get the vault's end. -/
theorem mirrors_finish (mirrors : Mirrors aes key s v) :
    Mirrors aes key (holdFromNow s jobId) { v with
      holds := fun j r =>
        (v.holds j r).map fun held => if j = jobId ∧ v.now < held.2 then (held.1, heldUntil v.now)
          else held } where
  now := mirrors.now
  readable := Table.forall_update.mpr fun h member =>
    ⟨fun _ => mirrors.readable h member, fun _ => mirrors.readable h member⟩
  holds j r := by
    have kept : ∀ h : HeldPassword, h.jobId = jobId ∧ s.now < h.expiresAt →
      HeldPassword.key { h with expiresAt := heldUntil s.now } = h.key :=
      fun _ _ => rfl
    unfold State.at_ holdFromNow
    dsimp only
    rw [Table.find_update kept, mirrors.holds]
    unfold State.at_
    rw [Option.map_map, Option.map_map]
    refine Option.map_congr fun h found => ?_
    have sameJob : h.jobId = j := (at_some found).2.1
    rw [Function.comp_apply, Function.comp_apply, mirrors.now]
    by_cases extended : j = jobId ∧ s.now < h.expiresAt
    · rw [if_pos extended, if_pos (by rw [sameJob]; exact extended)]
      rfl
    · rw [if_neg extended, if_neg (by rw [sameJob]; exact extended)]
  taken := mirrors.taken
  given := mirrors.given

/-- A purge takes out what has expired, and no more. -/
theorem mirrors_purge (sound : s.Sound) (mirrors : Mirrors aes key s v) :
    Mirrors aes key (purgeExpiredPasswords s)
      { v with holds := fun j r => (v.holds j r).filter fun held => v.now < held.2 } where
  now := mirrors.now
  readable h member := mirrors.readable h (Table.mem_delete.mp member).1
  holds j r := by
    change _ = (Table.find HeldPassword.key (j, r) (Table.delete (·.expiresAt ≤ s.now) s.held)).map _
    dsimp only
    rw [at_delete sound, mirrors.holds, mirrors.now]
    cases s.at_ j r with
    | none => rfl
    | some h =>
      by_cases inTime : s.now < h.expiresAt
      · rw [Option.map_some, Option.filter_some_pos (by simpa using inTime),
          Option.filter_some_pos (by simpa using inTime)]
        rfl
      · rw [Option.map_some, Option.filter_some_neg (by simpa using inTime),
          Option.filter_some_neg (by simpa using inTime)]
        rfl
  taken := mirrors.taken
  given := mirrors.given

/-- The jobs the vault has given their passwords are the ones that are marked. -/
theorem not_taken (sound : s.Sound) (mirrors : Mirrors aes key s v) {j : Job} (member : j ∈ s.jobs)
    (unmarked : j.resultsDownloadedAt = none) : j.id ∉ v.taken.map Prod.fst := by
  intro listed
  obtain ⟨t, memberT, same⟩ := List.mem_map.mp listed
  have both : (t.1, .ok t.2) ∈ s.downloads.map fun d => (d.jobId, d.gave.map TakenPasswords.gives) :=
    mirrors.taken ▸ List.mem_map_of_mem memberT
  obtain ⟨d, memberD, is⟩ := List.mem_map.mp both
  obtain ⟨jobIs, gaveIs⟩ := Prod.mk.inj is
  cases gave : d.gave with
  | error e =>
    rw [gave] at gaveIs
    cases gaveIs
  | ok got => exact (sound.marked d memberD got gave).2 j member (same.symm.trans jobIs.symm) unmarked

/-- A download takes from the vault what it hands out. -/
theorem mirrors_take (sound : s.Sound) (mirrors : Mirrors aes key s v) {audited : Bool}
    (taken : takePasswords aes key s jobId now audited = some s') :
    ∃ w, v.step (.take jobId now) = some w ∧ Mirrors aes key s' w := by
  obtain ⟨got, ran, gives⟩ := @takeAll_eq aes key s v jobId now sound mirrors
  obtain ⟨⟨j, memberJ, rfl, unmarked⟩, ⟨e, failed, rfl⟩ | ⟨got', ran', rfl⟩⟩ := takePasswords_cases taken
  · rw [ran] at failed
    cases failed
  · rw [ran] at ran'
    cases ran'
    refine ⟨_, if_neg (not_taken sound mirrors memberJ unmarked), ?_⟩
    exact {
      now := mirrors.now
      readable := fun h member => mirrors.readable h (Table.mem_delete.mp member).1
      holds := fun j' r => forgets sound mirrors j' r
      taken := by
        rw [List.map_append, List.map_append, mirrors.taken, ← gives]
        rfl
      given := mirrors.given }

/-- What a step does, the vault does too. -/
theorem mirrors_step (faithful : (aes key).Faithful) (sound : s.Sound)
    (mirrors : Mirrors aes key s v) (honest : a.Honest)
    (taken : s.step aes key a = some s') : ∃ w, vault.run v (s.events a) = some w ∧ Mirrors aes key s' w := by
  cases a with
  | tick ms =>
    cases Option.some.inj taken
    exact ⟨_, rfl, { mirrors with now := congrArg (· + (ms : Int)) mirrors.now }⟩
  | insert rows secret iv =>
    cases Option.some.inj taken
    have stored := sound_stored sound rows
    cases secret with
    | none => exact ⟨v, rfl, { mirrors with }⟩
    | some password => exact ⟨_, rfl, mirrors_hold faithful stored (by simp) { mirrors with }⟩
  | discard jobId =>
    cases Option.some.inj taken
    exact ⟨_, rfl, mirrors_discard sound mirrors⟩
  | hold jobId rowId password iv =>
    obtain ⟨has, taken⟩ := Option.ite_none_right_eq_some.mp taken
    cases Option.some.inj taken
    have own : ∀ r, some rowId = some r → { id := r, jobId := jobId } ∈ s.rows := fun r same => by
      cases same
      exact mem_rows has
    exact ⟨_, rfl, mirrors_hold faithful sound own mirrors⟩
  | read jobId rowId =>
    cases Option.some.inj taken
    refine ⟨_, rfl, { mirrors with given := ?_ }⟩
    rw [List.map_append, List.map_append, mirrors.given, heldPassword_eq sound mirrors]
    rfl
  | finish jobId =>
    cases Option.some.inj taken
    exact ⟨_, rfl, mirrors_finish mirrors⟩
  | purge =>
    cases Option.some.inj taken
    exact ⟨_, rfl, mirrors_purge sound mirrors⟩
  | download jobId now audited =>
    obtain ⟨w, follows, mirrored⟩ := mirrors_take sound mirrors taken
    exact ⟨w, Transition.System.run_one.trans follows, mirrored⟩
  | encryptOther secret pass iv =>
    cases Option.some.inj taken
    exact ⟨v, rfl, { mirrors with }⟩
  | tamper jobId rowId passwordEnc => exact absurd honest id

/-- The vault, empty, at a time. -/
def Vault.empty (now : Int) : Vault := { now, holds := fun _ _ => none, taken := [], given := [] }

theorem mirrors_init (init : (heldPasswords aes key).init s) : Mirrors aes key s (.empty s.now) := by
  obtain ⟨_, _, held, _, _, readings, downloads⟩ := init
  refine ⟨rfl, ?_, fun jobId rowId => ?_, ?_, ?_⟩
  · simp [held]
  · unfold State.at_
    rw [held]
    rfl
  · simp [downloads, Vault.empty]
  · simp [readings, Vault.empty]

/-- The vault gives a job's passwords out once. -/
theorem vault_taken_once (reach : vault.Reachable v) : (v.taken.map Prod.fst).Nodup := by
  refine reach.invariant (P := fun v => (v.taken.map Prod.fst).Nodup) (fun v init => ?_)
    fun v w e _ once _ follows => ?_
  · rw [init.2.1]
    exact List.nodup_nil
  · cases e with
    | take jobId now =>
      change (if _ then none else _) = some w at follows
      split at follows
      next => cases follows
      next fresh =>
        cases Option.some.inj follows
        rw [List.map_append, List.nodup_append]
        refine ⟨once, List.nodup_singleton _, fun j member j' isNew => ?_⟩
        cases List.mem_singleton.mp isNew
        rintro rfl
        exact fresh member
    | tick | hold | read | finish | purge | discard =>
      cases Option.some.inj follows
      exact once

/-- While nobody writes over its ciphertexts the table is a vault that is asked the same: what runs
read of it, and what the one download of a job hands out, are the passwords last held and not yet
expired, and none is lost, mixed up or given twice. -/
theorem vault_kept (faithful : (aes key).Faithful) {actions : List Action}
    (init : (heldPasswords aes key).init s)
    (honest : ∀ a ∈ actions, a.Honest) (ran : (heldPasswords aes key).run s actions = some s') :
    (∃ v, vault.run (.empty s.now) ((heldPasswords aes key).translate State.events s actions) =
      some v ∧ Mirrors aes key s' v) ∧
      (s'.downloads.map Download.jobId).Nodup := by
  have along : (heldPasswords aes key).MeetsAlong (fun _ a => a.Honest) s actions :=
    .of_forall fun a member _ => honest a member
  obtain ⟨v, followed, mirrors⟩ :=
    Transition.System.Reach.simulated (.start init) ran along (mirrors_init init)
    fun _ _ _ _ reach honest taken mirrors => mirrors_step faithful (sound_reach reach) mirrors honest taken
  have reached : vault.Reachable v :=
    .of_run (.start ⟨rfl, rfl, rfl⟩) followed Transition.System.meetsAlong_true
  have jobs : s'.downloads.map Download.jobId = v.taken.map Prod.fst := by
    have firsts := congrArg (List.map Prod.fst) mirrors.taken
    rw [List.map_map, List.map_map] at firsts
    exact firsts
  exact ⟨⟨v, followed, mirrors⟩, jobs ▸ vault_taken_once reached⟩

end

def noTables : State := ⟨0, 1, 1, [], [], [], [], [], [], []⟩

/-- A reset of one account, its password held, read and handed out. -/
def oneReset : List Action :=
  [.insert 1 none firstIv, .hold 1 1 (text "Qx7") firstIv, .read 1 1, .finish 1, .download 1 5 true]

theorem reset_vault_kept : ∃ s v, (heldPasswords (fun _ => clearGcm) clearKey).run noTables
    oneReset = some s ∧
    vault.run (.empty 0) [.hold 1 (some 1) (text "Qx7"), .read 1 1, .finish 1, .take 1 5] = some v ∧
    Mirrors (fun _ => clearGcm) clearKey s v ∧ s.downloads.map Download.jobId = [1] ∧ s.held.isEmpty := by
  have ran : ((heldPasswords (fun _ => clearGcm) clearKey).run noTables oneReset).any
      (fun s => s.downloads.map Download.jobId = [1] ∧ s.held.isEmpty = true) = true := by
    decide
  obtain ⟨s, reached, downloaded, gone⟩ := Transition.System.exists_of_any ran
  have honest : ∀ a ∈ oneReset, a.Honest := by
    intro a member
    simp only [oneReset, List.mem_cons, List.not_mem_nil, or_false] at member
    rcases member with rfl | rfl | rfl | rfl | rfl <;> trivial
  obtain ⟨⟨v, followed, mirrors⟩, _⟩ :=
    vault_kept (clear_authentic fun _ => True).toFaithful (s := noTables)
    ⟨rfl, rfl, rfl, rfl, rfl, rfl, rfl⟩ honest reached
  exact ⟨s, v, reached, followed, mirrors, downloaded, gone⟩

end OpenAduc.HeldPasswords
