import OpenAduc.HeldPasswords.Mirrored
import OpenAduc.Naming.Decimal

namespace OpenAduc.HeldPasswords
open Naming (Text text unit decimal isDigit)
open Secrets (Gcm Key Iv encrypt decrypt Bytes bytesOfAad decrypt_encrypt decrypt_own clearGcm
  clear_authentic clearKey firstIv)

section
variable {jobId jobId' : Nat} {rowId rowId' : Option Nat}

theorem decimal_inj {m n : Nat} (same : decimal m = decimal n) : m = n := by
  rw [← Naming.decimalOf_decimal m, same, Naming.decimalOf_decimal]

theorem decimal_plain {n : Nat} {c : UInt16} (member : c ∈ decimal n) :
    c.toNat < 0x80 ∧ c ≠ unit ':' ∧ c ≠ unit 's' := by
  have digit := Naming.decimal_digits n c member
  rw [isDigit, decide_eq_true_eq, UInt16.le_iff_toNat_le, UInt16.le_iff_toNat_le] at digit
  have nine : (unit '9').toNat = 57 := by decide
  refine ⟨by omega, ?_, ?_⟩
  · rintro rfl
    have colon : (unit ':').toNat = 58 := by decide
    omega
  · rintro rfl
    have letter : (unit 's').toNat = 115 := by decide
    omega

/-- The row, or that there is none. -/
def rowPart (rowId : Option Nat) : Text := (rowId.map decimal).getD (text "shared")

theorem rowPart_inj (same : rowPart rowId = rowPart rowId') : rowId = rowId' := by
  have apart : ∀ n, decimal n ≠ text "shared" := fun n is =>
    (decimal_plain (is ▸ (by decide : unit 's' ∈ text "shared") : unit 's' ∈ decimal n)).2.2 rfl
  cases rowId with
  | none =>
    cases rowId' with
    | none => rfl
    | some n => exact absurd same.symm (apart n)
  | some m =>
    cases rowId' with
    | none => exact absurd same (apart m)
    | some n => exact congrArg some (decimal_inj same)

theorem bindingOf_eq (jobId : Nat) (rowId : Option Nat) :
    bindingOf jobId rowId = text "import_passwords:" ++
      (decimal jobId ++ unit ':' :: rowPart rowId) := List.append_assoc ..

/-- Texts with no colon before it are cut at the same place. -/
theorem split_at_colon {a a' b b' : Text} (dotless : unit ':' ∉ a) (dotless' : unit ':' ∉ a')
    (same : a ++ unit ':' :: b = a' ++ unit ':' :: b') :
    a = a' ∧ b = b' := by
  have fronts : ∀ (c d : Text), unit ':' ∉ c → (c ++ unit ':' :: d).takeWhile (· ≠ unit ':') = c := by
    intro c d without
    have passed : ∀ x ∈ c, decide (x ≠ unit ':') = true := by
      intro x member
      refine decide_eq_true fun is => without ?_
      rw [← is]
      exact member
    rw [List.takeWhile_append_of_pos passed]
    simp
  have front : a = a' := by rw [← fronts a b dotless, same, fronts a' b' dotless']
  subst front
  exact ⟨rfl, (List.cons.inj (List.append_cancel_left same)).2⟩

theorem bindingOf_inj (same : bindingOf jobId rowId = bindingOf jobId' rowId') :
    jobId = jobId' ∧ rowId = rowId' := by
  rw [bindingOf_eq, bindingOf_eq] at same
  have parts := List.append_cancel_left same
  have dotless : ∀ n, unit ':' ∉ decimal n := fun n member => (decimal_plain member).2.1 rfl
  obtain ⟨jobs, rows⟩ := split_at_colon (dotless jobId) (dotless jobId') parts
  exact ⟨decimal_inj jobs, rowPart_inj rows⟩

theorem binding_ascii : ∀ c ∈ bindingOf jobId rowId, c.toNat < 0x80 := by
  intro c member
  rw [bindingOf_eq] at member
  rcases List.mem_append.mp member with named | rest
  · exact of_decide_eq_true
      (List.all_eq_true.mp (by decide : (text "import_passwords:").all (·.toNat < 0x80) = true) c named)
  · rcases List.mem_append.mp rest with inJob | later
    · exact (decimal_plain inJob).1
    · rcases List.mem_cons.mp later with rfl | inRow
      · decide
      · cases rowId with
        | none => exact of_decide_eq_true (List.all_eq_true.mp
          (by decide : (text "shared").all (·.toNat < 0x80) = true) c inRow)
        | some n => exact (decimal_plain inRow).1

theorem other_ascii {pass : Nat × Nat} {t : Text} (is : otherBinding (some pass) = some t) :
    (∀ c ∈ t, c.toNat < 0x80) ∧ t.head? = some (unit 'c') := by
  cases Option.some.inj is
  refine ⟨fun c member => ?_, rfl⟩
  rcases List.mem_append.mp member with front | later
  · rcases List.mem_append.mp front with named | inJob
    · exact of_decide_eq_true
        (List.all_eq_true.mp (by decide : (text "class_passes:").all (·.toNat < 0x80) = true) c named)
    · exact (decimal_plain inJob).1
  · rcases List.mem_cons.mp later with rfl | inRow
    · decide
    · exact (decimal_plain inRow).1

/-- Ciphertexts bound alike are of the same row of the same job. -/
theorem bytes_bindingOf
    (same : bytesOfAad (some (bindingOf jobId rowId)) = bytesOfAad (some (bindingOf jobId' rowId'))) :
    jobId = jobId' ∧ rowId = rowId' :=
  bindingOf_inj (Utf8.encode_injective (Utf8.whole_of_ascii binding_ascii)
    (Utf8.whole_of_ascii binding_ascii) same)

/-- Nothing else the app encrypts is bound as a password is. -/
theorem bytes_otherBinding (pass : Option (Nat × Nat)) :
    bytesOfAad (some (bindingOf jobId rowId)) ≠ bytesOfAad (otherBinding pass) := by
  have whole := Utf8.whole_of_ascii (@binding_ascii jobId rowId)
  intro same
  cases pass with
  | none =>
    have empty : bindingOf jobId rowId = [] := Utf8.encode_injective whole rfl same
    rw [bindingOf_eq] at empty
    exact absurd (List.append_eq_nil_iff.mp empty).1 (by decide)
  | some pass =>
    obtain ⟨ascii, first⟩ := @other_ascii pass _ rfl
    have texts := Utf8.encode_injective whole (Utf8.whole_of_ascii ascii) same
    rw [← texts, bindingOf_eq] at first
    have starts : unit 'i' = unit 'c' := Option.some.inj first
    exact absurd starts (by decide)

end

/-- What the app has bound envelopes to. -/
def State.Bound (s : State) (bytes : Bytes) : Prop := ∃ e ∈ s.envelopes, bytes = bytesOfAad e.1

/-- A password the table gives was held for the row it is given for, or for every row of its job. -/
structure State.Confined (aes : Key → Gcm) (key : Key) (s : State) : Prop where
  envelopes : ∀ e ∈ s.envelopes, ∃ iv p, e.2 = encrypt aes key iv p e.1 ∧
    ∀ j r, bytesOfAad (some (bindingOf j r)) = bytesOfAad e.1 →
      ⟨j, r, Utf8.decode (Utf8.encode p)⟩ ∈ s.holdings
  bound : ∀ h ∈ s.held, s.Bound (bytesOfAad (some (bindingOf h.jobId h.rowId)))
  held : ∀ h ∈ s.held, ∀ p, h.opened aes key = .ok p → ⟨h.jobId, h.rowId, p⟩ ∈ s.holdings
  readings : ∀ r ∈ s.readings, ∀ p, r.gave = .ok (some p) →
    ⟨r.jobId, some r.rowId, p⟩ ∈ s.holdings ∨ ⟨r.jobId, none, p⟩ ∈ s.holdings
  downloads : ∀ d ∈ s.downloads, ∀ got, d.gave = .ok got → ∀ r p, got.gives r = some p →
    ⟨d.jobId, r, p⟩ ∈ s.holdings

section
variable {aes : Key → Gcm} {key : Key} {s s' : State} {a : Action} {jobId rowId : Nat}
    {row : Option Nat} {password : Text} {iv : Iv}
  {now : Int}

theorem opened_of_job {h : HeldPassword} (ofJob : h.jobId = jobId) {p : Text}
    (opens : decrypt aes key h.passwordEnc (some (bindingOf jobId h.rowId)) = .ok p) :
    h.opened aes key = .ok p := by
  unfold HeldPassword.opened
  rw [ofJob]
  exact opens

/-- A reading is of a record it opens. -/
theorem heldPassword_ok {p : Text} (gave : heldPassword aes key s jobId rowId = .ok (some p)) :
    ∃ h ∈ s.held, h.jobId = jobId ∧ (h.rowId = some rowId ∨ h.rowId = none) ∧ h.opened aes key = .ok p := by
  unfold heldPassword at gave
  dsimp only at gave
  split at gave
  next => cases gave
  next own which =>
    have listed : own ∈ s.held.filter (Serves jobId rowId s.now ·) := by
      rcases Option.or_eq_some_iff.mp which with first | ⟨_, head⟩
      · exact List.mem_of_find?_eq_some first
      · exact List.mem_of_mem_head? head
    obtain ⟨member, serves⟩ := List.mem_filter.mp listed
    obtain ⟨ofJob, ofRow, _⟩ := of_decide_eq_true serves
    refine ⟨own, member, ofJob, ofRow, opened_of_job ofJob ?_⟩
    cases opens : decrypt aes key own.passwordEnc (some (bindingOf jobId own.rowId)) with
    | error e =>
      rw [opens] at gave
      cases gave
    | ok q =>
      rw [opens] at gave
      cases gave
      rfl

/-- What a download hands out is of records it opens. -/
theorem takeAll_ok (held : List HeldPassword) {taken got : TakenPasswords}
    (ran : held.foldlM (takeOne aes key jobId now) taken = .ok got) {p : Text}
    (gives : got.gives row = some p) :
    taken.gives row = some p ∨ ∃ h ∈ held, h.rowId = row ∧
      decrypt aes key h.passwordEnc (some (bindingOf jobId h.rowId)) = .ok p := by
  induction held generalizing taken with
  | nil =>
    cases ran
    exact .inl gives
  | cons h held ih =>
    rw [List.foldlM_cons] at ran
    cases one : takeOne aes key jobId now taken h with
    | error e =>
      rw [one] at ran
      cases ran
    | ok next =>
      rw [one] at ran
      rcases ih ran with already | ⟨g, member, rest⟩
      · unfold takeOne at one
        split at one
        next =>
          cases one
          exact .inl already
        next =>
          cases opens : decrypt aes key h.passwordEnc (some (bindingOf jobId h.rowId)) with
          | error e =>
            rw [opens] at one
            cases one
          | ok q =>
            rw [opens] at one
            cases one
            rw [gives_put] at already
            split at already
            next same =>
              cases already
              exact .inr ⟨h, List.mem_cons_self .., same.symm, opens⟩
            next => exact .inl already
      · exact .inr ⟨g, List.mem_cons_of_mem _ member, rest⟩

/-- A password held is in the holdings under its own binding. -/
theorem confined_hold (faithful : (aes key).Faithful) (sound : s.Sound)
    (own : ∀ r, row = some r → { id := r, jobId := jobId } ∈ s.rows) (confined : s.Confined aes key) :
    (holdPassword aes key s jobId row password iv).Confined aes key := by
  have kept : ∀ {x : Holding}, x ∈ s.holdings → x ∈ (holdPassword aes key s jobId row password iv).holdings :=
    fun member => List.mem_append_left _ member
  have added : (⟨jobId, row, Utf8.decode (Utf8.encode password)⟩ : Holding) ∈
    (holdPassword aes key s jobId row password iv).holdings :=
    List.mem_append_right _ (List.mem_singleton_self _)
  refine ⟨fun e member => ?_, fun h member => ?_, fun h member p opens => ?_, fun r member p gave => ?_,
    fun d member got gave r p gives => ?_⟩
  · rcases List.mem_append.mp member with old | isNew
    · obtain ⟨iv', q, is, from_⟩ := confined.envelopes e old
      exact ⟨iv', q, is, fun j r same => kept (from_ j r same)⟩
    · cases List.mem_singleton.mp isNew
      refine ⟨iv, password, rfl, fun j r same => ?_⟩
      obtain ⟨rfl, rfl⟩ := bytes_bindingOf same
      exact added
  · rcases mem_holdPassword sound own member with ⟨keyOf, _⟩ | old
    · have sameJob : h.jobId = jobId := congrArg Prod.fst keyOf
      have sameRow : h.rowId = row := congrArg Prod.snd keyOf
      rw [sameJob, sameRow]
      exact ⟨_, List.mem_append_right _ (List.mem_singleton_self _), rfl⟩
    · obtain ⟨e, listed, is⟩ := confined.bound h old
      exact ⟨e, List.mem_append_left _ listed, is⟩
  · rcases mem_holdPassword sound own member with ⟨keyOf, enc⟩ | old
    · have sameJob : h.jobId = jobId := congrArg Prod.fst keyOf
      have sameRow : h.rowId = row := congrArg Prod.snd keyOf
      unfold HeldPassword.opened at opens
      rw [enc, sameJob, sameRow, decrypt_own faithful] at opens
      rw [sameJob, sameRow, ← Except.ok.inj opens]
      exact added
    · exact kept (confined.held h old p opens)
  · exact (confined.readings r member p gave).imp kept kept
  · exact kept (confined.downloads d member got gave r p gives)

/-- A download hands out only what its rows' ciphertexts open to. -/
theorem confined_take (confined : s.Confined aes key) {audited : Bool}
    (taken : takePasswords aes key s jobId now audited = some s') : s'.Confined aes key := by
  obtain ⟨_, ⟨e, _, rfl⟩ | ⟨got, ran, rfl⟩⟩ := takePasswords_cases taken
  · refine { confined with downloads := fun d member got gave => ?_ }
    rcases List.mem_append.mp member with old | added
    · exact confined.downloads d old got gave
    · cases List.mem_singleton.mp added
      cases gave
  · refine { confined with
      bound := fun h member => confined.bound h (Table.mem_delete.mp member).1
      held := fun h member => confined.held h (Table.mem_delete.mp member).1
      downloads := fun d member got' gave r p gives => ?_ }
    rcases List.mem_append.mp member with old | added
    · exact confined.downloads d old got' gave r p gives
    · cases List.mem_singleton.mp added
      cases gave
      rcases takeAll_ok _ ran gives with already | ⟨h, memberH, rfl, opens⟩
      · cases r <;> cases already
      · obtain ⟨memberH, ofJob⟩ := List.mem_filter.mp memberH
        have sameJob : h.jobId = jobId := of_decide_eq_true ofJob
        have held := confined.held h memberH p (opened_of_job sameJob opens)
        rw [sameJob] at held
        exact held

/-- A ciphertext written over another opens only where it was bound. -/
theorem confined_tamper (authentic : (aes key).Authentic s.Bound) (confined : s.Confined aes key)
    {passwordEnc : Text}
    (may : passwordEnc ∈ s.envelopes.map Prod.snd ∨
      isOk (decrypt aes key passwordEnc (some (bindingOf jobId row))) = false) :
    ({ s with
      held := Table.update (fun h => h.jobId = jobId ∧ h.rowId = row) (fun h =>
        { h with passwordEnc }) s.held } : State).Confined aes key := by
  refine { confined with
    bound := Table.forall_update.mpr fun h member =>
      ⟨fun _ => confined.bound h member, fun _ => confined.bound h member⟩
    held := Table.forall_update.mpr fun h member =>
      ⟨fun isIt p opens => ?_, fun _ => confined.held h member⟩ }
  obtain ⟨rfl, rfl⟩ := isIt
  rcases may with made | useless
  · obtain ⟨e, listed, rfl⟩ := List.mem_map.mp made
    obtain ⟨iv, q, is, from_⟩ := confined.envelopes e listed
    unfold HeldPassword.opened at opens
    rw [is] at opens
    obtain ⟨same, rfl⟩ := (decrypt_encrypt authentic ⟨e, listed, rfl⟩ (confined.bound h member)).mp opens
    exact from_ h.jobId h.rowId same
  · unfold HeldPassword.opened at opens
    rw [opens] at useless
    cases useless

/-- Every step, a tampering too, keeps passwords to the row or the job they were held for. -/
theorem confined_step (authentic : (aes key).Authentic s.Bound) (sound : s.Sound)
    (confined : s.Confined aes key)
    (taken : s.step aes key a = some s') : s'.Confined aes key := by
  cases a with
  | tick ms =>
    cases Option.some.inj taken
    exact { confined with }
  | insert rows secret iv =>
    cases Option.some.inj taken
    cases secret with
    | none => exact { confined with }
    | some password =>
      exact confined_hold authentic.toFaithful (sound_stored sound rows) (by simp) { confined with }
  | discard jobId =>
    cases Option.some.inj taken
    exact { confined with
      bound := fun h member => confined.bound h (Table.mem_delete.mp member).1
      held := fun h member => confined.held h (Table.mem_delete.mp member).1 }
  | hold jobId rowId password iv =>
    obtain ⟨has, taken⟩ := Option.ite_none_right_eq_some.mp taken
    cases Option.some.inj taken
    refine confined_hold authentic.toFaithful sound (fun r same => ?_) confined
    cases same
    exact mem_rows has
  | read jobId rowId =>
    cases Option.some.inj taken
    refine { confined with readings := fun r member p gave => ?_ }
    rcases List.mem_append.mp member with old | added
    · exact confined.readings r old p gave
    · cases List.mem_singleton.mp added
      obtain ⟨h, memberH, sameJob, ofRow, opens⟩ := heldPassword_ok gave
      have held := confined.held h memberH p opens
      rw [sameJob] at held
      rcases ofRow with own | shared
      · exact .inl (own ▸ held)
      · exact .inr (shared ▸ held)
  | finish jobId =>
    cases Option.some.inj taken
    refine { confined with
      bound := Table.forall_update.mpr fun h member => ⟨fun _ => confined.bound h member, fun _ =>
        confined.bound h member⟩
      held := Table.forall_update.mpr fun h member => ⟨fun _ => ?_, fun _ => confined.held h member⟩ }
    exact confined.held h member
  | purge =>
    cases Option.some.inj taken
    exact { confined with
      bound := fun h member => confined.bound h (Table.mem_delete.mp member).1
      held := fun h member => confined.held h (Table.mem_delete.mp member).1 }
  | download jobId now audited => exact confined_take confined taken
  | encryptOther secret pass iv =>
    cases Option.some.inj taken
    refine { confined with envelopes := fun e member => ?_, bound := fun h member => ?_ }
    · rcases List.mem_append.mp member with old | added
      · exact confined.envelopes e old
      · cases List.mem_singleton.mp added
        exact ⟨iv, secret, rfl, fun j r same => absurd same (bytes_otherBinding pass)⟩
    · obtain ⟨e, listed, is⟩ := confined.bound h member
      exact ⟨e, List.mem_append_left _ listed, is⟩
  | tamper jobId rowId passwordEnc =>
    obtain ⟨may, taken⟩ := Option.ite_none_right_eq_some.mp taken
    cases Option.some.inj taken
    exact confined_tamper authentic confined may

theorem confined_init (init : (heldPasswords aes key).init s) : s.Confined aes key := by
  obtain ⟨_, _, held, _, envelopes, readings, downloads⟩ := init
  exact ⟨by simp [envelopes], by simp [held], by simp [held], by simp [readings], by simp [downloads]⟩

/-- The downloads that hand something out are of different jobs. -/
theorem handed_once {meets : State → Action → Prop} (reach : (heldPasswords aes key).Reach meets s) :
    ((s.downloads.filter fun d => isOk d.gave).map Download.jobId).Nodup := by
  refine reach.invariant (P := fun s => ((s.downloads.filter fun d => isOk d.gave).map Download.jobId).Nodup)
    (fun s init => ?_) fun s s' a previous once _ taken => ?_
  · rw [init.2.2.2.2.2.2]
    exact List.nodup_nil
  · cases a with
    | download jobId now audited =>
      obtain ⟨⟨j, memberJ, rfl, unmarked⟩, ⟨e, _, rfl⟩ | ⟨got, _, rfl⟩⟩ := takePasswords_cases taken
      · rw [List.filter_append, List.map_append]
        simpa [isOk] using once
      · rw [List.filter_append, List.map_append, List.nodup_append]
        refine ⟨once, List.Sublist.nodup (List.filter_sublist.map _) (List.nodup_singleton _),
          fun i member i' isNew => ?_⟩
        obtain ⟨d, memberD, rfl⟩ := List.mem_map.mp member
        obtain ⟨d', memberD', rfl⟩ := List.mem_map.mp isNew
        cases List.mem_singleton.mp (List.mem_filter.mp memberD').1
        obtain ⟨listed, ok⟩ := List.mem_filter.mp memberD
        intro same
        cases gave : d.gave with
        | error e =>
          rw [gave] at ok
          cases ok
        | ok got' => exact ((sound_reach previous).marked d listed got' gave).2 j memberJ same.symm unmarked
    | insert rows secret iv =>
      cases Option.some.inj taken
      cases secret <;> exact once
    | hold jobId rowId password iv =>
      obtain ⟨_, taken⟩ := Option.ite_none_right_eq_some.mp taken
      cases Option.some.inj taken
      exact once
    | tamper jobId rowId passwordEnc =>
      obtain ⟨_, taken⟩ := Option.ite_none_right_eq_some.mp taken
      cases Option.some.inj taken
      exact once
    | tick | discard | read | finish | purge | encryptOther =>
      cases Option.some.inj taken
      exact once

/-- Envelopes are only ever made. -/
theorem envelopes_step (taken : s.step aes key a = some s') : ∃ more, s'.envelopes = s.envelopes ++ more := by
  cases a with
  | insert rows secret iv =>
    cases Option.some.inj taken
    cases secret with
    | none => exact ⟨[], (List.append_nil _).symm⟩
    | some password => exact ⟨_, rfl⟩
  | hold jobId rowId password iv =>
    obtain ⟨_, taken⟩ := Option.ite_none_right_eq_some.mp taken
    cases Option.some.inj taken
    exact ⟨_, rfl⟩
  | download jobId now audited =>
    obtain ⟨_, ⟨e, _, rfl⟩ | ⟨got, _, rfl⟩⟩ :=
      takePasswords_cases taken <;> exact ⟨[], (List.append_nil _).symm⟩
  | encryptOther secret pass iv =>
    cases Option.some.inj taken
    exact ⟨_, rfl⟩
  | tamper jobId rowId passwordEnc =>
    obtain ⟨_, taken⟩ := Option.ite_none_right_eq_some.mp taken
    cases Option.some.inj taken
    exact ⟨[], (List.append_nil _).symm⟩
  | tick | discard | read | finish | purge =>
    cases Option.some.inj taken
    exact ⟨[], (List.append_nil _).symm⟩

theorem authentic_before (taken : s.step aes key a = some s') (authentic : (aes key).Authentic s'.Bound) :
    (aes key).Authentic s.Bound := by
  obtain ⟨more, grown⟩ := envelopes_step taken
  have still : ∀ {bytes}, s.Bound bytes → s'.Bound bytes := by
    rintro bytes ⟨e, listed, is⟩
    exact ⟨e, grown ▸ List.mem_append_left _ listed, is⟩
  exact { authentic.toFaithful with
    same_aad := fun iv aad plain aad' plain' known known' =>
      authentic.same_aad iv aad plain aad' plain' (still known) (still known') }

theorem confined_reach (reach : (heldPasswords aes key).Reachable s) : (aes key).Authentic s.Bound →
    s.Confined aes key := by
  refine reach.invariant (P := fun s => (aes key).Authentic s.Bound → s.Confined aes key)
    (fun _ init _ => confined_init init) ?_
  intro s s' a previous confined _ taken authentic
  have before := authentic_before taken authentic
  exact confined_step before (sound_reach previous) (confined before) taken

/-- Whoever writes over the ciphertexts, without the key: what a run reads, or a download hands out,
for a row was held for that row, or for all of its job's; and of a job's downloads one at most hands
anything out. -/
theorem passwords_confined (authentic : (aes key).Authentic s.Bound)
    (reach : (heldPasswords aes key).Reachable s) :
    (∀ r ∈ s.readings, ∀ p, r.gave = .ok (some p) → ⟨r.jobId, some r.rowId, p⟩ ∈ s.holdings ∨
      ⟨r.jobId, none, p⟩ ∈ s.holdings) ∧
      (∀ d ∈ s.downloads, ∀ got, d.gave = .ok got → ∀ row p, got.gives row = some p →
        ⟨d.jobId, row, p⟩ ∈ s.holdings) ∧
      ((s.downloads.filter fun d => isOk d.gave).map Download.jobId).Nodup := by
  have confined := confined_reach reach authentic
  exact ⟨confined.readings, confined.downloads, handed_once reach⟩

end

/-- Two accounts' passwords, one's ciphertext copied over the other's. -/
def copiedOver : List Action :=
  [.insert 2 none firstIv, .hold 1 1 (text "Qx7") firstIv, .hold 1 2 (text "Zr4") firstIv,
    .tamper 1 (some 2)
      (encrypt (fun _ => clearGcm) clearKey firstIv (text "Qx7") (some (bindingOf 1 (some 1)))),
    .read 1 1, .read 1 2, .download 1 5 true]

theorem copied_confined : ∃ s, (heldPasswords (fun _ => clearGcm) clearKey).run noTables copiedOver = some s ∧
    s.readings.map (fun r => isOk r.gave) = [true, false] ∧ s.downloads.map (fun d => isOk d.gave) = [false] ∧
    ∀ r ∈ s.readings, ∀ p, r.gave = .ok (some p) → ⟨r.jobId, some r.rowId, p⟩ ∈ s.holdings ∨
      ⟨r.jobId, none, p⟩ ∈ s.holdings := by
  have ran : ((heldPasswords (fun _ => clearGcm) clearKey).run noTables copiedOver).any
      (fun s => s.readings.map (fun r => isOk r.gave) = [true, false] ∧
        s.downloads.map (fun d => isOk d.gave) = [false]) = true := by
    decide
  obtain ⟨s, reached, read, downloaded⟩ := Transition.System.exists_of_any ran
  have reach : (heldPasswords (fun _ => clearGcm) clearKey).Reachable s :=
    .of_run (.start ⟨rfl, rfl, rfl, rfl, rfl, rfl, rfl⟩) reached Transition.System.meetsAlong_true
  exact ⟨s, reached, read, downloaded, (passwords_confined (clear_authentic _) reach).1⟩

end OpenAduc.HeldPasswords
