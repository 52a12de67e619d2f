import OpenAduc.ImportRows.Rows

namespace OpenAduc.ImportRows
open Dialogue (Keeps keeps_pure keeps_throw keeps_call)

/-- The memberships the exchanges say were made. -/
def added (past : List Said) : List (String × String) := past.flatMap Said.adds

def Question.writesMembership : Question → Bool
  | .writeMembership .. => true
  | _ => false

/-- Memberships are written only where `may` holds. -/
def Asks (may : Prop) (_ : List Said) (q : Question) : Prop := q.writesMembership = true → may

section
variable {may : Prop} {past : List Said} {α β : Type} {R : α → Prop} {S : β → Prop} {m : Asking α}
    {f : α → Asking β}

theorem added_append (past more : List Said) : added (past ++ more) = added past ++ added more :=
  List.flatMap_append

/-- It writes to no group, and what it comes to meets `R`. -/
def Quiet (R : α → Prop) (m : Asking α) : Prop :=
  ∀ past, Keeps (Asks False) (fun later r => added later = added past ∧ ∀ a, r = .ok a → R a) past m

theorem quiet_pure {a : α} (meets : R a) : Quiet R (pure a : Asking α) := fun _ =>
  keeps_pure ⟨rfl, fun _ same => Except.ok.inj same ▸ meets⟩

theorem quiet_throw {e : Thrown} : Quiet R (throw e : Asking α) :=
  fun _ => keeps_throw ⟨rfl, fun _ same => nomatch same⟩

theorem adds_other {q : Question} {x : Except Thrown q.Answer}
    (other : q.writesMembership = false) : Said.adds ⟨q, x⟩ = [] := by
  cases q with
  | writeMembership => cases other
  | _ => rfl

theorem quiet_call {q : Question} (other : q.writesMembership = false) :
    Quiet (fun _ => True) (Dialogue.call q : Asking q.Answer) := by
  intro past
  refine keeps_call (fun writes => ?_) fun x => ⟨?_, fun _ _ => trivial⟩
  · rw [other] at writes
    cases writes
  · rw [added_append, added, added, List.flatMap_singleton, adds_other other, List.append_nil]

theorem Quiet.bind (first : Quiet R m) (rest : ∀ a, R a → Quiet S (f a)) : Quiet S (m >>= f) := by
  intro past
  refine (first past).chain (fun more a held => ?_) fun more e held => ⟨held.1, fun _ same => nomatch same⟩
  refine (rest a (held.2 a rfl) _).mono (fun _ _ => id) fun _ r kept => ?_
  exact ⟨kept.1.trans held.1, kept.2⟩

theorem Quiet.then (first : Quiet R m) (rest : ∀ a, Quiet S (f a)) : Quiet S (m >>= f) :=
  first.bind fun a _ => rest a

theorem Quiet.tryCatch {handler : Thrown → Asking α} (first : Quiet R m) (rest : ∀ e, Quiet R (handler e)) :
    Quiet R (tryCatch m handler) := by
  intro past
  refine (first past).catching (fun more a held => held) fun more e held => ?_
  exact (rest e _).mono (fun _ _ => id) fun _ r kept => ⟨kept.1.trans held.1, kept.2⟩

theorem quiet_askDatabase {q : Question} (other : q.writesMembership = false) :
    Quiet (fun _ => True) (askDatabase q) :=
  (quiet_call other).tryCatch fun _ => quiet_throw

theorem Quiet.mono {R' : α → Prop} (quiet : Quiet R m) (weaken : ∀ a, R a → R' a) : Quiet R' m := fun past =>
  (quiet past).mono (fun _ _ => id) fun _ _ kept => ⟨kept.1, fun a same => weaken a (kept.2 a same)⟩

theorem Quiet.any (quiet : Quiet R m) : Quiet (fun _ => True) m := quiet.mono fun _ _ => trivial

theorem Quiet.attempt (quiet : Quiet R m) : Quiet (fun r => ∀ a, r = .ok a → R a) (attempt m) := by
  refine Quiet.tryCatch (quiet.bind fun a held => quiet_pure fun b same => ?_) fun e =>
    quiet_pure fun _ same => nomatch same
  exact Except.ok.inj same ▸ held

/-- As part of a run that may write to groups. -/
theorem Quiet.keeps (quiet : Quiet R m) {P : List Said → Except Thrown α → Prop}
    (ok : ∀ more a, added (past ++ more) = added past → R a → P (past ++ more) (.ok a))
    (error : ∀ more e, added (past ++ more) = added past → P (past ++ more) (.error e)) :
    Keeps (Asks may) P past m := by
  refine (quiet past).mono (fun _ _ none_ writes => (none_ writes).elim) fun more r held => ?_
  cases r with
  | ok a => exact ok more a held.1 (held.2 a rfl)
  | error e => exact error more e held.1

end

section
variable {lower : Lower} {α : Type} {R : α → Prop}

theorem quiet_withAudit {base : AuditEvent} {of : α → WriteOpResult} {op : Asking α} (quiet : Quiet R op) :
    Quiet R (withAudit base of op) := by
  refine quiet.attempt.bind fun r held => ?_
  cases r with
  | ok result => exact (quiet_askDatabase rfl).then fun _ => quiet_pure (held result rfl)
  | error err => exact (quiet_askDatabase rfl).then fun _ => quiet_throw

theorem quiet_createdBefore (input : RowInput) :
    Quiet (fun found => ∀ progress, found = some progress → progress.groups = [])
      (createdBefore lower input) := by
  refine (quiet_askDatabase rfl).then fun create => ?_
  cases create with
  | none => exact quiet_pure fun _ same => nomatch same
  | some create => exact quiet_pure fun _ same => Option.some.inj same ▸ rfl

theorem quiet_adopt (input : RowInput) (job : JobFacts) :
    Quiet (fun found => ∀ progress, found = some progress → progress.groups = [])
      (adopt lower input job) := by
  refine (quiet_call rfl).then fun found => ?_
  cases found with
  | none => exact quiet_pure fun _ same => nomatch same
  | some found =>
    refine (quiet_call rfl).then fun account => ?_
    split
    · exact quiet_pure fun _ same => Option.some.inj same ▸ rfl
    · exact quiet_pure fun _ same => nomatch same

theorem quiet_findByName (progress : ImportRowProgress) (input : RowInput) :
    Quiet (fun _ => True) (findByName lower progress input) := by
  refine (quiet_call rfl).then fun byDn => ?_
  cases byDn with
  | some byDn => exact quiet_pure trivial
  | none => exact (quiet_call rfl).then fun _ => quiet_pure trivial

theorem quiet_findCreated (progress : ImportRowProgress) (input : RowInput) :
    Quiet (fun _ => True) (findCreated lower progress input) := by
  unfold findCreated
  split
  · exact quiet_findByName progress input
  · refine (quiet_call rfl).then fun byId => ?_
    cases byId with
    | some byId => exact quiet_pure trivial
    | none => exact quiet_findByName progress input

theorem quiet_randomly (fallback : Bool) : Quiet (fun _ => True) (randomly fallback) :=
  (quiet_call rfl).then fun _ => quiet_pure trivial

/-- Finding the password writes to no group. -/
theorem quiet_passwordFor (row : Row) (job : JobFacts) : Quiet (fun _ => True) (passwordFor row job) := by
  unfold passwordFor
  dsimp only
  split
  · exact quiet_randomly false
  · split
    · exact quiet_randomly true
    · refine (quiet_askDatabase rfl).then fun held => ?_
      cases held with
      | some held => exact quiet_pure trivial
      | none =>
        dsimp only
        split
        · exact quiet_randomly true
        · exact (quiet_call rfl).then fun _ => (quiet_askDatabase rfl).then fun _ => quiet_pure trivial

theorem quiet_orRead {known : Option α} {m : Asking (Option α)} (quiet : Quiet (fun _ => True) m) :
    Quiet (fun _ => True) (orRead known m) := by
  cases known with
  | some a => exact quiet_pure trivial
  | none => exact quiet.tryCatch fun _ => quiet_pure trivial

theorem quiet_readBack (r : UserCreateResult) (dn : String) : Quiet (fun _ => True) (readBack r dn) := by
  unfold readBack
  split
  · exact quiet_pure trivial
  · have user : Quiet (fun _ => True) (Asking.getUser (.distinguishedName dn)) := quiet_call rfl
    have fingerprint : Quiet (fun _ => True)
      (Asking.getAccountFingerprint (.distinguishedName dn)) := quiet_call rfl
    exact (quiet_orRead user).then fun _ => (quiet_orRead fingerprint).then fun _ => quiet_pure trivial

theorem quiet_usageLocationWritable (input : RowInput) :
    Quiet (fun _ => True) (usageLocationWritable input) := by
  unfold usageLocationWritable
  split
  · exact quiet_call rfl
  · exact quiet_pure trivial

/-- What a run leaves of an account it creates: one just created is in no group yet, and one that
isn't created leaves nothing. -/
def Ungrouped : Created → Prop
  | .ok progress _ _ => progress.groups = []
  | .refused outcome => outcome.after = none

theorem quiet_createAccount (row : Row) (planned : List UserCreation.UserCreateStep)
    (job : JobFacts) (correlationId : Option String) :
    Quiet Ungrouped (createAccount row planned job correlationId) := by
  refine (quiet_passwordFor row job).then fun used =>
    (quiet_usageLocationWritable row.input).then fun writable => ?_
  have written (create : UserCreateInput) : Quiet (fun _ => True) (do
      readBack (← Asking.createUser create planned used.password used.mustChange) (plannedDn row.input)) :=
    (quiet_call rfl).then fun r => quiet_readBack r _
  refine (quiet_withAudit (written _)).then fun r => ?_
  split
  · exact quiet_pure rfl
  · exact quiet_pure rfl

theorem quiet_passwordIfLeft (row : Row) (steps : List UserCreation.UserCreateStep) (job : JobFacts) :
    Quiet (fun _ => True) (passwordIfLeft row steps job) := by
  unfold passwordIfLeft
  split
  · exact (quiet_passwordFor row job).then fun _ => quiet_pure trivial
  · exact quiet_pure trivial

theorem quiet_finishAccount (row : Row) (user : DirectoryUser)
    (steps planned : List UserCreation.UserCreateStep)
    (progress : ImportRowProgress) (job : JobFacts) :
    Quiet (fun _ => True) (finishAccount row user steps planned progress job) := by
  refine (quiet_passwordIfLeft row steps job).then fun used => ?_
  exact (quiet_withAudit ((quiet_call rfl).then fun r => quiet_readBack _ _)).then fun r => quiet_pure trivial

theorem quiet_refresh (objectGuid : String) : Quiet (fun _ => True) (refresh objectGuid) := by
  refine (quiet_call rfl).then fun live => ?_
  cases live with
  | none => exact (quiet_askDatabase rfl).then fun _ => quiet_pure trivial
  | some live => exact (quiet_askDatabase rfl).then fun _ => quiet_pure trivial

theorem quiet_refreshMembershipCache (userId : String) :
    Quiet (fun _ => True) (refreshMembershipCache userId) := by
  refine Quiet.tryCatch ((quiet_refresh userId).then fun after => ?_) fun err => ?_
  · cases after with
    | none => exact quiet_pure trivial
    | some after => exact quiet_askDatabase rfl
  · split
    · exact quiet_pure trivial
    · exact quiet_throw

theorem quiet_findCachedGroups (ids : List String) : Quiet (fun _ => True) (findCachedGroups ids) := by
  unfold findCachedGroups
  split
  · exact quiet_pure trivial
  · exact quiet_askDatabase rfl

theorem quiet_writeManager (user : DirectoryUser) (managerDn : String) :
    Quiet (fun _ => True) (writeManager lower user managerDn) := by
  unfold writeManager
  split
  · exact quiet_throw
  · refine (quiet_call rfl).then fun manager => ?_
    cases manager with
    | none => exact quiet_throw
    | some manager =>
      refine (quiet_withAudit (quiet_call rfl)).then fun r => ?_
      split
      · exact (quiet_refresh user.objectGuid).then fun _ => quiet_pure trivial
      · exact quiet_pure trivial

/-- Pointing at the manager writes to no group. -/
theorem quiet_pointAt (user : DirectoryUser) (input : RowInput) (managerId : String) :
    Quiet (fun _ => True) (pointAt lower user input managerId) := by
  refine (quiet_call rfl).then fun found => ?_
  cases found with
  | none => exact quiet_pure trivial
  | some managerDn =>
    dsimp only
    split
    · exact quiet_pure trivial
    · refine ((quiet_writeManager user managerDn).attempt.any).then fun r => ?_
      split
      · exact quiet_pure trivial
      · exact quiet_pure trivial
      · exact quiet_pure trivial
      · exact quiet_pure trivial
      · exact quiet_throw

theorem quiet_setManager (user : DirectoryUser) (input : RowInput) :
    Quiet (fun _ => True) (setManager lower user input) := by
  unfold setManager
  split
  · refine (quiet_askDatabase rfl).then fun manager => ?_
    split
    · exact quiet_pointAt user input _
    · exact quiet_pure trivial
  · split
    · exact quiet_pointAt user input _
    · exact quiet_pure trivial

theorem quiet_accountOf (user : Option DirectoryUser) (progress : ImportRowProgress) (input : RowInput) :
    Quiet (fun _ => True) (accountOf lower user progress input) := by
  cases user with
  | some user => exact quiet_pure trivial
  | none => exact quiet_findCreated progress input

theorem quiet_readLive (user : Option DirectoryUser) : Quiet (fun _ => True) (readLive user) := by
  cases user with
  | none => exact quiet_pure trivial
  | some user => exact (quiet_refresh user.objectGuid).then fun live => quiet_pure trivial

/-- What's found of earlier runs is what the row stored; where it stored nothing, that lists no groups. -/
def Found (row : Row) : Option ImportRowProgress → Prop
  | some progress => row.after = some progress ∨ row.after = none ∧ progress.groups = []
  | none => row.after = none

/-- Looking for what earlier runs left writes to no group. -/
theorem quiet_earlierRuns (row : Row) (job : JobFacts) : Quiet (Found row) (earlierRuns lower row job) := by
  unfold earlierRuns
  split
  next progress stored => exact quiet_pure (.inl stored)
  next stored =>
    have ungrouped (found : Option ImportRowProgress)
      (none_ : ∀ progress, found = some progress → progress.groups = []) :
        Found row found := by
      cases found with
      | none => exact stored
      | some progress => exact .inr ⟨stored, none_ progress rfl⟩
    refine (quiet_createdBefore row.input).bind fun found none_ => ?_
    cases found with
    | some progress => exact quiet_pure (ungrouped (some progress) none_)
    | none =>
      dsimp only
      split
      · exact (quiet_adopt row.input job).mono ungrouped
      · exact quiet_pure stored

/-- Finishing an account keeps its groups, and every step done. -/
theorem quiet_resume (row : Row) (job : JobFacts) (progress : ImportRowProgress) :
    Quiet (fun found => ∀ standing, found = some standing → standing.progress.groups = progress.groups ∧
      ∀ s ∈ progress.completed, s ∈ standing.progress.completed) (resume lower row job progress) := by
  refine (quiet_findCreated _ row.input).then fun found => ?_
  cases found with
  | none => exact quiet_pure fun _ same => nomatch same
  | some user =>
    dsimp only
    split
    · refine quiet_pure fun standing same => ?_
      rw [← Option.some.inj same]
      exact ⟨rfl, fun _ => id⟩
    · refine (quiet_finishAccount row user _ _ _ job).then fun finished => quiet_pure fun standing same => ?_
      rw [← Option.some.inj same]
      exact ⟨rfl, fun s done => mem_mergeSteps.mpr (.inl done)⟩

end

end OpenAduc.ImportRows
