import OpenAduc.ImportRows.Owned

namespace OpenAduc.ImportRows
open BulkJobs (RowOutcome)
open UserCreation (UserCreateStep remainingSteps)
open Relation (ReflTransGen)
open Dialogue (Only Outside only_pure only_throw)

/-- The directory and the database as a run asks them, others' changes between. -/
def outside (set : Setting) : Outside Question Question.Answer Thrown World where
  drifts w w' := ∃ c, w.changed set c = some w'
  answers w q x w' := w.Settled set ∧ w.Linked ∧ ∃ made stored, w.answered set q x made stored = some w'

variable {set : Setting} {w w' w₁ w₂ : World} {α β : Type} {R R' : World → α → Prop}
    {S : World → β → Prop} {m : Asking α}
  {f : α → Asking β}

theorem grows_of_drifts (drifts : ReflTransGen (outside set).drifts w w') : w.Grows w' := by
  induction drifts with
  | refl => exact .refl w
  | tail _ step ih =>
    obtain ⟨c, changed⟩ := step
    exact ih.trans (grows_of_changed changed)

/-- It asks as a run may and leaves all a run relies on, and what it returns meets `R`. -/
def Calm (set : Setting) (R : World → α → Prop) (w : World) (m : Asking α) : Prop :=
  (outside set).Holds Guard (fun w' r => w.Grows w' ∧ ∀ a, r = .ok a → R w' a) w m

theorem calm_pure {a : α} (meets : ∀ w', w.Grows w' → R w' a) : Calm set R w (pure a) :=
  Outside.holds_pure fun w' later =>
    ⟨grows_of_drifts later, fun _ same => Except.ok.inj same ▸ meets w' (grows_of_drifts later)⟩

theorem calm_throw {e : Thrown} : Calm set R w (throw e) :=
  Outside.holds_throw fun _ later => ⟨grows_of_drifts later, fun _ same => nomatch same⟩

theorem Calm.mono (calm : Calm set R w m) (weaken : ∀ w' a, w.Grows w' → R w' a → R' w' a) :
    Calm set R' w m :=
  Outside.Holds.mono calm (fun _ _ => id) fun w' _ held =>
    ⟨held.1, fun a same => weaken w' a held.1 (held.2 a same)⟩

theorem Calm.bind (first : Calm set R w m)
    (rest : ∀ w' a, w.Grows w' → R w' a → Calm set S w' (f a)) : Calm set S w (m >>= f) := by
  refine first.chain (fun w' a held => ?_) fun w' e held => ⟨held.1, fun _ same => nomatch same⟩
  exact Outside.Holds.mono (rest w' a held.1 (held.2 a rfl)) (fun _ _ => id) fun _ _ held' =>
    ⟨held.1.trans held'.1, held'.2⟩

theorem Calm.tryCatch {handler : Thrown → Asking α} (first : Calm set R w m)
    (rest : ∀ w' e, w.Grows w' → Calm set R w' (handler e)) :
    Calm set R w (tryCatch m handler) := by
  refine first.catching (fun _ _ held => held) fun w' e held => ?_
  exact Outside.Holds.mono (rest w' e held.1) (fun _ _ => id) fun _ _ held' => ⟨held.1.trans held'.1, held'.2⟩

/-- A question that neither creates nor records. -/
theorem calm_call {q : Question} {R : World → q.Answer → Prop}
    (creates : ∀ input steps password mustChange, q ≠ .createUser input steps password mustChange)
    (records : ∀ event, q ≠ .recordEvent event) (guard : ∀ w', w.Grows w' → Guard w' q)
    (meets : ∀ w₁ w₂ a, w.Grows w₁ → w₁.Settled set → w₁.Linked → w₁.backs set q (.ok a) = true →
      w₁.Grows w₂ → R w₂ a) :
    Calm set R w (Dialogue.call q) := by
  refine Outside.holds_call (fun w' later => guard w' (grows_of_drifts later))
    fun w₁ x w₁' w₂ later answers after => ?_
  obtain ⟨settled, linked, made, stored, answered⟩ := answers
  obtain ⟨rfl, backs⟩ := backed_of_answered creates records answered
  refine ⟨(grows_of_drifts later).trans (grows_of_drifts after), fun a same => ?_⟩
  rw [same] at backs
  exact meets w₁' w₂ a (grows_of_drifts later) settled linked backs (grows_of_drifts after)

/-- A part that only asks what changes nothing, where it may. -/
theorem calm_of_only {may : Question → Prop} {R : α → Prop} (only : Only may R m)
    (harmless : ∀ w', w.Grows w' → ∀ q, may q → Guard w' q ∧
      ∀ x made stored w₂, w'.answered set q x made stored = some w₂ → w₂ = w') :
    Calm set (fun _ => R) w m := by
  induction m generalizing w with
  | done result => exact fun w' later => ⟨grows_of_drifts later, only⟩
  | ask q next ih =>
    refine fun w' later => ?_
    have grows := grows_of_drifts later
    refine ⟨(harmless w' grows q only.1).1, fun x w'' answers => ?_⟩
    obtain ⟨_, _, made, stored, answered⟩ := answers
    rw [(harmless w' grows q only.1).2 x made stored w'' answered]
    refine Outside.Holds.mono (ih x (only.2 x) fun w₁ later => harmless w₁ (grows.trans later))
      (fun _ _ => id) ?_
    exact fun _ _ held => ⟨grows.trans held.1, held.2⟩

theorem Reads.calm (reads : Reads m) : Calm set (fun _ _ => True) w m := by
  refine calm_of_only reads fun w' _ q reads => ?_
  cases q with
  | createUser | finishUserCreate | recordEvent | writeMembership | updateManager => cases reads
  | _ => exact ⟨trivial, fun x made stored w₂ answered =>
    (backed_of_answered (by intros; nofun) (by intros; nofun) answered).1⟩

/-- It writes to no account but this one, and records no create. -/
def Question.touches (guid : String) : Question → Bool
  | .createUser .. | .finishUserCreate .. => false
  | .writeMembership _ other _ | .updateManager other _ => other = guid
  | .recordEvent event => event.createRecord = none
  | _ => true

abbrev Touches {α : Type} (guid : String) (R : α → Prop) (m : Asking α) : Prop :=
  Only (fun q => q.touches guid = true) R m

theorem Reads.touches {guid : String} (reads : Reads m) : Touches guid (fun _ => True) m :=
  reads.mono (fun q reads => by cases q <;> first | rfl | cases reads) fun _ => id

/-- What writes only to an account made for the row may be asked. -/
theorem calm_of_touches {guid : String} {R : α → Prop} (touches : Touches guid R m)
    (made : guid ∈ w.made) : Calm set (fun _ => R) w m := by
  refine calm_of_only touches fun w' grows q touches => ?_
  cases q with
  | createUser | finishUserCreate => cases touches
  | recordEvent event =>
    have none_ : event.createRecord = none := of_decide_eq_true touches
    refine ⟨fun create is => (nomatch none_.symm.trans is), fun x made stored w₂ answered => ?_⟩
    exact (recorded_cases answered).elim id (·.trans (notes_of_none none_))
  | writeMembership | updateManager =>
    refine ⟨?_, fun x made stored w₂ answered =>
      (backed_of_answered (by intros; nofun) (by intros; nofun) answered).1⟩
    show _ ∈ w'.made
    rw [grows.made, of_decide_eq_true touches]
    exact made
  | _ => exact ⟨trivial, fun x made stored w₂ answered =>
    (backed_of_answered (by intros; nofun) (by intros; nofun) answered).1⟩

end OpenAduc.ImportRows
