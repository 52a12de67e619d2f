import Mathlib.Data.List.Basic

namespace Transition
universe u v
variable {σ : Type u} {α : Type v}

/-- A labelled system: `step s a` is the state action `a` leads to from `s`,
and `none` where `a` cannot happen or changes nothing because it is refused. -/
structure System (σ : Type u) (α : Type v) where
  init : σ → Prop
  step : σ → α → Option σ

namespace System
variable (S : System σ α) (meets : σ → α → Prop)

/-- The states some run reaches whose every action `meets` the condition in
the state it is taken in. -/
inductive Reach : σ → Prop
  | start {s} : S.init s → Reach s
  | next {s t a} : Reach s → meets s a → S.step s a = some t → Reach t

/-- The states any run reaches. -/
abbrev Reachable : σ → Prop := S.Reach fun _ _ => True

/-- One state reached from another, every action on the way meeting the condition. -/
inductive Path : σ → σ → Prop
  | refl {s} : Path s s
  | tail {s t u a} : Path s t → meets t a → S.step t a = some u → Path s u

/-- The state a list of actions leads to, in order. -/
def run (s : σ) : List α → Option σ
  | [] => some s
  | a :: as => (S.step s a).bind fun t => run t as

variable {S meets}

/-- An invariant of one step that meets the condition, with the reachability
of the state it is taken in, is an invariant of the whole run. -/
theorem Reach.invariant {P : σ → Prop} {s : σ} (reach : S.Reach meets s)
    (start : ∀ s, S.init s → P s)
    (next : ∀ s t a, S.Reach meets s → P s → meets s a → S.step s a = some t → P t) : P s := by
  induction reach with
  | start init => exact start _ init
  | next previous met taken ih => exact next _ _ _ previous ih met taken

theorem Reach.mono {weaker : σ → α → Prop} {s : σ} (reach : S.Reach meets s)
    (weaken : ∀ s a, meets s a → weaker s a) : S.Reach weaker s :=
  reach.invariant (fun _ => .start) fun _ _ _ _ ih met taken => .next ih (weaken _ _ met) taken

theorem Path.mono {weaker : σ → α → Prop} {s t : σ} (path : S.Path meets s t)
    (weaken : ∀ s a, meets s a → weaker s a) :
    S.Path weaker s t := by
  induction path with
  | refl => exact .refl
  | tail _ met taken ih => exact .tail ih (weaken _ _ met) taken

theorem Reach.reachable {s : σ} (reach : S.Reach meets s) : S.Reachable s :=
  reach.mono fun _ _ _ => trivial

theorem Reach.path {s t : σ} (reach : S.Reach meets s) (path : S.Path meets s t) : S.Reach meets t := by
  induction path with
  | refl => exact reach
  | tail _ met taken ih => exact .next ih met taken

/-- What a reachable state's steps preserve holds at the end of every path from it. -/
theorem Path.invariant {P : σ → Prop} {s t : σ} (reach : S.Reach meets s) (path : S.Path meets s t)
    (holds : P s)
    (next : ∀ s t a, S.Reach meets s → P s → meets s a → S.step s a = some t → P t) : P t := by
  induction path with
  | refl => exact holds
  | tail previous met taken ih => exact next _ _ _ (reach.path previous) ih met taken

/-- Every action of a list meets the condition in the state it is taken in. -/
def MeetsAlong (meets : σ → α → Prop) (s : σ) : List α → Prop
  | [] => True
  | a :: as => meets s a ∧ ∀ t ∈ S.step s a, MeetsAlong meets t as

instance MeetsAlong.decidable [∀ s a, Decidable (meets s a)] :
    ∀ (s : σ) (as : List α), Decidable (S.MeetsAlong meets s as)
  | _, [] => inferInstanceAs (Decidable True)
  | s, a :: as =>
    have := fun t => MeetsAlong.decidable t as
    inferInstanceAs (Decidable (meets s a ∧ ∀ t ∈ S.step s a, S.MeetsAlong meets t as))

theorem Path.head {s t u : σ} {a : α} (met : meets s a) (taken : S.step s a = some t)
    (path : S.Path meets t u) : S.Path meets s u := by
  induction path with
  | refl => exact .tail .refl met taken
  | tail _ last step ih => exact .tail ih last step

/-- A list of actions that runs through is a path to its last state. -/
theorem Path.of_run {s t : σ} {as : List α} (ran : S.run s as = some t) (met : S.MeetsAlong meets s as) :
    S.Path meets s t := by
  induction as generalizing s with
  | nil =>
    cases Option.some.inj ran
    exact .refl
  | cons a as ih =>
    obtain ⟨mid, taken, rest⟩ := Option.bind_eq_some_iff.mp ran
    exact .head met.1 taken (ih rest (met.2 mid taken))

theorem Reach.of_run {s t : σ} {as : List α} (reach : S.Reach meets s) (ran : S.run s as = some t)
    (met : S.MeetsAlong meets s as) : S.Reach meets t :=
  reach.path (.of_run ran met)

theorem run_append {s : σ} {as bs : List α} : S.run s (as ++ bs) = (S.run s as).bind fun t => S.run t bs := by
  induction as generalizing s with
  | nil => rfl
  | cons a as ih =>
    rw [List.cons_append, run, run]
    cases S.step s a with
    | none => rfl
    | some t => exact ih

theorem run_one {s : σ} {a : α} : S.run s [a] = S.step s a := by
  rw [run]
  cases S.step s a <;> rfl

section
variable {τ : Type*} {β : Type*} {V : System τ β} {R : σ → τ → Prop}

/-- What a list of actions means to another system: each step's actions there, from the state it is
taken in. -/
def translate (S : System σ α) (mean : σ → α → List β) (s : σ) : List α → List β
  | [] => []
  | a :: as => mean s a ++ ((S.step s a).map fun t => translate S mean t as).getD []

/-- A system whose every step another one follows by what it means there stays in step with it. -/
theorem Reach.simulated {mean : σ → α → List β} {s t : σ} {v : τ} {as : List α} (reach : S.Reach meets s)
    (ran : S.run s as = some t) (met : S.MeetsAlong meets s as) (related : R s v)
    (next : ∀ s t a v, S.Reach meets s → meets s a → S.step s a = some t → R s v →
      ∃ w, V.run v (mean s a) = some w ∧ R t w) :
    ∃ w, V.run v (S.translate mean s as) = some w ∧ R t w := by
  induction as generalizing s v with
  | nil =>
    cases Option.some.inj ran
    exact ⟨v, rfl, related⟩
  | cons a as ih =>
    obtain ⟨mid, taken, rest⟩ := Option.bind_eq_some_iff.mp ran
    obtain ⟨u, followed, related'⟩ := next s mid a v reach met.1 taken related
    obtain ⟨w, followed', related''⟩ := ih (.next reach met.1 taken) rest (met.2 mid taken) related'
    refine ⟨w, ?_, related''⟩
    rw [translate, taken, Option.map_some, Option.getD_some, run_append, followed]
    exact followed'

end

/-- A condition on the actions alone is met along any list of actions that meet it. -/
theorem MeetsAlong.of_forall {s : σ} {as : List α} (all : ∀ a ∈ as, ∀ s, meets s a) :
    S.MeetsAlong meets s as := by
  induction as generalizing s with
  | nil => trivial
  | cons a as ih =>
    exact ⟨all a List.mem_cons_self s, fun _ _ => ih fun b member => all b (List.mem_cons_of_mem _ member)⟩

theorem MeetsAlong.and {other : σ → α → Prop} {s : σ} {as : List α} (one : S.MeetsAlong meets s as)
    (both : S.MeetsAlong other s as) : S.MeetsAlong (fun s a => meets s a ∧ other s a) s as := by
  induction as generalizing s with
  | nil => trivial
  | cons a as ih => exact ⟨⟨one.1, both.1⟩, fun t taken => ih (one.2 t taken) (both.2 t taken)⟩

/-- Conditions that agree at every step agree along every list of actions. -/
theorem meetsAlong_congr {other : σ → α → Prop} (same : ∀ s a, meets s a ↔ other s a) {s : σ} {as : List α} :
    S.MeetsAlong meets s as ↔ S.MeetsAlong other s as := by
  induction as generalizing s with
  | nil => rfl
  | cons a as ih => exact and_congr (same s a) (forall₂_congr fun _ _ => ih)

theorem meetsAlong_true {s : σ} {as : List α} : S.MeetsAlong (fun _ _ => True) s as :=
  .of_forall fun _ _ _ => trivial

/-- A run that ends in a state a test accepts. -/
theorem exists_of_any {o : Option σ} {p : σ → Prop} [DecidablePred p] (ran : o.any (p ·) = true) :
    ∃ t, o = some t ∧ p t := by
  cases o with
  | none => cases ran
  | some t => exact ⟨t, rfl, of_decide_eq_true ran⟩

theorem Reachable.exists_of_run {s : σ} {as : List α} {p : σ → Prop} [DecidablePred p]
    (reach : S.Reachable s) (ran : (S.run s as).any (p ·) = true) : ∃ t, S.Reachable t ∧ p t := by
  obtain ⟨t, reached, holds⟩ := exists_of_any ran
  exact ⟨t, reach.of_run reached meetsAlong_true, holds⟩

end System
end Transition
