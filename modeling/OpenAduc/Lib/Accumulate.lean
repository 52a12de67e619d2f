import Mathlib.Data.List.Pairwise

namespace Accumulate
universe u v w x
variable {σ : Type u} {α : Type v} {β : Type w} {ε : Type x} (f : σ → α → Except ε (β × σ))

def outputs : σ → List α → Except ε (List β)
  | _, [] => .ok []
  | s, a :: rest =>
    match f s a with
    | .error e => .error e
    | .ok (b, s) =>
      match outputs s rest with
      | .error e => .error e
      | .ok bs => .ok (b :: bs)

/-- What is left after these inputs and their outputs, where an output says what it leaves. -/
def after (next : σ → α → β → σ) (s : σ) (done : List (α × β)) : σ :=
  done.foldl (fun s x => next s x.1 x.2) s

variable {f}

theorem outputs_cons {s : σ} {a : α} {rest : List α} {bs : List β} (ran : outputs f s (a :: rest) = .ok bs) :
    ∃ b s' more, f s a = .ok (b, s') ∧ outputs f s' rest = .ok more ∧ bs = b :: more := by
  simp only [outputs] at ran
  split at ran
  · cases ran
  next b s' stepped =>
    split at ran
    · cases ran
    next more rest' =>
      cases ran
      exact ⟨b, s', more, stepped, rest', rfl⟩

theorem exists_outputs (total : ∀ s a, ∃ r, f s a = .ok r) (s : σ) (as : List α) :
    ∃ bs, outputs f s as = .ok bs := by
  induction as generalizing s with
  | nil => exact ⟨[], rfl⟩
  | cons a rest ih =>
    obtain ⟨⟨b, s'⟩, stepped⟩ := total s a
    obtain ⟨more, ran⟩ := ih s'
    exact ⟨b :: more, by simp [outputs, stepped, ran]⟩

theorem outputs_length {s : σ} {as : List α} {bs : List β} (ran : outputs f s as = .ok bs) :
    bs.length = as.length := by
  induction as generalizing s bs with
  | nil =>
    cases ran
    rfl
  | cons a rest ih =>
    obtain ⟨b, s', more, _, ran', rfl⟩ := outputs_cons ran
    simp [ih ran']

/-- Each output is the step's at what the inputs before it left. -/
theorem exists_step {next : σ → α → β → σ} (leaves : ∀ s a b s', f s a = .ok (b, s') → s' = next s a b)
    {s : σ} {as : List α} {bs : List β} (ran : outputs f s as = .ok bs)
    {before rest : List (α × β)} {a : α} {b : β} (split : as.zip bs = before ++ (a, b) :: rest) :
    ∃ s', f (after next s before) a = .ok (b, s') := by
  induction before generalizing s as bs with
  | nil =>
    cases as with
    | nil => simp at split
    | cons first others =>
      obtain ⟨b', s', more, stepped, _, rfl⟩ := outputs_cons ran
      simp only [List.zip_cons_cons, List.nil_append, List.cons.injEq, Prod.mk.injEq] at split
      obtain ⟨⟨rfl, rfl⟩, _⟩ := split
      exact ⟨s', stepped⟩
  | cons done before ih =>
    cases as with
    | nil => simp at split
    | cons first others =>
      obtain ⟨b', s', more, stepped, ran', rfl⟩ := outputs_cons ran
      simp only [List.zip_cons_cons, List.cons_append, List.cons.injEq] at split
      obtain ⟨rfl, split⟩ := split
      have left := leaves _ _ _ _ stepped
      subst left
      exact ih ran' split

/-- Two steps that give one output, and keep what they leave related, give one list. -/
theorem outputs_congr {g : σ → α → Except ε (β × σ)} {R : σ → σ → Prop}
    {as : List α} (agree : ∀ s t, ∀ a ∈ as, R s t →
      (∃ e, f s a = .error e ∧ g t a = .error e) ∨ ∃ b s' t', f s a = .ok (b, s') ∧ g t a = .ok
    (b, t') ∧ R s' t')
    {s t : σ} (related : R s t) : outputs f s as = outputs g t as := by
  induction as generalizing s t with
  | nil => rfl
  | cons a rest ih =>
    obtain ⟨e, left, right⟩ | ⟨b, s', t', left, right, related'⟩ := agree s t a List.mem_cons_self related
    · simp [outputs, left, right]
    · have rest' := ih (fun s t a member => agree s t a (List.mem_cons_of_mem _ member)) related'
      simp only [outputs, left, right, rest']

/-- Whatever each element has with all before it, they have pairwise. -/
theorem pairwise_of_before {R : α → α → Prop} {l : List α}
    (each : ∀ before a rest, l = before ++ a :: rest → ∀ b ∈ before, R b a) : l.Pairwise R := by
  induction l with
  | nil => exact .nil
  | cons a l ih =>
    refine .cons ?_ (ih fun before c rest split b member =>
      each (a :: before) c rest (by rw [split]; rfl) b (.tail _ member))
    intro c member
    obtain ⟨before, rest, split⟩ := List.append_of_mem member
    exact each (a :: before) c rest (by rw [split]; rfl) a List.mem_cons_self

end Accumulate
