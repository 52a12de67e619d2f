import Mathlib.Data.List.Basic

namespace Traverse
universe u v w
variable {α : Type u} {β : Type v} {ε : Type w} {f : α → Except ε β} {l : List α} {out : List β}

theorem mapM_cons_ok {a : α} (ran : (a :: l).mapM f = .ok out) :
    ∃ b more, f a = .ok b ∧ l.mapM f = .ok more ∧ out = b :: more := by
  simp only [List.mapM_cons, bind, Except.bind, pure, Except.pure] at ran
  split at ran
  · cases ran
  next b first =>
    split at ran
    · cases ran
    next more rest =>
      cases ran
      exact ⟨b, more, first, rest, rfl⟩

@[simp] theorem mapM_nil_ok : ([] : List α).mapM f = .ok out ↔ out = [] := by
  constructor
  · intro ran
    cases ran
    rfl
  · rintro rfl
    rfl

/-- Every output is an input's. -/
theorem exists_input (ran : l.mapM f = .ok out) : ∀ b ∈ out, ∃ a ∈ l, f a = .ok b := by
  induction l generalizing out with
  | nil => simp [mapM_nil_ok.mp ran]
  | cons a rest ih =>
    obtain ⟨b, more, first, others, rfl⟩ := mapM_cons_ok ran
    intro d member
    rcases List.mem_cons.mp member with rfl | member
    · exact ⟨a, List.mem_cons_self, first⟩
    · obtain ⟨c, inside, found⟩ := ih others d member
      exact ⟨c, List.mem_cons_of_mem _ inside, found⟩

/-- Every input has an output. -/
theorem exists_output (ran : l.mapM f = .ok out) : ∀ a ∈ l, ∃ b ∈ out, f a = .ok b := by
  induction l generalizing out with
  | nil => simp
  | cons a rest ih =>
    obtain ⟨b, more, first, others, rfl⟩ := mapM_cons_ok ran
    intro c member
    rcases List.mem_cons.mp member with rfl | member
    · exact ⟨b, List.mem_cons_self, first⟩
    · obtain ⟨d, inside, made⟩ := ih others c member
      exact ⟨d, List.mem_cons_of_mem _ inside, made⟩

end Traverse
