namespace Exclusion
universe u
variable {α : Type u}

/-- No party is active with one that undoes it, and of those that undo one
party at most one is active. -/
structure Exclusive (undoes : α → α → Prop) (active : α → Prop) : Prop where
  apart : ∀ ⦃u a⦄, undoes u a → active u → ¬active a
  one : ∀ ⦃u v a⦄, undoes u a → undoes v a → active u → active v → u = v

namespace Exclusive
variable {undoes undoes' : α → α → Prop} {active active' : α → Prop}

/-- Parties that stop, and links that go, leave the rest exclusive. -/
theorem fewer (exclusive : Exclusive undoes active) (links : ∀ u a, undoes' u a → undoes u a)
    (stopped : ∀ a, active' a → active a) : Exclusive undoes' active' where
  apart u a link activeU activeA :=
    exclusive.apart (links u a link) (stopped u activeU) (stopped a activeA)
  one u v a linkU linkV activeU activeV :=
    exclusive.one (links u a linkU) (links v a linkV) (stopped u activeU) (stopped v activeV)

/-- One party may start where none that undoes it is active, nor the party it
undoes, nor another that undoes that one. -/
theorem start (exclusive : Exclusive undoes active) {k : α}
    (links : ∀ u a, u ≠ k → undoes' u a → undoes u a) (started : ∀ a, active' a → active a ∨ a = k)
    (proper : ¬undoes' k k) (undone : ∀ u, undoes' u k → ¬active u)
    (undoing : ∀ a, undoes' k a → ¬active a ∧ ∀ u, u ≠ k → undoes' u a → ¬active u) :
    Exclusive undoes' active' where
  apart u a link activeU activeA := by
    by_cases isK : u = k
    · subst isK
      rcases started a activeA with before | rfl
      · exact (undoing a link).1 before
      · exact proper link
    · have beforeU := (started u activeU).resolve_right isK
      rcases started a activeA with before | rfl
      · exact exclusive.apart (links u a isK link) beforeU before
      · exact undone u link beforeU
  one u v a linkU linkV activeU activeV := by
    by_cases isU : u = k <;> by_cases isV : v = k
    · exact isU.trans isV.symm
    · subst isU
      exact absurd ((started v activeV).resolve_right isV) ((undoing a linkU).2 v isV linkV)
    · subst isV
      exact absurd ((started u activeU).resolve_right isU) ((undoing a linkV).2 u isU linkU)
    · exact exclusive.one (links u a isU linkU) (links v a isV linkV)
        ((started u activeU).resolve_right isU) ((started v activeV).resolve_right isV)

end Exclusive
end Exclusion
