import Mathlib.Data.List.Basic
import Mathlib.Data.List.DropRight

namespace Pairs
universe u
variable {α : Type u} (first second : α → Bool)

/-- Each first half is followed by a second one, and each second half follows one. -/
def isWhole : List α → Bool
  | [] => true
  | [c] => !first c && !second c
  | a :: b :: rest => if first a then second b && isWhole rest else !second a && isWhole (b :: rest)

/-- The first half a cut leaves at its end. -/
def half (l : List α) (n : Nat) : List α := ((l.take n).getLast?.filter first).toList

variable {first second} {l m : List α} {a b : α} {n : Nat}

theorem isWhole_cons (plain : first a = false) :
    isWhole first second (a :: l) = (!second a && isWhole first second l) := by
  cases l with
  | nil => simp [isWhole, plain]
  | cons b l => simp [isWhole, plain]

theorem isWhole_pair (opens : first a = true) :
    isWhole first second (a :: b :: l) = (second b && isWhole first second l) := by
  simp [isWhole, opens]

/-- What follows a whole text is whole or not by itself. -/
theorem isWhole_append (whole : isWhole first second l = true) :
    isWhole first second (l ++ m) = isWhole first second m := by
  induction l using isWhole.induct first with
  | case1 => rfl
  | case2 c =>
    obtain ⟨plain, single⟩ : first c = false ∧ second c = false := by simpa [isWhole] using whole
    rw [List.singleton_append, isWhole_cons plain, single, Bool.not_false, Bool.true_and]
  | case3 a b rest opens ih =>
    rw [isWhole_pair opens, Bool.and_eq_true] at whole
    rw [List.cons_append, List.cons_append, isWhole_pair opens, whole.1, Bool.true_and, ih whole.2]
  | case4 a b rest plain ih =>
    rw [isWhole_cons (eq_false_of_ne_true plain), Bool.and_eq_true] at whole
    rw [List.cons_append, isWhole_cons (eq_false_of_ne_true plain), whole.1, Bool.true_and, ih whole.2]

/-- What is whole is still so without a character at its end that is no second half. -/
theorem isWhole_concat (single : second a = false) (whole : isWhole first second (l ++ [a]) = true) :
    isWhole first second l = true := by
  induction l using isWhole.induct first with
  | case1 => rfl
  | case2 c =>
    by_cases opens : first c = true
    · rw [List.singleton_append, isWhole_pair opens, single] at whole
      cases whole
    · rw [List.singleton_append, isWhole_cons (eq_false_of_ne_true opens), Bool.and_eq_true] at whole
      rw [isWhole_cons (eq_false_of_ne_true opens), whole.1]
      rfl
  | case3 x b rest opens ih =>
    rw [List.cons_append, List.cons_append, isWhole_pair opens, Bool.and_eq_true] at whole
    rw [isWhole_pair opens, whole.1, ih whole.2]
    rfl
  | case4 x b rest plain' ih =>
    rw [List.cons_append, isWhole_cons (eq_false_of_ne_true plain'), Bool.and_eq_true] at whole
    rw [isWhole_cons (eq_false_of_ne_true plain'), whole.1, ih whole.2]
    rfl

/-- Single characters taken off the end of a whole text leave it whole. -/
theorem isWhole_rdropWhile {p : α → Bool} (single : ∀ c, p c = true → second c = false)
    (whole : isWhole first second l = true) : isWhole first second (l.rdropWhile p) = true := by
  induction l using List.reverseRecOn with
  | nil => exact whole
  | append_singleton l c ih =>
    by_cases dropped : p c = true
    · rw [List.rdropWhile_concat_pos p l c dropped]
      exact ih (isWhole_concat (single c dropped) whole)
    · rwa [List.rdropWhile_concat_neg p l c dropped]

theorem half_cons (plain : first a = false) : half first (a :: l) (n + 1) = half first l n := by
  unfold half
  rw [List.take_succ_cons, List.getLast?_cons]
  cases last : (l.take n).getLast? with
  | none => simp [plain]
  | some c => rfl

/-- A whole text cut anywhere is a whole one and the first half the cut leaves, if it does. -/
theorem exists_front (apart : ∀ c, second c = true → first c = false)
    (whole : isWhole first second l = true) (n : Nat) :
    ∃ front, isWhole first second front = true ∧ l.take n = front ++ half first l n := by
  induction l using isWhole.induct first generalizing n with
  | case1 => exact ⟨[], rfl, by simp [half]⟩
  | case2 c =>
    cases n with
    | zero => exact ⟨[], rfl, by simp [half]⟩
    | succ n =>
      obtain ⟨plain, _⟩ : first c = false ∧ second c = false := by simpa [isWhole] using whole
      refine ⟨[c], whole, ?_⟩
      rw [half_cons plain]
      simp [half]
  | case3 a b rest opens ih =>
    rw [isWhole_pair opens, Bool.and_eq_true] at whole
    match n with
    | 0 => exact ⟨[], rfl, by simp [half]⟩
    | 1 => exact ⟨[], rfl, by simp [half, Option.filter, opens]⟩
    | n + 2 =>
      obtain ⟨front, frontWhole, taken⟩ := ih whole.2 n
      refine ⟨a :: b :: front, ?_, ?_⟩
      · rw [isWhole_pair opens, whole.1, frontWhole]
        rfl
      · have same : half first (a :: b :: rest) (n + 2) = half first (b :: rest) (n + 1) := by
          simp [half]
        rw [same, half_cons (apart b whole.1), List.take_succ_cons, List.take_succ_cons, taken]
        rfl
  | case4 a b rest plain ih =>
    rw [isWhole_cons (eq_false_of_ne_true plain), Bool.and_eq_true] at whole
    cases n with
    | zero => exact ⟨[], rfl, by simp [half]⟩
    | succ n =>
      obtain ⟨front, frontWhole, taken⟩ := ih whole.2 n
      refine ⟨a :: front, ?_, ?_⟩
      · rw [isWhole_cons (eq_false_of_ne_true plain), whole.1, frontWhole]
        rfl
      · rw [half_cons (eq_false_of_ne_true plain), List.take_succ_cons, taken]
        rfl

end Pairs
