import Mathlib.Data.List.Chain
import Mathlib.Data.List.Nodup
import Mathlib.Data.List.Perm.Subperm
import Mathlib.Logic.Relation

namespace Chain
universe u
variable {α : Type u} (next : α → Option α)

/-- One element names the other as its next. -/
def Leads (a b : α) : Prop := next a = some b

/-- No element's chain comes back to it. -/
def Acyclic : Prop := ∀ a, ¬Relation.TransGen (Leads next) a a

/-- The chain from an element reaches the goal in this many links, and no sooner. -/
inductive Distance (goal : α) : α → Nat → Prop
  | here : Distance goal goal 0
  | link {a b n} : a ≠ goal → next a = some b → Distance goal b n → Distance goal a (n + 1)

variable {next} {goal a : α}

theorem Distance.unique {m n : Nat} (first : Distance next goal a m)
    (second : Distance next goal a n) : m = n := by
  induction first generalizing n with
  | here =>
    cases second with
    | here => rfl
    | link other => exact absurd rfl other
  | link other leads _ ih =>
    cases second with
    | here => exact absurd rfl other
    | link _ leads' rest =>
      rw [leads] at leads'
      cases Option.some.inj leads'
      rw [ih rest]

/-- Whatever leads to the goal does so at some distance. -/
theorem exists_distance (reaches : Relation.ReflTransGen (Leads next) a goal) :
    ∃ n, Distance next goal a n := by
  induction reaches using Relation.ReflTransGen.head_induction_on with
  | refl => exact ⟨0, .here⟩
  | @head a b leads _ ih =>
    obtain ⟨n, rest⟩ := ih
    by_cases same : a = goal
    · subst same
      exact ⟨0, .here⟩
    · exact ⟨n + 1, .link same leads rest⟩

/-- The elements on the way to the goal are distinct: each is at its own distance. -/
theorem Distance.exists_nodup {n : Nat} (distance : Distance next goal a n) :
    ∃ way : List α, way.length = n ∧ way.Nodup ∧
      ∀ b ∈ way, (next b).isSome ∧ ∃ m, m ≤ n ∧ Distance next goal b m := by
  induction distance with
  | here => exact ⟨[], rfl, List.nodup_nil, by simp⟩
  | @link a b n other leads rest ih =>
    obtain ⟨way, length, distinct, all⟩ := ih
    have whole : Distance next goal a (n + 1) := .link other leads rest
    have absent : a ∉ way := by
      intro member
      obtain ⟨_, m, bound, closer⟩ := all a member
      have same := whole.unique closer
      omega
    refine ⟨a :: way, by simp [length], List.nodup_cons.mpr ⟨absent, distinct⟩, ?_⟩
    intro c member
    rcases List.mem_cons.mp member with rfl | later
    · exact ⟨by simp [leads], n + 1, Nat.le_refl _, whole⟩
    · obtain ⟨isSome, m, bound, closer⟩ := all c later
      exact ⟨isSome, m, by omega, closer⟩

/-- A distance is at most the number of elements that have a next. -/
theorem Distance.le_length {n : Nat} (distance : Distance next goal a n) {keys : List α}
    (keyed : ∀ b, (next b).isSome → b ∈ keys) : n ≤ keys.length := by
  obtain ⟨way, length, distinct, all⟩ := distance.exists_nodup
  have within : way ⊆ keys := fun b member => keyed b (all b member).1
  have bound := (List.subperm_of_subset distinct within).length_le
  omega

theorem Distance.reaches {n : Nat} (distance : Distance next goal a n) :
    Relation.ReflTransGen (Leads next) a goal := by
  induction distance with
  | here => exact .refl
  | link _ leads _ ih => exact .head leads ih

/-- The elements from one up to the goal, the goal left out. -/
def walk [DecidableEq α] (next : α → Option α) (goal : α) : Nat → α → Option (List α)
  | 0, _ => none
  | fuel + 1, a =>
    if a = goal then some []
    else
      match next a with
      | none => none
      | some b => (walk next goal fuel b).map (a :: ·)

/-- A walk with steps enough goes all the way, link by link, through each element once. -/
theorem Distance.exists_walk [DecidableEq α] {n fuel : Nat} (distance : Distance next goal a n)
    (bound : n < fuel) :
    ∃ way, walk next goal fuel a = some way ∧ (way ++ [goal]).head? = some a ∧
      (way ++ [goal]).IsChain (Leads next) ∧ (goal :: way).Nodup ∧
      ∀ b ∈ way, ∃ m, m ≤ n ∧ Distance next goal b m := by
  induction distance generalizing fuel with
  | here =>
    obtain ⟨fuel, rfl⟩ := Nat.exists_eq_add_one_of_ne_zero (by omega : fuel ≠ 0)
    exact ⟨[], by simp [walk], rfl, .singleton _, by simp, by simp⟩
  | @link a b n other leads rest ih =>
    obtain ⟨fuel, rfl⟩ := Nat.exists_eq_add_one_of_ne_zero (by omega : fuel ≠ 0)
    obtain ⟨way, walked, first, linked, distinct, closer⟩ := ih (by omega : n < fuel)
    have whole : Distance next goal a (n + 1) := .link other leads rest
    have absent : a ∉ way := by
      intro member
      obtain ⟨m, bound, distance⟩ := closer a member
      have same := whole.unique distance
      omega
    refine ⟨a :: way, by simp [walk, other, leads, walked], rfl, ?_, ?_, ?_⟩
    · refine List.IsChain.cons linked fun c head => ?_
      have same : c = b := (Option.some.inj (first.symm.trans head)).symm
      subst same
      exact leads
    · simp only [List.nodup_cons, List.mem_cons, not_or] at distinct ⊢
      exact ⟨⟨Ne.symm other, distinct.1⟩, absent, distinct.2⟩
    · intro c member
      rcases List.mem_cons.mp member with rfl | later
      · exact ⟨n + 1, Nat.le_refl _, whole⟩
      · obtain ⟨m, bound, distance⟩ := closer c later
        exact ⟨m, by omega, distance⟩

/-- More steps than a walk takes change nothing. -/
theorem walk_mono [DecidableEq α] {m n : Nat} {way : List α}
    (walked : walk next goal m a = some way) (more : m ≤ n) :
    walk next goal n a = some way := by
  induction m generalizing n a way with
  | zero => cases walked
  | succ m ih =>
    obtain ⟨n, rfl⟩ := Nat.exists_eq_add_one_of_ne_zero (by omega : n ≠ 0)
    unfold walk at walked ⊢
    split at walked
    next here => rw [if_pos here, walked]
    next other =>
      rw [if_neg other]
      cases leads : next a with
      | none => simp [leads] at walked
      | some b =>
        simp only [leads, Option.map_eq_some_iff] at walked ⊢
        obtain ⟨rest, walked, rfl⟩ := walked
        exact ⟨rest, ih walked (by omega), rfl⟩

/-- On a cycle, what an element leads to is what the walk around it passes. -/
theorem mem_cycle_iff {i b : α} {way : List α} (linked : (i :: (way ++ [i])).IsChain (Leads next)) :
    b ∈ i :: way ↔ Relation.ReflTransGen (Leads next) i b := by
  constructor
  · intro member
    have all : ∀ l : List α, ∀ c, (c :: l).IsChain (Leads next) → ∀ d ∈ c :: l,
      Relation.ReflTransGen (Leads next) c d := by
      intro l
      induction l with
      | nil =>
        intro c _ d member
        cases List.mem_singleton.mp member
        exact .refl
      | cons e l ih =>
        intro c chain d member
        have parts := List.isChain_cons_cons.mp chain
        rcases List.mem_cons.mp member with rfl | later
        · exact .refl
        · exact .head parts.1 (ih e parts.2 d later)
    refine all _ _ linked b ?_
    rcases List.mem_cons.mp member with rfl | inside
    · exact List.mem_cons_self
    · exact List.mem_cons_of_mem _ (List.mem_append_left _ inside)
  · intro reaches
    induction reaches with
    | refl => exact List.mem_cons_self
    | @tail b c _ leads ih =>
      obtain ⟨before, after, split⟩ := List.append_of_mem ih
      have whole : i :: (way ++ [i]) = before ++ b :: (after ++ [i]) := by
        rw [← List.cons_append, split]
        simp
      rw [whole] at linked
      have tail := (List.isChain_append.mp linked).2.1
      cases after with
      | nil =>
        have step : next b = some i := (List.isChain_cons_cons.mp tail).1
        have same : c = i := Option.some.inj (leads.symm.trans step)
        subst same
        exact List.mem_cons_self
      | cons d after =>
        have step : next b = some d := (List.isChain_cons_cons.mp tail).1
        have same : c = d := Option.some.inj (leads.symm.trans step)
        subst same
        rw [split]
        simp

end Chain
