import Mathlib.Data.List.Chain
import Mathlib.Data.List.DropRight
import Mathlib.Data.List.Infix

namespace Runs
universe u
variable {α : Type u} (p : α → Bool)

def squeezeFrom : Bool → List α → List α
  | _, [] => []
  | after, c :: rest =>
    if p c then if after then squeezeFrom true rest else c :: squeezeFrom true rest
    else c :: squeezeFrom false rest

/-- A run gives way to its first element. -/
def squeeze (l : List α) : List α := squeezeFrom p false l

def strip (l : List α) : List α := (l.dropWhile p).rdropWhile p

/-- No two in a row. -/
def NoRun (l : List α) : Prop := l.IsChain fun a b => ¬(p a = true ∧ p b = true)

/-- None at either end. -/
structure Bare (l : List α) : Prop where
  head : ∀ c ∈ l.head?, p c = false
  last : ∀ c ∈ l.getLast?, p c = false

variable {p} {l : List α}

theorem squeezeFrom_sublist {after : Bool} : (squeezeFrom p after l).Sublist l := by
  induction l generalizing after with
  | nil => exact .slnil
  | cons c rest ih =>
    unfold squeezeFrom
    split
    · split
      · exact ih.cons c
      · exact ih.cons_cons c
    · exact ih.cons_cons c

theorem squeeze_sublist : (squeeze p l).Sublist l := squeezeFrom_sublist

/-- Squeezing keeps whatever is not squeezed. -/
theorem mem_squeezeFrom {after : Bool} {c : α} (member : c ∈ l) (other : p c = false) :
    c ∈ squeezeFrom p after l := by
  induction l generalizing after with
  | nil => cases member
  | cons d rest ih =>
    unfold squeezeFrom
    rcases List.mem_cons.mp member with rfl | member
    · simp [other]
    · have inside : c ∈ squeezeFrom p true rest := ih member
      have inside' : c ∈ squeezeFrom p false rest := ih member
      split
      · split
        · exact inside
        · exact List.mem_cons_of_mem _ inside
      · exact List.mem_cons_of_mem _ inside'

/-- What is squeezed has no two of them in a row. -/
theorem noRun_squeezeFrom {after : Bool} :
    NoRun p (squeezeFrom p after l) ∧ (after = true → ∀ c ∈ (squeezeFrom p after l).head?, p c = false) := by
  induction l generalizing after with
  | nil => exact ⟨.nil, by simp [squeezeFrom]⟩
  | cons c rest ih =>
    unfold squeezeFrom
    by_cases picked : p c = true
    · rw [if_pos picked]
      cases after with
      | true => exact ih
      | false =>
        obtain ⟨chain, head⟩ := @ih true
        refine ⟨List.IsChain.cons chain fun d first => ?_, by simp⟩
        simp [head rfl d first]
    · rw [if_neg picked]
      obtain ⟨chain, _⟩ := @ih false
      have other := eq_false_of_ne_true picked
      refine ⟨List.IsChain.cons chain fun d _ => by simp [other], fun _ d first => ?_⟩
      cases first
      exact other

theorem noRun_squeeze : NoRun p (squeeze p l) := noRun_squeezeFrom.1

theorem strip_inside : strip p l <:+: l :=
  (List.rdropWhile_prefix p _).isInfix.trans (List.dropWhile_suffix p).isInfix

theorem NoRun.inside {m : List α} (none : NoRun p l) (inside : m <:+: l) : NoRun p m :=
  List.IsChain.infix none inside

theorem head_dropWhile : ∀ c ∈ (l.dropWhile p).head?, p c = false := by
  intro c first
  have stopped := List.head?_dropWhile_not p l
  rw [Option.mem_def.mp first] at stopped
  simpa using stopped

theorem last_rdropWhile : ∀ c ∈ (l.rdropWhile p).getLast?, p c = false := by
  intro c last
  have some_left : l.rdropWhile p ≠ [] := by
    intro empty
    simp [empty] at last
  have stopped := List.rdropWhile_last_not p l some_left
  rw [List.getLast?_eq_some_getLast some_left] at last
  cases last
  simpa using stopped

/-- Taking the picked elements off the back leaves the front as it was. -/
theorem head_rdropWhile : ∀ c ∈ (l.rdropWhile p).head?, c ∈ l.head? := by
  intro c first
  obtain ⟨rest, split⟩ := List.rdropWhile_prefix p l
  rw [Option.mem_def, List.head?_eq_some_iff] at first
  obtain ⟨tail, front⟩ := first
  rw [← split, front]
  rfl

theorem bare_strip : Bare p (strip p l) where
  head c first := head_dropWhile c (head_rdropWhile c first)
  last := last_rdropWhile

theorem mem_dropWhile {c : α} (member : c ∈ l) (other : p c = false) : c ∈ l.dropWhile p := by
  have split := List.takeWhile_append_dropWhile (p := p) (l := l)
  rw [← split] at member
  rcases List.mem_append.mp member with before | after
  · have picked := List.mem_takeWhile_imp before
    simp [other] at picked
  · exact after

theorem mem_rdropWhile {c : α} (member : c ∈ l) (other : p c = false) : c ∈ l.rdropWhile p := by
  unfold List.rdropWhile
  exact List.mem_reverse.mpr (mem_dropWhile (List.mem_reverse.mpr member) other)

theorem mem_strip {c : α} (member : c ∈ l) (other : p c = false) : c ∈ strip p l :=
  mem_rdropWhile (mem_dropWhile member other) other

/-- What is bare already, strip leaves alone. -/
theorem rdropWhile_eq_self (last : ∀ c ∈ l.getLast?, p c = false) : l.rdropWhile p = l := by
  rw [List.rdropWhile_eq_self_iff]
  intro some_left picked
  have other := last _ (List.getLast?_eq_some_getLast some_left)
  simp [other] at picked

theorem Bare.dropWhile_eq (bare : Bare p l) : l.dropWhile p = l := by
  cases l with
  | nil => rfl
  | cons c rest =>
    have first := bare.head c rfl
    simp [List.dropWhile, first]

theorem Bare.strip_eq (bare : Bare p l) : strip p l = l := by
  unfold strip
  rw [bare.dropWhile_eq, rdropWhile_eq_self bare.last]

/-- Runs added at both ends are stripped again. -/
theorem strip_pad (bare : Bare p l) {before after : List α} (first : ∀ c ∈ before, p c = true)
    (last : ∀ c ∈ after, p c = true) : strip p (before ++ (l ++ after)) = l := by
  unfold strip
  rw [List.dropWhile_append_of_pos first]
  cases l with
  | nil =>
    have none : (after.dropWhile p) = [] := List.dropWhile_eq_nil_iff.mpr last
    simp [none]
  | cons c rest =>
    have other := bare.head c rfl
    have kept : (c :: rest ++ after).dropWhile p = c :: rest ++ after := by
      simp [other]
    rw [kept, List.rdropWhile, List.reverse_append,
      List.dropWhile_append_of_pos fun c member => last c (List.mem_reverse.mp member)]
    exact rdropWhile_eq_self bare.last

theorem start_rdropWhile (last : ∀ c ∈ l.getLast?, p c = false) (rest : List α) :
    l <+: (l ++ rest).rdropWhile p := by
  induction rest using List.reverseRecOn with
  | nil =>
    rw [List.append_nil, rdropWhile_eq_self last]
  | append_singleton rest c ih =>
    rw [← List.append_assoc, List.rdropWhile_concat]
    split
    · exact ih
    · rw [List.append_assoc]
      exact List.prefix_append _ _

/-- A longer list keeps at least as much. -/
theorem rdropWhile_mono {m : List α} (start : l <+: m) : l.rdropWhile p <+: m.rdropWhile p := by
  obtain ⟨rest, split⟩ := (List.rdropWhile_prefix p l).trans start
  rw [← split]
  exact start_rdropWhile last_rdropWhile rest

theorem rdropWhile_ne_nil {c : α} (first : l.head? = some c) (other : p c = false) : l.rdropWhile p ≠ [] := by
  have member : c ∈ l := List.mem_of_mem_head? first
  exact List.ne_nil_of_mem (mem_rdropWhile member other)

end Runs
