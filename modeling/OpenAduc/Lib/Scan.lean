import Mathlib.Data.List.TakeWhile

namespace Scan
universe u
variable {α : Type u}

/-- The longest run of a class, where it is of a length that fits, and what is after it. -/
def run (p : α → Bool) (fits : Nat → Bool) (t : List α) : Option (List α × List α) :=
  if fits (t.takeWhile p).length then some (t.takeWhile p, t.dropWhile p) else none

/-- What is after one element of a class. -/
def one (p : α → Bool) : List α → Option (List α)
  | c :: rest => if p c then some rest else none
  | [] => none

/-- What is after one element of a class, or all where there is none. -/
def skip (p : α → Bool) (t : List α) : List α := (one p t).getD t

/-- No element of the class is next. -/
def Stops (p : α → Bool) (t : List α) : Prop := ∀ c ∈ t.head?, p c = false

variable {p : α → Bool} {fits : Nat → Bool} {l rest t : List α} {c : α}

theorem stops_nil : Stops p [] := by simp [Stops]

theorem stops_cons (other : p c = false) : Stops p (c :: rest) := by simpa [Stops] using other

theorem stops_append (all : ∀ c ∈ l, p c = false) (after : Stops p rest) : Stops p (l ++ rest) := by
  cases l with
  | nil => exact after
  | cons c l => exact stops_cons (all c List.mem_cons_self)

/-- What stops a run that is not empty stops at its own first. -/
theorem stops_of_ne_nil {q : α → Bool} (some_left : l ≠ []) (all : ∀ c ∈ l, q c = true)
    (apart : ∀ c, q c = true → p c = false) : Stops p (l ++ rest) := by
  cases l with
  | nil => exact absurd rfl some_left
  | cons c l => exact stops_cons (apart c (all c List.mem_cons_self))

theorem span_append (all : ∀ c ∈ l, p c = true) (after : Stops p rest) :
    (l ++ rest).takeWhile p = l ∧ (l ++ rest).dropWhile p = rest := by
  rw [List.takeWhile_append_of_pos all, List.dropWhile_append_of_pos all]
  cases rest with
  | nil => simp
  | cons c rest =>
    have other : p c = false := after c rfl
    simp [other]

theorem run_append (all : ∀ c ∈ l, p c = true) (after : Stops p rest) (length : fits l.length = true) :
    run p fits (l ++ rest) = some (l, rest) := by
  obtain ⟨taken, left⟩ := span_append all after
  rw [run, taken, left, if_pos length]

theorem run_unfit (all : ∀ c ∈ l, p c = true) (after : Stops p rest) (length : fits l.length = false) :
    run p fits (l ++ rest) = none := by
  obtain ⟨taken, left⟩ := span_append all after
  rw [run, taken, if_neg (by simp [length])]

theorem run_spec (found : run p fits t = some (l, rest)) : (∀ c ∈ l, p c = true) ∧ fits l.length = true := by
  unfold run at found
  split at found
  next length =>
    simp only [Option.some.injEq, Prod.mk.injEq] at found
    obtain ⟨rfl, -⟩ := found
    exact ⟨fun c member => List.mem_takeWhile_imp member, length⟩
  next => exact absurd found (by simp)

/-- A run is the start of a list, and what it leaves is the rest. -/
theorem run_split (found : run p fits t = some (l, rest)) : t = l ++ rest := by
  unfold run at found
  split at found
  next =>
    simp only [Option.some.injEq, Prod.mk.injEq] at found
    obtain ⟨rfl, rfl⟩ := found
    exact List.takeWhile_append_dropWhile.symm
  next => exact absurd found (by simp)

theorem one_split (found : one p t = some rest) : ∃ c, t = c :: rest := by
  cases t with
  | nil => exact absurd found (by simp [one])
  | cons c t =>
    rw [one] at found
    split at found
    next => exact ⟨c, by rw [Option.some.inj found]⟩
    next => exact absurd found (by simp)

theorem one_cons (of : p c = true) : one p (c :: rest) = some rest := by simp [one, of]

theorem one_stops (after : Stops p t) : one p t = none := by
  cases t with
  | nil => rfl
  | cons c t => simp [one, after c rfl]

theorem skip_cons (of : p c = true) : skip p (c :: rest) = rest := by simp [skip, one_cons of]

theorem skip_stops (after : Stops p t) : skip p t = t := by simp [skip, one_stops after]

end Scan
