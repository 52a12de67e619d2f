import Mathlib.Algebra.Order.Ring.Int
import Mathlib.Algebra.Ring.Divisibility.Basic

namespace Bisection
variable (step : Int) (below : Int → Bool)

/-- Halves a range, at whole steps from its lower end, until no more than a step is left. None when
it takes longer. -/
def search : Nat → Int → Int → Option Int
  | 0, _, _ => none
  | fuel + 1, lo, hi =>
    if step < hi - lo then
      let mid := lo + (hi - lo) / 2 / step * step
      if below mid then search fuel mid hi else search fuel lo mid
    else some hi

/-- A change the search comes to: its range is no longer than a step and it is the end, or it is
whole steps up, and not in a last piece shorter than a step. -/
def Lands (lo hi c : Int) : Prop :=
  if hi - lo < step then c = hi else step ∣ c - lo ∧ (step ∣ hi - lo ∨ c - lo + step ≤ hi - lo)

variable {step} {below} {lo hi c : Int}

/-- How far up the middle is. -/
theorem half_spec (positive : 0 < step) (d : Int) :
    step ∣ d / 2 / step * step ∧ 2 * (d / 2 / step * step) ≤ d ∧
      d < 2 * (d / 2 / step * step) + 2 * step := by
  have whole := Int.mul_ediv_add_emod (d / 2) step
  have least := Int.emod_nonneg (d / 2) positive.ne'
  have most := Int.emod_lt_of_pos (d / 2) positive
  rw [Int.mul_comm] at whole
  refine ⟨Int.dvd_mul_left _ _, ?_, ?_⟩
  · omega
  · omega

/-- The middle is no step up only when the range is shorter than two. -/
theorem step_le_half (positive : 0 < step) {d : Int} (long : 2 * step ≤ d) : step ≤ d / 2 / step * step := by
  obtain ⟨⟨k, steps⟩, -, above⟩ := half_spec positive d
  rw [steps] at above ⊢
  have some : 0 < k := by
    by_contra none
    have : step * k ≤ 0 := Int.mul_nonpos_of_nonneg_of_nonpos positive.le (by omega)
    omega
  exact le_mul_of_one_le_right positive.le some

theorem half_eq_zero {d : Int} (short : d < 2 * step) (least : 0 ≤ d) : d / 2 / step * step = 0 := by
  have none : d / 2 / step = 0 := Int.ediv_eq_zero_of_lt (by omega) (by omega)
  rw [none, Int.zero_mul]

/-- A search ends between the ends it was given. -/
theorem search_bounds (positive : 0 < step) {fuel : Nat} {r : Int} (ordered : lo ≤ hi)
    (found : search step below fuel lo hi = some r) : lo ≤ r ∧ r ≤ hi := by
  induction fuel generalizing lo hi with
  | zero => simp [search] at found
  | succ fuel ih =>
    obtain ⟨-, upper, lower⟩ := half_spec positive (hi - lo)
    have least : 0 ≤ (hi - lo) / 2 / step * step :=
      Int.mul_nonneg (Int.ediv_nonneg (by omega) positive.le) positive.le
    unfold search at found
    split at found
    next =>
      dsimp only at found
      split at found
      next =>
        have inner := ih (by omega) found
        omega
      next =>
        have inner := ih (by omega) found
        omega
    next =>
      obtain rfl := Option.some.inj found
      omega

/-- A range longer than one step and shorter than two has its middle at its lower end. -/
theorem search_stuck (start : below lo = true) (long : step < hi - lo) (short : hi - lo < 2 * step)
    (fuel : Nat) : search step below fuel lo hi = none := by
  induction fuel with
  | zero => rfl
  | succ fuel ih =>
    have still := half_eq_zero short (by omega)
    simp only [search, if_pos long, still, Int.add_zero, start, if_true]
    exact ih

/-- One turn of the search, with no turns counted. -/
theorem exists_search (r : Int) : (∃ fuel, search step below fuel lo hi = some r) ↔
    if step < hi - lo then
      if below (lo + (hi - lo) / 2 / step * step) = true then
        ∃ fuel, search step below fuel (lo + (hi - lo) / 2 / step * step) hi = some r
      else ∃ fuel, search step below fuel lo (lo + (hi - lo) / 2 / step * step) = some r
    else r = hi := by
  have unrolled : (∃ fuel, search step below fuel lo hi = some r) ↔
      ∃ fuel, search step below (fuel + 1) lo hi = some r := by
    constructor
    · rintro ⟨fuel, found⟩
      cases fuel with
      | zero => simp [search] at found
      | succ fuel => exact ⟨fuel, found⟩
    · rintro ⟨fuel, found⟩
      exact ⟨fuel + 1, found⟩
  rw [unrolled]
  simp only [search]
  split
  next => split <;> rfl
  next => simp [eq_comm]

theorem lands_upper {mid : Int} (steps : step ∣ mid - lo) (long : ¬hi - lo < step) (rest : ¬hi - mid < step) :
    Lands step mid hi c ↔ Lands step lo hi c := by
  have change : step ∣ c - lo ↔ step ∣ c - mid := by
    rw [← sub_add_sub_cancel c mid lo, dvd_add_left steps]
  have range : step ∣ hi - lo ↔ step ∣ hi - mid := by
    rw [← sub_add_sub_cancel hi mid lo, dvd_add_left steps]
  have fits : c - mid + step ≤ hi - mid ↔ c - lo + step ≤ hi - lo := by omega
  simp only [Lands, if_neg long, if_neg rest, change, range, fits]

theorem lands_lower (positive : 0 < step) {mid : Int} (steps : step ∣ mid - lo)
    (start : step ≤ mid - lo) (under : c ≤ mid)
    (room : mid - lo + step ≤ hi - lo) : Lands step lo mid c ↔ Lands step lo hi c := by
  have long : ¬hi - lo < step := by omega
  have fits : c - lo + step ≤ hi - lo := by omega
  simp only [Lands, if_neg long, if_neg (Int.not_lt.mpr start), steps, fits, true_or, or_true]

/-- Where the search comes out at the one change of its range. Only whole steps up are looked at. -/
theorem search_change (positive : 0 < step) (inside : lo < c ∧ c ≤ hi)
    (change : ∀ t, step ∣ t - lo → lo ≤ t → t < hi → (below t = true ↔ t < c)) :
    (∃ fuel, search step below fuel lo hi = some c) ↔ Lands step lo hi c := by
  induction size : (hi - lo).toNat using Nat.strong_induction_on generalizing lo hi with
  | _ size' ih =>
    by_cases short : hi - lo ≤ step
    · rw [exists_search, if_neg (by omega)]
      unfold Lands
      split
      next => rfl
      next =>
        have exactly : hi - lo = step := by omega
        rw [exactly]
        constructor
        · rintro rfl
          exact ⟨by rw [exactly], .inl (dvd_refl step)⟩
        · rintro ⟨whole, -⟩
          have := Int.le_of_dvd (by omega) whole
          omega
    · by_cases once : hi - lo < 2 * step
      · have stuck := search_stuck ((change lo (by simp) le_rfl (by omega)).mpr inside.1) (by omega) once
        rw [Lands, if_neg (by omega)]
        constructor
        · rintro ⟨fuel, found⟩
          simp [stuck fuel] at found
        · rintro ⟨whole, fits⟩
          have start := Int.le_of_dvd (by omega) whole
          obtain even | above := fits
          · have := Int.le_of_dvd (by omega) (show step ∣ hi - lo - step from dvd_sub even (dvd_refl step))
            omega
          · omega
      · obtain ⟨steps, upper, lower⟩ := half_spec positive (hi - lo)
        have up := step_le_half positive (show 2 * step ≤ hi - lo by omega)
        rw [exists_search, if_pos (by omega)]
        generalize half : lo + (hi - lo) / 2 / step * step = mid
        have height : (hi - lo) / 2 / step * step = mid - lo := by omega
        rw [height] at steps upper lower up
        by_cases higher : mid < c
        · have onward : ∀ t, step ∣ t - mid → mid ≤ t → t < hi → (below t = true ↔ t < c) :=
            fun t whole above =>
            change t (by rw [← sub_add_sub_cancel t mid lo]; exact dvd_add whole steps) (by omega)
          rw [if_pos ((change mid steps (by omega) (by omega)).mpr higher),
            ih (hi - mid).toNat (by omega) ⟨higher, inside.2⟩ onward rfl]
          exact lands_upper steps (by omega) (by omega)
        · have downward : ∀ t, step ∣ t - lo → lo ≤ t → t < mid → (below t = true ↔ t < c) :=
            fun t whole above _ =>
            change t whole above (by omega)
          rw [if_neg (by rwa [change mid steps (by omega) (by omega)]),
            ih (mid - lo).toNat (by omega) ⟨inside.1, by omega⟩ downward rfl]
          exact lands_lower positive steps up (by omega) (by omega)

end Bisection
