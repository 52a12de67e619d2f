import Mathlib.Algebra.Order.Group.Int
import Mathlib.Data.Int.ConditionallyCompleteOrder
import Mathlib.Order.Bounds.Basic
import Mathlib.Order.UpperLower.Basic
import Mathlib.Tactic.IntervalCases
import Mathlib.Tactic.Ring

namespace Slots

section
variable {slot : Int → Int} {I : Set Int} {i j now last : Int}

/-- Slots by index, of those the schedule has: all of them, or all from a first one on. -/
theorem isGreatest_iff (later : StrictMono slot) (endless : IsUpperSet I) (inside : i ∈ I) :
    IsGreatest {s | s ∈ slot '' I ∧ s ≤ now} (slot i) ↔ slot i ≤ now ∧ now < slot (i + 1) := by
  have nextInside : i + 1 ∈ I := endless (by omega) inside
  constructor
  · rintro ⟨⟨_, past⟩, greatest⟩
    refine ⟨past, ?_⟩
    by_contra also
    have earlier : slot (i + 1) ≤ slot i := greatest ⟨⟨i + 1, nextInside, rfl⟩, by omega⟩
    have := later (by omega : i < i + 1)
    omega
  · rintro ⟨past, next⟩
    refine ⟨⟨⟨i, inside, rfl⟩, past⟩, ?_⟩
    rintro s ⟨⟨j, _, rfl⟩, before⟩
    by_contra above
    have beyond : i < j := later.lt_iff_lt.mp (by omega)
    have := later.monotone (by omega : i + 1 ≤ j)
    omega

/-- The next slot is the one whose predecessor has been, or has been started at. -/
theorem isLeast_iff (later : StrictMono slot) (endless : IsUpperSet I) (inside : j ∈ I) :
    IsLeast {s | s ∈ slot '' I ∧ now < s ∧ last < s} (slot j) ↔
      now < slot j ∧ last < slot j ∧ (j - 1 ∈ I → slot (j - 1) ≤ now ∨ slot (j - 1) ≤ last) := by
  constructor
  · rintro ⟨⟨_, future, fresh⟩, least⟩
    refine ⟨future, fresh, fun before => ?_⟩
    by_contra neither
    have above : slot j ≤ slot (j - 1) := least ⟨⟨j - 1, before, rfl⟩, by omega, by omega⟩
    have := later (by omega : j - 1 < j)
    omega
  · rintro ⟨future, fresh, before⟩
    refine ⟨⟨⟨j, inside, rfl⟩, future, fresh⟩, ?_⟩
    rintro s ⟨⟨i, member, rfl⟩, future', fresh'⟩
    by_contra below
    have earlier : i < j := later.lt_iff_lt.mp (by omega)
    have seen := before (endless (by omega : i ≤ j - 1) member)
    have := later.monotone (by omega : i ≤ j - 1)
    omega

/-- Looking one slot past the next: right as long as that one hasn't been started at. -/
theorem isLeast_lookAhead (later : StrictMono slot) (endless : IsUpperSet I) (inside : i ∈ I)
    (before : i - 1 ∈ I → slot (i - 1) ≤ now) (after : now < slot (i + 1)) :
    IsLeast {s | s ∈ slot '' I ∧ now < s ∧ last < s}
      (if slot i ≤ now ∨ slot i ≤ last then slot (i + 1) else slot i) ↔
      last < slot (i + 1) := by
  have same : i + 1 - 1 = i := by omega
  have order := later (by omega : i < i + 1)
  split
  next passed =>
    rw [isLeast_iff later endless (endless (by omega : i ≤ i + 1) inside), same]
    exact ⟨fun h => h.2.1, fun fresh => ⟨after, fresh, fun _ => passed⟩⟩
  next ahead =>
    rw [isLeast_iff later endless inside]
    constructor
    · rintro ⟨_, fresh, _⟩
      omega
    · intro _
      exact ⟨by omega, by omega, fun member => .inl (before member)⟩

end

/-- A test that, from a first time on, is met at a slot after the last start, only once such a slot
has come, and that doesn't become met between slots. -/
structure DueTest (S : Set Int) (first last : Int) (due : Int → Prop) : Prop where
  sound : ∀ t, first ≤ t → due t → ∃ s ∈ S, last < s ∧ s ≤ t
  met : ∀ s ∈ S, first ≤ s → last < s → due s
  settled : ∀ now t, first ≤ now → ¬due now → now ≤ t → (∀ s ∈ S, s ≤ t → s ≤ now) → ¬due t

section
variable {S : Set Int} {first last now a : Int} {due : Int → Prop}

theorem DueTest.exists_slot (test : DueTest S first last due) (began : first ≤ now)
    (notDue : ¬due now) {t : Int}
    (future : now < t) (isDue : due t) : ∃ s ∈ S, now < s ∧ last < s ∧ s ≤ t := by
  obtain ⟨s, member, fresh, past⟩ := test.sound t (by omega) isDue
  by_cases after : now < s
  · exact ⟨s, member, after, fresh, past⟩
  · by_contra none
    have still : ∀ s' ∈ S, s' ≤ t → s' ≤ now := by
      intro s' member' past'
      by_contra after'
      exact none ⟨s', member', by omega, by omega, past'⟩
    exact test.settled now t began notDue (by omega) still isDue

/-- Where the test isn't met now, it is first met at the next slot. -/
theorem DueTest.isLeast_iff (test : DueTest S first last due) (began : first ≤ now) (notDue : ¬due now) :
    IsLeast {t | now < t ∧ due t} a ↔ IsLeast {s | s ∈ S ∧ now < s ∧ last < s} a := by
  constructor
  · rintro ⟨⟨future, isDue⟩, least⟩
    obtain ⟨s, member, after, fresh, past⟩ := test.exists_slot began notDue future isDue
    have same : s = a := le_antisymm past (least ⟨after, test.met s member (by omega) fresh⟩)
    subst same
    refine ⟨⟨member, after, fresh⟩, ?_⟩
    rintro s' ⟨member', after', fresh'⟩
    exact least ⟨after', test.met s' member' (by omega) fresh'⟩
  · rintro ⟨⟨member, after, fresh⟩, least⟩
    refine ⟨⟨after, test.met a member (by omega) fresh⟩, ?_⟩
    rintro t ⟨future, isDue⟩
    obtain ⟨s, member', after', fresh', past⟩ := test.exists_slot began notDue future isDue
    exact (least ⟨member', after', fresh'⟩).trans past

end

section
variable {anchor interval now t : Int}

/-- From the anchor on, every so often. -/
def every (anchor interval : Int) (i : Int) : Int := anchor + i * interval

theorem every_strictMono (positive : 0 < interval) : StrictMono (every anchor interval) := by
  intro i j less
  have := Int.mul_lt_mul_of_pos_right less positive
  unfold every
  omega

theorem every_succ (i : Int) : every anchor interval (i + 1) = every anchor interval i + interval := by
  unfold every
  rw [Int.add_mul]
  omega

/-- Rounding down: the slot at or before a time. -/
theorem every_floor (anchor : Int) (positive : 0 < interval) (t : Int) :
    every anchor interval ((t - anchor) / interval) ≤ t ∧
      t < every anchor interval ((t - anchor) / interval + 1) := by
  have below := Int.ediv_mul_le (t - anchor) (by omega : interval ≠ 0)
  have above := Int.lt_ediv_add_one_mul_self (t - anchor) positive
  unfold every
  omega

/-- Rounding up: the slot at or after a time. -/
theorem every_ceil (anchor : Int) (positive : 0 < interval) (t : Int) :
    every anchor interval (-(-(t - anchor) / interval) - 1) < t ∧
      t ≤ every anchor interval (-(-(t - anchor) / interval)) := by
  have below := Int.ediv_mul_le (-(t - anchor)) (by omega : interval ≠ 0)
  have above := Int.lt_ediv_add_one_mul_self (-(t - anchor)) positive
  have turned : (-(-(t - anchor) / interval) - 1) * interval =
    -((-(t - anchor) / interval + 1) * interval) := by ring
  have turned' : -(-(t - anchor) / interval) * interval = -(-(t - anchor) / interval * interval) := by ring
  unfold every
  omega

theorem every_index (positive : 0 < interval) (i : Int) :
    (every anchor interval i - anchor) / interval = i := by
  unfold every
  rw [Int.add_comm, Int.add_sub_cancel, Int.mul_ediv_cancel _ (by omega)]

/-- The test of the slot at or before a time, none being before the anchor. -/
theorem dueTest_every (anchor : Int) (positive : 0 < interval) (first last : Int) :
    DueTest (every anchor interval '' Set.Ici 0) first last
      fun t => anchor ≤ t ∧ last < every anchor interval ((t - anchor) / interval) := by
  have later : StrictMono (every anchor interval) := every_strictMono positive
  have index : ∀ t, anchor ≤ t → 0 ≤ (t - anchor) / interval :=
    fun t began => Int.ediv_nonneg (by omega) (by omega)
  have start : every anchor interval 0 = anchor := by simp [every]
  refine ⟨?_, ?_, ?_⟩
  · rintro t _ ⟨began, fresh⟩
    exact ⟨_, ⟨_, index t began, rfl⟩, fresh, (every_floor anchor positive t).1⟩
  · rintro s ⟨i, member, rfl⟩ _ fresh
    have atLeast := later.monotone (show (0 : Int) ≤ i from member)
    rw [every_index positive]
    exact ⟨by omega, fresh⟩
  · rintro now t _ notDue le still ⟨began, fresh⟩
    have slotPast := still _ ⟨_, index t began, rfl⟩ (every_floor anchor positive t).1
    have atLeast := later.monotone (index t began)
    have floorNow := every_floor anchor positive now
    have floorThen := every_floor anchor positive t
    have same : (now - anchor) / interval = (t - anchor) / interval := by
      have below := later.lt_iff_lt.mp (slotPast.trans_lt floorNow.2)
      have above := later.lt_iff_lt.mp ((floorNow.1.trans le).trans_lt floorThen.2)
      omega
    exact notDue ⟨by omega, same ▸ fresh⟩

end
end Slots
