import Mathlib.Data.List.Basic

namespace Sextets

/-- Three bytes are four groups; one byte left over is two, two are three. -/
def split : List UInt8 → List Nat
  | [] => []
  | [a] => [a.toNat / 4, a.toNat % 4 * 16]
  | [a, b] => [a.toNat / 4, a.toNat % 4 * 16 + b.toNat / 16, b.toNat % 16 * 4]
  | a :: b :: c :: rest =>
    a.toNat / 4 :: (a.toNat % 4 * 16 + b.toNat / 16) :: (b.toNat % 16 * 4 + c.toNat / 64) ::
      c.toNat % 64 :: split rest

/-- The whole bytes of the groups. Bits left over are dropped. -/
def join : List Nat → List UInt8
  | x :: y :: z :: w :: rest =>
    UInt8.ofNat (4 * x + y / 16) :: UInt8.ofNat (y % 16 * 16 + z / 4) :: UInt8.ofNat
      (z % 4 * 64 + w) :: join rest
  | [x, y, z] => [UInt8.ofNat (4 * x + y / 16), UInt8.ofNat (y % 16 * 16 + z / 4)]
  | [x, y] => [UInt8.ofNat (4 * x + y / 16)]
  | _ => []

/-- Each group is of six bits. -/
theorem split_lt (bytes : List UInt8) : ∀ x ∈ split bytes, x < 64 := by
  induction bytes using split.induct with
  | case1 => simp [split]
  | case2 a =>
    have small := a.toNat_lt
    simp only [split, List.mem_cons, List.not_mem_nil, or_false]
    rintro x (rfl | rfl) <;> omega
  | case3 a b =>
    have smallA := a.toNat_lt
    have smallB := b.toNat_lt
    simp only [split, List.mem_cons, List.not_mem_nil, or_false]
    rintro x (rfl | rfl | rfl) <;> omega
  | case4 a b c rest ih =>
    have smallA := a.toNat_lt
    have smallB := b.toNat_lt
    have smallC := c.toNat_lt
    simp only [split, List.mem_cons]
    rintro x (rfl | rfl | rfl | rfl | later)
    · omega
    · omega
    · omega
    · omega
    · exact ih x later

theorem ofNat_of_eq {a : UInt8} {n : Nat} (same : n = a.toNat) : UInt8.ofNat n = a := by
  rw [same, UInt8.ofNat_toNat]

/-- Splitting loses no bit. -/
theorem join_split (bytes : List UInt8) : join (split bytes) = bytes := by
  induction bytes using split.induct with
  | case1 => rfl
  | case2 a =>
    have first : 4 * (a.toNat / 4) + a.toNat % 4 * 16 / 16 = a.toNat := by omega
    simp only [split, join, ofNat_of_eq first]
  | case3 a b =>
    have smallB := b.toNat_lt
    have first : 4 * (a.toNat / 4) + (a.toNat % 4 * 16 + b.toNat / 16) / 16 = a.toNat := by omega
    have second : (a.toNat % 4 * 16 + b.toNat / 16) % 16 * 16 + b.toNat % 16 * 4 / 4 = b.toNat := by omega
    simp only [split, join, ofNat_of_eq first, ofNat_of_eq second]
  | case4 a b c rest ih =>
    have smallB := b.toNat_lt
    have smallC := c.toNat_lt
    have first : 4 * (a.toNat / 4) + (a.toNat % 4 * 16 + b.toNat / 16) / 16 = a.toNat := by omega
    have second : (a.toNat % 4 * 16 + b.toNat / 16) % 16 * 16 + (b.toNat % 16 * 4 + c.toNat / 64) /
      4 = b.toNat := by omega
    have third : (b.toNat % 16 * 4 + c.toNat / 64) % 4 * 64 + c.toNat % 64 = c.toNat := by omega
    simp only [split, join, ofNat_of_eq first, ofNat_of_eq second, ofNat_of_eq third, ih]

end Sextets
