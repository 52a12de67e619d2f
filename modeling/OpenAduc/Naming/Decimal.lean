import OpenAduc.Naming.Text

namespace OpenAduc.Naming

def digit (d : Nat) : UInt16 := unit d.digitChar

theorem digit_value {d : Nat} (small : d < 10) : (digit d - unit '0').toNat = d := by
  revert d
  decide

theorem isDigit_digit {d : Nat} (small : d < 10) : isDigit (digit d) = true := by
  revert d
  decide

theorem decimal_small {n : Nat} (small : n < 10) : decimal n = [digit n] := by
  rw [decimal, Nat.toDigits_of_lt_base small]
  rfl

theorem decimal_append {n : Nat} (large : 10 ≤ n) : decimal n = decimal (n / 10) ++ [digit (n % 10)] := by
  rw [decimal, Nat.toDigits_of_base_le (by omega) large, List.map_append]
  rfl

/-- By the digits: the last one, and the number the others write. -/
theorem decimal_induction {motive : Nat → Prop} (small : ∀ n, n < 10 → motive n)
    (more : ∀ n, 10 ≤ n → motive (n / 10) → motive n) (n : Nat) : motive n := by
  induction n using Nat.strong_induction_on with
  | _ n ih =>
    by_cases one : n < 10
    · exact small n one
    · exact more n (by omega) (ih (n / 10) (by omega))

theorem decimalOf_append (digits : Text) (c : UInt16) :
    decimalOf (digits ++ [c]) = 10 * decimalOf digits + (c - unit '0').toNat := by
  simp [decimalOf]

theorem decimalOf_decimal (n : Nat) : decimalOf (decimal n) = n := by
  induction n using decimal_induction with
  | small n small =>
    rw [decimal_small small]
    simpa [decimalOf] using digit_value small
  | more n large ih =>
    rw [decimal_append large, decimalOf_append, ih, digit_value (by omega)]
    omega

theorem decimal_digits (n : Nat) : ∀ c ∈ decimal n, isDigit c = true := by
  induction n using decimal_induction with
  | small n small =>
    rw [decimal_small small]
    simpa using isDigit_digit small
  | more n large ih =>
    rw [decimal_append large]
    intro c member
    rcases List.mem_append.mp member with before | last
    · exact ih c before
    · rw [List.mem_singleton.mp last]
      exact isDigit_digit (by omega)

theorem decimal_ne_nil (n : Nat) : decimal n ≠ [] := by
  simp [decimal, Nat.toDigits_ne_nil]

end OpenAduc.Naming
