import OpenAduc.Lib.Pairs

namespace Utf8

def isHigh (c : UInt16) : Bool := 0xd800 ≤ c.toNat ∧ c.toNat ≤ 0xdbff

def isLow (c : UInt16) : Bool := 0xdc00 ≤ c.toNat ∧ c.toNat ≤ 0xdfff

def REPLACEMENT : Nat := 0xfffd

/-- A text's characters, an unpaired surrogate as the replacement. -/
def scalars : List UInt16 → List Nat
  | [] => []
  | [c] => [if isHigh c || isLow c then REPLACEMENT else c.toNat]
  | a :: b :: rest =>
    if isHigh a && isLow b then (0x10000 + (a.toNat - 0xd800) * 0x400 + (b.toNat - 0xdc00)) :: scalars rest
    else (if isHigh a || isLow a then REPLACEMENT else a.toNat) :: scalars (b :: rest)

def units (n : Nat) : List UInt16 :=
  if n < 0x10000 then [UInt16.ofNat n]
  else [UInt16.ofNat (0xd800 + (n - 0x10000) / 0x400), UInt16.ofNat (0xdc00 + (n - 0x10000) % 0x400)]

def bytesOf (n : Nat) : List UInt8 :=
  if n < 0x80 then [UInt8.ofNat n]
  else if n < 0x800 then [UInt8.ofNat (0xc0 + n / 64), UInt8.ofNat (0x80 + n % 64)]
  else if n < 0x10000 then
    [UInt8.ofNat (0xe0 + n / 4096), UInt8.ofNat (0x80 + n / 64 % 64), UInt8.ofNat (0x80 + n % 64)]
  else [UInt8.ofNat (0xf0 + n / 262144), UInt8.ofNat (0x80 + n / 4096 % 64), UInt8.ofNat (0x80 + n / 64 % 64),
    UInt8.ofNat (0x80 + n % 64)]

def encode (t : List UInt16) : List UInt8 := (scalars t).flatMap bytesOf

/-- What has been read, how many bytes the character begun still takes, its bits so far, and what
its next byte may be. -/
structure Reader where
  out : List UInt16
  left : Nat
  bits : Nat
  low : Nat
  high : Nat
  deriving DecidableEq, Repr

/-- Between characters. -/
def ready (out : List UInt16) : Reader := ⟨out, 0, 0, 0x80, 0xbf⟩

def first (out : List UInt16) (b : Nat) : Reader :=
  if b < 0x80 then ready (out ++ units b)
  else if 0xc2 ≤ b ∧ b < 0xe0 then ⟨out, 1, b - 0xc0, 0x80, 0xbf⟩
  else if 0xe0 ≤ b ∧ b < 0xf0 then
    ⟨out, 2, b - 0xe0, if b = 0xe0 then 0xa0 else 0x80, if b = 0xed then 0x9f else 0xbf⟩
  else if 0xf0 ≤ b ∧ b < 0xf5 then
    ⟨out, 3, b - 0xf0, if b = 0xf0 then 0x90 else 0x80, if b = 0xf4 then 0x8f else 0xbf⟩
  else ready (out ++ units REPLACEMENT)

/-- One byte. One that can't follow ends the character begun, and is read again as the first of another. -/
def read (r : Reader) (byte : UInt8) : Reader :=
  let b := byte.toNat
  if r.left = 0 then first r.out b
  else if r.low ≤ b ∧ b ≤ r.high then
    let bits := 64 * r.bits + (b - 0x80)
    if r.left = 1 then ready (r.out ++ units bits) else ⟨r.out, r.left - 1, bits, 0x80, 0xbf⟩
  else first (r.out ++ units REPLACEMENT) b

def decode (bytes : List UInt8) : List UInt16 :=
  let r := bytes.foldl read (ready [])
  if r.left = 0 then r.out else r.out ++ units REPLACEMENT

/-- A character as Unicode has them: no surrogate. -/
def IsScalar (n : Nat) : Prop := n < 0xd800 ∨ 0xdfff < n ∧ n < 0x110000

section
variable {a b : UInt16} {n : Nat} {t : List UInt16}

theorem isHigh_iff : isHigh a = true ↔ 0xd800 ≤ a.toNat ∧ a.toNat ≤ 0xdbff := decide_eq_true_iff

theorem isLow_iff : isLow a = true ↔ 0xdc00 ≤ a.toNat ∧ a.toNat ≤ 0xdfff := decide_eq_true_iff

theorem isScalar_single (c : UInt16) : IsScalar (if isHigh c || isLow c then REPLACEMENT else c.toNat) := by
  have bound := c.toNat_lt
  by_cases surrogate : (isHigh c || isLow c) = true
  · rw [if_pos surrogate]
    unfold IsScalar REPLACEMENT
    omega
  · rw [if_neg surrogate]
    rw [Bool.or_eq_true, isHigh_iff, isLow_iff] at surrogate
    unfold IsScalar
    omega

theorem isScalar_pair (high : isHigh a = true) (low : isLow b = true) :
    IsScalar (0x10000 + (a.toNat - 0xd800) * 0x400 + (b.toNat - 0xdc00)) := by
  have boundA := isHigh_iff.mp high
  have boundB := isLow_iff.mp low
  unfold IsScalar
  omega

/-- What a text's units stand for are scalar values. -/
theorem isScalar_scalars (t : List UInt16) : ∀ n ∈ scalars t, IsScalar n := by
  induction t using scalars.induct with
  | case1 => simp [scalars]
  | case2 c =>
    intro n member
    rw [scalars, List.mem_singleton] at member
    exact member ▸ isScalar_single c
  | case3 a b rest pair ih =>
    rw [scalars, if_pos pair]
    rw [Bool.and_eq_true] at pair
    intro n member
    rcases List.mem_cons.mp member with same | later
    · exact same ▸ isScalar_pair pair.1 pair.2
    · exact ih n later
  | case4 a b rest apart ih =>
    rw [scalars, if_neg apart]
    intro n member
    rcases List.mem_cons.mp member with same | later
    · exact same ▸ isScalar_single a
    · exact ih n later

theorem toNat_ofNat (small : n < 256) : (UInt8.ofNat n).toNat = n := by
  rw [UInt8.toNat_ofNat']
  exact Nat.mod_eq_of_lt small

theorem read_first (out : List UInt16) (small : n < 256) :
    read (ready out) (UInt8.ofNat n) = first out n := by
  simp only [read, ready, if_true, toNat_ofNat small]

/-- A byte that continues a character. -/
theorem read_next {out : List UInt16} {left bits low high : Nat} (small : n < 64)
    (within : low ≤ 0x80 + n ∧ 0x80 + n ≤ high) :
    read ⟨out, left + 1, bits, low, high⟩ (UInt8.ofNat (0x80 + n)) =
      if left = 0 then ready (out ++ units (64 * bits + n)) else ⟨out, left, 64 * bits + n, 0x80, 0xbf⟩ := by
  have value : (UInt8.ofNat (0x80 + n)).toNat = 0x80 + n := toNat_ofNat (by omega)
  have bits' : 64 * bits + (0x80 + n - 0x80) = 64 * bits + n := by omega
  simp only [read, value, if_neg (Nat.succ_ne_zero left), if_pos within, bits', Nat.add_sub_cancel,
    Nat.add_eq_right]

/-- A character's bytes are read as its units. -/
theorem read_bytesOf (out : List UInt16) (scalar : IsScalar n) :
    (bytesOf n).foldl read (ready out) = ready (out ++ units n) := by
  unfold IsScalar at scalar
  unfold bytesOf
  split
  next one =>
    rw [List.foldl_cons, List.foldl_nil, read_first out (by omega), first, if_pos one]
  next above =>
    split
    next two =>
      have lead : first out (0xc0 + n / 64) = ⟨out, 1, n / 64, 0x80, 0xbf⟩ := by
        rw [first, if_neg (by omega), if_pos (by omega), Nat.add_sub_cancel_left]
      have whole : 64 * (n / 64) + n % 64 = n := by omega
      rw [List.foldl_cons, List.foldl_cons, List.foldl_nil, read_first out (by omega), lead,
        read_next (by omega) (by omega), if_pos rfl, whole]
    next above' =>
      split
      next three =>
        have lead : first out (0xe0 + n / 4096) = ⟨out, 2, n / 4096, if n / 4096 = 0 then 0xa0 else 0x80,
            if n / 4096 = 13 then 0x9f else 0xbf⟩ := by
          rw [first, if_neg (by omega), if_neg (by omega), if_pos (by omega), Nat.add_sub_cancel_left]
          congr 1
          · exact if_congr (by omega) rfl rfl
          · exact if_congr (by omega) rfl rfl
        have lowest : (if n / 4096 = 0 then 0xa0 else 0x80) ≤ 0x80 + n / 64 % 64 := by
          split <;> omega
        have highest : 0x80 + n / 64 % 64 ≤ if n / 4096 = 13 then 0x9f else 0xbf := by
          split <;> omega
        have whole : 64 * (64 * (n / 4096) + n / 64 % 64) + n % 64 = n := by omega
        rw [List.foldl_cons, List.foldl_cons, List.foldl_cons, List.foldl_nil,
          read_first out (by omega), lead,
          read_next (by omega) ⟨lowest, highest⟩, if_neg (by omega),
            read_next (by omega) (by omega), if_pos rfl, whole]
      next four =>
        have lead : first out (0xf0 + n / 262144) =
          ⟨out, 3, n / 262144, if n / 262144 = 0 then 0x90 else 0x80,
            if n / 262144 = 4 then 0x8f else 0xbf⟩ := by
          rw [first, if_neg (by omega), if_neg (by omega), if_neg (by omega), if_pos (by omega),
            Nat.add_sub_cancel_left]
          congr 1
          · exact if_congr (by omega) rfl rfl
          · exact if_congr (by omega) rfl rfl
        have lowest : (if n / 262144 = 0 then 0x90 else 0x80) ≤ 0x80 + n / 4096 % 64 := by
          split <;> omega
        have highest : 0x80 + n / 4096 % 64 ≤ if n / 262144 = 4 then 0x8f else 0xbf := by
          split <;> omega
        have whole : 64 * (64 * (64 * (n / 262144) + n / 4096 % 64) + n / 64 % 64) + n % 64 = n := by omega
        rw [List.foldl_cons, List.foldl_cons, List.foldl_cons, List.foldl_cons, List.foldl_nil,
          read_first out (by omega), lead,
          read_next (by omega) ⟨lowest, highest⟩, if_neg (by omega),
            read_next (by omega) (by omega), if_neg (by omega),
          read_next (by omega) (by omega), if_pos rfl, whole]

theorem read_encode (ns : List Nat) (scalar : ∀ n ∈ ns, IsScalar n) (out : List UInt16) :
    (ns.flatMap bytesOf).foldl read (ready out) = ready (out ++ ns.flatMap units) := by
  induction ns generalizing out with
  | nil => simp
  | cons n ns ih =>
    rw [List.flatMap_cons, List.foldl_append, read_bytesOf out (scalar n (List.mem_cons_self ..)),
      ih (fun m member => scalar m (List.mem_cons_of_mem _ member)), List.flatMap_cons, List.append_assoc]

/-- What was written is read, unpaired surrogates as replacements. -/
theorem decode_encode (t : List UInt16) : decode (encode t) = (scalars t).flatMap units := by
  unfold decode encode
  rw [read_encode _ (isScalar_scalars t)]
  rfl

theorem units_toNat (a : UInt16) : units a.toNat = [a] := by
  rw [units, if_pos a.toNat_lt, UInt16.ofNat_toNat]

theorem units_pair (high : isHigh a = true) (low : isLow b = true) :
    units (0x10000 + (a.toNat - 0xd800) * 0x400 + (b.toNat - 0xdc00)) = [a, b] := by
  have boundA := isHigh_iff.mp high
  have boundB := isLow_iff.mp low
  have front : 0xd800 + (0x10000 + (a.toNat - 0xd800) * 0x400 + (b.toNat - 0xdc00) - 0x10000) /
    0x400 = a.toNat := by omega
  have back : 0xdc00 + (0x10000 + (a.toNat - 0xd800) * 0x400 + (b.toNat - 0xdc00) - 0x10000) %
    0x400 = b.toNat := by omega
  rw [units, if_neg (by omega), front, back, UInt16.ofNat_toNat, UInt16.ofNat_toNat]

/-- Text whose surrogates are all paired comes back as it was. -/
theorem decode_encode_whole (whole : Pairs.isWhole isHigh isLow t = true) : decode (encode t) = t := by
  rw [decode_encode]
  induction t using Pairs.isWhole.induct isHigh with
  | case1 => rfl
  | case2 c =>
    obtain ⟨plain, single⟩ : isHigh c = false ∧ isLow c = false := by simpa [Pairs.isWhole] using whole
    simp [scalars, plain, single, units_toNat]
  | case3 a b rest opens ih =>
    rw [Pairs.isWhole_pair opens, Bool.and_eq_true] at whole
    rw [scalars, if_pos (by rw [opens, whole.1]; rfl), List.flatMap_cons,
      units_pair opens whole.1, ih whole.2]
    rfl
  | case4 a b rest plain ih =>
    have plain' := eq_false_of_ne_true plain
    rw [Pairs.isWhole_cons plain', Bool.and_eq_true] at whole
    have single : isLow a = false := by simpa using whole.1
    rw [scalars, if_neg (by rw [plain']; simp), List.flatMap_cons, plain', single, ih whole.2]
    simp [units_toNat]

/-- Texts that are written alike read alike: whole ones are the same. -/
theorem encode_injective {u : List UInt16} (wholeT : Pairs.isWhole isHigh isLow t = true)
    (wholeU : Pairs.isWhole isHigh isLow u = true) (same : encode t = encode u) : t = u := by
  rw [← decode_encode_whole wholeT, same, decode_encode_whole wholeU]

theorem whole_of_ascii (ascii : ∀ c ∈ t, c.toNat < 0x80) : Pairs.isWhole isHigh isLow t = true := by
  induction t with
  | nil => rfl
  | cons c t ih =>
    have small := ascii c (List.mem_cons_self ..)
    have plain : isHigh c = false := eq_false_of_ne_true fun high => by
      have above := (isHigh_iff.mp high).1
      omega
    have single : isLow c = false := eq_false_of_ne_true fun low => by
      have above := (isLow_iff.mp low).1
      omega
    rw [Pairs.isWhole_cons plain, single, ih fun d member => ascii d (List.mem_cons_of_mem _ member)]
    rfl

end
end Utf8
