import MinaLedger.Core
import MinaLedger.Lib.Radix

/-!
# Integers on the wire

`read_uint32_be` and `read_uint64_be` of src/src/utils.c.

Results: `read_uint32_be_eq` and `read_uint64_be_eq`, the big-endian value of
four and eight bytes.
-/
namespace MinaLedger
open Lib.Radix

/-- `off` is the pointer's offset. mirrors src/src/utils.c:161-164 -/
def read_uint32_be (buffer : List UInt8) (off : Nat) : Exec UInt32 := do
  let b0 ← load buffer off
  let b1 ← load buffer (off + 1)
  let b2 ← load buffer (off + 2)
  let b3 ← load buffer (off + 3)
  return b0.toUInt32 <<< 24 ||| b1.toUInt32 <<< 16 ||| b2.toUInt32 <<< 8 ||| b3.toUInt32

/-- mirrors src/src/utils.c:166-172 -/
def read_uint64_be (buffer : List UInt8) (off : Nat) : Exec UInt64 := do
  let b0 ← load buffer off
  let b1 ← load buffer (off + 1)
  let b2 ← load buffer (off + 2)
  let b3 ← load buffer (off + 3)
  let b4 ← load buffer (off + 4)
  let b5 ← load buffer (off + 5)
  let b6 ← load buffer (off + 6)
  let b7 ← load buffer (off + 7)
  return b0.toUInt64 <<< 56 ||| b1.toUInt64 <<< 48 ||| b2.toUInt64 <<< 40 ||| b3.toUInt64 <<< 32 |||
    b4.toUInt64 <<< 24 ||| b5.toUInt64 <<< 16 ||| b6.toUInt64 <<< 8 ||| b7.toUInt64

/-- Bits that do not overlap add up. -/
theorem or_eq_add {x y : Nat} (i : Nat) (hx : 2 ^ i ∣ x) (hy : y < 2 ^ i) : x ||| y = x + y := by
  obtain ⟨a, rfl⟩ := hx
  exact (Nat.two_pow_add_eq_or_of_lt hy a).symm

/-- The `k` bytes at an offset, one by one. -/
theorem load_of_take {buffer : List UInt8} {off k : Nat} {l : List UInt8}
    (h : (buffer.drop off).take k = l) {i : Nat} (hi : i < l.length) :
    load buffer (off + i) = .ok l[i] := by
  subst h
  rw [List.length_take, List.length_drop] at hi
  rw [load_eq _ _ (by omega)]
  simp

theorem shl_toNat32 (b : UInt8) {k : Nat} (hk : k ≤ 24) :
    (b.toUInt32 <<< UInt32.ofNat k).toNat = b.toNat * 2 ^ k := by
  have hb := b.toNat_lt
  have hpow : 2 ^ k ≤ 2 ^ 24 := Nat.pow_le_pow_right (by norm_num) hk
  have hmul : b.toNat * 2 ^ k ≤ 255 * 2 ^ 24 := Nat.mul_le_mul (by omega) hpow
  have hk' : (UInt32.ofNat k).toNat % 32 = k := by
    rw [UInt32.toNat_ofNat']; omega
  rw [UInt32.toNat_shiftLeft, hk', UInt8.toNat_toUInt32, Nat.shiftLeft_eq,
    Nat.mod_eq_of_lt (show b.toNat * 2 ^ k < 2 ^ 32 by omega)]

theorem shl_toNat64 (b : UInt8) {k : Nat} (hk : k ≤ 56) :
    (b.toUInt64 <<< UInt64.ofNat k).toNat = b.toNat * 2 ^ k := by
  have hb := b.toNat_lt
  have hpow : 2 ^ k ≤ 2 ^ 56 := Nat.pow_le_pow_right (by norm_num) hk
  have hmul : b.toNat * 2 ^ k ≤ 255 * 2 ^ 56 := Nat.mul_le_mul (by omega) hpow
  have hk' : (UInt64.ofNat k).toNat % 64 = k := by
    rw [UInt64.toNat_ofNat']; omega
  rw [UInt64.toNat_shiftLeft, hk', UInt8.toNat_toUInt64, Nat.shiftLeft_eq,
    Nat.mod_eq_of_lt (show b.toNat * 2 ^ k < 2 ^ 64 by omega)]

/-- One more byte: the bytes so far stand above bit `k + 8`. -/
theorem or_shl32 {x : UInt32} {v : Nat} (b : UInt8) {k : Nat} (hk : k ≤ 24)
    (hx : x.toNat = v * 2 ^ (k + 8)) :
    (x ||| b.toUInt32 <<< UInt32.ofNat k).toNat = (256 * v + b.toNat) * 2 ^ k := by
  have hb : b.toNat * 2 ^ k < 2 ^ (k + 8) := by
    rw [pow_add, Nat.mul_comm (2 ^ k)]
    exact Nat.mul_lt_mul_of_pos_right b.toNat_lt (by positivity)
  rw [UInt32.toNat_or, shl_toNat32 b hk, hx, or_eq_add (k + 8) (Nat.dvd_mul_left _ _) hb]
  ring

theorem or_shl64 {x : UInt64} {v : Nat} (b : UInt8) {k : Nat} (hk : k ≤ 56)
    (hx : x.toNat = v * 2 ^ (k + 8)) :
    (x ||| b.toUInt64 <<< UInt64.ofNat k).toNat = (256 * v + b.toNat) * 2 ^ k := by
  have hb : b.toNat * 2 ^ k < 2 ^ (k + 8) := by
    rw [pow_add, Nat.mul_comm (2 ^ k)]
    exact Nat.mul_lt_mul_of_pos_right b.toNat_lt (by positivity)
  rw [UInt64.toNat_or, shl_toNat64 b hk, hx, or_eq_add (k + 8) (Nat.dvd_mul_left _ _) hb]
  ring

theorem read_uint32_be_eq {buffer : List UInt8} {off : Nat} (h : off + 4 ≤ buffer.length) :
    ∃ v, read_uint32_be buffer off = .ok v ∧ v.toNat = beVal ((buffer.drop off).take 4) := by
  have hlen : ((buffer.drop off).take 4).length = 4 := by
    rw [List.length_take, List.length_drop]; omega
  obtain ⟨b0, b1, b2, b3, hl⟩ := List.length_eq_four.mp hlen
  have hload : ∀ i (hi : i < 4), load buffer (off + i) = .ok [b0, b1, b2, b3][i] := fun i hi =>
    load_of_take hl hi
  refine ⟨_, by
    simp only [read_uint32_be, show load buffer off = .ok b0 from hload 0 (by norm_num),
      show load buffer (off + 1) = .ok b1 from hload 1 (by norm_num),
      show load buffer (off + 2) = .ok b2 from hload 2 (by norm_num),
      show load buffer (off + 3) = .ok b3 from hload 3 (by norm_num), ok_bind, pure_eq_ok]
    rfl, ?_⟩
  have h2 := or_shl32 b2 (k := 8) (by norm_num) <| or_shl32 b1 (k := 16) (by norm_num) <|
    shl_toNat32 b0 (k := 24) (by norm_num)
  refine (UInt32.toNat_or _ _).trans ((congrArg (· ||| b3.toUInt32.toNat) h2).trans ?_)
  rw [hl, UInt8.toNat_toUInt32, or_eq_add 8 (Nat.dvd_mul_left _ _) b3.toNat_lt]
  simp [beVal_cons]
  omega

theorem read_uint64_be_eq {buffer : List UInt8} {off : Nat} (h : off + 8 ≤ buffer.length) :
    ∃ v, read_uint64_be buffer off = .ok v ∧ v.toNat = beVal ((buffer.drop off).take 8) := by
  obtain ⟨b0, b1, b2, b3, hl⟩ := List.length_eq_four.mp
    (show ((buffer.drop off).take 4).length = 4 by rw [List.length_take, List.length_drop]; omega)
  obtain ⟨b4, b5, b6, b7, hm⟩ := List.length_eq_four.mp
    (show (((buffer.drop off).drop 4).take 4).length = 4 by
      rw [List.length_take, List.length_drop, List.length_drop]; omega)
  have hlm : (buffer.drop off).take 8 = [b0, b1, b2, b3, b4, b5, b6, b7] := by
    rw [show 8 = 4 + 4 from rfl, List.take_add, hl, hm]; rfl
  have hload : ∀ i (hi : i < 8), load buffer (off + i) = .ok [b0, b1, b2, b3, b4, b5, b6, b7][i] :=
    fun i hi => load_of_take hlm hi
  refine ⟨_, by
    simp only [read_uint64_be, show load buffer off = .ok b0 from hload 0 (by norm_num),
      show load buffer (off + 1) = .ok b1 from hload 1 (by norm_num),
      show load buffer (off + 2) = .ok b2 from hload 2 (by norm_num),
      show load buffer (off + 3) = .ok b3 from hload 3 (by norm_num),
      show load buffer (off + 4) = .ok b4 from hload 4 (by norm_num),
      show load buffer (off + 5) = .ok b5 from hload 5 (by norm_num),
      show load buffer (off + 6) = .ok b6 from hload 6 (by norm_num),
      show load buffer (off + 7) = .ok b7 from hload 7 (by norm_num), ok_bind, pure_eq_ok]
    rfl, ?_⟩
  have h6 := or_shl64 b6 (k := 8) (by norm_num) <| or_shl64 b5 (k := 16) (by norm_num) <|
    or_shl64 b4 (k := 24) (by norm_num) <| or_shl64 b3 (k := 32) (by norm_num) <|
    or_shl64 b2 (k := 40) (by norm_num) <| or_shl64 b1 (k := 48) (by norm_num) <|
    shl_toNat64 b0 (k := 56) (by norm_num)
  refine (UInt64.toNat_or _ _).trans ((congrArg (· ||| b7.toUInt64.toNat) h6).trans ?_)
  rw [hlm, UInt8.toNat_toUInt64, or_eq_add 8 (Nat.dvd_mul_left _ _) b7.toNat_lt]
  simp [beVal_cons]
  omega

end MinaLedger
