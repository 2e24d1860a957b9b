import MinaLedger.Types
import MinaLedger.L2Crypto.Pasta
import Mathlib.Data.ZMod.Basic

/-!
# Field and scalar arithmetic of crypto.c

Every operation is one call of the SDK's `cx_math_*`, which is not part of the
repository: it is a parameter `Cx`, and `Cx.Exact` says what its documentation
promises, exact arithmetic on operands below the modulus.

Results: on canonical encodings (`encode`) the field functions are the
operations of `ZMod fieldModulus` and the scalar functions those of
`ZMod groupOrder` (the `*_encode` lemmas, a simp set), a byte string below the
modulus is the encoding of the element it is read as (`encode_decode`), and the
promise is met by `Cx.reference` (`Cx.reference_exact`).
-/
namespace MinaLedger
open Pasta Lib.Lucas Lib.Radix

/-! ## The SDK's modular arithmetic -/

/-- The `cx_math_*` calls of the SDK; the modulus comes last. -/
structure Cx where
  addm : Field → Field → Field → Exec Field
  subm : Field → Field → Field → Exec Field
  multm : Field → Field → Field → Exec Field
  powm : Field → Field → Field → Exec Field
  invprimem : Field → Field → Exec Field

/-- What the SDK documents: exact results on reduced operands, and inverses of
nonzero operands modulo a prime. -/
structure Cx.Exact (cx : Cx) : Prop where
  addm : ∀ a b m, num a < num m → num b < num m →
    cx.addm a b m = .ok (ofNum ((num a + num b) % num m))
  subm : ∀ a b m, num a < num m → num b < num m →
    cx.subm a b m = .ok (ofNum ((num a + (num m - num b)) % num m))
  multm : ∀ a b m, num a < num m → num b < num m →
    cx.multm a b m = .ok (ofNum (num a * num b % num m))
  powm : ∀ a e m, num a < num m → cx.powm a e m = .ok (ofNum (num a ^ num e % num m))
  invprimem : ∀ a m, (num m).Prime → num a ≠ 0 → num a < num m →
    ∃ r, cx.invprimem a m = .ok r ∧ num r < num m ∧ num a * num r % num m = 1

/-- Arithmetic on numbers, a `Cx` that is exact. -/
def Cx.reference : Cx where
  addm a b m := .ok (ofNum ((num a + num b) % num m))
  subm a b m := .ok (ofNum ((num a + (num m - num b)) % num m))
  multm a b m := .ok (ofNum (num a * num b % num m))
  powm a e m := .ok (ofNum (powMod (num m) (num a) 256 (num e)))
  invprimem a m := .ok (ofNum (powMod (num m) (num a) 256 (num m - 2)))

theorem Cx.reference_exact : Cx.reference.Exact where
  addm _ _ _ _ _ := rfl
  subm _ _ _ _ _ := rfl
  multm _ _ _ _ _ := rfl
  powm a e m _ := by
    have he : num e < 2 ^ 256 := by simpa using num_lt e
    rw [← powMod_eq _ _ he]; rfl
  invprimem a m hm h0 ha := by
    have hlt : num m < 2 ^ 256 := by simpa using num_lt m
    have hpow : powMod (num m) (num a) 256 (num m - 2) = num a ^ (num m - 2) % num m :=
      powMod_eq _ _ (by omega)
    have hmod : num a ^ (num m - 2) % num m < num m := Nat.mod_lt _ hm.pos
    refine ⟨_, rfl, ?_, ?_⟩
    · rw [hpow, num_ofNum (by omega)]; exact hmod
    · -- Fermat: a * a ^ (m - 2) = a ^ (m - 1) = 1
      have : Fact (num m).Prime := ⟨hm⟩
      have ha0 : (num a : ZMod (num m)) ≠ 0 := by
        rw [ne_eq, ZMod.natCast_eq_zero_iff]
        exact fun hd => h0 (Nat.eq_zero_of_dvd_of_lt hd ha)
      have h1 := (cast_pow_eq_one_iff (a := num a) hm.two_le).mp (ZMod.pow_card_sub_one_eq_one ha0)
      rw [hpow, num_ofNum (by omega), Nat.mul_mod_mod, ← pow_succ',
        show num m - 2 + 1 = num m - 1 by have := hm.two_le; omega]
      exact h1

/-! ## Elements and their encodings -/

section Encode

variable {m : Nat}

/-- The canonical bytes of an element. -/
def encode (x : ZMod m) : Field := ofNum x.val

/-- The element a byte string stands for. -/
def decode (m : Nat) (a : Field) : ZMod m := (num a : ZMod m)

theorem encode_decode {a : Field} (h : num a < m) : encode (decode m a) = a := by
  rw [encode, decode, ZMod.val_natCast, Nat.mod_eq_of_lt h, ofNum_num]

variable [NeZero m] {M : Field}

theorem num_encode (hM : num M = m) (x : ZMod m) : num (encode x) = x.val := by
  have hm : m < 256 ^ 32 := by rw [← hM]; exact num_lt M
  exact num_ofNum ((ZMod.val_lt x).trans hm)

theorem num_encode_lt (hM : num M = m) (x : ZMod m) : num (encode x) < num M := by
  rw [num_encode hM, hM]; exact ZMod.val_lt x

theorem encode_inj (hM : num M = m) {x y : ZMod m} (h : encode x = encode y) : x = y :=
  ZMod.val_injective m (by rw [← num_encode hM, h, num_encode hM])

theorem decode_encode (hM : num M = m) (x : ZMod m) : decode m (encode x) = x := by
  rw [decode, num_encode hM, ZMod.natCast_zmod_val]

variable {cx : Cx}

theorem addm_encode (h : cx.Exact) (hM : num M = m) (x y : ZMod m) :
    cx.addm (encode x) (encode y) M = .ok (encode (x + y)) := by
  rw [h.addm _ _ _ (num_encode_lt hM x) (num_encode_lt hM y), num_encode hM,
    num_encode hM, hM, ← ZMod.val_add, encode]

theorem subm_encode (h : cx.Exact) (hM : num M = m) (x y : ZMod m) :
    cx.subm (encode x) (encode y) M = .ok (encode (x - y)) := by
  have hval : (x.val + (m - y.val)) % m = (x - y).val := by
    rw [← ZMod.val_natCast, Nat.cast_add, Nat.cast_sub (ZMod.val_lt y).le]
    simp [sub_eq_add_neg]
  rw [h.subm _ _ _ (num_encode_lt hM x) (num_encode_lt hM y), num_encode hM,
    num_encode hM, hM, hval, encode]

theorem multm_encode (h : cx.Exact) (hM : num M = m) (x y : ZMod m) :
    cx.multm (encode x) (encode y) M = .ok (encode (x * y)) := by
  rw [h.multm _ _ _ (num_encode_lt hM x) (num_encode_lt hM y), num_encode hM,
    num_encode hM, hM, ← ZMod.val_mul, encode]

theorem powm_encode (h : cx.Exact) (hM : num M = m) (x : ZMod m) (e : Field) :
    cx.powm (encode x) e M = .ok (encode (x ^ num e)) := by
  have hval : x.val ^ num e % m = (x ^ num e).val := by
    rw [← ZMod.val_natCast, Nat.cast_pow, ZMod.natCast_zmod_val]
  rw [h.powm _ _ _ (num_encode_lt hM x), num_encode hM, hM, hval, encode]

theorem invprimem_encode [hp : Fact m.Prime] (h : cx.Exact) (hM : num M = m) {x : ZMod m}
    (hx : x ≠ 0) : cx.invprimem (encode x) M = .ok (encode x⁻¹) := by
  have h0 : num (encode x) ≠ 0 := by
    rw [num_encode hM]; exact fun h0 => hx ((ZMod.val_eq_zero x).mp h0)
  have hprime : (num M).Prime := by rw [hM]; exact hp.out
  obtain ⟨r, hr, hlt, hmul⟩ := h.invprimem (encode x) M hprime h0 (num_encode_lt hM x)
  rw [hM] at hlt hmul
  have hone : x * decode m r = 1 := by
    rw [num_encode hM] at hmul
    have : ((x.val * num r : Nat) : ZMod m) = ((1 : Nat) : ZMod m) :=
      (ZMod.natCast_eq_natCast_iff' _ _ _).mpr
        (by rw [hmul, Nat.mod_eq_of_lt hp.out.one_lt])
    simpa [decode] using this
  rw [hr, ← encode_decode hlt, eq_inv_of_mul_eq_one_right hone]

end Encode

/-! ## Field elements -/

/-- Base field Fp. mirrors src/src/crypto.c:27-32 -/
def FIELD_MODULUS : Field := #v[
  0x40, 0x00, 0x00, 0x00, 0x00, 0x00, 0x00, 0x00, 0x00, 0x00, 0x00, 0x00, 0x00, 0x00, 0x00, 0x00,
  0x22, 0x46, 0x98, 0xfc, 0x09, 0x4c, 0xf9, 0x1b, 0x99, 0x2d, 0x30, 0xed, 0x00, 0x00, 0x00, 0x01]

/-- Scalar field Fq. mirrors src/src/crypto.c:35-40 -/
def GROUP_ORDER : Scalar := #v[
  0x40, 0x00, 0x00, 0x00, 0x00, 0x00, 0x00, 0x00, 0x00, 0x00, 0x00, 0x00, 0x00, 0x00, 0x00, 0x00,
  0x22, 0x46, 0x98, 0xfc, 0x09, 0x94, 0xa8, 0xdd, 0x8c, 0x46, 0xeb, 0x21, 0x00, 0x00, 0x00, 0x01]

/-- mirrors src/src/crypto.c:50-90 -/
def FIELD_ZERO : Field := ofNum 0
def FIELD_ONE : Field := ofNum 1
def FIELD_TWO : Field := ofNum 2
def FIELD_THREE : Field := ofNum 3
def FIELD_FOUR : Field := ofNum 4
def FIELD_EIGHT : Field := ofNum 8

/-- mirrors src/src/crypto.c:92-97 -/
def SCALAR_ZERO : Scalar := ofNum 0

section Operations

variable (cx : Cx)

/-- mirrors src/src/crypto.c:142-145 -/
def field_add (a b : Field) : Exec Field := cx.addm a b FIELD_MODULUS

/-- mirrors src/src/crypto.c:147-150 -/
def field_sub (a b : Field) : Exec Field := cx.subm a b FIELD_MODULUS

/-- mirrors src/src/crypto.c:152-155 -/
def field_mul (a b : Field) : Exec Field := cx.multm a b FIELD_MODULUS

/-- mirrors src/src/crypto.c:157-160 -/
def field_sq (a : Field) : Exec Field := cx.multm a a FIELD_MODULUS

/-- mirrors src/src/crypto.c:162-165 -/
def field_inv (a : Field) : Exec Field := cx.invprimem a FIELD_MODULUS

/-- mirrors src/src/crypto.c:167-171 -/
def field_negate (a : Field) : Exec Field := cx.subm FIELD_ZERO a FIELD_MODULUS

/-- c = a^e mod m. mirrors src/src/crypto.c:173-177 -/
def field_pow (a e : Field) : Exec Field := cx.powm a e FIELD_MODULUS

/-- `memcmp(a, b, 32) == 0`. mirrors src/src/crypto.c:179-182 -/
def field_eq (a b : Field) : Bool := a == b

/-- mirrors src/src/crypto.c:184-187 -/
def field_is_odd (y : Field) : Bool := y[FIELD_BYTES - 1] &&& 0x01 != 0

/-- Drops the top two bits. mirrors src/src/crypto.c:189-213 -/
def scalar_from_bytes (a : Scalar) : Scalar := a.set 0 (a[0] &&& 0x3f)

/-- mirrors src/src/crypto.c:220-223 -/
def scalar_add (a b : Scalar) : Exec Scalar := cx.addm a b GROUP_ORDER

/-- mirrors src/src/crypto.c:230-233 -/
def scalar_mul (a b : Scalar) : Exec Scalar := cx.multm a b GROUP_ORDER

/-- mirrors src/src/crypto.c:240-244 -/
def scalar_negate (a : Scalar) : Exec Scalar := cx.subm SCALAR_ZERO a GROUP_ORDER

/-- mirrors src/src/crypto.c:252-255 -/
def scalar_eq (a b : Scalar) : Bool := a == b

/-- mirrors src/src/crypto.c:257-260 -/
def scalar_is_zero (a : Scalar) : Bool := scalar_eq a SCALAR_ZERO

end Operations

/-! ## The operations on encodings -/

theorem num_FIELD_MODULUS : num FIELD_MODULUS = fieldModulus := by decide +kernel

theorem num_GROUP_ORDER : num GROUP_ORDER = groupOrder := by decide +kernel

section Encoded

variable {cx : Cx} (h : cx.Exact)

include h

theorem field_add_encode (x y : Fp) :
    field_add cx (encode x) (encode y) = .ok (encode (x + y)) :=
  addm_encode h num_FIELD_MODULUS x y

theorem field_sub_encode (x y : Fp) :
    field_sub cx (encode x) (encode y) = .ok (encode (x - y)) :=
  subm_encode h num_FIELD_MODULUS x y

theorem field_mul_encode (x y : Fp) :
    field_mul cx (encode x) (encode y) = .ok (encode (x * y)) :=
  multm_encode h num_FIELD_MODULUS x y

theorem field_sq_encode (x : Fp) : field_sq cx (encode x) = .ok (encode (x * x)) :=
  multm_encode h num_FIELD_MODULUS x x

theorem field_inv_encode {x : Fp} (hx : x ≠ 0) : field_inv cx (encode x) = .ok (encode x⁻¹) :=
  invprimem_encode h num_FIELD_MODULUS hx

theorem field_negate_encode (x : Fp) : field_negate cx (encode x) = .ok (encode (-x)) := by
  have h0 : FIELD_ZERO = encode (0 : Fp) := by rw [encode, ZMod.val_zero, FIELD_ZERO]
  rw [field_negate, h0, subm_encode h num_FIELD_MODULUS, zero_sub]

theorem field_pow_encode (x : Fp) (e : Field) :
    field_pow cx (encode x) e = .ok (encode (x ^ num e)) :=
  powm_encode h num_FIELD_MODULUS x e

theorem scalar_add_encode (x y : Fq) :
    scalar_add cx (encode x) (encode y) = .ok (encode (x + y)) :=
  addm_encode h num_GROUP_ORDER x y

theorem scalar_mul_encode (x y : Fq) :
    scalar_mul cx (encode x) (encode y) = .ok (encode (x * y)) :=
  multm_encode h num_GROUP_ORDER x y

theorem scalar_negate_encode (x : Fq) : scalar_negate cx (encode x) = .ok (encode (-x)) := by
  have h0 : SCALAR_ZERO = encode (0 : Fq) := by rw [encode, ZMod.val_zero, SCALAR_ZERO]
  rw [scalar_negate, h0, subm_encode h num_GROUP_ORDER, zero_sub]

end Encoded

/-- A small constant is the encoding of a numeral. -/
theorem ofNum_eq_encode {v : Nat} (hv : v < fieldModulus) : ofNum v = encode (v : Fp) := by
  rw [encode, ZMod.val_natCast, Nat.mod_eq_of_lt hv]

@[simp] theorem FIELD_ZERO_eq : FIELD_ZERO = encode (0 : Fp) := by
  exact_mod_cast ofNum_eq_encode (v := 0) (by decide)

@[simp] theorem FIELD_ONE_eq : FIELD_ONE = encode (1 : Fp) := by
  exact_mod_cast ofNum_eq_encode (v := 1) (by decide)

@[simp] theorem FIELD_TWO_eq : FIELD_TWO = encode (2 : Fp) := by
  exact_mod_cast ofNum_eq_encode (v := 2) (by decide)

@[simp] theorem FIELD_THREE_eq : FIELD_THREE = encode (3 : Fp) := by
  exact_mod_cast ofNum_eq_encode (v := 3) (by decide)

@[simp] theorem FIELD_FOUR_eq : FIELD_FOUR = encode (4 : Fp) := by
  exact_mod_cast ofNum_eq_encode (v := 4) (by decide)

@[simp] theorem FIELD_EIGHT_eq : FIELD_EIGHT = encode (8 : Fp) := by
  exact_mod_cast ofNum_eq_encode (v := 8) (by decide)

theorem encode_inj_iff (x y : Fp) : encode x = encode y ↔ x = y :=
  ⟨encode_inj num_FIELD_MODULUS, fun h => h ▸ rfl⟩

@[simp] theorem field_eq_encode (x y : Fp) : field_eq (encode x) (encode y) = decide (x = y) := by
  rw [field_eq, Bool.eq_iff_iff]
  simp [encode_inj_iff]

/-! ## Single bits -/

theorem and_one_ne_zero (b : UInt8) : (b &&& 0x01 != 0) = decide (b.toNat % 2 = 1) := by
  rw [Bool.eq_iff_iff, bne_iff_ne, decide_eq_true_eq, ne_eq, ← UInt8.toNat_inj, UInt8.toNat_and]
  have h : b.toNat &&& 1 = b.toNat % 2 := Nat.and_one_is_mod _
  simp [h]

theorem field_is_odd_eq (y : Field) : field_is_odd y = decide (num y % 2 = 1) := by
  have hne : y.toList ≠ [] := by simp
  have hlast : y.toList.getLast hne = y[FIELD_BYTES - 1] := by
    simp [List.getLast_eq_getElem, FIELD_BYTES]
  have hnum : num y = 256 * beVal y.toList.dropLast + (y[FIELD_BYTES - 1]).toNat := by
    rw [num, ← hlast, ← beVal_concat, List.dropLast_append_getLast]
  rw [field_is_odd, and_one_ne_zero, hnum]
  congr 2; omega

/-- A scalar made from any 32 bytes keeps the low 254 bits. -/
theorem num_scalar_from_bytes (a : Scalar) : num (scalar_from_bytes a) = num a % 2 ^ 254 := by
  obtain ⟨b, t, hbt⟩ : ∃ b t, a.toList = b :: t :=
    List.exists_cons_of_ne_nil (by simp)
  have hlen : t.length = 31 := by
    have := congrArg List.length hbt
    simpa using this.symm
  have hb : a[0] = b := by
    have : a.toList[0]? = some b := by rw [hbt]; rfl
    simpa using this
  have hset : (scalar_from_bytes a).toList = (b &&& 0x3f) :: t := by
    rw [scalar_from_bytes, Vector.toList_set, hbt, hb]; rfl
  have hand : (b &&& 0x3f).toNat = b.toNat % 2 ^ 6 := by
    rw [UInt8.toNat_and]; exact Nat.and_two_pow_sub_one_eq_mod _ 6
  have ht : beVal t < 256 ^ 31 := hlen ▸ beVal_lt t
  have := b.toNat_lt
  rw [num, num, hset, hbt, beVal_cons, beVal_cons, hand, hlen]
  omega

theorem scalar_from_bytes_lt (a : Scalar) : num (scalar_from_bytes a) < groupOrder := by
  have h : num a % 2 ^ 254 < 2 ^ 254 := Nat.mod_lt _ (by norm_num)
  rw [num_scalar_from_bytes]
  exact h.trans (by decide)

end MinaLedger
