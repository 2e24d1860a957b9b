import MinaLedger.Lib.Curve
import MinaLedger.Lib.Lucas
import Mathlib.FieldTheory.Finite.Basic

/-!
# The Pallas curve

The two moduli of src/src/crypto.c as numbers, the curve `y² = x³ + 5` over
the base field and its generator.

Results: both moduli are prime (`fieldModulus_prime`, `groupOrder_prime`, by
certificate), the curve has no singular point, and `groupOrder` times the
generator is the identity (`groupOrder_smul_generator`, by running the checked
double-and-add of `Lib.Curve`). So the assumptions a reader would otherwise
have to make about these constants are theorems here.
-/
namespace MinaLedger.Pasta
open Lib.Curve Lib.Ladder Lib.Lucas

/-- Fp. mirrors src/src/crypto.c:26-32 -/
def fieldModulus : Nat := 0x40000000000000000000000000000000224698fc094cf91b992d30ed00000001

/-- Fq. mirrors src/src/crypto.c:34-40 -/
def groupOrder : Nat := 0x40000000000000000000000000000000224698fc0994a8dd8c46eb2100000001

/-! ## Primality -/

/-- Lucas certificates of the two moduli and of all primes below them in the
factor trees of their predecessors. -/
def certificate : List Entry :=
   [⟨2, 1, []⟩, ⟨3, 2, [(2, 1)]⟩, ⟨7, 3, [(2, 1), (3, 1)]⟩, ⟨5, 2, [(2, 2)]⟩,
    ⟨11, 2, [(2, 1), (5, 1)]⟩, ⟨463, 3, [(2, 1), (3, 1), (7, 1), (11, 1)]⟩,
    ⟨89, 3, [(2, 3), (11, 1)]⟩, ⟨23, 5, [(2, 1), (11, 1)]⟩, ⟨829, 2, [(2, 2), (3, 2), (23, 1)]⟩,
    ⟨14923, 2, [(2, 1), (3, 2), (829, 1)]⟩, ⟨29, 2, [(2, 2), (7, 1)]⟩, ⟨59, 2, [(2, 1), (29, 1)]⟩,
    ⟨17, 3, [(2, 4)]⟩, ⟨1973, 2, [(2, 2), (17, 1), (29, 1)]⟩, ⟨43, 3, [(2, 1), (3, 1), (7, 1)]⟩,
    ⟨173, 2, [(2, 2), (43, 1)]⟩, ⟨6229, 2, [(2, 2), (3, 2), (173, 1)]⟩,
    ⟨24917, 2, [(2, 2), (6229, 1)]⟩, ⟨149503, 3, [(2, 1), (3, 1), (24917, 1)]⟩,
    ⟨897019, 2, [(2, 1), (3, 1), (149503, 1)]⟩,
    ⟨417677162933, 2, [(2, 2), (59, 1), (1973, 1), (897019, 1)]⟩,
    ⟨539204044132271846773, 5, [(2, 2), (3, 5), (89, 1), (14923, 1), (417677162933, 1)]⟩,
    ⟨2531, 2, [(2, 1), (5, 1), (11, 1), (23, 1)]⟩, ⟨13, 2, [(2, 2), (3, 1)]⟩,
    ⟨19, 2, [(2, 1), (3, 2)]⟩, ⟨19267, 3, [(2, 1), (3, 1), (13, 2), (19, 1)]⟩,
    ⟨115603, 2, [(2, 1), (3, 1), (19267, 1)]⟩, ⟨53, 2, [(2, 2), (13, 1)]⟩,
    ⟨67, 2, [(2, 1), (3, 1), (11, 1)]⟩, ⟨269, 2, [(2, 2), (67, 1)]⟩,
    ⟨3767, 5, [(2, 1), (7, 1), (269, 1)]⟩, ⟨1197907, 3, [(2, 1), (3, 1), (53, 1), (3767, 1)]⟩,
    ⟨61, 2, [(2, 2), (3, 1), (5, 1)]⟩, ⟨977, 3, [(2, 4), (61, 1)]⟩,
    ⟨6942563, 2, [(2, 1), (11, 1), (17, 1), (19, 1), (977, 1)]⟩,
    ⟨41655379, 2, [(2, 1), (3, 1), (6942563, 1)]⟩,
    ⟨22160661629, 3, [(2, 2), (7, 1), (19, 1), (41655379, 1)]⟩, ⟨127, 3, [(2, 1), (3, 2), (7, 1)]⟩,
    ⟨509, 2, [(2, 2), (127, 1)]⟩, ⟨41, 6, [(2, 3), (5, 1)]⟩, ⟨413527, 3, [(2, 1), (3, 1), (41, 3)]⟩,
    ⟨25741, 6, [(2, 2), (3, 2), (5, 1), (11, 1), (13, 1)]⟩,
    ⟨772231, 6, [(2, 1), (3, 1), (5, 1), (25741, 1)]⟩,
    ⟨325086459374267, 2, [(2, 1), (509, 1), (413527, 1), (772231, 1)]⟩,
    ⟨8999194758858563409123804352480028797519453, 2, [(2, 2), (3, 4), (11, 1), (2531, 1),
       (115603, 1), (1197907, 1), (22160661629, 1), (325086459374267, 1)]⟩,
    ⟨fieldModulus, 5, [(2, 32), (3, 1), (463, 1), (539204044132271846773, 1),
       (8999194758858563409123804352480028797519453, 1)]⟩, ⟨1709, 3, [(2, 2), (7, 1), (61, 1)]⟩,
    ⟨1381, 2, [(2, 2), (3, 1), (5, 1), (23, 1)]⟩, ⟨24859, 2, [(2, 1), (3, 2), (1381, 1)]⟩,
    ⟨179, 2, [(2, 1), (89, 1)]⟩, ⟨359, 7, [(2, 1), (179, 1)]⟩,
    ⟨68477, 2, [(2, 2), (17, 1), (19, 1), (53, 1)]⟩, ⟨958679, 7, [(2, 1), (7, 1), (68477, 1)]⟩,
    ⟨4129989133, 5, [(2, 2), (3, 1), (359, 1), (958679, 1)]⟩, ⟨71, 7, [(2, 1), (5, 1), (7, 1)]⟩,
    ⟨241, 7, [(2, 4), (3, 1), (5, 1)]⟩, ⟨125803, 3, [(2, 1), (3, 2), (29, 1), (241, 1)]⟩,
    ⟨2012849, 3, [(2, 4), (125803, 1)]⟩, ⟨4025699, 2, [(2, 1), (2012849, 1)]⟩,
    ⟨80513981, 2, [(2, 2), (5, 1), (4025699, 1)]⟩,
    ⟨5247740253619, 2, [(2, 1), (3, 3), (17, 1), (71, 1), (80513981, 1)]⟩,
    ⟨1690502597179744445941507, 2, [(2, 1), (3, 1), (13, 1), (4129989133, 1), (5247740253619, 1)]⟩,
    ⟨294793, 10, [(2, 3), (3, 1), (71, 1), (173, 1)]⟩, ⟨827, 2, [(2, 1), (7, 1), (59, 1)]⟩,
    ⟨2557, 2, [(2, 2), (3, 2), (71, 1)]⟩, ⟨4229279, 13, [(2, 1), (827, 1), (2557, 1)]⟩,
    ⟨6091, 7, [(2, 1), (3, 1), (5, 1), (7, 1), (29, 1)]⟩,
    ⟨5701177, 7, [(2, 3), (3, 2), (13, 1), (6091, 1)]⟩,
    ⟨399082391, 7, [(2, 1), (5, 1), (7, 1), (5701177, 1)]⟩, ⟨757, 2, [(2, 2), (3, 3), (7, 1)]⟩,
    ⟨3037, 2, [(2, 2), (3, 1), (11, 1), (23, 1)]⟩, ⟨12149, 2, [(2, 2), (3037, 1)]⟩,
    ⟨31649, 3, [(2, 5), (23, 1), (43, 1)]⟩,
    ⟨5239247429827, 2, [(2, 1), (3, 2), (757, 1), (12149, 1), (31649, 1)]⟩,
    ⟨10427374428728808478656897599072717, 2, [(2, 2), (294793, 1), (4229279, 1), (399082391, 1),
       (5239247429827, 1)]⟩,
    ⟨groupOrder, 5, [(2, 32), (3, 2), (1709, 1), (24859, 1), (1690502597179744445941507, 1),
       (10427374428728808478656897599072717, 1)]⟩]

theorem certificate_ok : certify [] certificate = true := by
  decide +kernel

theorem fieldModulus_prime : fieldModulus.Prime :=
  prime_of_certify (by simp) certificate_ok
    ⟨fieldModulus, 5, [(2, 32), (3, 1), (463, 1), (539204044132271846773, 1),
      (8999194758858563409123804352480028797519453, 1)]⟩ (by simp [certificate])

theorem groupOrder_prime : groupOrder.Prime :=
  prime_of_certify (by simp) certificate_ok
    ⟨groupOrder, 5, [(2, 32), (3, 2), (1709, 1), (24859, 1), (1690502597179744445941507, 1),
      (10427374428728808478656897599072717, 1)]⟩ (by simp [certificate])

instance : Fact fieldModulus.Prime := ⟨fieldModulus_prime⟩

instance : Fact groupOrder.Prime := ⟨groupOrder_prime⟩

theorem fieldModulus_lt_groupOrder : fieldModulus < groupOrder := by decide

theorem groupOrder_lt : groupOrder < 2 ^ 255 := by decide

theorem two_pow_254_lt : 2 ^ 254 < fieldModulus := by decide

theorem fieldModulus_odd : fieldModulus % 2 = 1 := by decide

/-! ## The curve -/

abbrev Fp := ZMod fieldModulus

abbrev Fq := ZMod groupOrder

/-- Under one name, so that the literals `2` and `5` are one term in every module. -/
instance atLeastTwo_two : Nat.AtLeastTwo 2 := ⟨by norm_num⟩

instance atLeastTwo_five : Nat.AtLeastTwo 5 := ⟨by norm_num⟩

/-- The group of points of `y² = x³ + 5` over Fp. -/
abbrev Point := (curve (5 : Fp)).Point

theorem natCast_ne_zero {n : Nat} (h0 : n ≠ 0) (h : n < fieldModulus) : (n : Fp) ≠ 0 := by
  rw [ne_eq, ZMod.natCast_eq_zero_iff]
  exact fun hd => h0 (Nat.eq_zero_of_dvd_of_lt hd h)

theorem two_ne_zero : (2 : Fp) ≠ 0 := by
  have := natCast_ne_zero (n := 2) (by decide) (by decide)
  exact_mod_cast this

theorem five_ne_zero : (5 : Fp) ≠ 0 := by
  have := natCast_ne_zero (n := 5) (by decide) (by decide)
  exact_mod_cast this

theorem Δ_ne_zero : (curve (5 : Fp)).Δ ≠ 0 := by
  have h : (curve (5 : Fp)).Δ = -((10800 : Nat) : Fp) := by
    simp only [WeierstrassCurve.Δ, WeierstrassCurve.b₂, WeierstrassCurve.b₄, WeierstrassCurve.b₆,
      WeierstrassCurve.b₈, curve]
    push_cast; ring
  rw [h, neg_ne_zero]
  exact natCast_ne_zero (by decide) (by decide)

/-- Every solution of the equation is a point: the curve is smooth. -/
theorem nonsingular_iff (x y : Fp) : (curve (5 : Fp)).Nonsingular x y ↔ y ^ 2 = x ^ 3 + 5 := by
  rw [← WeierstrassCurve.Affine.equation_iff_nonsingular_of_Δ_ne_zero Δ_ne_zero, equation_iff]

/-- 5 is no square, by the Euler criterion; so no point has x = 0. -/
theorem square_ne (y : Fp) : y ^ 2 ≠ 5 := by
  intro h
  have hy : y ≠ 0 := by
    rintro rfl
    exact five_ne_zero (by linear_combination -h)
  have h1 : ((5 : Nat) : Fp) ^ ((fieldModulus - 1) / 2) = 1 := by
    rw [Nat.cast_ofNat, ← h, ← pow_mul, Nat.mul_div_cancel' (by decide)]
    exact ZMod.pow_card_sub_one_eq_one hy
  have hmod := (cast_pow_eq_one_iff (by decide)).mp h1
  rw [← powMod_eq (k := 255) _ _ (by decide)] at hmod
  exact absurd hmod (by decide +kernel)

/-- -5 is no cube, by the Euler criterion for cubes. -/
theorem cube_ne (x : Fp) : x ^ 3 ≠ -5 := by
  intro h
  have hneg : (-5 : Fp) = ((fieldModulus - 5 : Nat) : Fp) := by
    rw [Nat.cast_sub (by decide), ZMod.natCast_self, zero_sub]; rfl
  have hx : x ≠ 0 := by
    rintro rfl
    exact five_ne_zero (by linear_combination h)
  have h1 : ((fieldModulus - 5 : Nat) : Fp) ^ ((fieldModulus - 1) / 3) = 1 := by
    rw [← hneg, ← h, ← pow_mul, Nat.mul_div_cancel' (by decide)]
    exact ZMod.pow_card_sub_one_eq_one hx
  have hmod := (cast_pow_eq_one_iff (by decide)).mp h1
  rw [← powMod_eq (k := 255) _ _ (by decide)] at hmod
  exact absurd hmod (by decide +kernel)

/-- So the curve has no point of order two. -/
theorem add_self_ne_zero {P : Point} (hP : P ≠ 0) : P + P ≠ 0 := by
  cases P with
  | zero => exact absurd rfl hP
  | some x y hxy =>
    have hy : y ≠ 0 := by
      rintro rfl
      refine cube_ne x ?_
      linear_combination -(nonsingular_iff x 0).mp hxy
    have hne : y ≠ (curve (5 : Fp)).negY x y := by
      rw [negY_eq]
      intro h
      exact mul_ne_zero two_ne_zero hy (by linear_combination h)
    rw [WeierstrassCurve.Affine.Point.add_self_of_Y_ne hne]
    exact WeierstrassCurve.Affine.Point.some_ne_zero _

/-! ## The generator -/

def generatorY : Nat := 12418654782883325593414442427049395787963493412651469444558597405572177144507

theorem generator_nonsingular : (curve (5 : Fp)).Nonsingular 1 (generatorY : Fp) := by
  rw [nonsingular_iff]
  have h : generatorY ^ 2 % fieldModulus = 6 % fieldModulus := by decide +kernel
  have h' := (ZMod.natCast_eq_natCast_iff' (generatorY ^ 2) 6 fieldModulus).mpr h
  push_cast at h'
  rw [h']; norm_num

def generator : Point := .some 1 generatorY generator_nonsingular

def generatorJac : Jac Fp := ⟨1, generatorY, 1⟩

theorem denotes_generator : Denotes generatorJac generator :=
  ⟨one_ne_zero, by simp [generatorJac], by simp [generatorJac]⟩

theorem generator_ne_zero : generator ≠ 0 := WeierstrassCurve.Affine.Point.some_ne_zero _

set_option maxRecDepth 4000 in
theorem ladderChecked_generator :
    ((ladderChecked generatorJac (bits 255 groupOrder)).map (·.Z)) = some 0 := by
  decide +kernel

/-- A checked run that ends in the identity is a relation in the group. -/
theorem smul_generator_of_run {n : Nat} (hn : n < 2 ^ 255)
    (h : ((ladderChecked generatorJac (bits 255 n)).map (·.Z)) = some 0) : n • generator = 0 := by
  obtain ⟨r, hr, hz⟩ := Option.map_eq_some_iff.mp h
  have hd := denotes_ladderChecked two_ne_zero denotes_generator hr
  rw [valFrom_bits hn] at hd
  exact denotes_unique hd hz

/-- The order of the generator divides `groupOrder`. -/
theorem groupOrder_smul_generator : groupOrder • generator = 0 :=
  smul_generator_of_run groupOrder_lt ladderChecked_generator

end MinaLedger.Pasta
