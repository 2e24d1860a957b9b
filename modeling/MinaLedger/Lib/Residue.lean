import Mathlib.Data.ZMod.Basic
import Mathlib.Algebra.Field.ZMod
import Mathlib.GroupTheory.OrderOfElement
import Mathlib.Tactic.LinearCombination

/-!
# Multiples by residues

In a commutative group, for an element of order dividing `q`: multiples by
residues modulo `q`, taken through their representatives below `q`.

Results: sums, products and negations of residues act as they should, and a
response `k + e * x` to a challenge `e` gives the commitment back
(`response_verifies`). For a prime `q` a residue is determined by its multiple
(`smul_val_inj`), so a commitment and a challenge have one response
(`response_unique`), and the responses to two challenges give the secret
(`special_soundness`).
-/
namespace Lib.Residue

variable {G : Type*} [AddCommGroup G] {q : ℕ} {P : G} (hord : q • P = 0)

include hord

theorem smul_mod (k : ℕ) : (k % q) • P = k • P := by
  conv_rhs => rw [← Nat.mod_add_div k q]
  rw [add_nsmul, mul_nsmul, hord, nsmul_zero, add_zero]

theorem smul_order (k : ℕ) : q • (k • P) = 0 := by
  rw [smul_comm, hord, nsmul_zero]

theorem val_mul_smul (x y : ZMod q) : (x * y).val • P = x.val • (y.val • P) := by
  rw [ZMod.val_mul, smul_mod hord, Nat.mul_comm, mul_nsmul]

variable [NeZero q]

theorem val_add_smul (x y : ZMod q) : (x + y).val • P = x.val • P + y.val • P := by
  rw [ZMod.val_add, smul_mod hord, add_nsmul]

theorem val_neg_smul (x : ZMod q) : (-x).val • P = -(x.val • P) := by
  have h0 : (-x + x).val • P = 0 := by rw [neg_add_cancel, ZMod.val_zero, zero_nsmul]
  rw [val_add_smul hord] at h0
  exact eq_neg_of_add_eq_zero_left h0

/-- A linear response to a challenge, checked against the public multiple. -/
theorem response_verifies (k e x : ZMod q) :
    (k + e * x).val • P - e.val • (x.val • P) = k.val • P := by
  rw [val_add_smul hord, val_mul_smul hord, add_sub_cancel_right]

omit [NeZero q]

section Prime

variable [Fact q.Prime] (hne : P ≠ 0)

include hne

theorem smul_val_inj {x y : ZMod q} (h : x.val • P = y.val • P) : x = y := by
  have horder : addOrderOf P = q := addOrderOf_eq_prime hord hne
  have hmod : x.val ≡ y.val [MOD q] := by rwa [nsmul_eq_nsmul_iff_modEq, horder] at h
  apply ZMod.val_injective
  unfold Nat.ModEq at hmod
  rwa [Nat.mod_eq_of_lt (ZMod.val_lt x), Nat.mod_eq_of_lt (ZMod.val_lt y)] at hmod

/-- One response is accepted, whatever the key and the challenge are. -/
theorem response_unique {s s' : ZMod q} {Q : G} (h : s.val • P - Q = s'.val • P - Q) : s = s' :=
  smul_val_inj hord hne (sub_left_injective h)

/-- The secret, from the responses to two challenges after one commitment. -/
theorem special_soundness {s s' e e' x : ZMod q}
    (h : s.val • P - e.val • (x.val • P) = s'.val • P - e'.val • (x.val • P)) (he : e ≠ e') :
    x = (s - s') / (e - e') := by
  have hsum : s.val • P + (e' * x).val • P = s'.val • P + (e * x).val • P := by
    rw [val_mul_smul hord, val_mul_smul hord]
    rwa [sub_eq_sub_iff_add_eq_add] at h
  rw [← val_add_smul hord, ← val_add_smul hord] at hsum
  have hlin := smul_val_inj hord hne hsum
  rw [eq_div_iff (sub_ne_zero.mpr he)]
  linear_combination -hlin

end Prime

end Lib.Residue
