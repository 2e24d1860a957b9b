import Mathlib.FieldTheory.Finite.Basic
import Mathlib.LinearAlgebra.Matrix.NonsingularInverse

/-!
# Substitution-permutation rounds over a finite field

A round adds keys to the elements of a state, raises each to a power and mixes them with
a matrix.

Results: the power map is injective when the exponent is prime to the order of the unit
group (`pow_injective`); then with a nonsingular matrix every round is
(`round_injective`), and so is a run of injective rounds (`foldl_injective`).
-/
namespace Lib.Spn

variable {K : Type*} [Field K] {n : ℕ}

/-- The quotient of two elements with one power has order 1. -/
theorem pow_injective [Fintype K] (hn : n.Coprime (Fintype.card K - 1)) (hpos : n ≠ 0) :
    Function.Injective fun x : K => x ^ n := by
  intro x y h
  have h : x ^ n = y ^ n := h
  by_cases hy : y = 0
  · rw [hy, zero_pow hpos] at h
    rw [hy, eq_zero_of_pow_eq_zero h]
  · have hx : x ≠ 0 := by
      rintro rfl
      rw [zero_pow hpos] at h
      exact hy (eq_zero_of_pow_eq_zero h.symm)
    have hone : (x / y) ^ n = 1 := by rw [div_pow, h, div_self (pow_ne_zero n hy)]
    have hcard : (x / y) ^ (Fintype.card K - 1) = 1 :=
      FiniteField.pow_card_sub_one_eq_one _ (div_ne_zero hx hy)
    exact (div_eq_one_iff_eq hy).mp ((pow_eq_one_iff_of_coprime hn).mp ⟨hone, hcard⟩)

variable {ι : Type*} [Fintype ι]

/-- Add the keys, raise to the power, mix. -/
def round (M : Matrix ι ι K) (n : ℕ) (k x : ι → K) : ι → K := M.mulVec fun i => (x i + k i) ^ n

theorem round_injective [DecidableEq ι] {M : Matrix ι ι K} (hM : M.det ≠ 0)
    (hn : Function.Injective fun x : K => x ^ n) (k : ι → K) :
    Function.Injective (round M n k) := by
  have hunit : IsUnit M := (Matrix.isUnit_iff_isUnit_det M).mpr hM.isUnit
  intro x y h
  have hpow := Matrix.mulVec_injective_iff_isUnit.mpr hunit h
  funext i
  exact add_right_cancel (hn (congrFun hpow i))

/-- A run of injective rounds. -/
theorem foldl_injective {σ β : Type*} {f : σ → β → σ} (hf : ∀ b, Function.Injective (f · b)) :
    ∀ l : List β, Function.Injective fun x => l.foldl f x
  | [] => fun _ _ h => h
  | b :: l => fun _ _ h => hf b (foldl_injective hf l h)

end Lib.Spn
