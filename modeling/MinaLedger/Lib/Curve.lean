import MinaLedger.Lib.Ladder
import Mathlib.AlgebraicGeometry.EllipticCurve.Affine.Point
import Mathlib.GroupTheory.OrderOfElement
import Mathlib.Tactic.FieldSimp
import Mathlib.Tactic.LinearCombination

/-!
# Jacobian coordinates on y² = x³ + b

A triple (X : Y : Z) with Z ≠ 0 stands for the affine point (X/Z², Y/Z³),
and with Z = 0 for the identity (`Denotes`). `dbl` is dbl-1986-cc and `add`
is add-1986-cc with the usual shortcuts: an identity operand is skipped and
two equal triples are doubled.

Results, against Mathlib's group of points:
* `denotes_dbl`, `denotes_neg`: doubling and negation are right for every
  representation.
* `denotes_add`: addition is right unless both operands are the same point,
  not the identity, in two different representations.
* `add_same_point`: in that remaining case the sum comes out as the identity.
* `denotes_add_iff`: so addition is right exactly outside that case, points
  of order two apart.
* `denotes_unique`: a triple denotes at most one point.
* `exists_denotes`: on a smooth curve the triples with Y² = X³ + bZ⁶ are those
  that denote a point; all operations stay among them (`onCurve_add`, ...).
* `denotes_ladder`: double-and-add never meets that case for a base of prime
  order and a scalar below it, so it multiplies.
* `denotes_ladderChecked`: a run that tests for that case, for bases of
  unknown order.
-/
namespace Lib.Curve
open Lib.Ladder

variable {F : Type*}

/-- Jacobian coordinates. -/
structure Jac (F : Type*) where
  X : F
  Y : F
  Z : F
  deriving DecidableEq

/-- y² = x³ + b. -/
def curve [CommRing F] (b : F) : WeierstrassCurve.Affine F := ⟨0, 0, 0, 0, b⟩

section Formulas

variable [CommRing F] [DecidableEq F]

namespace Jac

/-- (0 : 1 : 0). -/
def zero : Jac F := ⟨0, 1, 0⟩

def neg (p : Jac F) : Jac F := ⟨p.X, -p.Y, p.Z⟩

/-- Doubling: S = 4XY², M = 3X². -/
def dbl (p : Jac F) : Jac F :=
  if p.Z = 0 then p
  else
    let S := 4 * (p.X * (p.Y * p.Y))
    let M := 3 * (p.X * p.X)
    let X3 := M * M - 2 * S
    ⟨X3, M * (S - X3) - 8 * (p.Y * p.Y * (p.Y * p.Y)), 2 * (p.Y * p.Z)⟩

/-- X₁Z₂², the first operand's x over the common denominator. -/
def U1 (p q : Jac F) : F := p.X * (q.Z * q.Z)

/-- Y₁Z₂³, the first operand's y over the common denominator. -/
def S1 (p q : Jac F) : F := p.Y * (q.Z * q.Z * q.Z)

/-- The addition formula alone, without the shortcuts. -/
def addFormula (p q : Jac F) : Jac F :=
  let P := U1 q p - U1 p q
  let R := S1 q p - S1 p q
  let X3 := R * R - (U1 p q + U1 q p) * (P * P)
  ⟨X3, R * (U1 p q * (P * P) - X3) - S1 p q * (P * P * P), p.Z * (q.Z * P)⟩

def add (p q : Jac F) : Jac F :=
  if p.Z = 0 then q
  else if q.Z = 0 then p
  else if p = q then dbl p
  else addFormula p q

end Jac

namespace Jac

/-- Another representation of the same point, for `l ≠ 0`. -/
def scale (l : F) (p : Jac F) : Jac F := ⟨l ^ 2 * p.X, l ^ 3 * p.Y, l * p.Z⟩

/-- Y² = X³ + bZ⁶, or the identity. -/
def OnCurve (b : F) (p : Jac F) : Prop := p.Z = 0 ∨ p.Y ^ 2 = p.X ^ 3 + b * p.Z ^ 6

end Jac

/-- Double-and-add that stops where addition would be handed one point twice. -/
def ladderChecked (p : Jac F) (ds : List Bool) : Option (Jac F) :=
  ladder (Option.map Jac.dbl)
    (fun t => t.bind fun t =>
      if t.Z ≠ 0 ∧ t.U1 p = p.U1 t ∧ t.S1 p = p.S1 t then none else some (t.add p))
    (some Jac.zero) ds

/-- `p` is a representation of the point. -/
def Denotes {b : F} (p : Jac F) : (curve b).Point → Prop
  | .zero => p.Z = 0
  | .some x y _ => p.Z ≠ 0 ∧ p.X = x * p.Z ^ 2 ∧ p.Y = y * p.Z ^ 3

end Formulas

/-! ## The affine formulas of `curve b` -/

section Affine

variable [Field F] {b : F}

theorem equation_iff (x y : F) : (curve b).Equation x y ↔ y ^ 2 = x ^ 3 + b := by
  rw [WeierstrassCurve.Affine.equation_iff]
  simp [curve]

theorem negY_eq (x y : F) : (curve b).negY x y = -y := by
  simp [WeierstrassCurve.Affine.negY, curve]

theorem addX_eq (x₁ x₂ l : F) : (curve b).addX x₁ x₂ l = l ^ 2 - x₁ - x₂ := by
  simp [WeierstrassCurve.Affine.addX, curve]

theorem addY_eq (x₁ x₂ y₁ l : F) :
    (curve b).addY x₁ x₂ y₁ l = l * (x₁ - (l ^ 2 - x₁ - x₂)) - y₁ := by
  rw [WeierstrassCurve.Affine.addY, WeierstrassCurve.Affine.negAddY, addX_eq, negY_eq]
  ring

variable [DecidableEq F]

theorem slope_tangent (h2 : (2 : F) ≠ 0) {x y : F} (hy : y ≠ 0) :
    (curve b).slope x x y y = 3 * x ^ 2 / (2 * y) := by
  have hne : y ≠ (curve b).negY x y := by
    rw [negY_eq]
    intro h
    have h0 : 2 * y = 0 := by linear_combination h
    rcases mul_eq_zero.mp h0 with h | h
    · exact h2 h
    · exact hy h
  rw [WeierstrassCurve.Affine.slope_of_Y_ne rfl hne, negY_eq]
  simp only [curve]
  congr 1 <;> ring

theorem slope_chord {x₁ x₂ : F} (y₁ y₂ : F) (hx : x₁ ≠ x₂) :
    (curve b).slope x₁ x₂ y₁ y₂ = (y₁ - y₂) / (x₁ - x₂) :=
  WeierstrassCurve.Affine.slope_of_X_ne hx

end Affine

/-! ## The operations -/

section Group

variable [Field F] {b : F}

theorem denotes_zero_iff (p : Jac F) : Denotes p (0 : (curve b).Point) ↔ p.Z = 0 := Iff.rfl

theorem denotes_zero : Denotes (Jac.zero : Jac F) (0 : (curve b).Point) := rfl

theorem Z_ne_zero {p : Jac F} {P : (curve b).Point} (h : Denotes p P) (hP : P ≠ 0) : p.Z ≠ 0 := by
  cases P with
  | zero => exact absurd rfl hP
  | some x y hxy => exact h.1

/-- A triple denotes at most one point. -/
theorem denotes_unique {p : Jac F} {P Q : (curve b).Point} (hP : Denotes p P) (hQ : Denotes p Q) :
    P = Q := by
  cases P with
  | zero =>
    cases Q with
    | zero => rfl
    | some x y h => exact absurd hP hQ.1
  | some x y h =>
    cases Q with
    | zero => exact absurd hQ hP.1
    | some x' y' h' =>
      obtain ⟨hz, hX, hY⟩ := hP
      obtain ⟨-, hX', hY'⟩ := hQ
      have ex : x = x' := mul_right_cancel₀ (pow_ne_zero 2 hz) (hX.symm.trans hX')
      have ey : y = y' := mul_right_cancel₀ (pow_ne_zero 3 hz) (hY.symm.trans hY')
      subst ex ey; rfl

theorem denotes_neg {p : Jac F} {P : (curve b).Point} (h : Denotes p P) : Denotes p.neg (-P) := by
  cases P with
  | zero => exact h
  | some x y hxy =>
    obtain ⟨hz, hX, hY⟩ := h
    rw [WeierstrassCurve.Affine.Point.neg_some]
    refine ⟨hz, hX, ?_⟩
    rw [negY_eq, Jac.neg, hY]; ring

/-- Two representations of one point give the same cross products. -/
theorem cross_eq {p q : Jac F} {x y : F} {h : (curve b).Nonsingular x y}
    (hp : Denotes p (.some x y h)) (hq : Denotes q (.some x y h)) :
    p.U1 q = q.U1 p ∧ p.S1 q = q.S1 p := by
  obtain ⟨-, hX, hY⟩ := hp
  obtain ⟨-, hX', hY'⟩ := hq
  refine ⟨?_, ?_⟩
  · simp only [Jac.U1, hX, hX']; ring
  · simp only [Jac.S1, hY, hY']; ring

/-- Equal cross products are one point. -/
theorem eq_of_cross {p q : Jac F} {P Q : (curve b).Point} (hp : Denotes p P) (hq : Denotes q Q)
    (hP : P ≠ 0) (hQ : Q ≠ 0) (hU : p.U1 q = q.U1 p) (hS : p.S1 q = q.S1 p) : P = Q := by
  cases P with
  | zero => exact absurd rfl hP
  | some x y h =>
  cases Q with
  | zero => exact absurd rfl hQ
  | some x' y' h' =>
    obtain ⟨hz, hX, hY⟩ := hp
    obtain ⟨hz', hX', hY'⟩ := hq
    have hzz := mul_ne_zero hz hz'
    have ex : x = x' := by
      refine mul_right_cancel₀ (pow_ne_zero 2 hzz) ?_
      simp only [Jac.U1, hX, hX'] at hU
      linear_combination hU
    have ey : y = y' := by
      refine mul_right_cancel₀ (pow_ne_zero 3 hzz) ?_
      simp only [Jac.S1, hY, hY'] at hS
      linear_combination hS
    subst ex ey; rfl

/-! ## Triples on the curve -/

theorem Denotes.onCurve {p : Jac F} {P : (curve b).Point} (h : Denotes p P) : p.OnCurve b := by
  cases P with
  | zero => exact .inl h
  | some x y hxy =>
    obtain ⟨-, hX, hY⟩ := h
    have heq := (equation_iff x y).mp hxy.1
    right
    rw [hX, hY]
    linear_combination p.Z ^ 6 * heq

/-- In affine form. -/
theorem onCurve_iff_affine {p : Jac F} (hz : p.Z ≠ 0) :
    p.OnCurve b ↔ (p.Y * (p.Z⁻¹) ^ 3) ^ 2 = (p.X * (p.Z⁻¹) ^ 2) ^ 3 + b := by
  rw [Jac.OnCurve, or_iff_right hz]
  constructor
  · intro h
    field_simp
    linear_combination h
  · intro h
    field_simp at h
    linear_combination h

/-- Every scaling is on the curve if one is. -/
theorem onCurve_scale {l : F} (hl : l ≠ 0) (p : Jac F) :
    (p.scale l).OnCurve b ↔ p.OnCurve b := by
  have hz : l * p.Z = 0 ↔ p.Z = 0 := by simp [hl]
  simp only [Jac.OnCurve, Jac.scale, hz]
  refine or_congr_right ⟨fun h => ?_, fun h => ?_⟩
  · refine mul_left_cancel₀ (pow_ne_zero 6 hl) ?_
    linear_combination h
  · linear_combination l ^ 6 * h

section Smooth

variable (hsmooth : ∀ x y : F, y ^ 2 = x ^ 3 + b → (curve b).Nonsingular x y)

include hsmooth

theorem exists_denotes {p : Jac F} (h : p.OnCurve b) : ∃ P : (curve b).Point, Denotes p P := by
  by_cases hz : p.Z = 0
  · exact ⟨0, hz⟩
  · have haff := (onCurve_iff_affine hz).mp h
    exact ⟨.some _ _ (hsmooth _ _ haff), hz, by field_simp, by field_simp⟩

theorem onCurve_neg {p : Jac F} (h : p.OnCurve b) : p.neg.OnCurve b := by
  obtain ⟨P, hP⟩ := exists_denotes hsmooth h
  exact (denotes_neg hP).onCurve

end Smooth

variable [DecidableEq F]

/-- Doubling is the group's, whatever the representation. -/
theorem denotes_dbl (h2 : (2 : F) ≠ 0) {p : Jac F} {P : (curve b).Point} (h : Denotes p P) :
    Denotes p.dbl (P + P) := by
  cases P with
  | zero =>
    have hz : p.Z = 0 := h
    have : p.dbl = p := by simp [Jac.dbl, hz]
    rw [this]; exact h
  | some x y hxy =>
    obtain ⟨hz, hX, hY⟩ := h
    rw [Jac.dbl, if_neg hz]
    by_cases hy : y = 0
    · -- a point of order two: the tangent is vertical
      rw [WeierstrassCurve.Affine.Point.add_self_of_Y_eq (by rw [negY_eq, hy, neg_zero])]
      show 2 * (p.Y * p.Z) = 0
      rw [hY, hy]; ring
    · have hne : y ≠ (curve b).negY x y := by
        rw [negY_eq]
        intro h
        have h0 : 2 * y = 0 := by linear_combination h
        exact (mul_ne_zero h2 hy) h0
      rw [WeierstrassCurve.Affine.Point.add_self_of_Y_ne hne]
      refine ⟨?_, ?_, ?_⟩
      · show 2 * (p.Y * p.Z) ≠ 0
        rw [hY]
        exact mul_ne_zero h2 (mul_ne_zero (mul_ne_zero hy (pow_ne_zero 3 hz)) hz)
      · rw [slope_tangent h2 hy, addX_eq]
        simp only [hX, hY]
        field_simp; ring
      · rw [slope_tangent h2 hy, addY_eq]
        simp only [hX, hY]
        field_simp; ring

/-- The addition formula for two points that are not the same one. -/
theorem denotes_addFormula {p q : Jac F} {P Q : (curve b).Point} (hp : Denotes p P)
    (hq : Denotes q Q) (hP : P ≠ 0) (hQ : Q ≠ 0) (hPQ : P ≠ Q) :
    Denotes (p.addFormula q) (P + Q) := by
  cases P with
  | zero => exact absurd rfl hP
  | some x₁ y₁ h₁ =>
  cases Q with
  | zero => exact absurd rfl hQ
  | some x₂ y₂ h₂ =>
    obtain ⟨hz, hX, hY⟩ := hp
    obtain ⟨hz', hX', hY'⟩ := hq
    by_cases hx : x₁ = x₂
    · -- opposite points: P = 0 in the formula, so Z₃ = 0
      have hy : y₁ = (curve b).negY x₂ y₂ := by
        rcases WeierstrassCurve.Affine.Y_eq_of_X_eq h₁.1 h₂.1 hx with h | h
        · subst hx h; exact absurd rfl hPQ
        · exact h
      rw [WeierstrassCurve.Affine.Point.add_of_Y_eq hx hy]
      show p.Z * (q.Z * (q.U1 p - p.U1 q)) = 0
      simp only [Jac.U1, hX, hX', hx]; ring
    · have hd : x₁ - x₂ ≠ 0 := sub_ne_zero.mpr hx
      have hU : q.U1 p - p.U1 q = -(x₁ - x₂) * (p.Z * q.Z) ^ 2 := by
        simp only [Jac.U1, hX, hX']; ring
      have hS : q.S1 p - p.S1 q = -(y₁ - y₂) * (p.Z * q.Z) ^ 3 := by
        simp only [Jac.S1, hY, hY']; ring
      rw [WeierstrassCurve.Affine.Point.add_of_X_ne hx]
      refine ⟨?_, ?_, ?_⟩
      · show p.Z * (q.Z * (q.U1 p - p.U1 q)) ≠ 0
        rw [hU]
        exact mul_ne_zero hz (mul_ne_zero hz'
          (mul_ne_zero (neg_ne_zero.mpr hd) (pow_ne_zero 2 (mul_ne_zero hz hz'))))
      · rw [slope_chord _ _ hx, addX_eq]
        simp only [Jac.addFormula, hS, Jac.U1, hX, hX']
        field_simp; ring
      · rw [slope_chord _ _ hx, addY_eq]
        simp only [Jac.addFormula, Jac.U1, Jac.S1, hX, hX', hY, hY']
        field_simp; ring

/-- Addition is the group's unless it meets one point in two representations. -/
theorem denotes_add (h2 : (2 : F) ≠ 0) {p q : Jac F} {P Q : (curve b).Point} (hp : Denotes p P)
    (hq : Denotes q Q) (hsame : P = Q → P = 0 ∨ p = q) : Denotes (p.add q) (P + Q) := by
  unfold Jac.add
  by_cases hP : P = 0
  · subst hP
    rw [if_pos ((denotes_zero_iff p).mp hp), zero_add]; exact hq
  rw [if_neg (Z_ne_zero hp hP)]
  by_cases hQ : Q = 0
  · subst hQ
    rw [if_pos ((denotes_zero_iff q).mp hq), add_zero]; exact hp
  rw [if_neg (Z_ne_zero hq hQ)]
  by_cases hpq : p = q
  · subst hpq
    rw [if_pos rfl, denotes_unique hq hp]
    exact denotes_dbl h2 hp
  · rw [if_neg hpq]
    refine denotes_addFormula hp hq hP hQ fun h => ?_
    rcases hsame h with h | h
    · exact hP h
    · exact hpq h

/-- The remaining case: one point in two representations comes out as the identity. -/
theorem add_same_point {p q : Jac F} {P : (curve b).Point} (hp : Denotes p P) (hq : Denotes q P)
    (hP : P ≠ 0) (hpq : p ≠ q) : Denotes (p.add q) (0 : (curve b).Point) := by
  rw [Jac.add, if_neg (Z_ne_zero hp hP), if_neg (Z_ne_zero hq hP), if_neg hpq]
  cases P with
  | zero => exact absurd rfl hP
  | some x y h =>
    show p.Z * (q.Z * (q.U1 p - p.U1 q)) = 0
    rw [(cross_eq hp hq).1, sub_self, mul_zero, mul_zero]

/-- Exactly when addition is the group's. -/
theorem denotes_add_iff (h2 : (2 : F) ≠ 0) {p q : Jac F} {P Q : (curve b).Point} (hp : Denotes p P)
    (hq : Denotes q Q) : Denotes (p.add q) (P + Q) ↔ (P = Q → p = q ∨ P + P = 0) := by
  constructor
  · rintro h rfl
    by_contra hno
    rw [not_or] at hno
    have hP : P ≠ 0 := fun h0 => hno.2 (by rw [h0, add_zero])
    exact hno.2 (denotes_unique h (add_same_point hp hq hP hno.1))
  · intro h
    by_cases hsame : P = Q → P = 0 ∨ p = q
    · exact denotes_add h2 hp hq hsame
    · -- one point in two representations, and of order two
      rw [Classical.not_imp, not_or] at hsame
      obtain ⟨rfl, hP, hpq⟩ := hsame
      rw [(h rfl).resolve_left hpq]
      exact add_same_point hp hq hP hpq

/-! ## Staying on the curve -/

section Smooth

variable (hsmooth : ∀ x y : F, y ^ 2 = x ^ 3 + b → (curve b).Nonsingular x y)

include hsmooth

theorem onCurve_dbl (h2 : (2 : F) ≠ 0) {p : Jac F} (h : p.OnCurve b) : p.dbl.OnCurve b := by
  obtain ⟨P, hP⟩ := exists_denotes hsmooth h
  exact (denotes_dbl h2 hP).onCurve

/-- Also where addition is not the group's: the identity is on the curve. -/
theorem onCurve_add (h2 : (2 : F) ≠ 0) {p q : Jac F} (hp : p.OnCurve b) (hq : q.OnCurve b) :
    (p.add q).OnCurve b := by
  obtain ⟨P, hP⟩ := exists_denotes hsmooth hp
  obtain ⟨Q, hQ⟩ := exists_denotes hsmooth hq
  by_cases hsame : P = Q → P = 0 ∨ p = q
  · exact (denotes_add h2 hP hQ hsame).onCurve
  · rw [Classical.not_imp, not_or] at hsame
    obtain ⟨rfl, h0, hpq⟩ := hsame
    exact (add_same_point hP hQ h0 hpq).onCurve

/-- So double-and-add stays on the curve, whatever the order and the scalar. -/
theorem onCurve_ladder (h2 : (2 : F) ≠ 0) {p q : Jac F} (hp : p.OnCurve b) (hq : q.OnCurve b)
    (ds : List Bool) : (ladder Jac.dbl (·.add p) q ds).OnCurve b :=
  ladder_preserves _ _ (fun t => t.OnCurve b) (fun _ ht => onCurve_dbl hsmooth h2 ht)
    (fun _ ht => onCurve_add hsmooth h2 ht hp) ds q hq

end Smooth

/-! ## Double-and-add -/

/-- A point of prime order is not an even multiple of itself below its order. -/
theorem double_smul_ne {q : Nat} (hq : q.Prime) {P : (curve b).Point} (hP : P ≠ 0) (hord : q • P = 0)
    {m : Nat} (hm : 2 * m + 1 ≤ q) : (2 * m) • P ≠ P := by
  intro h
  rcases Nat.eq_zero_or_pos m with rfl | hpos
  · rw [Nat.mul_zero, zero_nsmul] at h; exact hP h.symm
  · have h0 : (2 * m - 1) • P = 0 := by
      have e : (2 * m - 1) • P + P = P := by
        rw [← succ_nsmul, show 2 * m - 1 + 1 = 2 * m by omega, h]
      simpa using e
    have hdvd := addOrderOf_dvd_of_nsmul_eq_zero h0
    have : Fact q.Prime := ⟨hq⟩
    rw [addOrderOf_eq_prime hord hP] at hdvd
    have := Nat.le_of_dvd (by omega) hdvd
    omega

/-- Double-and-add multiplies a point of prime order `q` by every scalar below `q`. -/
theorem denotes_ladder (h2 : (2 : F) ≠ 0) {q : Nat} (hq : q.Prime) {p : Jac F} {P : (curve b).Point}
    (hp : Denotes p P) (hord : q • P = 0) {ds : List Bool} (hk : valFrom 0 ds < q) :
    Denotes (ladder Jac.dbl (·.add p) Jac.zero ds) (valFrom 0 ds • P) := by
  refine ladder_inv Jac.dbl (·.add p) (fun m t => Denotes t (m • P)) (valFrom 0 ds) ?_ ?_ ds 0
    Jac.zero (by rw [zero_nsmul]; exact denotes_zero) le_rfl
  · intro m t ht
    rw [two_mul, add_nsmul]; exact denotes_dbl h2 ht
  · intro m t hm ht
    rw [succ_nsmul]
    refine denotes_add h2 ht hp fun h => ?_
    by_cases hP : P = 0
    · left; rw [hP, nsmul_zero]
    · exact absurd h (double_smul_ne hq hP hord (by omega))

theorem denotes_ladderChecked (h2 : (2 : F) ≠ 0) {p : Jac F} {P : (curve b).Point}
    (hp : Denotes p P) {ds : List Bool} {r : Jac F} (h : ladderChecked p ds = some r) :
    Denotes r (valFrom 0 ds • P) := by
  unfold ladderChecked at h
  refine ladder_inv (Option.map Jac.dbl) _ (fun m o => ∀ t, o = some t → Denotes t (m • P))
    (valFrom 0 ds) ?_ ?_ ds 0 (some Jac.zero) ?_ le_rfl r h
  · intro m o ho t ht
    obtain ⟨s, rfl, rfl⟩ := Option.map_eq_some_iff.mp ht
    rw [two_mul, add_nsmul]; exact denotes_dbl h2 (ho s rfl)
  · intro m o _ ho t ht
    obtain ⟨s, rfl, hs⟩ := Option.bind_eq_some_iff.mp ht
    split at hs
    · cases hs
    · rename_i hchk
      cases hs
      rw [succ_nsmul]
      refine denotes_add h2 (ho s rfl) hp fun heq => ?_
      have hd := ho s rfl
      rw [heq] at hd
      cases P with
      | zero => exact .inl heq
      | some x y hxy => exact absurd ⟨hd.1, cross_eq hd hp⟩ hchk
  · intro t ht
    cases ht
    rw [zero_nsmul]; exact denotes_zero

end Group

end Lib.Curve
