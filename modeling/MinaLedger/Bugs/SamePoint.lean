import MinaLedger.L2Crypto.OnCurve

/-!
# Addition misses a point in other coordinates

`group_add` doubles when both operands are the same point, and it tells so by
comparing X, Y and Z byte for byte. Two representations of one point,
(X : Y : Z) and (l²X : l³Y : lZ), differ there and go into the addition formula,
whose P = U2 - U1 is zero for them: the sum comes out with Z = 0, the identity,
instead of the double.

Counterexample: the generator with Z = 1 and with Z = 2.

The exact condition (`group_law_iff`): on accepted triples `group_add` and
`group_dbl` are the group law if and only if the operands are not one point,
other than the identity, in two representations. `affine_scalar_mul` never meets
that case below the group order (`affine_scalar_mul_correct`).
-/
namespace MinaLedger.Bugs.SamePoint
open Pasta Lib.Curve

/-- The affine image of the sum is the sum of the affine images, and that of the double
is twice the affine image. -/
def GroupLaw (cx : Cx) (p q : Group) : Prop :=
  ∃ a b s d, affine_from_group cx p = .ok a ∧ affine_from_group cx q = .ok b ∧
    group_add cx p q = .ok s ∧ affine_from_group cx s = .ok (affineOf (a.toPoint + b.toPoint)) ∧
    group_dbl cx p = .ok d ∧ affine_from_group cx d = .ok (affineOf (2 • a.toPoint))

/-- One point, not the identity, in two representations. -/
structure Rescaled (p q : Group) : Prop where
  p_ne : p.Z ≠ FIELD_ZERO
  q_ne : q.Z ≠ FIELD_ZERO
  ne : p ≠ q
  x : num p.X * num q.Z ^ 2 ≡ num q.X * num p.Z ^ 2 [MOD fieldModulus]
  y : num p.Y * num q.Z ^ 3 ≡ num q.Y * num p.Z ^ 3 [MOD fieldModulus]

/-- In terms of points. -/
theorem rescaled_iff {p q : Group} (hp : p.Canonical) (hq : q.Canonical) {P Q : Point}
    (hP : Denotes (decodeJ p) P) (hQ : Denotes (decodeJ q) Q) :
    Rescaled p q ↔ P = Q ∧ P ≠ 0 ∧ decodeJ p ≠ decodeJ q := by
  have hne : p = q ↔ decodeJ p = decodeJ q :=
    ⟨fun e => by rw [e], fun e => by rw [← hp.encodeJ_decodeJ, e, hq.encodeJ_decodeJ]⟩
  have hx : num p.X * num q.Z ^ 2 ≡ num q.X * num p.Z ^ 2 [MOD fieldModulus] ↔
      (decodeJ p).U1 (decodeJ q) = (decodeJ q).U1 (decodeJ p) := by
    rw [← ZMod.natCast_eq_natCast_iff]
    push_cast
    rw [Jac.U1, Jac.U1, ← pow_two, ← pow_two]; rfl
  have hy : num p.Y * num q.Z ^ 3 ≡ num q.Y * num p.Z ^ 3 [MOD fieldModulus] ↔
      (decodeJ p).S1 (decodeJ q) = (decodeJ q).S1 (decodeJ p) := by
    rw [← ZMod.natCast_eq_natCast_iff]
    push_cast
    rw [Jac.S1, Jac.S1, ← pow_two, ← pow_succ, ← pow_two, ← pow_succ]; rfl
  constructor
  · intro h
    have hP0 : P ≠ 0 := fun h0 =>
      h.p_ne ((Z_eq_zero_iff hp).mpr ((denotes_zero_iff _).mp (h0 ▸ hP)))
    have hQ0 : Q ≠ 0 := fun h0 =>
      h.q_ne ((Z_eq_zero_iff hq).mpr ((denotes_zero_iff _).mp (h0 ▸ hQ)))
    exact ⟨eq_of_cross hP hQ hP0 hQ0 (hx.mp h.x) (hy.mp h.y), hP0, fun e => h.ne (hne.mpr e)⟩
  · rintro ⟨rfl, h0, hpq⟩
    have hpz := Z_ne_zero hP h0
    have hqz := Z_ne_zero hQ h0
    have hcross : (decodeJ p).U1 (decodeJ q) = (decodeJ q).U1 (decodeJ p) ∧
        (decodeJ p).S1 (decodeJ q) = (decodeJ q).S1 (decodeJ p) := by
      cases P with
      | zero => exact absurd rfl h0
      | some x y hxy => exact cross_eq hP hQ
    exact ⟨fun e => hpz ((Z_eq_zero_iff hp).mp e), fun e => hqz ((Z_eq_zero_iff hq).mp e),
      fun e => hpq (hne.mp e), hx.mpr hcross.1, hy.mpr hcross.2⟩

section Exact

variable {cx : Cx} (h : cx.Exact) {p q : Group} (hp : p.Canonical) (hq : q.Canonical)
  (hpc : group_is_on_curve cx p = .ok true) (hqc : group_is_on_curve cx q = .ok true)

include h hp hq hpc hqc

/-- The law holds exactly when the sum denotes the sum; doubling is always right. -/
theorem groupLaw_iff_denotes {P Q : Point} (hP : Denotes (decodeJ p) P)
    (hQ : Denotes (decodeJ q) Q) :
    GroupLaw cx p q ↔ Denotes ((decodeJ p).add (decodeJ q)) (P + Q) := by
  have hap : affine_from_group cx p = .ok (affineOf P) := by
    rw [← affine_from_group_denotes h hP, hp.encodeJ_decodeJ]
  have haq : affine_from_group cx q = .ok (affineOf Q) := by
    rw [← affine_from_group_denotes h hQ, hq.encodeJ_decodeJ]
  have hadd : group_add cx p q = .ok (encodeJ ((decodeJ p).add (decodeJ q))) := by
    rw [← group_add_encode h, hp.encodeJ_decodeJ, hq.encodeJ_decodeJ]
  have hdbl : group_dbl cx p = .ok (encodeJ (decodeJ p).dbl) := by
    rw [← group_dbl_encode h, hp.encodeJ_decodeJ]
  -- the sum is some point, right or wrong
  have hpo := (group_is_on_curve_iff h (decodeJ p)).mp (hp.encodeJ_decodeJ.symm ▸ hpc)
  have hqo := (group_is_on_curve_iff h (decodeJ q)).mp (hq.encodeJ_decodeJ.symm ▸ hqc)
  obtain ⟨S, hS⟩ := exists_denotes smooth (onCurve_add smooth two_ne_zero hpo hqo)
  constructor
  · rintro ⟨a, b, s, d, ha, hb, hs, hsum, -, -⟩
    obtain rfl := Except.ok.inj (hap.symm.trans ha)
    obtain rfl := Except.ok.inj (haq.symm.trans hb)
    obtain rfl := Except.ok.inj (hadd.symm.trans hs)
    rw [affine_from_group_denotes h hS, toPoint_affineOf, toPoint_affineOf] at hsum
    rw [← affineOf_injective (Except.ok.inj hsum)]
    exact hS
  · intro hsum
    refine ⟨_, _, _, _, hap, haq, hadd, ?_, hdbl, ?_⟩
    · rw [toPoint_affineOf, toPoint_affineOf, affine_from_group_denotes h hsum]
    · rw [toPoint_affineOf, two_nsmul,
        affine_from_group_denotes h (denotes_dbl two_ne_zero hP)]

theorem groupLaw_iff_not_rescaled : GroupLaw cx p q ↔ ¬Rescaled p q := by
  obtain ⟨P, hP, -⟩ := denotes_of_accepted h hp hpc
  obtain ⟨Q, hQ, -⟩ := denotes_of_accepted h hq hqc
  rw [groupLaw_iff_denotes h hp hq hpc hqc hP hQ, denotes_add_iff two_ne_zero hP hQ,
    rescaled_iff hp hq hP hQ]
  constructor
  · rintro hlaw ⟨heq, h0, hne⟩
    rcases hlaw heq with e | e
    · exact hne e
    · exact add_self_ne_zero h0 e
  · intro hno heq
    by_contra hor
    rw [not_or] at hor
    exact hno ⟨heq, fun h0 => hor.2 (by rw [h0, add_zero]), hor.1⟩

end Exact

/-- The exact condition, for all accepted triples. -/
theorem group_law_iff {cx : Cx} (h : cx.Exact) {p q : Group} (hp : p.Canonical) (hq : q.Canonical)
    (hpc : group_is_on_curve cx p = .ok true) (hqc : group_is_on_curve cx q = .ok true) :
    GroupLaw cx p q ↔ ¬Rescaled p q :=
  groupLaw_iff_not_rescaled h hp hq hpc hqc

theorem group_law_iff_generator :
    GroupLaw Cx.reference generatorGroup generatorGroup ↔ ¬Rescaled generatorGroup generatorGroup :=
  group_law_iff Cx.reference_exact (canonical_encodeJ _) (canonical_encodeJ _)
    (generatorGroup_accepted Cx.reference_exact) (generatorGroup_accepted Cx.reference_exact)

/-! ## The generator twice -/

/-- The generator with Z = 2. -/
def generatorScaled : Group := encodeJ (generatorJac.scale 2)

theorem rescaled_generator : Rescaled generatorGroup generatorScaled := by
  have hS : Denotes (generatorJac.scale 2) generator :=
    ⟨by simpa [generatorJac, Jac.scale] using Pasta.two_ne_zero, by simp [generatorJac, Jac.scale],
      by simp [generatorJac, Jac.scale]; ring⟩
  have hP : Denotes (decodeJ generatorGroup) generator := by
    rw [generatorGroup, decodeJ_encodeJ]; exact denotes_generator
  have hQ : Denotes (decodeJ generatorScaled) generator := by
    rw [generatorScaled, decodeJ_encodeJ]; exact hS
  refine (rescaled_iff (canonical_encodeJ _) (canonical_encodeJ _) hP hQ).mpr
    ⟨rfl, generator_ne_zero, fun e => ?_⟩
  rw [decodeJ_encodeJ, decodeJ_encodeJ] at e
  have hz : (1 : Fp) = 2 * 1 := congrArg Jac.Z e
  exact one_ne_zero (by linear_combination -hz)

/-- Both triples are accepted, and their sum is the identity instead of the double. -/
theorem sum_of_generator_and_itself :
    generatorGroup.Canonical ∧ generatorScaled.Canonical ∧
    group_is_on_curve Cx.reference generatorGroup = .ok true ∧
    group_is_on_curve Cx.reference generatorScaled = .ok true ∧
    ¬GroupLaw Cx.reference generatorGroup generatorScaled := by
  have hacc := generatorGroup_accepted Cx.reference_exact
  have hacc' : group_is_on_curve Cx.reference generatorScaled = .ok true :=
    (group_is_on_curve_iff Cx.reference_exact _).mpr
      ((onCurve_scale two_ne_zero _).mpr denotes_generator.onCurve)
  refine ⟨canonical_encodeJ _, canonical_encodeJ _, hacc, hacc', fun hlaw => ?_⟩
  exact (groupLaw_iff_not_rescaled Cx.reference_exact (canonical_encodeJ _) (canonical_encodeJ _)
    hacc hacc').mp hlaw rescaled_generator

end MinaLedger.Bugs.SamePoint
