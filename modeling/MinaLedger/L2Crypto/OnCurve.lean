import MinaLedger.L2Crypto.ScalarMul

/-!
# The curve check

`group_is_on_curve` and `affine_is_on_curve` of src/src/crypto.c, on triples
with canonical coordinates.

Results:
* `group_is_on_curve_eq`: both branches check Y² = X³ + 5Z⁶.
* `curve_check_correct`: the check is right about the affine image, it does not
  depend on the representation, and every operation leaves accepted triples
  accepted.
* `affine_group_law`: on valid affine points `affine_add` and `affine_negate` are
  an abelian group, and what they return passes the check.
-/
namespace MinaLedger
open Pasta Lib.Curve Lib.Ladder

/-- a = 0, b = 5. mirrors src/src/crypto.c:43-48 -/
def GROUP_COEFF_B : Field := ofNum 5

section Operations

variable (cx : Cx)

/-- mirrors src/src/crypto.c:394-425 -/
def group_is_on_curve (p : Group) : Exec Bool := do
  if group_is_zero p then
    return true
  if field_eq p.Z FIELD_ONE then
    -- we can check y^2 == x^3 + ax + b
    let lhs ← field_sq cx p.Y
    let rhs ← field_sq cx p.X
    let rhs ← field_mul cx rhs p.X
    let rhs ← field_add cx rhs GROUP_COEFF_B
    return field_eq lhs rhs
  else
    -- we check (y/z^3)^2 == (x/z^2)^3 + b => y^2 == x^3 + bz^6
    let x3 ← field_sq cx p.X
    let x3 ← field_mul cx x3 p.X
    let lhs ← field_sq cx p.Y
    let z6 ← field_sq cx p.Z
    let z6 ← field_sq cx z6
    let z6 ← field_mul cx z6 p.Z
    let z6 ← field_mul cx z6 p.Z
    let rhs ← field_mul cx z6 GROUP_COEFF_B
    let rhs ← field_add cx x3 rhs
    return field_eq lhs rhs

/-- mirrors src/src/crypto.c:492-497 -/
def affine_is_on_curve (p : Affine) : Exec Bool := group_is_on_curve cx (affine_to_group p)

end Operations

/-! ## Canonical coordinates -/

/-- Reduced coordinates. -/
structure Group.Canonical (p : Group) : Prop where
  X_lt : num p.X < fieldModulus
  Y_lt : num p.Y < fieldModulus
  Z_lt : num p.Z < fieldModulus

/-- The field elements of a triple. -/
def decodeJ (p : Group) : Jac Fp :=
  ⟨decode fieldModulus p.X, decode fieldModulus p.Y, decode fieldModulus p.Z⟩

theorem Group.Canonical.encodeJ_decodeJ {p : Group} (h : p.Canonical) : encodeJ (decodeJ p) = p := by
  simp [encodeJ, decodeJ, encode_decode h.X_lt, encode_decode h.Y_lt, encode_decode h.Z_lt]

theorem Z_eq_zero_iff {p : Group} (hp : p.Canonical) : p.Z = FIELD_ZERO ↔ (decodeJ p).Z = 0 := by
  rw [← encode_decode hp.Z_lt, FIELD_ZERO_eq, encode_inj_iff]; rfl

theorem num_encode_fp_lt (x : Fp) : num (encode x) < fieldModulus := by
  rw [num_encode num_FIELD_MODULUS]; exact ZMod.val_lt x

theorem canonical_encodeJ (p : Jac Fp) : (encodeJ p).Canonical :=
  ⟨num_encode_fp_lt _, num_encode_fp_lt _, num_encode_fp_lt _⟩

@[simp] theorem GROUP_COEFF_B_eq : GROUP_COEFF_B = encode (5 : Fp) := by
  exact_mod_cast ofNum_eq_encode (v := 5) (by decide)

/-- The same point in other coordinates: (l²X : l³Y : lZ). -/
def Group.scale (l : Fp) (p : Group) : Group := encodeJ ((decodeJ p).scale l)

theorem smooth (x y : Fp) (h : y ^ 2 = x ^ 3 + 5) : (curve (5 : Fp)).Nonsingular x y :=
  (nonsingular_iff x y).mpr h

theorem decodeJ_encodeJ (p : Jac Fp) : decodeJ (encodeJ p) = p := by
  simp [encodeJ, decodeJ, decode_encode num_FIELD_MODULUS]

/-! ## The check -/

section Exact

variable {cx : Cx} (h : cx.Exact)

include h

/-- Both branches check the same equation. -/
theorem group_is_on_curve_eq (p : Jac Fp) :
    ∃ b, group_is_on_curve cx (encodeJ p) = .ok b ∧ (b = true ↔ p.OnCurve 5) := by
  unfold group_is_on_curve
  by_cases hz : p.Z = 0
  · exact ⟨true, by rw [if_pos (by simpa using hz)]; rfl, iff_of_true rfl (.inl hz)⟩
  rw [if_neg (by simpa using hz), Jac.OnCurve, or_iff_right hz]
  by_cases hone : p.Z = 1
  · rw [if_pos (by simpa [encodeJ] using hone)]
    simp only [encodeJ, GROUP_COEFF_B_eq, field_sq_encode h, field_mul_encode h, field_add_encode h,
      ok_bind, pure_eq_ok, field_eq_encode]
    refine ⟨_, rfl, ?_⟩
    rw [decide_eq_true_eq, hone]
    exact ⟨fun e => by linear_combination e, fun e => by linear_combination e⟩
  · rw [if_neg (by simpa [encodeJ] using hone)]
    simp only [encodeJ, GROUP_COEFF_B_eq, field_sq_encode h, field_mul_encode h, field_add_encode h,
      ok_bind, pure_eq_ok, field_eq_encode]
    refine ⟨_, rfl, ?_⟩
    rw [decide_eq_true_eq]
    exact ⟨fun e => by linear_combination e, fun e => by linear_combination e⟩

theorem group_is_on_curve_iff (p : Jac Fp) :
    group_is_on_curve cx (encodeJ p) = .ok true ↔ p.OnCurve 5 := by
  obtain ⟨b, hb, hiff⟩ := group_is_on_curve_eq h p
  rw [hb, ← hiff]
  exact ⟨Except.ok.inj, congrArg _⟩

/-- An accepted triple denotes a point. -/
theorem denotes_of_accepted {p : Group} (hp : p.Canonical)
    (hcurve : group_is_on_curve cx p = .ok true) :
    ∃ P : Point, Denotes (decodeJ p) P ∧ affine_from_group cx p = .ok (affineOf P) := by
  rw [← hp.encodeJ_decodeJ, group_is_on_curve_iff h] at hcurve
  obtain ⟨P, hP⟩ := exists_denotes smooth hcurve
  refine ⟨P, hP, ?_⟩
  rw [← affine_from_group_denotes h hP, hp.encodeJ_decodeJ]

/-- The affine image of a triple. -/
theorem affine_from_group_eq {p : Jac Fp} (hz : p.Z ≠ 0) :
    affine_from_group cx (encodeJ p) =
      .ok ⟨encode (p.X * p.Z⁻¹ ^ 2), encode (p.Y * p.Z⁻¹ ^ 3)⟩ := by
  unfold affine_from_group
  rw [if_neg (by simpa [encodeJ] using hz)]
  simp only [encodeJ, field_inv_encode h hz, field_mul_encode h, ok_bind, pure_eq_ok]
  rw [pow_two, pow_succ, pow_two]

/-- The check is right about the affine image, whatever the representation. -/
theorem group_is_on_curve_spec {p : Group} (hp : p.Canonical) :
    ∃ a b, affine_from_group cx p = .ok a ∧ group_is_on_curve cx p = .ok b ∧
      (b = true ↔ p.Z = FIELD_ZERO ∨
        decode fieldModulus a.y ^ 2 = decode fieldModulus a.x ^ 3 + 5) ∧
      ∀ l : Fp, l ≠ 0 → group_is_on_curve cx (p.scale l) = .ok b := by
  obtain ⟨b, hb, hiff⟩ := group_is_on_curve_eq h (decodeJ p)
  have hscale : ∀ l : Fp, l ≠ 0 → group_is_on_curve cx (p.scale l) = .ok b := fun l hl => by
    obtain ⟨b', hb', hiff'⟩ := group_is_on_curve_eq h ((decodeJ p).scale l)
    rw [Group.scale, hb', Bool.eq_iff_iff.mpr (hiff'.trans ((onCurve_scale hl _).trans hiff.symm))]
  rw [hp.encodeJ_decodeJ] at hb
  have hZ := Z_eq_zero_iff hp
  by_cases hz : (decodeJ p).Z = 0
  · refine ⟨⟨FIELD_ZERO, FIELD_ZERO⟩, b, ?_, hb, ?_, hscale⟩
    · rw [affine_from_group, if_pos (by simpa [field_eq] using hZ.mpr hz)]; rfl
    · exact iff_of_true (hiff.mpr (.inl hz)) (.inl (hZ.mpr hz))
  · have haff := affine_from_group_eq h hz
    rw [hp.encodeJ_decodeJ] at haff
    refine ⟨_, b, haff, hb, ?_, hscale⟩
    rw [hiff, onCurve_iff_affine hz, hZ, or_iff_right hz, decode_encode num_FIELD_MODULUS,
      decode_encode num_FIELD_MODULUS]

theorem affine_is_on_curve_affineOf (P : Point) :
    affine_is_on_curve cx (affineOf P) = .ok true := by
  rw [affine_is_on_curve, affine_to_group_affineOf, group_is_on_curve_iff h]
  exact (denotes_jacOf P).onCurve

end Exact

/-! ## Staying on the curve -/

/-- A triple is returned, and it is canonical and passes the check. -/
def ReturnsAccepted (cx : Cx) (x : Exec Group) : Prop :=
  ∃ r, x = .ok r ∧ r.Canonical ∧ group_is_on_curve cx r = .ok true

theorem returnsAccepted_encodeJ {cx : Cx} (h : cx.Exact) {r : Jac Fp} (hr : r.OnCurve 5) :
    ReturnsAccepted cx (.ok (encodeJ r)) :=
  ⟨_, rfl, canonical_encodeJ r, (group_is_on_curve_iff h r).mpr hr⟩

/-- The operations on accepted triples return accepted triples. -/
theorem operations_accepted {cx : Cx} (h : cx.Exact) {p q : Group} (hp : p.Canonical)
    (hq : q.Canonical) (hpc : group_is_on_curve cx p = .ok true)
    (hqc : group_is_on_curve cx q = .ok true) (k : Scalar) :
    ReturnsAccepted cx (group_dbl cx p) ∧ ReturnsAccepted cx (group_add cx p q) ∧
    ReturnsAccepted cx (group_negate cx p) ∧ ReturnsAccepted cx (group_scalar_mul cx k p) := by
  obtain ⟨p, rfl⟩ : ∃ p', p = encodeJ p' := ⟨_, hp.encodeJ_decodeJ.symm⟩
  obtain ⟨q, rfl⟩ : ∃ q', q = encodeJ q' := ⟨_, hq.encodeJ_decodeJ.symm⟩
  rw [group_is_on_curve_iff h] at hpc hqc
  rw [group_dbl_encode h, group_add_encode h, group_negate_encode h, group_scalar_mul_encode h]
  refine ⟨returnsAccepted_encodeJ h (onCurve_dbl smooth two_ne_zero hpc),
    returnsAccepted_encodeJ h (onCurve_add smooth two_ne_zero hpc hqc),
    returnsAccepted_encodeJ h (onCurve_neg smooth hpc), returnsAccepted_encodeJ h ?_⟩
  split
  · exact .inl rfl
  · exact onCurve_ladder smooth two_ne_zero hpc (.inl rfl) _

/-- Points never leave the curve: the check is the curve equation of the affine image,
the same for every scaling, and all operations keep accepted triples accepted. -/
theorem curve_check_correct {cx : Cx} (h : cx.Exact) :
    (∀ p : Group, p.Canonical →
      ∃ a b, affine_from_group cx p = .ok a ∧ group_is_on_curve cx p = .ok b ∧
        (b = true ↔ p.Z = FIELD_ZERO ∨
          decode fieldModulus a.y ^ 2 = decode fieldModulus a.x ^ 3 + 5) ∧
        ∀ l : Fp, l ≠ 0 → group_is_on_curve cx (p.scale l) = .ok b) ∧
    (∀ p q : Group, p.Canonical → q.Canonical → group_is_on_curve cx p = .ok true →
      group_is_on_curve cx q = .ok true → ∀ k : Scalar,
        ReturnsAccepted cx (group_dbl cx p) ∧ ReturnsAccepted cx (group_add cx p q) ∧
        ReturnsAccepted cx (group_negate cx p) ∧ ReturnsAccepted cx (group_scalar_mul cx k p)) :=
  ⟨fun _ hp => group_is_on_curve_spec h hp,
    fun _ _ hp hq hpc hqc k => operations_accepted h hp hq hpc hqc k⟩

/-- The generator with Z = 1. -/
def generatorGroup : Group := encodeJ generatorJac

theorem generatorGroup_accepted {cx : Cx} (h : cx.Exact) :
    group_is_on_curve cx generatorGroup = .ok true :=
  (group_is_on_curve_iff h _).mpr denotes_generator.onCurve

/-- The generator, doubled, added to itself, negated and multiplied by 2. -/
theorem curve_check_correct_generator :
    ReturnsAccepted Cx.reference (group_dbl Cx.reference generatorGroup) ∧
    ReturnsAccepted Cx.reference (group_add Cx.reference generatorGroup generatorGroup) ∧
    ReturnsAccepted Cx.reference (group_negate Cx.reference generatorGroup) ∧
    ReturnsAccepted Cx.reference (group_scalar_mul Cx.reference (ofNum 2) generatorGroup) :=
  (curve_check_correct Cx.reference_exact).2 _ _ (canonical_encodeJ _) (canonical_encodeJ _)
    (generatorGroup_accepted Cx.reference_exact) (generatorGroup_accepted Cx.reference_exact)
    (ofNum 2)

/-! ## The affine group -/

/-- (0, 0), which stands for the identity. -/
def AFFINE_ZERO : Affine := ⟨FIELD_ZERO, FIELD_ZERO⟩

theorem AFFINE_ZERO_eq : AFFINE_ZERO = affineOf 0 := by
  rw [AFFINE_ZERO, FIELD_ZERO_eq]; rfl

/-- `affine_add` and `affine_negate` are the group of the curve. -/
theorem affine_group_law {cx : Cx} (h : cx.Exact) {p q r : Affine} (hp : p.Valid) (hq : q.Valid)
    (hr : r.Valid) :
    affine_add cx p q = .ok (affineOf (p.toPoint + q.toPoint)) ∧
    affine_negate cx p = .ok (affineOf (-p.toPoint)) ∧
    affine_add cx p q = affine_add cx q p ∧
    (do let pq ← affine_add cx p q; affine_add cx pq r) =
      (do let qr ← affine_add cx q r; affine_add cx p qr) ∧
    affine_add cx p AFFINE_ZERO = .ok p ∧ affine_add cx AFFINE_ZERO p = .ok p ∧
    (do let np ← affine_negate cx p; affine_add cx p np) = .ok AFFINE_ZERO ∧
    (do let np ← affine_negate cx p; affine_add cx np p) = .ok AFFINE_ZERO ∧
    ∀ s, affine_add cx p q = .ok s ∨ affine_negate cx p = .ok s →
      s.Valid ∧ affine_is_on_curve cx s = .ok true := by
  obtain ⟨P, rfl⟩ : ∃ P, p = affineOf P := ⟨_, hp.affineOf_toPoint.symm⟩
  obtain ⟨Q, rfl⟩ : ∃ Q, q = affineOf Q := ⟨_, hq.affineOf_toPoint.symm⟩
  obtain ⟨R, rfl⟩ : ∃ R, r = affineOf R := ⟨_, hr.affineOf_toPoint.symm⟩
  simp only [toPoint_affineOf, AFFINE_ZERO_eq, affine_add_eq h, affine_negate_eq h, ok_bind]
  refine ⟨trivial, trivial, ?_, ?_, ?_, ?_, ?_, ?_, ?_⟩
  · rw [add_comm]
  · rw [add_assoc]
  · rw [add_zero]
  · rw [zero_add]
  · rw [add_neg_cancel]
  · rw [neg_add_cancel]
  · rintro s (hs | hs) <;> obtain rfl := Except.ok.inj hs <;>
      exact ⟨affineOf_valid _, affine_is_on_curve_affineOf h _⟩

/-- The generator, three times. -/
theorem affine_group_law_generator :
    affine_add Cx.reference AFFINE_ONE AFFINE_ONE =
      .ok (affineOf (AFFINE_ONE.toPoint + AFFINE_ONE.toPoint)) ∧
    affine_negate Cx.reference AFFINE_ONE = .ok (affineOf (-AFFINE_ONE.toPoint)) ∧
    affine_add Cx.reference AFFINE_ONE AFFINE_ONE = affine_add Cx.reference AFFINE_ONE AFFINE_ONE ∧
    (do let pq ← affine_add Cx.reference AFFINE_ONE AFFINE_ONE
        affine_add Cx.reference pq AFFINE_ONE) =
      (do let qr ← affine_add Cx.reference AFFINE_ONE AFFINE_ONE
          affine_add Cx.reference AFFINE_ONE qr) ∧
    affine_add Cx.reference AFFINE_ONE AFFINE_ZERO = .ok AFFINE_ONE ∧
    affine_add Cx.reference AFFINE_ZERO AFFINE_ONE = .ok AFFINE_ONE ∧
    (do let np ← affine_negate Cx.reference AFFINE_ONE
        affine_add Cx.reference AFFINE_ONE np) = .ok AFFINE_ZERO ∧
    (do let np ← affine_negate Cx.reference AFFINE_ONE
        affine_add Cx.reference np AFFINE_ONE) = .ok AFFINE_ZERO ∧
    ∀ s, affine_add Cx.reference AFFINE_ONE AFFINE_ONE = .ok s ∨
      affine_negate Cx.reference AFFINE_ONE = .ok s →
      s.Valid ∧ affine_is_on_curve Cx.reference s = .ok true := by
  have hone : AFFINE_ONE.Valid := AFFINE_ONE_eq ▸ affineOf_valid generator
  exact affine_group_law Cx.reference_exact hone hone hone

end MinaLedger
