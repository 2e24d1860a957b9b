import MinaLedger.L2Crypto.Field

/-!
# Group arithmetic of crypto.c

The Jacobian and affine operations, statement by statement: each `←` is one
assignment of the source to its named temporary. The result is returned here
where the source fills it through a pointer: every caller passes one that is
none of the operands, so no operand changes on the way.

Results: with exact arithmetic each operation on canonical coordinates is the
formula of `Lib.Curve` (`group_dbl_encode`, `group_add_encode`, ...), and so
`affine_from_group` of a representation is the canonical affine form of the
point it denotes (`affine_from_group_denotes`).
-/
namespace MinaLedger
open Pasta Lib.Curve Lib.Ladder Lib.Radix

/-! ## Jacobian coordinates -/

/-- (X : Y : Z) = (0 : 1 : 0). mirrors src/src/crypto.c:100-119 -/
def GROUP_ZERO : Group := ⟨FIELD_ZERO, FIELD_ONE, FIELD_ZERO⟩

/-- mirrors src/src/crypto.c:121-135 -/
def AFFINE_ONE : Affine where
  x := FIELD_ONE
  y := #v[
    0x1b, 0x74, 0xb5, 0xa3, 0x0a, 0x12, 0x93, 0x7c, 0x53, 0xdf, 0xa9, 0xf0, 0x63, 0x78, 0xee, 0x54,
    0x8f, 0x65, 0x5b, 0xd4, 0x33, 0x3d, 0x47, 0x71, 0x19, 0xcf, 0x7a, 0x23, 0xca, 0xed, 0x2a, 0xbb]

/-- mirrors src/src/crypto.c:267-271 -/
def group_is_zero (p : Group) : Bool := field_eq p.Z FIELD_ZERO

section Operations

variable (cx : Cx)

/-- mirrors src/src/crypto.c:275-308 -/
def group_dbl (p : Group) : Exec Group := do
  if group_is_zero p then
    return p
  let t0 ← field_sq cx p.Y
  let t1 ← field_mul cx p.X t0
  let S ← field_mul cx FIELD_FOUR t1
  let t2 ← field_sq cx p.X
  let t3 ← field_mul cx FIELD_THREE t2
  let t4 ← field_sq cx t3
  let t5 ← field_mul cx FIELD_TWO S
  let X ← field_sub cx t4 t5
  let t6 ← field_sub cx S X
  let t7 ← field_sq cx t0
  let t8 ← field_mul cx FIELD_EIGHT t7
  let t9 ← field_mul cx t3 t6
  let Y ← field_sub cx t9 t8
  let t10 ← field_mul cx p.Y p.Z
  let Z ← field_mul cx FIELD_TWO t10
  return ⟨X, Y, Z⟩

/-- mirrors src/src/crypto.c:312-358 -/
def group_add (p q : Group) : Exec Group := do
  if group_is_zero p then
    return q
  if group_is_zero q then
    return p
  if field_eq p.X q.X && field_eq p.Y q.Y && field_eq p.Z q.Z then
    return ← group_dbl cx p
  let t0 ← field_sq cx q.Z
  let U1 ← field_mul cx p.X t0
  let t1 ← field_sq cx p.Z
  let U2 ← field_mul cx q.X t1
  let t2 ← field_mul cx t0 q.Z
  let S1 ← field_mul cx p.Y t2
  let t0 ← field_mul cx t1 p.Z
  let S2 ← field_mul cx q.Y t0
  let P ← field_sub cx U2 U1
  let R ← field_sub cx S2 S1
  let t1 ← field_add cx U1 U2
  let t2 ← field_sq cx R
  let U2 ← field_sq cx P
  let S2 ← field_mul cx t1 U2
  let X ← field_sub cx t2 S2
  let t1 ← field_mul cx U1 U2
  let t2 ← field_sub cx t1 X
  let t0 ← field_mul cx U2 P
  let S2 ← field_mul cx S1 t0
  let U1 ← field_mul cx R t2
  let Y ← field_sub cx U1 S2
  let U2 ← field_mul cx q.Z P
  let Z ← field_mul cx p.Z U2
  return ⟨X, Y, Z⟩

/-- mirrors src/src/crypto.c:360-365 -/
def group_negate (p : Group) : Exec Group := do
  let Y ← field_negate cx p.Y
  return ⟨p.X, Y, p.Z⟩

/-- Double-and-add. mirrors src/src/crypto.c:368-392 -/
def group_scalar_mul (k : Scalar) (p : Group) : Exec Group := do
  let q := GROUP_ZERO
  if group_is_zero p then
    return q
  if scalar_is_zero k then
    return q
  (List.range SCALAR_BITS).foldlM (fun q i => do
    let di := (← load k.toList (i / 8)).toNat.testBit (7 - i % 8)
    let q ← group_dbl cx q
    if di then group_add cx q p else return q) q

/-! ## Affine coordinates -/

/-- mirrors src/src/crypto.c:432-444 -/
def affine_to_group (p : Affine) : Group :=
  if field_eq p.x FIELD_ZERO && field_eq p.y FIELD_ZERO then
    ⟨FIELD_ZERO, FIELD_ONE, FIELD_ZERO⟩
  else ⟨p.x, p.y, FIELD_ONE⟩

/-- mirrors src/src/crypto.c:446-460 -/
def affine_from_group (p : Group) : Exec Affine := do
  if field_eq p.Z FIELD_ZERO then
    return ⟨FIELD_ZERO, FIELD_ZERO⟩
  let zi ← field_inv cx p.Z
  let y ← field_mul cx zi zi
  let tmp ← field_mul cx y zi
  let x ← field_mul cx p.X y
  let y ← field_mul cx p.Y tmp
  return ⟨x, y⟩

/-- mirrors src/src/crypto.c:462-468 -/
def affine_scalar_mul (k : Scalar) (p : Affine) : Exec Affine := do
  let pq ← group_scalar_mul cx k (affine_to_group p)
  affine_from_group cx pq

/-- mirrors src/src/crypto.c:475-482 -/
def affine_add (p q : Affine) : Exec Affine := do
  let gr ← group_add cx (affine_to_group p) (affine_to_group q)
  affine_from_group cx gr

/-- mirrors src/src/crypto.c:484-490 -/
def affine_negate (p : Affine) : Exec Affine := do
  let gq ← group_negate cx (affine_to_group p)
  affine_from_group cx gq

end Operations

/-! ## The operations are the formulas -/

/-- Canonical coordinates of a triple of field elements. -/
def encodeJ (p : Jac Fp) : Group := ⟨encode p.X, encode p.Y, encode p.Z⟩

/-- The canonical affine form of a point, with the identity as (0, 0). -/
def affineOf : Point → Affine
  | .zero => ⟨encode (0 : Fp), encode (0 : Fp)⟩
  | .some x y _ => ⟨encode x, encode y⟩

theorem GROUP_ZERO_eq : GROUP_ZERO = encodeJ Jac.zero := by
  simp [GROUP_ZERO, encodeJ, Jac.zero]

@[simp] theorem group_is_zero_encode (p : Jac Fp) :
    group_is_zero (encodeJ p) = decide (p.Z = 0) := by
  simp [group_is_zero, encodeJ]

section Encoded

variable {cx : Cx} (h : cx.Exact)

include h

theorem group_dbl_encode (p : Jac Fp) : group_dbl cx (encodeJ p) = .ok (encodeJ p.dbl) := by
  unfold group_dbl
  by_cases hz : p.Z = 0
  · simp [hz, Jac.dbl]
  · rw [if_neg (by simpa using hz), Jac.dbl, if_neg hz]
    simp only [encodeJ, FIELD_FOUR_eq, FIELD_THREE_eq, FIELD_TWO_eq, FIELD_EIGHT_eq,
      field_sq_encode h, field_mul_encode h, field_sub_encode h, ok_bind, pure_eq_ok]

theorem group_add_encode (p q : Jac Fp) :
    group_add cx (encodeJ p) (encodeJ q) = .ok (encodeJ (p.add q)) := by
  unfold group_add
  rw [Jac.add]
  by_cases hp : p.Z = 0
  · simp [hp]
  rw [if_neg (by simpa using hp), if_neg hp]
  by_cases hq : q.Z = 0
  · simp [hq]
  rw [if_neg (by simpa using hq), if_neg hq]
  by_cases hpq : p = q
  · subst hpq
    rw [if_pos rfl, group_dbl_encode h]
    simp [encodeJ]
  · have hne : ¬(p.X = q.X ∧ p.Y = q.Y ∧ p.Z = q.Z) := fun he => hpq (by
      cases p; cases q; simpa using he)
    rw [if_neg (by simpa [encodeJ, and_assoc] using hne), if_neg hpq]
    -- the binds are rewritten with proofs: left to the kernel, they unfold the encodings
    simp -implicitDefEqProofs only [encodeJ, Jac.addFormula, Jac.U1, Jac.S1, field_sq_encode h,
      field_mul_encode h, field_sub_encode h, field_add_encode h, ok_bind, pure_eq_ok]

theorem group_negate_encode (p : Jac Fp) :
    group_negate cx (encodeJ p) = .ok (encodeJ p.neg) := by
  simp [group_negate, encodeJ, field_negate_encode h, Jac.neg]

theorem affine_from_group_denotes {p : Jac Fp} {P : Point} (hp : Denotes p P) :
    affine_from_group cx (encodeJ p) = .ok (affineOf P) := by
  unfold affine_from_group
  cases P with
  | zero =>
    have hz : p.Z = 0 := hp
    simp [encodeJ, hz, affineOf]
  | some x y hxy =>
    obtain ⟨hz, hX, hY⟩ := hp
    have hx : p.X * (p.Z⁻¹ * p.Z⁻¹) = x := by rw [hX]; field_simp
    have hy : p.Y * (p.Z⁻¹ * p.Z⁻¹ * p.Z⁻¹) = y := by rw [hY]; field_simp
    rw [if_neg (by simpa [encodeJ] using hz)]
    simp only [encodeJ, field_inv_encode h hz, field_mul_encode h, ok_bind, pure_eq_ok, affineOf,
      hx, hy]

end Encoded

/-! ## Points and their affine form -/

/-- The triple `affine_to_group` makes of a point. -/
def jacOf : Point → Jac Fp
  | .zero => Jac.zero
  | .some x y _ => ⟨x, y, 1⟩

theorem denotes_jacOf (P : Point) : Denotes (jacOf P) P := by
  cases P with
  | zero => exact denotes_zero
  | some x y hxy => exact ⟨one_ne_zero, by simp [jacOf], by simp [jacOf]⟩

/-- (0, 0) is not on the curve, so it is free to stand for the identity. -/
theorem not_zero_zero {x y : Fp} (h : (curve (5 : Fp)).Nonsingular x y) : ¬(x = 0 ∧ y = 0) := by
  rintro ⟨rfl, rfl⟩
  have h0 := (nonsingular_iff 0 0).mp h
  norm_num at h0
  exact five_ne_zero h0.symm

theorem affine_to_group_affineOf (P : Point) : affine_to_group (affineOf P) = encodeJ (jacOf P) := by
  unfold affine_to_group
  cases P with
  | zero => simp [affineOf, jacOf, encodeJ, Jac.zero]
  | some x y hxy =>
    have hne := not_zero_zero hxy
    rw [if_neg (by simpa [affineOf] using hne)]
    simp [affineOf, jacOf, encodeJ]

/-- A canonical affine point: reduced coordinates, and (0, 0) or on the curve. -/
structure Affine.Valid (p : Affine) : Prop where
  x_lt : num p.x < fieldModulus
  y_lt : num p.y < fieldModulus
  onCurve : (p.x = FIELD_ZERO ∧ p.y = FIELD_ZERO) ∨
    decode fieldModulus p.y ^ 2 = decode fieldModulus p.x ^ 3 + 5

/-- The point a pair of coordinates stands for; whatever is off the curve goes to the identity. -/
def Affine.toPoint (p : Affine) : Point :=
  if h : decode fieldModulus p.y ^ 2 = decode fieldModulus p.x ^ 3 + 5 then
    .some _ _ ((nonsingular_iff _ _).mpr h)
  else .zero

theorem affineOf_valid (P : Point) : (affineOf P).Valid := by
  have hlt (x : Fp) : num (encode x) < fieldModulus := by
    rw [num_encode num_FIELD_MODULUS]; exact ZMod.val_lt x
  cases P with
  | zero => exact ⟨hlt 0, hlt 0, .inl (by simp [affineOf])⟩
  | some x y hxy =>
    refine ⟨hlt x, hlt y, .inr ?_⟩
    simp only [affineOf, decode_encode num_FIELD_MODULUS]
    exact (nonsingular_iff x y).mp hxy

/-- Canonical affine points are exactly the affine forms of points. -/
theorem Affine.Valid.affineOf_toPoint {p : Affine} (h : p.Valid) : affineOf p.toPoint = p := by
  unfold Affine.toPoint
  split
  · simp [affineOf, encode_decode h.x_lt, encode_decode h.y_lt]
  · rename_i hoff
    rcases h.onCurve with ⟨hx, hy⟩ | hon
    · cases p
      simp only [FIELD_ZERO_eq] at hx hy
      simp [affineOf, hx, hy]
    · exact absurd hon hoff

theorem affineOf_injective {P Q : Point} (h : affineOf P = affineOf Q) : P = Q := by
  have hj : encodeJ (jacOf P) = encodeJ (jacOf Q) := by
    rw [← affine_to_group_affineOf, h, affine_to_group_affineOf]
  have hjac : jacOf P = jacOf Q := by
    simp only [encodeJ, Group.mk.injEq, encode_inj_iff] at hj
    cases hP : jacOf P; cases hQ : jacOf Q
    simp_all
  exact denotes_unique (denotes_jacOf P) (hjac ▸ denotes_jacOf Q)

theorem toPoint_affineOf (P : Point) : (affineOf P).toPoint = P :=
  affineOf_injective (affineOf_valid P).affineOf_toPoint

theorem AFFINE_ONE_y : AFFINE_ONE.y = encode (generatorY : Fp) := by
  have h : AFFINE_ONE.y = ofNum generatorY := by decide +kernel
  rw [h, ofNum_eq_encode (by decide)]

theorem AFFINE_ONE_eq : AFFINE_ONE = affineOf generator := by
  have hx : AFFINE_ONE.x = encode (1 : Fp) := FIELD_ONE_eq
  simp only [generator, affineOf]
  rw [← hx, ← AFFINE_ONE_y]

/-! ## Addition and negation -/

section Affine

variable {cx : Cx} (h : cx.Exact)

include h

theorem affine_add_eq (P Q : Point) :
    affine_add cx (affineOf P) (affineOf Q) = .ok (affineOf (P + Q)) := by
  have hsum : Denotes ((jacOf P).add (jacOf Q)) (P + Q) :=
    denotes_add two_ne_zero (denotes_jacOf P) (denotes_jacOf Q) fun hPQ => .inr (hPQ ▸ rfl)
  rw [affine_add, affine_to_group_affineOf, affine_to_group_affineOf, group_add_encode h, ok_bind,
    affine_from_group_denotes h hsum]

theorem affine_negate_eq (P : Point) :
    affine_negate cx (affineOf P) = .ok (affineOf (-P)) := by
  rw [affine_negate, affine_to_group_affineOf, group_negate_encode h, ok_bind,
    affine_from_group_denotes h (denotes_neg (denotes_jacOf P))]

end Affine

end MinaLedger
