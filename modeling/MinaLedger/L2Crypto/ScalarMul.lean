import MinaLedger.L2Crypto.Group
import MinaLedger.Lib.Residue

/-!
# Scalar multiplication

The 256-step loop of `group_scalar_mul` against multiplication in the group of
the curve.

Results:
* `group_scalar_mul_encode`: the loop is the ladder of `Lib.Ladder` over the
  bits of the scalar.
* `affine_scalar_mul_affineOf`: for a point of order dividing the group order
  and a scalar below it, the affine result is the canonical form of the multiple.
* `affine_scalar_mul_correct`: with it the laws src/src/curve_checks.c samples,
  for all points and scalars.
-/
namespace MinaLedger
open Pasta Lib.Curve Lib.Ladder Lib.Radix Lib.Residue

variable {cx : Cx}

/-! ## The loop -/

/-- The bit the loop reads in round `i`. -/
theorem load_testBit (k : Scalar) {i : Nat} (hi : i < 256) :
    ∃ b, load k.toList (i / 8) = .ok b ∧ b.toNat.testBit (7 - i % 8) = (num k).testBit (255 - i) := by
  have hlen : i / 8 < k.toList.length := by simp; omega
  refine ⟨k.toList[i / 8], load_eq _ _ hlen, ?_⟩
  have h1 : (255 - i) / 8 = 31 - i / 8 := by omega
  have h2 : (255 - i) % 8 = 7 - i % 8 := by omega
  have h3 : 31 - i / 8 < k.toList.reverse.length := by simp; omega
  rw [num, ← leVal_reverse, testBit_leVal, h1, h2, List.getD_eq_getElem _ _ h3,
    List.getElem_reverse]
  congr 3
  simp; omega

theorem bits_256 (v : Nat) : bits 256 v = (List.range 256).map fun i => v.testBit (255 - i) := rfl

/-- The rounds with the given indices are steps of the ladder. -/
theorem group_scalar_mul_rounds (h : cx.Exact) (k : Scalar) (p : Jac Fp) :
    ∀ (is : List Nat) (q : Jac Fp), (∀ i ∈ is, i < 256) →
      is.foldlM (fun q i => do
        let di := (← load k.toList (i / 8)).toNat.testBit (7 - i % 8)
        let q ← group_dbl cx q
        if di then group_add cx q (encodeJ p) else return q) (encodeJ q) =
      .ok (encodeJ (ladder Jac.dbl (·.add p) q (is.map fun i => (num k).testBit (255 - i)))) := by
  intro is
  induction is with
  | nil => intro q _; rfl
  | cons i is ih =>
    intro q hi
    obtain ⟨b, hb, hbit⟩ := load_testBit k (hi i List.mem_cons_self)
    rw [List.foldlM_cons, hb, ok_bind, group_dbl_encode h, ok_bind, hbit, List.map_cons,
      ladder_cons]
    have hrest := fun q' => ih q' fun j hj => hi j (List.mem_cons_of_mem i hj)
    by_cases hd : (num k).testBit (255 - i) = true
    · rw [if_pos hd, if_pos hd, group_add_encode h, ok_bind, hrest]
    · rw [if_neg hd, if_neg hd, pure_eq_ok, ok_bind, hrest]

/-- The loop is the ladder; its two shortcuts answer the identity at once. -/
theorem group_scalar_mul_encode (h : cx.Exact) (k : Scalar) (p : Jac Fp) :
    group_scalar_mul cx k (encodeJ p) = .ok (encodeJ
      (if p.Z = 0 ∨ num k = 0 then Jac.zero
        else ladder Jac.dbl (·.add p) Jac.zero (bits 256 (num k)))) := by
  have hk : scalar_is_zero k = decide (num k = 0) := by
    rw [scalar_is_zero, scalar_eq, Bool.eq_iff_iff, beq_iff_eq, decide_eq_true_eq]
    have h0 : num SCALAR_ZERO = 0 := num_ofNum (by norm_num)
    exact ⟨fun h => by rw [h, h0], fun h => num_inj (by rw [h, h0])⟩
  unfold group_scalar_mul
  rw [group_is_zero_encode, hk, GROUP_ZERO_eq]
  by_cases hz : p.Z = 0
  · simp [hz]
  rw [if_neg (by simpa using hz)]
  by_cases h0 : num k = 0
  · simp [h0]
  rw [if_neg (by simpa using h0), if_neg (by tauto), bits_256]
  exact group_scalar_mul_rounds h k p _ _ fun i hi => List.mem_range.mp hi

/-! ## The multiple -/

theorem affine_scalar_mul_affineOf (h : cx.Exact) {P : Point} (hord : groupOrder • P = 0)
    {k : Scalar} (hk : num k < groupOrder) :
    affine_scalar_mul cx k (affineOf P) = .ok (affineOf (num k • P)) := by
  have hk256 : num k < 2 ^ 256 := by simpa using num_lt k
  rw [affine_scalar_mul, affine_to_group_affineOf, group_scalar_mul_encode h, ok_bind]
  refine affine_from_group_denotes h ?_
  split
  · rename_i hzero
    rcases hzero with hz | hz
    · -- the identity in, the identity out
      have hP : P = 0 := denotes_unique (denotes_jacOf P) ((denotes_zero_iff _).mpr hz)
      rw [hP, nsmul_zero]; exact denotes_zero
    · rw [hz, zero_nsmul]; exact denotes_zero
  · have hval : valFrom 0 (bits 256 (num k)) < groupOrder := by rw [valFrom_bits hk256]; exact hk
    have hlad := denotes_ladder two_ne_zero groupOrder_prime (denotes_jacOf P) hord hval
    rwa [valFrom_bits hk256] at hlad

/-- Scalar multiplication by the encoding of a residue. -/
theorem affine_scalar_mul_encode (h : cx.Exact) {P : Point} (hord : groupOrder • P = 0) (x : Fq) :
    affine_scalar_mul cx (encode x) (affineOf P) = .ok (affineOf (x.val • P)) := by
  have hx := num_encode num_GROUP_ORDER x
  rw [affine_scalar_mul_affineOf h hord (by rw [hx]; exact ZMod.val_lt x), hx]

/-! ## The claim of curve_checks, for every point and scalar -/

/-- Scalar multiplication is the group's, and it turns scalar arithmetic into
point arithmetic. -/
theorem affine_scalar_mul_correct (h : cx.Exact) {p : Affine} (hp : p.Valid)
    (hord : groupOrder • p.toPoint = 0) :
    (∀ k, num k < groupOrder →
      affine_scalar_mul cx k p = .ok (affineOf (num k • p.toPoint))) ∧
    (∀ a b, num a < groupOrder → num b < groupOrder → ∃ r,
      (do let c ← scalar_add cx a b; affine_scalar_mul cx c p) = .ok r ∧
      (do let pa ← affine_scalar_mul cx a p
          let pb ← affine_scalar_mul cx b p
          affine_add cx pa pb) = .ok r) ∧
    (∀ a b, num a < groupOrder → num b < groupOrder → ∃ r,
      (do let c ← scalar_mul cx a b; affine_scalar_mul cx c p) = .ok r ∧
      (do let pb ← affine_scalar_mul cx b p; affine_scalar_mul cx a pb) = .ok r) ∧
    (∀ a, num a < groupOrder → ∃ r,
      (do let c ← scalar_negate cx a; affine_scalar_mul cx c p) = .ok r ∧
      (do let pa ← affine_scalar_mul cx a p; affine_negate cx pa) = .ok r) := by
  obtain ⟨P, rfl⟩ : ∃ P, p = affineOf P := ⟨_, hp.affineOf_toPoint.symm⟩
  rw [toPoint_affineOf] at hord ⊢
  refine ⟨fun k hk => affine_scalar_mul_affineOf h hord hk, ?_, ?_, ?_⟩
  · intro a b ha hb
    refine ⟨affineOf ((decode groupOrder a + decode groupOrder b).val • P), ?_, ?_⟩
    · rw [← encode_decode ha, ← encode_decode hb, scalar_add_encode h, ok_bind,
        affine_scalar_mul_encode h hord, encode_decode ha, encode_decode hb]
    · rw [← encode_decode ha, ← encode_decode hb, affine_scalar_mul_encode h hord, ok_bind,
        affine_scalar_mul_encode h hord, ok_bind, affine_add_eq h, ← val_add_smul hord,
        encode_decode ha, encode_decode hb]
  · intro a b ha hb
    refine ⟨affineOf ((decode groupOrder a * decode groupOrder b).val • P), ?_, ?_⟩
    · rw [← encode_decode ha, ← encode_decode hb, scalar_mul_encode h, ok_bind,
        affine_scalar_mul_encode h hord, encode_decode ha, encode_decode hb]
    · rw [← encode_decode ha, ← encode_decode hb, affine_scalar_mul_encode h hord, ok_bind,
        affine_scalar_mul_encode h (smul_order hord _), ← val_mul_smul hord,
        encode_decode ha, encode_decode hb]
  · intro a ha
    refine ⟨affineOf ((-decode groupOrder a).val • P), ?_, ?_⟩
    · rw [← encode_decode ha, scalar_negate_encode h, ok_bind, affine_scalar_mul_encode h hord,
        encode_decode ha]
    · rw [← encode_decode ha, affine_scalar_mul_encode h hord, ok_bind, affine_negate_eq h,
        ← val_neg_smul hord, encode_decode ha]

/-- The generator and the scalar 2. -/
theorem affine_scalar_mul_correct_two :
    affine_scalar_mul Cx.reference (ofNum 2) AFFINE_ONE =
      .ok (affineOf (num (ofNum 2) • AFFINE_ONE.toPoint)) :=
  (affine_scalar_mul_correct Cx.reference_exact (AFFINE_ONE_eq ▸ affineOf_valid generator)
    (by rw [AFFINE_ONE_eq, toPoint_affineOf]; exact groupOrder_smul_generator)).1 (ofNum 2)
    (by rw [num_ofNum (by norm_num)]; decide)

end MinaLedger
