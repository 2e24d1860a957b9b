import MinaLedger.L2Crypto.OnCurve
import MinaLedger.L2Crypto.Sign

/-!
# The self-test

`curve_checks` of src/src/curve_checks.c, which the device can be asked to run: for each
epoch of its tables the group operations are tried on the points of the epoch, and their
results compared with each other and with the targets.

Results:
* `curve_checks_iff`: on reduced tables it returns, and it passes exactly if the first two
  points of every epoch are the multiples of the generator by its scalars, the third is on
  the curve, and the targets are what the group says (`Epoch.Consistent`).
* `curve_checks_passes`: the tables of src/src/curve_checks.h are so.
-/
namespace MinaLedger
open Pasta Lib.Curve Lib.Ladder Lib.Residue

/-- `S[i][j]`, `A[i][j]` and `T[i][j]` of one epoch `i`. -/
structure Epoch where
  S0 : Scalar
  S1 : Scalar
  A0 : Affine
  A1 : Affine
  A2 : Affine
  T0 : Affine
  T1 : Affine
  T2 : Affine
  T3 : Affine
  T4 : Affine

/-- mirrors src/src/crypto.c:470-473 -/
def affine_eq (p q : Affine) : Bool := field_eq p.x q.x && field_eq p.y q.y

section Functions

variable (cx : Cx)

/-- What ends each of the tests 2 to 6: the two results are equal, the first is on the
curve, and it is the target. -/
def matches_target (a b target : Affine) : Exec Bool := do
  if !affine_eq a b then return false
  if !(← affine_is_on_curve cx a) then return false
  return a == target

/-- One round of the loop. mirrors src/src/curve_checks.c:29-118 -/
def epoch_checks (e : Epoch) : Exec Bool := do
  -- Test1: On curve after scaling
  if !(← affine_is_on_curve cx e.A0) then return false
  if !(← affine_is_on_curve cx e.A1) then return false
  if !(← affine_is_on_curve cx e.A2) then return false
  -- Test2: Addition is commutative
  let a3 ← affine_add cx e.A0 e.A1
  let a4 ← affine_add cx e.A1 e.A0
  if !(← matches_target cx a3 a4 e.T0) then return false
  -- Test3: Scaling commutes with adding scalars
  let s2 ← scalar_add cx e.S0 e.S1
  let a3 ← generate_pubkey cx s2
  let a4 ← affine_add cx e.A0 e.A1
  if !(← matches_target cx a3 a4 e.T1) then return false
  -- Test4: Scaling commutes with multiplying scalars
  let s2 ← scalar_mul cx e.S0 e.S1
  let a3 ← generate_pubkey cx s2
  let a4 ← affine_scalar_mul cx e.S0 e.A1
  if !(← matches_target cx a3 a4 e.T2) then return false
  -- Test5: Scaling commutes with negation
  let s2 ← scalar_negate cx e.S0
  let a3 ← generate_pubkey cx s2
  let a4 ← affine_negate cx e.A0
  if !(← matches_target cx a3 a4 e.T3) then return false
  -- Test6: Addition is associative
  let a3 ← affine_add cx e.A0 e.A1
  let a4 ← affine_add cx a3 e.A2
  let a3 ← affine_add cx e.A1 e.A2
  let a5 ← affine_add cx e.A0 a3
  if !(← matches_target cx a4 a5 e.T4) then return false
  return true

/-- mirrors src/src/curve_checks.c:19-122 -/
def curve_checks : List Epoch → Exec Bool
  | [] => return true
  | e :: es => do
    if !(← epoch_checks cx e) then return false
    curve_checks es

end Functions

/-! ## Checks as propositions -/

/-- A check that returns, and says whether `p`. -/
def Decides (x : Exec Bool) (p : Prop) : Prop := ∃ b, x = .ok b ∧ (b = true ↔ p)

theorem Decides.congr {x : Exec Bool} {p q : Prop} (h : Decides x p) (hpq : p ↔ q) : Decides x q := by
  obtain ⟨b, hb, hiff⟩ := h
  exact ⟨b, hb, hiff.trans hpq⟩

/-- What comes after a check may count on it. -/
theorem Decides.guard {x rest : Exec Bool} {p q : Prop} (hx : Decides x p)
    (hrest : p → Decides rest q) :
    Decides (do
      if !(← x) then return false
      rest) (p ∧ q) := by
  obtain ⟨b, hb, hiff⟩ := hx
  cases b with
  | false =>
    refine ⟨false, by rw [hb]; rfl, ?_⟩
    have hp : ¬p := fun hp => absurd (hiff.mpr hp) (by decide)
    simp [hp]
  | true =>
    obtain ⟨c, hc, hciff⟩ := hrest (hiff.mp rfl)
    refine ⟨c, by rw [hb, hc]; rfl, ?_⟩
    rw [hciff, and_iff_right (hiff.mp rfl)]

section Exact

variable {cx : Cx} (h : cx.Exact)

/-- Canonical coordinates, on the curve or not. -/
structure Affine.Reduced (p : Affine) : Prop where
  x_lt : num p.x < fieldModulus
  y_lt : num p.y < fieldModulus

include h

theorem affine_is_on_curve_decides {p : Affine} (hp : p.Reduced) :
    Decides (affine_is_on_curve cx p) p.Valid := by
  by_cases h0 : p.x = FIELD_ZERO ∧ p.y = FIELD_ZERO
  · have hv : p.Valid := ⟨hp.x_lt, hp.y_lt, .inl h0⟩
    refine ⟨true, ?_, iff_of_true rfl hv⟩
    rw [← hv.affineOf_toPoint, affine_is_on_curve_affineOf h]
  · have hgroup : affine_to_group p = encodeJ ⟨decode fieldModulus p.x, decode fieldModulus p.y, 1⟩ := by
      rw [affine_to_group, if_neg (by simpa [field_eq] using h0)]
      simp [encodeJ, encode_decode hp.x_lt, encode_decode hp.y_lt]
    obtain ⟨b, hb, hiff⟩ := group_is_on_curve_eq h ⟨decode fieldModulus p.x, decode fieldModulus p.y, 1⟩
    refine ⟨b, by rw [affine_is_on_curve, hgroup, hb], hiff.trans ?_⟩
    constructor
    · rintro (hz | hcurve)
      · exact absurd hz one_ne_zero
      · exact ⟨hp.x_lt, hp.y_lt, .inr (by linear_combination hcurve)⟩
    · rintro ⟨-, -, hz | hcurve⟩
      · exact absurd hz h0
      · exact .inr (by linear_combination hcurve)

omit h in
theorem affine_eq_iff (p q : Affine) : affine_eq p q = true ↔ p = q := by
  cases p
  cases q
  simp [affine_eq, field_eq]

theorem matches_target_decides (P : Point) (b target : Affine) :
    Decides (matches_target cx (affineOf P) b target) (affineOf P = b ∧ affineOf P = target) := by
  unfold matches_target
  by_cases hb : affineOf P = b
  · rw [(affine_eq_iff _ _).mpr hb, affine_is_on_curve_affineOf h]
    refine ⟨affineOf P == target, rfl, ?_⟩
    rw [beq_iff_eq, and_iff_right hb]
  · have hne : affine_eq (affineOf P) b = false := by
      rw [← Bool.not_eq_true, affine_eq_iff]
      exact hb
    rw [hne]
    exact ⟨false, rfl, by simp [hb]⟩

theorem affine_from_group_returns (r : Jac Fp) : ∃ a, affine_from_group cx (encodeJ r) = .ok a := by
  by_cases hz : r.Z = 0
  · refine ⟨⟨FIELD_ZERO, FIELD_ZERO⟩, ?_⟩
    rw [affine_from_group, if_pos (by simpa [encodeJ] using hz)]
    rfl
  · exact ⟨_, affine_from_group_eq h hz⟩

/-- Multiplication returns, whatever the order of the point is. -/
theorem affine_scalar_mul_returns (k : Scalar) (P : Point) :
    ∃ a, affine_scalar_mul cx k (affineOf P) = .ok a := by
  rw [affine_scalar_mul, affine_to_group_affineOf, group_scalar_mul_encode h, ok_bind]
  exact affine_from_group_returns h _

end Exact

/-! ## One epoch -/

/-- Canonical scalars and coordinates. -/
structure Epoch.Reduced (e : Epoch) : Prop where
  S0 : num e.S0 < groupOrder
  S1 : num e.S1 < groupOrder
  A0 : e.A0.Reduced
  A1 : e.A1.Reduced
  A2 : e.A2.Reduced

/-- The points are what they are said to be, and the targets are their sums and multiples. -/
structure Epoch.Consistent (e : Epoch) : Prop where
  A0 : e.A0 = affineOf (num e.S0 • generator)
  A1 : e.A1 = affineOf (num e.S1 • generator)
  A2 : e.A2.Valid
  T0 : e.T0 = affineOf (num e.S0 • generator + num e.S1 • generator)
  T1 : e.T1 = affineOf (num e.S0 • generator + num e.S1 • generator)
  T2 : e.T2 = affineOf (num e.S0 • num e.S1 • generator)
  T3 : e.T3 = affineOf (-(num e.S0 • generator))
  T4 : e.T4 = affineOf (num e.S0 • generator + num e.S1 • generator + e.A2.toPoint)

section Epochs

variable {cx : Cx} (h : cx.Exact)

include h

theorem generate_pubkey_encode (x : Fq) :
    generate_pubkey cx (encode x) = .ok (affineOf (x.val • generator)) := by
  rw [generate_pubkey, AFFINE_ONE_eq, affine_scalar_mul_encode h groupOrder_smul_generator]

/-- With points and residues for coordinates and scalars. -/
theorem epoch_checks_decides {e : Epoch} {P0 P1 P2 : Point} {s0 s1 : Fq} (hA0 : e.A0 = affineOf P0)
    (hA1 : e.A1 = affineOf P1) (hA2 : e.A2 = affineOf P2) (hS0 : e.S0 = encode s0)
    (hS1 : e.S1 = encode s1) :
    Decides (epoch_checks cx e) (P0 = s0.val • generator ∧ P1 = s1.val • generator ∧
      e.T0 = affineOf (P0 + P1) ∧ e.T1 = affineOf (P0 + P1) ∧ e.T2 = affineOf (s0.val • P1) ∧
      e.T3 = affineOf (-P0) ∧ e.T4 = affineOf (P0 + P1 + P2)) := by
  have hord := groupOrder_smul_generator
  obtain ⟨a4, ha4⟩ := affine_scalar_mul_returns h e.S0 P1
  have hcurve : ∀ P, affine_is_on_curve cx (affineOf P) = .ok true := affine_is_on_curve_affineOf h
  have hlast : Decides (pure true) True := ⟨true, rfl, by simp⟩
  have htests :=
    (matches_target_decides h (P0 + P1) (affineOf (P1 + P0)) e.T0).guard fun _ =>
    (matches_target_decides h ((s0 + s1).val • generator) (affineOf (P0 + P1)) e.T1).guard fun _ =>
    (matches_target_decides h ((s0 * s1).val • generator) a4 e.T2).guard fun _ =>
    (matches_target_decides h ((-s0).val • generator) (affineOf (-P0)) e.T3).guard fun _ =>
    (matches_target_decides h (P0 + P1 + P2) (affineOf (P0 + (P1 + P2))) e.T4).guard fun _ => hlast
  unfold epoch_checks
  simp only [hA0, hA1, hA2, hS1, hcurve, affine_add_eq h, affine_negate_eq h, ok_bind, Bool.not_true,
    Bool.false_eq_true, if_false]
  rw [hS0] at ha4 ⊢
  simp only [ha4, scalar_add_encode h, scalar_mul_encode h, scalar_negate_encode h,
    generate_pubkey_encode h, ok_bind]
  refine htests.congr ?_
  rw [val_add_smul hord, val_mul_smul hord, val_neg_smul hord]
  constructor
  · rintro ⟨⟨-, hT0⟩, ⟨hsum, hT1⟩, ⟨-, hT2⟩, ⟨hneg, hT3⟩, ⟨-, hT4⟩, -⟩
    -- the negation gives the first point, and the sum the second
    obtain rfl : s0.val • generator = P0 := neg_injective (affineOf_injective hneg)
    obtain rfl : s1.val • generator = P1 := add_left_cancel (affineOf_injective hsum)
    exact ⟨rfl, rfl, hT0.symm, hT1.symm, hT2.symm, hT3.symm, hT4.symm⟩
  · rintro ⟨rfl, rfl, hT0, hT1, hT2, hT3, hT4⟩
    rw [affine_scalar_mul_encode h (smul_order hord _)] at ha4
    have hproduct := Except.ok.inj ha4
    refine ⟨⟨by rw [add_comm], hT0.symm⟩, ⟨rfl, hT1.symm⟩, ⟨hproduct, hT2.symm⟩, ⟨rfl, hT3.symm⟩,
      ⟨by rw [add_assoc], hT4.symm⟩, trivial⟩

/-- The first test. -/
theorem epoch_checks_off_curve {e : Epoch} (he : e.Reduced)
    (hoff : ¬(e.A0.Valid ∧ e.A1.Valid ∧ e.A2.Valid)) : epoch_checks cx e = .ok false := by
  obtain ⟨b0, hb0, hv0⟩ := affine_is_on_curve_decides h he.A0
  obtain ⟨b1, hb1, hv1⟩ := affine_is_on_curve_decides h he.A1
  obtain ⟨b2, hb2, hv2⟩ := affine_is_on_curve_decides h he.A2
  unfold epoch_checks
  rw [hb0, hb1, hb2]
  cases b0 with
  | false => rfl
  | true =>
    cases b1 with
    | false => rfl
    | true =>
      cases b2 with
      | false => rfl
      | true => exact absurd ⟨hv0.mp rfl, hv1.mp rfl, hv2.mp rfl⟩ hoff

/-- An epoch passes exactly if it is consistent. -/
theorem epoch_checks_iff {e : Epoch} (he : e.Reduced) : Decides (epoch_checks cx e) e.Consistent := by
  by_cases hvalid : e.A0.Valid ∧ e.A1.Valid ∧ e.A2.Valid
  · obtain ⟨hA0, hA1, hA2⟩ := hvalid
    have hval : ∀ {s : Scalar}, num s < groupOrder → (decode groupOrder s).val = num s :=
      fun hs => ZMod.val_cast_of_lt hs
    refine (epoch_checks_decides h hA0.affineOf_toPoint.symm hA1.affineOf_toPoint.symm
      hA2.affineOf_toPoint.symm (encode_decode he.S0).symm (encode_decode he.S1).symm).congr ?_
    rw [hval he.S0, hval he.S1]
    constructor
    · rintro ⟨hP0, hP1, hT0, hT1, hT2, hT3, hT4⟩
      rw [hP0, hP1] at hT0 hT1 hT4
      rw [hP1] at hT2
      rw [hP0] at hT3
      exact ⟨by rw [← hP0, hA0.affineOf_toPoint], by rw [← hP1, hA1.affineOf_toPoint], hA2, hT0, hT1,
        hT2, hT3, hT4⟩
    · intro hc
      have hP0 : e.A0.toPoint = num e.S0 • generator := by rw [hc.A0, toPoint_affineOf]
      have hP1 : e.A1.toPoint = num e.S1 • generator := by rw [hc.A1, toPoint_affineOf]
      rw [hP0, hP1]
      exact ⟨rfl, rfl, hc.T0, hc.T1, hc.T2, hc.T3, hc.T4⟩
  · refine ⟨false, epoch_checks_off_curve h he hvalid, ?_⟩
    have hno : ¬e.Consistent := fun hc =>
      hvalid ⟨hc.A0 ▸ affineOf_valid _, hc.A1 ▸ affineOf_valid _, hc.A2⟩
    simp [hno]

end Epochs

/-- The self-test returns on all reduced tables, and passes exactly if every epoch is
consistent. -/
theorem curve_checks_iff {cx : Cx} (h : cx.Exact) {epochs : List Epoch}
    (hreduced : ∀ e ∈ epochs, e.Reduced) :
    ∃ b, curve_checks cx epochs = .ok b ∧ (b = true ↔ ∀ e ∈ epochs, e.Consistent) := by
  induction epochs with
  | nil => exact ⟨true, rfl, by simp⟩
  | cons e es ih =>
    have hrest := ih fun e he => hreduced e (List.mem_cons_of_mem _ he)
    have hguard := (epoch_checks_iff h (hreduced e List.mem_cons_self)).guard fun _ => hrest
    exact hguard.congr List.forall_mem_cons.symm

/-! ## The tables of the device -/

/-- `S`, `A` and `T`. mirrors src/src/curve_checks.h:13-677 -/
def curve_check_tables : List Epoch := [
  { S0 := ofNum 0x0000000000000000000000000000000000000000000000000000000000000000
    S1 := ofNum 0x25295f0d1d592a90b333e26e85149708208e9f8e8bc18f6c77bd62f8ad7a6866
    A0 := ⟨ofNum 0x0000000000000000000000000000000000000000000000000000000000000000,
      ofNum 0x0000000000000000000000000000000000000000000000000000000000000000⟩
    A1 := ⟨ofNum 0x270c527026be7931cc246d4b00163e3f3480f0582257ef8ac7ff192a54a1a473,
      ofNum 0x247427294404be4d727e98ccf605a10b936ea89da36abc2a8ccfb679d86588a7⟩
    A2 := ⟨ofNum 0x1b586b8d651ecba29b0a622b7e76e9825f5d1ffc2f2b80af06c53531c2e60e80,
      ofNum 0x34203a38ddbbc4cc6be5e7e5fb8e4080a7fc3d2992f58e6d16045424af7a41e6⟩
    T0 := ⟨ofNum 0x270c527026be7931cc246d4b00163e3f3480f0582257ef8ac7ff192a54a1a473,
      ofNum 0x247427294404be4d727e98ccf605a10b936ea89da36abc2a8ccfb679d86588a7⟩
    T1 := ⟨ofNum 0x270c527026be7931cc246d4b00163e3f3480f0582257ef8ac7ff192a54a1a473,
      ofNum 0x247427294404be4d727e98ccf605a10b936ea89da36abc2a8ccfb679d86588a7⟩
    T2 := ⟨ofNum 0x0000000000000000000000000000000000000000000000000000000000000000,
      ofNum 0x0000000000000000000000000000000000000000000000000000000000000000⟩
    T3 := ⟨ofNum 0x0000000000000000000000000000000000000000000000000000000000000000,
      ofNum 0x0000000000000000000000000000000000000000000000000000000000000000⟩
    T4 := ⟨ofNum 0x048f2ea1acd1b78894a9f16a7af5670c95e9200cbd71a9910e4a0db3e50aea4b,
      ofNum 0x272816550058d22295ff94161832c3cfc8d789b5dd826a906e2b574255168219⟩ },
  { S0 := ofNum 0x0be3ef51dcfc5c44b2a818343a57c1e679b0854fdcbfc8e424af32d50a1bcc7c
    S1 := ofNum 0x2147767dc4a93436bcfa488e322fd5afb9ca2509844972d7a9bd1e55c415fef1
    A0 := ⟨ofNum 0x0b5364e7f7d40831d029b2e62656d8e36383054ca867a844650bf9cdfb82dbb6,
      ofNum 0x099b2b8d3bca00e771be0e057e109b19391b54d1cb5a710972ce2c1ed2620ed6⟩
    A1 := ⟨ofNum 0x04612ad924993f7f0059f4572f733efcdbb23544acc1ecc073e77be9f2a7f713,
      ofNum 0x3ea4a685c8d6cbe1a68c44e4773e56d94e10dee8df00e619159f4b52dd98b225⟩
    A2 := ⟨ofNum 0x2072f33c82515084abc6e192eaa2a16f9d791e79b08f173d2b7233b5b5f708e4,
      ofNum 0x0dd291e10355c388bc1bbf88ddca5ba0efdaf18abb301e7448ad9454b08e8df6⟩
    T0 := ⟨ofNum 0x12bc65b9d33248058db501f830ae4e549fc9da8528c8c81dd07925c2df4688dd,
      ofNum 0x3f1acb1e9486aa6e5e8264848663bbfeef1abf608746a2e9850b840712417760⟩
    T1 := ⟨ofNum 0x12bc65b9d33248058db501f830ae4e549fc9da8528c8c81dd07925c2df4688dd,
      ofNum 0x3f1acb1e9486aa6e5e8264848663bbfeef1abf608746a2e9850b840712417760⟩
    T2 := ⟨ofNum 0x0a55e0559ea40ab8dd0795dffa709f09b9013cbc05ad6fd9c8f3b69bf6a43988,
      ofNum 0x0af121d2c15df65d9853e47b8420638f5963dbafa755426c9a15b41ee0f5e424⟩
    T3 := ⟨ofNum 0x0b5364e7f7d40831d029b2e62656d8e36383054ca867a844650bf9cdfb82dbb6,
      ofNum 0x3664d472c435ff188e41f1fa81ef64e6e92b442a3df28812265f04ce2d9df12b⟩
    T4 := ⟨ofNum 0x04fe0316f09dfe421cd909f37cd2a6b1c15a8c0edd342cac28c0b958ff6d5c6f,
      ofNum 0x1a916465be6bd97d672902ff6cc4ba64bd643d8d802061711574fbc91b488348⟩ },
  { S0 := ofNum 0x397c55da699694be6acaa8b8448f8aed86eb9790be84deb9858c9e7c60777904
    S1 := ofNum 0x2eddb028162b4282e4d6ae8d09d9abf6976f77d11e16fc8c8e7aec3f097768af
    A0 := ⟨ofNum 0x0ed32696109ae4bd11238add59ee9f39310d1464537372cbbe835e3af5af3cdf,
      ofNum 0x18305b31d4a079ffdf04f9a24ad6c248cfc486fe3b80a8e82290a795fadd7943⟩
    A1 := ⟨ofNum 0x06b573bfda011546ee47690c69126702eec448cacb5368118de07b6ea520b55c,
      ofNum 0x1b3e6c6234d6b97fbe88c8ddf1d572bb6fb624bd66ca271645e3db93b385ef73⟩
    A2 := ⟨ofNum 0x2f41531cc738f671b1250d199a0acfed827818e94c9857a901c7e51cd56a3847,
      ofNum 0x37486dd7b26b5cc753849960c730783b67719b136a37fb2f47d5f897569b6a8c⟩
    T0 := ⟨ofNum 0x15af80ec6c0856ce6bc636a6cd245c78b218da3a35dbd50e925e171d557651fb,
      ofNum 0x10956c3bd8c7822da43c1600e596cbc1e9d65cb3a85391f38c695b0117bab86a⟩
    T1 := ⟨ofNum 0x15af80ec6c0856ce6bc636a6cd245c78b218da3a35dbd50e925e171d557651fb,
      ofNum 0x10956c3bd8c7822da43c1600e596cbc1e9d65cb3a85391f38c695b0117bab86a⟩
    T2 := ⟨ofNum 0x028429c5569e79555392dc0c2d552f0bd1ff1f61c7c452d5fc4ed84b11dbc959,
      ofNum 0x11a6d20bd25468f71981fdc5ca5e12cc822a152082d2be03911ed994fdab79e2⟩
    T3 := ⟨ofNum 0x0ed32696109ae4bd11238add59ee9f39310d1464537372cbbe835e3af5af3cdf,
      ofNum 0x27cfa4ce2b5f860020fb065db5293db7528211fdcdcc5033769c8957052286be⟩
    T4 := ⟨ofNum 0x3d376c76c54e22ba0769804f939db8a17d546c27abdc7fc5e98734f7cdbf3495,
      ofNum 0x10ad8a9f2097350f493d59e5e965ab94892abbfdbaae7b78a58c6b396de24dfb⟩ },
  { S0 := ofNum 0x05f127d3730089efd371d299ba9e84a2d106f865a505b81e4140fc198a593cab
    S1 := ofNum 0x3088aa9317c991469d8e5643e2875956ba4d774138a1d85b06606e4f6b0619c2
    A0 := ⟨ofNum 0x31c1a89a6d5ad617172f87810ee1e3774e416261f31941510474b96bc0540fa8,
      ofNum 0x01e9c7be1567c9f88ae1c4f33802f448baf2f646d06d55bd65b672801ea110f3⟩
    A1 := ⟨ofNum 0x1e83218ea0256675cc1d8219b591ffb5c535214aef13356ff83c0d5e9f1bcff6,
      ofNum 0x0e0c8277088b2f9da09445418e5d0d9c162f9127655e4233141d817bc61ce35b⟩
    A2 := ⟨ofNum 0x086b663bbba96f1b4d69e0e269e8438bb530cd42c4719fcf62d74b9aa32498cb,
      ofNum 0x3f6f50edf76cece2968f247cece4ae6207322b2ae2cbb46530b4841e9f1cde82⟩
    T0 := ⟨ofNum 0x10bf190c779ec2ae1a9b12cab41ada7bc532968e82bc41e46d183d46f2b5911a,
      ofNum 0x2db54fe1cb3734ed27aa10a764388cede889edd76f7e9885db10e538ab42774b⟩
    T1 := ⟨ofNum 0x10bf190c779ec2ae1a9b12cab41ada7bc532968e82bc41e46d183d46f2b5911a,
      ofNum 0x2db54fe1cb3734ed27aa10a764388cede889edd76f7e9885db10e538ab42774b⟩
    T2 := ⟨ofNum 0x312f045c9cc23fefc58e6fb2b721bdc32a38ffa59fa44da5e68a44c8a21d647a,
      ofNum 0x31c88c9503924d1e792a7a14dd89da7e786fbc5aafd70fe5e6b2d3525d7991b6⟩
    T3 := ⟨ofNum 0x31c1a89a6d5ad617172f87810ee1e3774e416261f31941510474b96bc0540fa8,
      ofNum 0x3e163841ea983607751e3b0cc7fd0bb76753a2b538dfa35e3376be6ce15eef0e⟩
    T4 := ⟨ofNum 0x0b7a9339e3ce5d2de0153f729bece5d664cbda4fbc907f73b3113b41acfbf1e7,
      ofNum 0x0250445e2159da34f12dcf8351901b0aea56286530e3cc3a23ebae18856f1b7d⟩ },
  { S0 := ofNum 0x31ba31db66119296ee7fa65d341bf4a7e5e7ed413ee6d0113f24668094a1af4c
    S1 := ofNum 0x01507b5c562433e8743ca43b81d6d9481c4291947782d8c02cec4e709e412fd9
    A0 := ⟨ofNum 0x362861b78e0d55cd51bdd44d3683062c51b77e7f39ae6eba06e38988188a1ff8,
      ofNum 0x3e222d41fd9461f808b1c0d8f51192b45cfa3a16aec3c36199fc896a0508a920⟩
    A1 := ⟨ofNum 0x3087dc7b54b07757e0efba27a559f2ca4a9703f860f33cd6233970921ddf6309,
      ofNum 0x21fb1b09c03204f086d7211c0654a26529a073e60cbabe0f7e331513991f082f⟩
    A2 := ⟨ofNum 0x2704a85a8db5411e84bac09b85e13b10fc5f782052dfa724ae1107d6e1aeca4f,
      ofNum 0x385006d993836b36530a5c1f60983f1a25dd92a77238710e0af02ba9fba9bc25⟩
    T0 := ⟨ofNum 0x2b30ccbc994baaa6332735f2ca437904e246cae3ad5f7a7fcdd8717ddac16067,
      ofNum 0x3d59b188ada476d5c12a3fc13467280db9a3bf56a00f4ce378a360b4f259e507⟩
    T1 := ⟨ofNum 0x2b30ccbc994baaa6332735f2ca437904e246cae3ad5f7a7fcdd8717ddac16067,
      ofNum 0x3d59b188ada476d5c12a3fc13467280db9a3bf56a00f4ce378a360b4f259e507⟩
    T2 := ⟨ofNum 0x07b32ce51072da9ce78fcbfff9ce0d5f6e6f680189d22f241342e724fc3fcce9,
      ofNum 0x3bf54880bdad9bd28e9571961a8559a962208f1851a8662d49c41e42902a3d35⟩
    T3 := ⟨ofNum 0x362861b78e0d55cd51bdd44d3683062c51b77e7f39ae6eba06e38988188a1ff8,
      ofNum 0x01ddd2be026b9e07f74e3f270aee6d4bc54c5ee55a8935b9ff30a782faf756e1⟩
    T4 := ⟨ofNum 0x0950291d635addb25c91c5480fe0162a808a2f9865ea85be0d97755762f4041c,
      ofNum 0x2a227fc2527cdb93dd28787397fdd36fa15268ab1f228be6f84a9e3e39f9a7ad⟩ }]

/-- The double-and-add of `group_scalar_mul` on field elements. -/
def multiple (p : Jac Fp) (k : Scalar) : Jac Fp :=
  ladder Jac.dbl (·.add p) Jac.zero (bits 255 (num k))

/-- The triple of an affine point. -/
def affineJac (a : Affine) : Jac Fp :=
  if a = AFFINE_ZERO then Jac.zero else ⟨decode fieldModulus a.x, decode fieldModulus a.y, 1⟩

/-- The affine form is `a`, without the division. -/
def hasForm (r : Jac Fp) (a : Affine) : Bool :=
  if r.Z = 0 then a = AFFINE_ZERO
  else num a.x < fieldModulus ∧ num a.y < fieldModulus ∧
    r.X = decode fieldModulus a.x * r.Z ^ 2 ∧ r.Y = decode fieldModulus a.y * r.Z ^ 3

/-- `Epoch.Consistent` as a computation. -/
def Epoch.test (e : Epoch) : Bool :=
  hasForm (multiple generatorJac e.S0) e.A0 && hasForm (multiple generatorJac e.S1) e.A1 &&
    decide (decode fieldModulus e.A2.y ^ 2 = decode fieldModulus e.A2.x ^ 3 + 5) &&
    hasForm ((affineJac e.A0).add (affineJac e.A1)) e.T0 && e.T1 == e.T0 &&
    hasForm (multiple (affineJac e.A1) e.S0) e.T2 && hasForm (affineJac e.A0).neg e.T3 &&
    hasForm ((affineJac e.T0).add (affineJac e.A2)) e.T4

section Computed

variable {p r : Jac Fp} {P Q : Point} {a : Affine}

theorem denotes_multiple (hp : Denotes p P) (hord : groupOrder • P = 0) {k : Scalar}
    (hk : num k < groupOrder) : Denotes (multiple p k) (num k • P) := by
  have hk255 : num k < 2 ^ 255 := hk.trans groupOrder_lt
  have hval : valFrom 0 (bits 255 (num k)) < groupOrder := by rwa [valFrom_bits hk255]
  have hladder := denotes_ladder two_ne_zero groupOrder_prime hp hord hval
  rwa [valFrom_bits hk255] at hladder

theorem denotes_affineJac (ha : a = affineOf P) : Denotes (affineJac a) P := by
  have hjac : affineJac a = jacOf P := by
    subst ha
    cases P with
    | zero => rfl
    | some x y hxy =>
      have hne : affineOf (.some x y hxy) ≠ AFFINE_ZERO := by
        intro h0
        have hzero := affineOf_injective (h0.trans AFFINE_ZERO_eq)
        cases hzero
      rw [affineJac, if_neg hne]
      simp [affineOf, jacOf, decode_encode num_FIELD_MODULUS]
  rw [hjac]
  exact denotes_jacOf P

theorem denotes_sum (hp : Denotes p P) {q : Jac Fp} (hq : Denotes q Q) (hne : P = Q → p = q) :
    Denotes (p.add q) (P + Q) :=
  denotes_add two_ne_zero hp hq fun hPQ => .inr (hne hPQ)

theorem eq_affineOf_of_hasForm (hr : Denotes r P) (h : hasForm r a = true) : a = affineOf P := by
  unfold hasForm at h
  cases P with
  | zero =>
    have hz : r.Z = 0 := hr
    rw [if_pos hz, decide_eq_true_eq] at h
    rw [h, AFFINE_ZERO_eq]
    rfl
  | some x y hxy =>
    obtain ⟨hz, hX, hY⟩ := hr
    rw [if_neg hz, decide_eq_true_eq] at h
    obtain ⟨hx, hy, hX', hY'⟩ := h
    have hxx : decode fieldModulus a.x = x := mul_right_cancel₀ (pow_ne_zero 2 hz) (hX'.symm.trans hX)
    have hyy : decode fieldModulus a.y = y := mul_right_cancel₀ (pow_ne_zero 3 hz) (hY'.symm.trans hY)
    cases a
    simp only [affineOf, ← hxx, ← hyy, encode_decode hx, encode_decode hy]

end Computed

/-- What the computation says is so. -/
theorem Epoch.Reduced.consistent {e : Epoch} (he : e.Reduced) (h : e.test = true) : e.Consistent := by
  simp only [Epoch.test, Bool.and_eq_true, decide_eq_true_eq, beq_iff_eq] at h
  obtain ⟨⟨⟨⟨⟨⟨⟨h0, h1⟩, h2⟩, hT0⟩, hT1⟩, hT2⟩, hT3⟩, hT4⟩ := h
  have hord := groupOrder_smul_generator
  have hA0 := eq_affineOf_of_hasForm (denotes_multiple denotes_generator hord he.S0) h0
  have hA1 := eq_affineOf_of_hasForm (denotes_multiple denotes_generator hord he.S1) h1
  have hA2 : e.A2.Valid := ⟨he.A2.x_lt, he.A2.y_lt, .inr h2⟩
  have hsum := denotes_sum (denotes_affineJac hA0) (denotes_affineJac hA1) fun heq => by
    rw [hA0, hA1, heq]
  have hT0 := eq_affineOf_of_hasForm hsum hT0
  have hall := denotes_sum (denotes_affineJac hT0)
    (denotes_affineJac hA2.affineOf_toPoint.symm) fun heq => by
      rw [hT0, heq, hA2.affineOf_toPoint]
  exact {
    A0 := hA0
    A1 := hA1
    A2 := hA2
    T0 := hT0
    T1 := hT1.trans hT0
    T2 := eq_affineOf_of_hasForm
      (denotes_multiple (denotes_affineJac hA1) (smul_order hord _) he.S0) hT2
    T3 := eq_affineOf_of_hasForm (denotes_neg (denotes_affineJac hA0)) hT3
    T4 := eq_affineOf_of_hasForm hall hT4 }

instance (p : Affine) : Decidable p.Reduced :=
  decidable_of_iff (num p.x < fieldModulus ∧ num p.y < fieldModulus)
    ⟨fun h => ⟨h.1, h.2⟩, fun h => ⟨h.x_lt, h.y_lt⟩⟩

instance (e : Epoch) : Decidable e.Reduced :=
  decidable_of_iff (num e.S0 < groupOrder ∧ num e.S1 < groupOrder ∧ e.A0.Reduced ∧ e.A1.Reduced ∧
    e.A2.Reduced) ⟨fun h => ⟨h.1, h.2.1, h.2.2.1, h.2.2.2.1, h.2.2.2.2⟩,
      fun h => ⟨h.S0, h.S1, h.A0, h.A1, h.A2⟩⟩

theorem tables_reduced : ∀ e ∈ curve_check_tables, e.Reduced := by
  decide +kernel

set_option maxRecDepth 4000 in
theorem tables_tested : curve_check_tables.all Epoch.test = true := by
  decide +kernel

/-- The tables of the device pass. -/
theorem curve_checks_passes : curve_checks Cx.reference curve_check_tables = .ok true := by
  obtain ⟨b, hb, hiff⟩ := curve_checks_iff Cx.reference_exact tables_reduced
  have hpass : b = true := hiff.mpr fun e he =>
    (tables_reduced e he).consistent (List.all_eq_true.mp tables_tested e he)
  rw [hb, hpass]

end MinaLedger
