import MinaLedger.L2Crypto.Keypair

/-!
# What a compressed key determines

Addresses and signatures carry an x-coordinate and at most the parity of y. The point
at infinity is (0, 0) there, which collides with no point: 5 is not a square.

Results:
* `affineOf_compressed_inj`: the x-coordinate and the parity of y determine the point.
* `keypair_of_generate`: what `generate_keypair` returns is a private key and its multiple
  of the generator.
* `address_identifies_key`: two accounts, of one device or of two, have one address
  exactly when they have one private key.
-/
namespace MinaLedger
open Pasta Lib.Residue

/-- The parity of y separates the two points of an x-coordinate. -/
theorem val_neg_parity {y : Fp} (hy : y ≠ 0) : (-y).val % 2 ≠ y.val % 2 := by
  have hlt := ZMod.val_lt y
  have hodd := fieldModulus_odd
  rw [ZMod.neg_val, if_neg hy]
  omega

theorem affineOf_compressed_inj {P Q : Point} (hx : (affineOf P).x = (affineOf Q).x)
    (hodd : num (affineOf P).y % 2 = num (affineOf Q).y % 2) : P = Q := by
  cases P with
  | zero =>
    cases Q with
    | zero => rfl
    | some x y hxy =>
      simp only [affineOf, encode_inj_iff] at hx
      subst hx
      have hcurve := (nonsingular_iff 0 y).mp hxy
      exact absurd (by linear_combination hcurve) (square_ne y)
  | some x y hxy =>
    cases Q with
    | zero =>
      simp only [affineOf, encode_inj_iff] at hx
      subst hx
      have hcurve := (nonsingular_iff 0 y).mp hxy
      exact absurd (by linear_combination hcurve) (square_ne y)
    | some x' y' hxy' =>
      simp only [affineOf, encode_inj_iff, num_encode num_FIELD_MODULUS] at hx hodd
      subst hx
      have hsq : y ^ 2 = y' ^ 2 :=
        ((nonsingular_iff x y).mp hxy).trans ((nonsingular_iff x y').mp hxy').symm
      rcases sq_eq_sq_iff_eq_or_eq_neg.mp hsq with rfl | rfl
      · rfl
      · by_cases hy : y' = 0
        · subst hy
          simp
        · exact absurd hodd (val_neg_parity hy)

/-- A derived key is a private key and its public key. -/
theorem keypair_of_generate {cx : Cx} (h : cx.Exact) {derive : Derive} {account : UInt32}
    {kp : Keypair} (hkp : generate_keypair cx derive account = .ok kp) :
    num kp.priv < groupOrder ∧ kp.pub = affineOf (num kp.priv • generator) := by
  obtain ⟨bytes, hbytes, -⟩ := bind_ok hkp
  obtain rfl := Except.ok.inj ((generate_keypair_eq h hbytes).symm.trans hkp)
  exact ⟨scalar_from_bytes_lt bytes, rfl⟩

/-- Private keys are equal if their multiples of the generator are. -/
theorem priv_inj {a b : Scalar} (ha : num a < groupOrder) (hb : num b < groupOrder)
    (h : num a • generator = num b • generator) : a = b := by
  have hval {s : Scalar} (hs : num s < groupOrder) : (decode groupOrder s).val = num s :=
    ZMod.val_cast_of_lt hs
  have hdec : decode groupOrder a = decode groupOrder b := by
    apply smul_val_inj groupOrder_smul_generator generator_ne_zero
    rwa [hval ha, hval hb]
  apply num_inj
  rw [← hval ha, ← hval hb, hdec]

/-- Two accounts, of one device or of two, have one address exactly when they have one
private key. -/
theorem address_identifies_key {cx : Cx} (h : cx.Exact) (sha256 : List UInt8 → Vector UInt8 32)
    {derive derive' : Derive} {account account' : UInt32} {kp kp' : Keypair}
    (hkp : generate_keypair cx derive account = .ok kp)
    (hkp' : generate_keypair cx derive' account' = .ok kp') {st st' : Stale}
    {buf buf' address address' : Vector UInt8 MINA_ADDRESS_LEN}
    (haddr : generate_address sha256 st buf MINA_ADDRESS_LEN kp.pub = .ok (true, address))
    (haddr' : generate_address sha256 st' buf' MINA_ADDRESS_LEN kp'.pub = .ok (true, address')) :
    address = address' ↔ kp.priv = kp'.priv := by
  obtain ⟨hpriv, hpub⟩ := keypair_of_generate h hkp
  obtain ⟨hpriv', hpub'⟩ := keypair_of_generate h hkp'
  obtain ⟨_, hgen, hlist⟩ := generate_address_eq sha256 st buf kp.pub
  obtain ⟨_, hgen', hlist'⟩ := generate_address_eq sha256 st' buf' kp'.pub
  obtain ⟨-, rfl⟩ := Prod.mk.inj (Except.ok.inj (hgen.symm.trans haddr))
  obtain ⟨-, rfl⟩ := Prod.mk.inj (Except.ok.inj (hgen'.symm.trans haddr'))
  constructor
  · rintro rfl
    -- one text is read as one compressed key
    have hread := (read_addressText sha256 _ _ hlist st ⟨FIELD_ZERO, false⟩).2
    rw [(read_addressText sha256 _ _ hlist' st ⟨FIELD_ZERO, false⟩).2, oddByte_ne_zero,
      oddByte_ne_zero, field_is_odd_eq, field_is_odd_eq] at hread
    obtain ⟨hx, hodd⟩ := Compressed.mk.inj (Except.ok.inj hread)
    rw [decide_eq_decide, hpub, hpub'] at hodd
    rw [hpub, hpub'] at hx
    -- so it is one point
    have hpoint : num kp.priv • generator = num kp'.priv • generator :=
      affineOf_compressed_inj hx.symm (by omega)
    exact priv_inj hpriv hpriv' hpoint
  · intro heq
    have hpubs : kp.pub = kp'.pub := by rw [hpub, hpub', heq]
    apply Vector.toList_inj.mp
    rw [hlist, hlist', hpubs]

/-- A derivation that gives every account the private key `n`. -/
def constDerive (n : Nat) : Derive := fun _ => .ok (ofNum n)

/-- Devices with the private keys 1 and 2 have different addresses. -/
theorem address_identifies_key_two :
    ∃ kp kp' address address',
      generate_keypair Cx.reference (constDerive 1) 0 = .ok kp ∧
      generate_keypair Cx.reference (constDerive 2) 0 = .ok kp' ∧
      generate_address zeroHash (cleanStack 0) (Vector.replicate 56 0) MINA_ADDRESS_LEN kp.pub =
        .ok (true, address) ∧
      generate_address zeroHash (cleanStack 0) (Vector.replicate 56 0) MINA_ADDRESS_LEN kp'.pub =
        .ok (true, address') ∧ address ≠ address' := by
  have hone : generate_keypair Cx.reference (constDerive 1) 0 = .ok (keypairOf (ofNum 1)) :=
    generate_keypair_eq Cx.reference_exact rfl
  have htwo : generate_keypair Cx.reference (constDerive 2) 0 = .ok (keypairOf (ofNum 2)) :=
    generate_keypair_eq Cx.reference_exact rfl
  obtain ⟨address, haddr, -⟩ := generate_address_eq zeroHash (cleanStack 0) (Vector.replicate 56 0)
    (keypairOf (ofNum 1)).pub
  obtain ⟨address', haddr', -⟩ := generate_address_eq zeroHash (cleanStack 0)
    (Vector.replicate 56 0) (keypairOf (ofNum 2)).pub
  refine ⟨_, _, address, address', hone, htwo, haddr, haddr', fun heq => ?_⟩
  have hpriv := (address_identifies_key Cx.reference_exact zeroHash hone htwo haddr haddr').mp heq
  have hnum := congrArg num hpriv
  rw [keypairOf, keypairOf, num_scalar_from_bytes, num_scalar_from_bytes, num_ofNum (by norm_num),
    num_ofNum (by norm_num)] at hnum
  norm_num at hnum

end MinaLedger
