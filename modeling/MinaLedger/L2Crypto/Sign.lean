import MinaLedger.L1Encoding.ROInputMessage
import MinaLedger.L2Crypto.ScalarMul

/-!
# Signing

`message_derive`, `message_hash` and `sign` of src/src/crypto.c. BLAKE2b is not
part of the repository and the Poseidon digest (`poseidon_hash`) is taken as a
parameter here: both are arbitrary functions, the second to field elements.

Results:
* `sign_verifies`: every signature satisfies the verification equation with
  the challenge `sign` computed; the x-coordinate is rx and y is even.
* `sign_parts`: what a call that signed did, from the nonce to the response.
* `sign_of_digest`: for every message that fits the local arrays and has a digest there
  is a signature.
* `sign_congr`: it depends on the content of the message alone, not on the stack.
-/
namespace MinaLedger
open Pasta Lib.Curve Lib.Residue Lib.BitString

variable {fc bc : Nat}

/-- `BEGIN_TRY TRY x CATCH_OTHER(e) h`. -/
def catchOther {α : Type} (x h : Exec α) : Exec α :=
  match x with
  | .error (.thrown _) => h
  | r => r

section Functions

variable (cx : Cx) (blake2b : List UInt8 → Vector UInt8 32) (poseidon : UInt8 → List Field → Exec Field)

/-- mirrors src/src/crypto.c:499-502 -/
def generate_pubkey (priv_key : Scalar) : Exec Affine := affine_scalar_mul cx priv_key AFFINE_ONE

/-- `out`; `none` is the result false, with `out` not written. mirrors src/src/crypto.c:594-620 -/
def message_derive (st : Stale) (kp : Keypair) (input : ROInput fc bc) (network_id : UInt8) :
    Exec (Option Scalar) := do
  let derive_msg : Vector UInt8 268 := Vector.replicate 268 0
  let (derive_len, derive_msg) ← roinput_derive_message st derive_msg 268 kp input network_id
  if derive_len < 0 then
    return none
  -- blake2b hash
  let out := blake2b (← readBytes derive_msg.toList 0 derive_len.toNat)
  -- swap from little-endian to big-endian, then convert to scalar
  return some (scalar_from_bytes out.reverse)

/-- The same for the challenge; `sizeof(hash_msg)` counts bytes, not elements.
mirrors src/src/crypto.c:622-637 -/
def message_hash (st : Stale) (pub : Affine) (rx : Field) (input : ROInput fc bc)
    (network_id : UInt8) : Exec (Option Scalar) := do
  let hash_msg : Vector Field 9 := Stale.fieldArray ⟨fun i => st.bytes (2 ^ 24 + i)⟩ 9
  let (hash_msg_len, hash_msg) ← roinput_hash_message st hash_msg (9 * FIELD_BYTES) pub rx input
  if hash_msg_len < 0 then
    return none
  let out ← poseidon network_id (← readBytes hash_msg.toList 0 hash_msg_len.toNat)
  return some out

/-- The signature; `none` is the result false. The `i`-th call finds `st i` in its
arrays. mirrors src/src/crypto.c:639-684 -/
def sign (st : Nat → Stale) (kp : Keypair) (input : ROInput fc bc) (network_id : UInt8) :
    Exec (Option Signature) :=
  catchOther (do
    -- k = message_derive(input.fields + kp.pub + input.bits + kp.priv)
    let some k ← message_derive blake2b (st 0) kp input network_id
      | throwSdk INVALID_PARAMETER
    -- r = k*g
    let r ← affine_scalar_mul cx k AFFINE_ONE
    let k ← (if field_is_odd r.y then scalar_negate cx k else pure k : Exec Scalar)
    -- e = message_hash(input + kp.pub + r.x)
    let some e ← message_hash poseidon (st 1) kp.pub r.x input network_id
      | throwSdk INVALID_PARAMETER
    -- s = k + e*sk
    let tmp ← scalar_mul cx e kp.priv
    let s ← scalar_add cx k tmp
    return some ⟨r.x, s⟩) (return none)

end Functions

/-! ## The parts -/

theorem catchOther_ok {α : Type} {x : Exec (Option α)} {v : α}
    (h : catchOther x (return none) = .ok (some v)) : x = .ok (some v) := by
  unfold catchOther at h
  split at h
  · simp at h
  · exact h

section Nonce

variable {blake2b : List UInt8 → Vector UInt8 32} {st : Stale} {kp : Keypair}
  {input : ROInput fc bc} {network_id : UInt8} {k : Scalar}
  (h : message_derive blake2b st kp input network_id = .ok (some k))

include h

/-- A derived nonce is the hash of some bytes. -/
theorem message_derive_cases : ∃ l, k = scalar_from_bytes (blake2b l).reverse := by
  obtain ⟨⟨len, msg⟩, -, h⟩ := bind_ok h
  simp only at h
  split at h
  · simp at h
  · obtain ⟨bytes, -, h⟩ := bind_ok h
    exact ⟨bytes, (Option.some.inj (Except.ok.inj h)).symm⟩

/-- So it has 254 bits. -/
theorem message_derive_lt : num k < groupOrder := by
  obtain ⟨l, rfl⟩ := message_derive_cases h
  exact scalar_from_bytes_lt _

end Nonce

/-- A digest is below the field modulus, so it is a canonical scalar too. -/
theorem message_hash_lt {poseidon : UInt8 → List Field → Exec Field}
    (hpos : ∀ id l, ∃ d, poseidon id l = .ok d ∧ num d < fieldModulus) {st : Stale} {pub : Affine}
    {rx : Field} {input : ROInput fc bc} {network_id : UInt8} {e : Scalar}
    (h : message_hash poseidon st pub rx input network_id = .ok (some e)) : num e < groupOrder := by
  obtain ⟨⟨len, msg⟩, -, h⟩ := bind_ok h
  simp only at h
  split at h
  · simp at h
  · obtain ⟨l, -, h⟩ := bind_ok h
    obtain ⟨d, hd, h⟩ := bind_ok h
    obtain rfl := Option.some.inj (Except.ok.inj h)
    obtain ⟨d', hd', hlt⟩ := hpos network_id l
    obtain rfl : d = d' := Except.ok.inj (hd.symm.trans hd')
    exact hlt.trans fieldModulus_lt_groupOrder

/-! ## Parity -/

/-- The negation has the same x and, when y is odd, an even y. -/
theorem affineOf_neg {P : Point} (hodd : num (affineOf P).y % 2 = 1) :
    (affineOf (-P)).x = (affineOf P).x ∧ num (affineOf (-P)).y % 2 = 0 := by
  cases P with
  | zero =>
    exact ⟨rfl, by rw [affineOf, num_encode num_FIELD_MODULUS, ZMod.val_zero] at hodd; omega⟩
  | some x y hxy =>
    refine ⟨rfl, ?_⟩
    rw [affineOf, num_encode num_FIELD_MODULUS] at hodd
    rw [WeierstrassCurve.Affine.Point.neg_some, affineOf, negY_eq, num_encode num_FIELD_MODULUS,
      ZMod.neg_val]
    have hy : y ≠ 0 := by rintro rfl; rw [ZMod.val_zero] at hodd; omega
    have hlt := ZMod.val_lt y
    have hp := fieldModulus_odd
    rw [if_neg hy]
    omega

/-- The nonce, negated when its point has an odd y. -/
theorem even_nonce {cx : Cx} (h : cx.Exact) {k : Scalar} (hk : num k < groupOrder) :
    ∃ x : Fq, (if num (affineOf (num k • generator)).y % 2 = 1 then scalar_negate cx k
        else pure k) = .ok (encode x) ∧
      (affineOf (x.val • generator)).x = (affineOf (num k • generator)).x ∧
      num (affineOf (x.val • generator)).y % 2 = 0 := by
  have hval : (decode groupOrder k).val = num k := ZMod.val_cast_of_lt hk
  by_cases hodd : num (affineOf (num k • generator)).y % 2 = 1
  · refine ⟨-decode groupOrder k, ?_, ?_⟩
    · rw [if_pos hodd, ← encode_decode hk, scalar_negate_encode h, encode_decode hk]
    · rw [val_neg_smul groupOrder_smul_generator, hval]
      exact affineOf_neg hodd
  · refine ⟨decode groupOrder k, ?_, ?_, ?_⟩
    · rw [if_neg hodd, encode_decode hk]; rfl
    · rw [hval]
    · rw [hval]; omega

/-- The product with canonical operands. -/
theorem scalar_mul_decode {cx : Cx} (h : cx.Exact) {a b : Scalar} (ha : num a < groupOrder)
    (hb : num b < groupOrder) :
    scalar_mul cx a b = .ok (encode (decode groupOrder a * decode groupOrder b)) := by
  conv_lhs => rw [← encode_decode ha, ← encode_decode hb]
  exact scalar_mul_encode h _ _

/-- A digest below the modulus gets a response. -/
theorem scalar_response {cx : Cx} (h : cx.Exact) (k : Fq) {e priv : Scalar}
    (he : num e < groupOrder) (hpriv : num priv < groupOrder) :
    ∃ s, (scalar_mul cx e priv >>= fun tmp => scalar_add cx (encode k) tmp) = .ok s :=
  ⟨_, by rw [scalar_mul_decode h he hpriv, ok_bind, scalar_add_encode h]⟩

/-- Of what is hashed only the fields of the message can be out of range. -/
theorem hashFields_lt_iff {msg : ROInput fc bc} {pub : Affine} (hpub : pub.Valid)
    {rx : Field} (hrx : num rx < fieldModulus) :
    (∀ a ∈ hashFields msg pub rx, num a < fieldModulus) ↔
      ∀ a ∈ msg.fieldList, num a < fieldModulus := by
  constructor
  · exact fun h a ha => h a (by simp [hashFields, ha])
  · intro h a ha
    rw [hashFields, List.mem_append, List.mem_append] at ha
    rcases ha with (ha | ha) | ha
    · exact h a ha
    · simp only [List.mem_cons, List.not_mem_nil, or_false] at ha
      rcases ha with rfl | rfl | rfl
      · exact hpub.x_lt
      · exact hpub.y_lt
      · exact hrx
    · obtain ⟨ds, hds, rfl⟩ := List.mem_map.mp ha
      exact (chunkField_lt (length_of_mem_chunks hds)).trans two_pow_254_lt

/-! ## The equation -/

section Verifies

variable {cx : Cx} (h : cx.Exact) {blake2b : List UInt8 → Vector UInt8 32}
  {poseidon : UInt8 → List Field → Exec Field} {st : Nat → Stale} {kp : Keypair}
  {input : ROInput fc bc} {network_id : UInt8}

include h

theorem generate_pubkey_eq {priv : Scalar} (hpriv : num priv < groupOrder) :
    generate_pubkey cx priv = .ok (affineOf (num priv • generator)) := by
  rw [generate_pubkey, AFFINE_ONE_eq, affine_scalar_mul_affineOf h groupOrder_smul_generator hpriv]

/-- The steps of a call that signed: the nonce, its negation if needed, the challenge and the
response. -/
theorem sign_parts {sig : Signature}
    (hsign : sign cx blake2b poseidon st kp input network_id = .ok (some sig)) :
    ∃ k k' e, message_derive blake2b (st 0) kp input network_id = .ok (some k) ∧
      (if num (affineOf (num k • generator)).y % 2 = 1 then scalar_negate cx k
        else pure k) = .ok k' ∧
      sig.rx = (affineOf (num k • generator)).x ∧
      message_hash poseidon (st 1) kp.pub sig.rx input network_id = .ok (some e) ∧
      (scalar_mul cx e kp.priv >>= fun tmp => scalar_add cx k' tmp) = .ok sig.s := by
  obtain ⟨ok, hk, hrest⟩ := bind_ok (catchOther_ok hsign)
  cases ok with
  | none => simp [throwSdk] at hrest
  | some k =>
    have hklt := message_derive_lt hk
    rw [AFFINE_ONE_eq] at hrest
    simp only [affine_scalar_mul_affineOf h groupOrder_smul_generator hklt, ok_bind,
      field_is_odd_eq, decide_eq_true_eq] at hrest
    obtain ⟨k', hk', hrest⟩ := bind_ok hrest
    obtain ⟨oe, he, hrest⟩ := bind_ok hrest
    cases oe with
    | none => simp [throwSdk] at hrest
    | some e =>
      obtain ⟨tmp, htmp, hrest⟩ := bind_ok hrest
      obtain ⟨s, hs, hrest⟩ := bind_ok hrest
      obtain rfl := Option.some.inj (Except.ok.inj hrest)
      exact ⟨k, k', e, hk, hk', rfl, he, by rw [htmp, ok_bind, hs]⟩

/-- `rx` is the x-coordinate of the point of the derived nonce. -/
theorem sign_rx {sig : Signature}
    (hsign : sign cx blake2b poseidon st kp input network_id = .ok (some sig)) :
    ∃ k, message_derive blake2b (st 0) kp input network_id = .ok (some k) ∧
      sig.rx = (affineOf (num k • generator)).x := by
  obtain ⟨k, -, -, hk, -, hrx, -⟩ := sign_parts h hsign
  exact ⟨k, hk, hrx⟩

/-- What `sign` computes, in the scalar field. -/
theorem sign_cases (hpos : ∀ id l, ∃ d, poseidon id l = .ok d ∧ num d < fieldModulus)
    (hpriv : num kp.priv < groupOrder) {sig : Signature}
    (hsign : sign cx blake2b poseidon st kp input network_id = .ok (some sig)) :
    ∃ k : Fq, ∃ e, message_hash poseidon (st 1) kp.pub sig.rx input network_id = .ok (some e) ∧
      num e < groupOrder ∧ sig.s = encode (k + decode groupOrder e * decode groupOrder kp.priv) ∧
      (affineOf (k.val • generator)).x = sig.rx ∧ num (affineOf (k.val • generator)).y % 2 = 0 := by
  obtain ⟨k, k', e, hk, hk', hrx, he, hs⟩ := sign_parts h hsign
  have helt := message_hash_lt hpos he
  obtain ⟨x, hx, hxrx, heven⟩ := even_nonce h (message_derive_lt hk)
  obtain rfl : k' = encode x := Except.ok.inj (hk'.symm.trans hx)
  rw [scalar_mul_decode h helt hpriv, ok_bind, scalar_add_encode h] at hs
  exact ⟨x, e, he, helt, (Except.ok.inj hs).symm, hxrx.trans hrx.symm, heven⟩

end Verifies

/-- Every signature verifies: with the challenge `e` of this call, the point
s*G - e*pub has x-coordinate rx and an even y, the identity being (0, 0). -/
theorem sign_verifies {cx : Cx} (h : cx.Exact) (blake2b : List UInt8 → Vector UInt8 32)
    {poseidon : UInt8 → List Field → Exec Field}
    (hpos : ∀ id l, ∃ d, poseidon id l = .ok d ∧ num d < fieldModulus) {st : Nat → Stale}
    {kp : Keypair} (hpriv : num kp.priv < 2 ^ 254)
    (hpub : generate_pubkey cx kp.priv = .ok kp.pub) {input : ROInput fc bc} {network_id : UInt8}
    {sig : Signature} (hsign : sign cx blake2b poseidon st kp input network_id = .ok (some sig)) :
    num sig.s < groupOrder ∧
    ∃ e, message_hash poseidon (st 1) kp.pub sig.rx input network_id = .ok (some e) ∧
      (affineOf (num sig.s • generator - num e • kp.pub.toPoint)).x = sig.rx ∧
      num (affineOf (num sig.s • generator - num e • kp.pub.toPoint)).y % 2 = 0 := by
  have hlt : num kp.priv < groupOrder := by
    have := two_pow_254_lt
    have := fieldModulus_lt_groupOrder
    omega
  obtain ⟨k, e, he, helt, hs, hrx, heven⟩ := sign_cases h hpos hlt hsign
  rw [generate_pubkey_eq h hlt] at hpub
  have hpoint : kp.pub.toPoint = (decode groupOrder kp.priv).val • generator := by
    rw [← Except.ok.inj hpub, toPoint_affineOf, decode, ZMod.val_cast_of_lt hlt]
  have heval : num e = (decode groupOrder e).val := (ZMod.val_cast_of_lt helt).symm
  have hsval : num sig.s = (k + decode groupOrder e * decode groupOrder kp.priv).val := by
    rw [hs, num_encode num_GROUP_ORDER]
  have hR : num sig.s • generator - num e • kp.pub.toPoint = k.val • generator := by
    rw [hpoint, heval, hsval]
    exact response_verifies groupOrder_smul_generator k _ _
  exact ⟨by rw [hsval]; exact ZMod.val_lt _, e, he, by rw [hR]; exact hrx, by rw [hR]; exact heven⟩

/-! ## Messages that fit -/

/-- The message fits `derive_msg[268]` and `hash_msg[9]`. -/
structure ROInput.Fits (input : ROInput fc bc) : Prop where
  wf : input.WF
  fc_lt : fc + 3 < 2 ^ 22
  bc_lt : bc + 33 < 2 ^ 28
  derive : deriveLen input ≤ 268
  hash : input.fields_len + 3 + chunkCount input.bits_len ≤ 9

section Fits

variable {input : ROInput fc bc} (hfit : input.Fits)

include hfit

theorem message_derive_of_fits (blake2b : List UInt8 → Vector UInt8 32) (st : Stale) (kp : Keypair)
    (network_id : UInt8) : ∃ k, message_derive blake2b st kp input network_id = .ok (some k) := by
  have hfc := hfit.fc_lt
  have hlen := hfit.derive
  obtain ⟨r, hr, -⟩ := roinput_derive_message_spec st hfit.wf (by omega) hfit.bc_lt
    (Vector.replicate 268 0) hlen hlen kp network_id
  have hint : cint (deriveLen input) = deriveLen input := cint_eq _ (by omega) (by omega)
  rw [hint] at hr
  refine ⟨scalar_from_bytes (blake2b (r.toList.take (deriveLen input))).reverse, ?_⟩
  simp only [message_derive, hr, ok_bind, if_neg (show ¬(deriveLen input : Int) < 0 by omega),
    Int.toNat_natCast, readBytes_eq r.toList 0 (deriveLen input) (by simpa using hlen), pure_eq_ok]
  rfl

theorem roinput_hash_message_of_fits (st : Stale) (out : Vector Field 9) (pub : Affine)
    (rx : Field) :
    ∃ r, roinput_hash_message st out (9 * FIELD_BYTES) pub rx input =
        .ok ((input.fields_len + 3 + chunkCount input.bits_len : Nat), r) ∧
      r.toList.take (input.fields_len + 3 + chunkCount input.bits_len) = hashFields input pub rx := by
  have hfc := hfit.fc_lt
  have hlen := hfit.hash
  have hint : cint ((input.fields_len + 3 + chunkCount input.bits_len : Nat) : Int) =
      (input.fields_len + 3 + chunkCount input.bits_len : Nat) := cint_eq _ (by omega) (by omega)
  have hspec := roinput_hash_message_spec st hfit.wf (by omega) out
    (show input.fields_len + 3 ≤ 9 * FIELD_BYTES by unfold FIELD_BYTES; omega) hlen pub rx
  rwa [hint] at hspec

theorem message_hash_of_fits (poseidon : UInt8 → List Field → Exec Field) (st : Stale)
    (pub : Affine) (rx : Field) (network_id : UInt8) :
    message_hash poseidon st pub rx input network_id =
      (poseidon network_id (hashFields input pub rx) >>= fun e => return some e) := by
  have hlen := hfit.hash
  obtain ⟨r, hr, htake⟩ := roinput_hash_message_of_fits hfit st
    (Stale.fieldArray ⟨fun i => st.bytes (2 ^ 24 + i)⟩ 9) pub rx
  simp only [message_hash, hr, ok_bind, Int.toNat_natCast,
    if_neg (show ¬((input.fields_len + 3 + chunkCount input.bits_len : Nat) : Int) < 0 by omega),
    readBytes_eq r.toList 0 _ (show 0 + (input.fields_len + 3 + chunkCount input.bits_len) ≤
      r.toList.length by simpa using hlen), List.drop_zero, htake]

/-- Nothing fails up to the challenge, and what is left is the response. -/
theorem sign_run {cx : Cx} (h : cx.Exact) (blake2b : List UInt8 → Vector UInt8 32)
    (poseidon : UInt8 → List Field → Exec Field) (st : Nat → Stale) (kp : Keypair)
    (network_id : UInt8) :
    ∃ rx, num rx < fieldModulus ∧ ∃ k : Fq,
      sign cx blake2b poseidon st kp input network_id = catchOther (do
        let e ← poseidon network_id (hashFields input kp.pub rx)
        let tmp ← scalar_mul cx e kp.priv
        let s ← scalar_add cx (encode k) tmp
        return some ⟨rx, s⟩) (return none) := by
  obtain ⟨k, hk⟩ := message_derive_of_fits hfit blake2b (st 0) kp network_id
  have hklt := message_derive_lt hk
  obtain ⟨x, hx, -, -⟩ := even_nonce h hklt
  have hhash := message_hash_of_fits hfit poseidon (st 1) kp.pub
    (affineOf (num k • generator)).x network_id
  rw [pure_eq_ok] at hx
  refine ⟨(affineOf (num k • generator)).x, (affineOf_valid _).x_lt, x, ?_⟩
  unfold sign
  simp only [hk, ok_bind, AFFINE_ONE_eq, affine_scalar_mul_affineOf h groupOrder_smul_generator hklt,
    field_is_odd_eq, decide_eq_true_eq, hx, hhash, pure_eq_ok, bind_assoc]

/-- Of the digest only its values on the messages that are hashed matter. -/
theorem sign_digest_congr {cx : Cx} (h : cx.Exact) (blake2b : List UInt8 → Vector UInt8 32)
    {poseidon poseidon' : UInt8 → List Field → Exec Field} (st : Nat → Stale) {kp : Keypair}
    {network_id : UInt8} (heq : ∀ rx, num rx < fieldModulus →
      poseidon network_id (hashFields input kp.pub rx) =
        poseidon' network_id (hashFields input kp.pub rx)) :
    sign cx blake2b poseidon st kp input network_id =
      sign cx blake2b poseidon' st kp input network_id := by
  obtain ⟨k, hk⟩ := message_derive_of_fits hfit blake2b (st 0) kp network_id
  have hklt := message_derive_lt hk
  have hrx := (affineOf_valid (num k • generator)).x_lt
  unfold sign
  simp only [hk, ok_bind, AFFINE_ONE_eq, affine_scalar_mul_affineOf h groupOrder_smul_generator hklt,
    message_hash_of_fits hfit, heq _ hrx]

/-- Then signing does not fail, if the digest of what it hashes exists. -/
theorem sign_of_digest {cx : Cx} (h : cx.Exact) (blake2b : List UInt8 → Vector UInt8 32)
    {poseidon : UInt8 → List Field → Exec Field} (st : Nat → Stale) {kp : Keypair}
    {network_id : UInt8} (hpos : ∀ rx, num rx < fieldModulus →
      ∃ d, poseidon network_id (hashFields input kp.pub rx) = .ok d ∧ num d < fieldModulus)
    (hpriv : num kp.priv < groupOrder) :
    ∃ sig, sign cx blake2b poseidon st kp input network_id = .ok (some sig) := by
  obtain ⟨rx, hrx, k, hrun⟩ := sign_run hfit h blake2b poseidon st kp network_id
  obtain ⟨e, he, helt⟩ := hpos rx hrx
  obtain ⟨s, hs⟩ := scalar_response h k (helt.trans fieldModulus_lt_groupOrder) hpriv
  obtain ⟨tmp, htmp, hadd⟩ := bind_ok hs
  refine ⟨⟨rx, s⟩, ?_⟩
  rw [hrun, he]
  simp only [ok_bind, htmp, hadd]
  rfl

theorem sign_of_fits {cx : Cx} (h : cx.Exact) (blake2b : List UInt8 → Vector UInt8 32)
    {poseidon : UInt8 → List Field → Exec Field}
    (hpos : ∀ id l, ∃ d, poseidon id l = .ok d ∧ num d < fieldModulus) (st : Nat → Stale)
    {kp : Keypair} (hpriv : num kp.priv < groupOrder) (network_id : UInt8) :
    ∃ sig, sign cx blake2b poseidon st kp input network_id = .ok (some sig) :=
  sign_of_digest hfit h blake2b st (fun _ _ => hpos _ _) hpriv

end Fits

/-! ## What a signature depends on -/

section Congr

variable {fc' bc' : Nat} {input : ROInput fc bc} {input' : ROInput fc' bc'}
  (hfit : input.Fits) (hfit' : input'.Fits) (hfields : input.fieldList = input'.fieldList)
  (hbits : input.bitString = input'.bitString)

include hfit hfit' hfields hbits

theorem lengths_eq : input.fields_len = input'.fields_len ∧ input.bits_len = input'.bits_len :=
  ⟨by rw [← ROInput.length_fieldList hfit.wf.within, hfields,
      ROInput.length_fieldList hfit'.wf.within],
    by rw [← input.length_bitString, hbits, input'.length_bitString]⟩

theorem roinput_derive_message_congr (st st' : Stale) (out : Vector UInt8 268) (kp : Keypair)
    (network_id : UInt8) :
    roinput_derive_message st out 268 kp input network_id =
      roinput_derive_message st' out 268 kp input' network_id := by
  obtain ⟨hfl, hbl⟩ := lengths_eq hfit hfit' hfields hbits
  have hfc : fc + 2 < 2 ^ 22 := Nat.lt_of_succ_lt hfit.fc_lt
  have hfc' : fc' + 2 < 2 ^ 22 := Nat.lt_of_succ_lt hfit'.fc_lt
  obtain ⟨r, hr, happ⟩ := roinput_derive_message_spec st hfit.wf hfc hfit.bc_lt out hfit.derive
    hfit.derive kp network_id
  obtain ⟨r', hr', happ'⟩ := roinput_derive_message_spec st' hfit'.wf hfc' hfit'.bc_lt out
    hfit'.derive hfit'.derive kp network_id
  have hlen : deriveLen input = deriveLen input' := by rw [deriveLen, deriveLen, hfl, hbl]
  have hmsg : deriveBits input kp network_id = deriveBits input' kp network_id := by
    rw [deriveBits, deriveBits, hfields, hbits]
  have heq : r = r' := (happ.eq_iff happ' (congrArg List.length hmsg)).mpr hmsg
  rw [hr, hr', hlen, heq]

/-- The nonce depends on the content of the message, not on its arrays or the stack. -/
theorem message_derive_congr (blake2b : List UInt8 → Vector UInt8 32) (st st' : Stale)
    (kp : Keypair) (network_id : UInt8) :
    message_derive blake2b st kp input network_id =
      message_derive blake2b st' kp input' network_id := by
  rw [message_derive, message_derive,
    roinput_derive_message_congr hfit hfit' hfields hbits st st' _ kp network_id]

theorem message_hash_congr (poseidon : UInt8 → List Field → Exec Field) (st st' : Stale)
    (pub : Affine) (rx : Field) (network_id : UInt8) :
    message_hash poseidon st pub rx input network_id =
      message_hash poseidon st' pub rx input' network_id := by
  obtain ⟨-, hbl⟩ := lengths_eq hfit hfit' hfields hbits
  have hmsg : hashFields input pub rx = hashFields input' pub rx := by
    rw [hashFields, hashFields, hfields, hbits, hbl]
  rw [message_hash_of_fits hfit, message_hash_of_fits hfit', hmsg]

theorem sign_congr (cx : Cx) (blake2b : List UInt8 → Vector UInt8 32)
    (poseidon : UInt8 → List Field → Exec Field) (st st' : Nat → Stale) (kp : Keypair)
    (network_id : UInt8) :
    sign cx blake2b poseidon st kp input network_id =
      sign cx blake2b poseidon st' kp input' network_id := by
  have hderive := message_derive_congr hfit hfit' hfields hbits blake2b (st 0) (st' 0) kp network_id
  have hhash := fun rx => message_hash_congr hfit hfit' hfields hbits poseidon (st 1) (st' 1) kp.pub
    rx network_id
  simp only [sign, hderive, hhash]

end Congr

/-! ## One signature -/

/-- The keypair of the private key 1. -/
def unitKeypair : Keypair := ⟨AFFINE_ONE, ofNum 1⟩

theorem num_unitKeypair : num unitKeypair.priv = 1 := num_ofNum (by norm_num)

theorem unitKeypair_pub {cx : Cx} (h : cx.Exact) :
    generate_pubkey cx unitKeypair.priv = .ok unitKeypair.pub := by
  rw [generate_pubkey_eq h (by rw [num_unitKeypair]; decide), num_unitKeypair, one_nsmul]
  exact congrArg _ AFFINE_ONE_eq.symm

/-- A message without fields and bits. -/
def emptyMessage : ROInput 0 0 := ⟨#v[], #v[], 0, 0⟩

theorem emptyMessage_fits : emptyMessage.Fits where
  wf := ⟨le_rfl, le_rfl, by norm_num [emptyMessage], by norm_num [emptyMessage]⟩
  fc_lt := by norm_num
  bc_lt := by norm_num
  derive := by simp [deriveLen, emptyMessage]
  hash := by simp [chunkCount, emptyMessage]

/-- A stack and a hash of zeros. -/
def cleanStack (_ : Nat) : Stale := ⟨fun _ => 0⟩

def zeroHash (_ : List UInt8) : Vector UInt8 32 := Vector.replicate 32 0

/-- The digest 3. -/
def constDigest (_ : UInt8) (_ : List Field) : Exec Field := .ok (ofNum 3)

theorem constDigest_lt (id : UInt8) (l : List Field) :
    ∃ d, constDigest id l = .ok d ∧ num d < fieldModulus :=
  ⟨_, rfl, by rw [num_ofNum (by norm_num)]; decide⟩

/-- A hash that makes every nonce 1. -/
def oneHash (_ : List UInt8) : Vector UInt8 32 := (ofNum 1).reverse

theorem oneHash_nonce (l : List UInt8) : scalar_from_bytes (oneHash l).reverse = ofNum 1 := by
  rw [oneHash, Vector.reverse_reverse]
  decide +kernel

/-- The field 7 and the bits 101. -/
def sampleMessage : ROInput 1 1 := ⟨#v[(ofNum 7).reverse], #v[5], 1, 3⟩

theorem sampleMessage_fits : sampleMessage.Fits where
  wf := ⟨le_rfl, by norm_num [sampleMessage], by norm_num [sampleMessage],
    by norm_num [sampleMessage]⟩
  fc_lt := by norm_num
  bc_lt := by norm_num
  derive := by simp [deriveLen, sampleMessage]
  hash := by simp [chunkCount, sampleMessage]

/-- The generator has an odd y, so the nonce 1 is negated. -/
theorem odd_generator : num (affineOf generator).y % 2 = 1 := by
  rw [← AFFINE_ONE_eq]
  decide +kernel

/-- With the private key 1 and the digest 3: s is q - 1 + 3 reduced. -/
theorem sign_unit {cx : Cx} (h : cx.Exact) (st : Nat → Stale) (network_id : UInt8) :
    message_derive oneHash (st 0) unitKeypair sampleMessage network_id = .ok (some (ofNum 1)) ∧
      sign cx oneHash constDigest st unitKeypair sampleMessage network_id =
        .ok (some ⟨AFFINE_ONE.x, ofNum 2⟩) := by
  obtain ⟨k, hk⟩ := message_derive_of_fits sampleMessage_fits oneHash (st 0) unitKeypair network_id
  obtain ⟨bytes, rfl⟩ := message_derive_cases hk
  rw [oneHash_nonce] at hk
  have hone : ofNum 1 = encode (1 : Fq) := by decide +kernel
  have hthree : ofNum 3 = encode (3 : Fq) := by decide +kernel
  have htwo : ofNum 2 = encode (-1 + 3 * 1 : Fq) := by decide +kernel
  have hpriv : unitKeypair.priv = encode (1 : Fq) := hone
  have hval : (1 : Fq).val = 1 := by decide +kernel
  have hpub := affine_scalar_mul_encode h groupOrder_smul_generator (1 : Fq)
  rw [hval, one_nsmul] at hpub
  have hhash := message_hash_of_fits sampleMessage_fits constDigest (st 1) unitKeypair.pub
    (affineOf generator).x network_id
  refine ⟨hk, ?_⟩
  rw [hone] at hk
  unfold sign
  simp only [hk, ok_bind, AFFINE_ONE_eq, hpub, field_is_odd_eq, odd_generator, decide_true,
    if_true, scalar_negate_encode h, hhash, constDigest, pure_eq_ok, hthree, hpriv,
    scalar_mul_encode h, scalar_add_encode h, catchOther, htwo]

/-- The field 7 and the bits 101, signed with the private key 1 at the nonce 1, whose point
has an odd y: the nonce is negated and the response wraps around. -/
theorem sign_verifies_one :
    message_derive oneHash (cleanStack 0) unitKeypair sampleMessage TESTNET_ID =
        .ok (some (ofNum 1)) ∧
      sign Cx.reference oneHash constDigest cleanStack unitKeypair sampleMessage TESTNET_ID =
        .ok (some ⟨AFFINE_ONE.x, ofNum 2⟩) ∧
      num (ofNum 2) < groupOrder ∧
      ∃ e, message_hash constDigest (cleanStack 1) unitKeypair.pub AFFINE_ONE.x sampleMessage
          TESTNET_ID = .ok (some e) ∧
        (affineOf (num (ofNum 2) • generator - num e • unitKeypair.pub.toPoint)).x =
          AFFINE_ONE.x ∧
        num (affineOf (num (ofNum 2) • generator - num e • unitKeypair.pub.toPoint)).y % 2 = 0 := by
  have hlt : num unitKeypair.priv < 2 ^ 254 := by
    rw [num_unitKeypair]; exact Nat.one_lt_two_pow (by norm_num)
  obtain ⟨hk, hsign⟩ := sign_unit Cx.reference_exact cleanStack TESTNET_ID
  exact ⟨hk, hsign, sign_verifies Cx.reference_exact oneHash constDigest_lt hlt
    (unitKeypair_pub Cx.reference_exact) hsign⟩

end MinaLedger
