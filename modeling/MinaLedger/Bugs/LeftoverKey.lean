import MinaLedger.L2Crypto.SignMemory

/-!
# The nonce message stays on the stack with the private key in it

`message_derive` has the private key packed into `derive_msg[268]`, hashes the array and
returns (src/src/crypto.c:594-620). Nothing clears it, where `roinput_derive_message`
clears the `input_bits` it packed the key from ("Clear privkey material",
src/src/random_oracle_input.c:198-199) and `sign` its `k` and `tmp`.

Counterexample: the keys 1 and 2 and the empty message.

The exact condition (`leaves_same_iff`): the nonce message does not fit `derive_msg`, or
the two keys have the same low 255 bits. With a capacity outside the hypotheses the local
arrays are no objects or `(int)bits_capacity * 8` overflows.
-/
namespace MinaLedger.Bugs.LeftoverKey
open Pasta Lib.BitString

variable {fc bc : Nat}

section Left

variable (cx : Cx) (blake2b : List UInt8 → Vector UInt8 32)
  (poseidon : UInt8 → List Field → Exec Field) (st : Nat → Stale) (pub : Affine)
  (msg : ROInput fc bc) (network_id : UInt8)

/-- Signing with this key returns, whether with a signature or with false. -/
def Returns (priv : Scalar) : Prop :=
  ∃ r, (sign_mem cx blake2b poseidon st ⟨pub, priv⟩ msg network_id).1 = .ok r

/-- What the byte buffers hold then. -/
def left (priv : Scalar) : Buffers bc :=
  (sign_mem cx blake2b poseidon st ⟨pub, priv⟩ msg network_id).2

end Left

/-- The fields, the public key and the bits stand before the private key. -/
def keyOffset (msg : ROInput fc bc) : Nat := 255 * (msg.fields_len + 2) + msg.bits_len

section Message

variable {cx : Cx} {blake2b : List UInt8 → Vector UInt8 32}
  {poseidon : UInt8 → List Field → Exec Field} {st : Nat → Stale} {pub : Affine}
  {msg : ROInput fc bc} {network_id : UInt8} {priv priv' : Scalar}
  (hin : msg.Within) (hfc : FIELD_BYTES * (fc + 2) < 2 ^ 32)
  (hbc : 8 * (bc + SCALAR_BYTES + 1) < 2 ^ 31)

include hin hfc hbc

/-- The private key can be read off `derive_msg`. -/
theorem key_in_derive_msg (hret : Returns cx blake2b poseidon st pub msg network_id priv)
    (hlen : deriveLen msg ≤ 268) :
    ((bitList (left cx blake2b poseidon st pub msg network_id priv).derive_msg
      (deriveBitLen msg)).drop (keyOffset msg)).take 255 = fieldBits priv := by
  obtain ⟨r, hret⟩ := hret
  obtain ⟨out, hleft, hout⟩ := sign_mem_left hin hfc hbc hret
  rw [if_pos hlen] at hout
  have hhead := hout.head
  rw [Nat.zero_add, length_deriveBits hin] at hhead
  have hbefore : ((msg.fieldList ++ [pub.x, pub.y]).flatMap fieldBits ++ msg.bitString).length =
      keyOffset msg := by
    rw [List.length_append, length_flatMap_fieldBits, List.length_append,
      ROInput.length_fieldList hin, ROInput.length_bitString]; rfl
  rw [left, hleft, hhead, show bitList (zeros 268) 0 = [] from rfl, List.nil_append, deriveBits,
    List.append_assoc _ (fieldBits priv), ← hbefore, List.drop_left]
  exact List.take_left' (length_bitsLE 255 _)

theorem left_ne (hret : Returns cx blake2b poseidon st pub msg network_id priv)
    (hret' : Returns cx blake2b poseidon st pub msg network_id priv') (hlen : deriveLen msg ≤ 268)
    (hkeys : num priv % 2 ^ 255 ≠ num priv' % 2 ^ 255) :
    left cx blake2b poseidon st pub msg network_id priv ≠
      left cx blake2b poseidon st pub msg network_id priv' := by
  intro h
  have hkey := key_in_derive_msg hin hfc hbc hret hlen
  rw [h, key_in_derive_msg hin hfc hbc hret' hlen] at hkey
  exact hkeys (fieldBits_eq_iff.mp hkey.symm)

/-- The exact condition: nothing is written to `derive_msg`, or no bit of the keys that is
written differs. -/
theorem leaves_same_iff (hret : Returns cx blake2b poseidon st pub msg network_id priv)
    (hret' : Returns cx blake2b poseidon st pub msg network_id priv') :
    left cx blake2b poseidon st pub msg network_id priv =
        left cx blake2b poseidon st pub msg network_id priv' ↔
      268 < deriveLen msg ∨ num priv % 2 ^ 255 = num priv' % 2 ^ 255 := by
  constructor
  · intro h
    by_contra hbad
    rw [not_or, not_lt] at hbad
    exact left_ne hin hfc hbc hret hret' hbad.1 hbad.2 h
  · intro h
    obtain ⟨r, hret⟩ := hret
    obtain ⟨r', hret'⟩ := hret'
    obtain ⟨out, hleft, hout⟩ := sign_mem_left hin hfc hbc hret
    obtain ⟨out', hleft', hout'⟩ := sign_mem_left hin hfc hbc hret'
    suffices hsame : out = out' by rw [left, left, hleft, hleft', hsame]
    by_cases hlen : deriveLen msg ≤ 268
    · rw [if_pos hlen] at hout hout'
      have hkey : fieldBits priv = fieldBits priv' :=
        fieldBits_eq_iff.mpr (h.resolve_left (Nat.not_lt.mpr hlen))
      have hbits : deriveBits msg ⟨pub, priv⟩ network_id =
          deriveBits msg ⟨pub, priv'⟩ network_id := by
        rw [deriveBits, deriveBits, hkey]
      exact (hout.eq_iff hout' (congrArg List.length hbits)).mpr hbits
    · rw [if_neg hlen] at hout hout'
      rw [hout, hout']

end Message

/-! ## Two keys -/

/-- Eight fields, too many for `derive_msg`. -/
def eightFields : ROInput 8 0 := ⟨Vector.replicate 8 (ofNum 1), Vector.replicate 0 0, 8, 0⟩

theorem eightFields_within : eightFields.Within := ⟨le_rfl, le_rfl⟩

/-- Signing them fails, with whatever key. -/
theorem eightFields_returns (pub : Affine) (priv : Scalar) :
    Returns Cx.reference zeroHash constDigest cleanStack pub eightFields TESTNET_ID priv := by
  have hrefused := derive_message_refused eightFields_within (by decide) (by decide) (cleanStack 0)
    ⟨pub, priv⟩ TESTNET_ID (zeros 268)
    (show 268 < usize (deriveBitLen eightFields + 7) / 8 by decide)
  refine ⟨none, ?_⟩
  rw [sign_mem_refines, sign, message_derive, ← zeros]
  simp only [hrefused]
  rfl

/-- Eight fields and the keys 1 and 2: both fail and leave the same. -/
theorem leaves_same_eightFields :
    left Cx.reference zeroHash constDigest cleanStack AFFINE_ONE eightFields TESTNET_ID
        (ofNum 1) =
      left Cx.reference zeroHash constDigest cleanStack AFFINE_ONE eightFields TESTNET_ID
        (ofNum 2) :=
  (leaves_same_iff eightFields_within (by decide) (by decide) (eightFields_returns _ _)
    (eightFields_returns _ _)).mpr (.inl (by decide))

theorem emptyMessage_returns {priv : Scalar} (hpriv : num priv < groupOrder) :
    Returns Cx.reference zeroHash constDigest cleanStack AFFINE_ONE emptyMessage TESTNET_ID
      priv := by
  obtain ⟨sig, hsig⟩ := @sign_of_fits _ _ _ emptyMessage_fits _ Cx.reference_exact zeroHash _
    constDigest_lt cleanStack ⟨AFFINE_ONE, priv⟩ hpriv TESTNET_ID
  exact ⟨some sig, (sign_mem_refines _ _ _ _ _ _ _).trans hsig⟩

/-- The empty message and the keys 1 and 2: both calls return, and they leave different
bytes. -/
theorem leaves_keys_one_and_two :
    Returns Cx.reference zeroHash constDigest cleanStack AFFINE_ONE emptyMessage TESTNET_ID
      (ofNum 1) ∧
    Returns Cx.reference zeroHash constDigest cleanStack AFFINE_ONE emptyMessage TESTNET_ID
      (ofNum 2) ∧
    left Cx.reference zeroHash constDigest cleanStack AFFINE_ONE emptyMessage TESTNET_ID
        (ofNum 1) ≠
      left Cx.reference zeroHash constDigest cleanStack AFFINE_ONE emptyMessage TESTNET_ID
        (ofNum 2) := by
  have hone : num (ofNum 1) = 1 := num_ofNum (by norm_num)
  have htwo : num (ofNum 2) = 2 := num_ofNum (by norm_num)
  have hret : Returns Cx.reference zeroHash constDigest cleanStack AFFINE_ONE emptyMessage
      TESTNET_ID (ofNum 1) := emptyMessage_returns (by rw [hone]; decide)
  have hret' : Returns Cx.reference zeroHash constDigest cleanStack AFFINE_ONE emptyMessage
      TESTNET_ID (ofNum 2) := emptyMessage_returns (by rw [htwo]; decide)
  refine ⟨hret, hret', left_ne emptyMessage_fits.wf.within (by decide) (by decide) hret hret'
    emptyMessage_fits.derive ?_⟩
  rw [hone, htwo]
  decide

end MinaLedger.Bugs.LeftoverKey
