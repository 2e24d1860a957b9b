import MinaLedger.L1Encoding.ROInputMessage

/-!
# What the nonce is derived from

`roinput_derive_message` (src/src/random_oracle_input.c:170-202) for every message, key,
network and output length. It counts in `int` and `size_t`, so "every message" means
those whose sizes these hold (`Counted`): past that the size wraps
(`derive_message_uncounted`).

Results:
* `derive_message_contains`: -1 and nothing written exactly without room; otherwise the
  bits written are the fields, the public key, the message bits, the private key and the
  network, and the bits behind them are as before.
* `derive_message_refused`, `derive_message_writes`, `derive_message_overruns`: the three
  outcomes for any size, wrapped or not.
-/
namespace MinaLedger
open Lib.Radix Lib.BitString

variable {fc bc n : Nat}

/-- The bits of a derivation message. -/
def deriveBitLen (msg : ROInput fc bc) : Nat := 255 * (msg.fields_len + 2) + msg.bits_len + 263

theorem length_deriveBits {msg : ROInput fc bc} (hin : msg.Within) (kp : Keypair)
    (network_id : UInt8) : (deriveBits msg kp network_id).length = deriveBitLen msg := by
  have hf : ∀ f : Field, (fieldBits f).length = 255 := fun f => length_bitsLE _ _
  simp only [deriveBits, List.length_append, length_flatMap_fieldBits, ROInput.length_fieldList hin,
    ROInput.length_bitString, hf, length_bitsLE, List.length_cons, List.length_nil, deriveBitLen]

/-- The sizes are within the machine's integers: the local array of fields is an object,
the local bits are counted in `int`, the bits of the whole message in `size_t`. -/
structure ROInput.Counted (msg : ROInput fc bc) : Prop where
  fields : FIELD_BYTES * (fc + 2) < 2 ^ 32
  bits : 8 * (bc + SCALAR_BYTES + 1) < 2 ^ 31
  size : deriveBitLen msg + 7 < 2 ^ 32

section Run

variable {msg : ROInput fc bc} (hin : msg.Within) (hfc : FIELD_BYTES * (fc + 2) < 2 ^ 32)
  (hbc : 8 * (bc + SCALAR_BYTES + 1) < 2 ^ 31)

include hin hfc hbc

/-- The size is computed modulo 2^32. -/
theorem derive_message_run (st : Stale) (kp : Keypair) (network_id : UInt8) :
    ∃ e : ROInput (fc + 2) (bc + SCALAR_BYTES + 1), e.Within ∧
      255 * e.fields_len + e.bits_len = deriveBitLen msg ∧
      e.fieldList.flatMap fieldBits ++ e.bitString = deriveBits msg kp network_id ∧
      ∀ (n : Nat) (out : Vector UInt8 n) (len : Nat),
        roinput_derive_message st out len kp msg network_id =
          (if usize (deriveBitLen msg + 7) / 8 ≤ len then do
            let out ← roinput_to_bytes out e
            return (cint (usize (deriveBitLen msg + 7) / 8 : Nat), out)
          else .ok (-1, out)) := by
  unfold FIELD_BYTES at hfc
  unfold SCALAR_BYTES at hbc
  obtain ⟨e, he, hfl, hbl, hbits, hrun⟩ :=
    roinput_derive_message_eq st hin (by omega) (by omega) kp network_id
  refine ⟨e, he, by rw [hfl, hbl, deriveBitLen, Nat.add_assoc], hbits, fun n out len => ?_⟩
  have hsum : 255 * (msg.fields_len + 2) + msg.bits_len + 270 = deriveBitLen msg + 7 := rfl
  rw [hrun, hsum]
  by_cases hfit : usize (deriveBitLen msg + 7) / 8 ≤ len
  · simp only [if_pos hfit, if_neg (Nat.not_lt.mpr hfit), pure_eq_ok]
  · simp only [if_neg hfit, if_pos (Nat.lt_of_not_le hfit), pure_eq_ok, ok_bind]

section Outcomes

variable (st : Stale) (kp : Keypair) (network_id : UInt8) (out : Vector UInt8 n) {len : Nat}

theorem derive_message_refused (h : len < usize (deriveBitLen msg + 7) / 8) :
    roinput_derive_message st out len kp msg network_id = .ok (-1, out) := by
  obtain ⟨e, -, -, -, hrun⟩ := derive_message_run hin hfc hbc st kp network_id
  rw [hrun, if_neg (Nat.not_le_of_lt h)]

theorem derive_message_writes (h : usize (deriveBitLen msg + 7) / 8 ≤ len)
    (hroom : deriveBitLen msg ≤ 8 * n) :
    ∃ r, roinput_derive_message st out len kp msg network_id =
        .ok (cint (usize (deriveBitLen msg + 7) / 8 : Nat), r) ∧
      Appends out r 0 (deriveBits msg kp network_id) := by
  obtain ⟨e, he, hsum, hbits, hrun⟩ := derive_message_run hin hfc hbc st kp network_id
  obtain ⟨r, hr, happ⟩ := roinput_to_bytes_spec he out (hsum.trans_le hroom)
  rw [hbits] at happ
  exact ⟨r, by rw [hrun, if_pos h, hr]; rfl, happ⟩

/-- The size that is compared may be wrapped; the bits that are stored are not. -/
theorem derive_message_overruns (h : usize (deriveBitLen msg + 7) / 8 ≤ len)
    (hover : 8 * n < deriveBitLen msg) :
    roinput_derive_message st out len kp msg network_id = .error .undefined := by
  obtain ⟨e, he, hsum, -, hrun⟩ := derive_message_run hin hfc hbc st kp network_id
  rw [hrun, if_pos h, roinput_to_bytes_overrun he out (hover.trans_eq hsum.symm), error_bind]

end Outcomes

end Run

/-- With the sizes counted right, -1 and nothing written exactly without room for the
whole message; otherwise its size, its bits from bit 0 of `out` on, and no other bit of
`out` changed. -/
theorem derive_message_contains {msg : ROInput fc bc} (hin : msg.Within) (hcount : msg.Counted)
    (st : Stale) (kp : Keypair) (network_id : UInt8) (out : Vector UInt8 n) {len : Nat}
    (hlen : len ≤ n) :
    (roinput_derive_message st out len kp msg network_id = .ok (-1, out) ↔
      len < (255 * (msg.fields_len + 2) + msg.bits_len + 263 + 7) / 8) ∧
    ((255 * (msg.fields_len + 2) + msg.bits_len + 263 + 7) / 8 ≤ len →
      ∃ r, roinput_derive_message st out len kp msg network_id =
          .ok (((255 * (msg.fields_len + 2) + msg.bits_len + 263 + 7) / 8 : Nat), r) ∧
        bitList r (255 * (msg.fields_len + 2) + msg.bits_len + 263) =
          (msg.fieldList ++ [kp.pub.x, kp.pub.y]).flatMap (fun f => bitsLE 255 (num f)) ++
            msg.bitString ++ bitsLE 255 (num kp.priv) ++ bitsLE 8 network_id.toNat ∧
        ∀ m, 255 * (msg.fields_len + 2) + msg.bits_len + 263 ≤ m → bitAt r m = bitAt out m) := by
  obtain ⟨hfc, hbc, hsize⟩ := hcount
  have hlength := length_deriveBits hin kp network_id
  have hsum : 255 * (msg.fields_len + 2) + msg.bits_len + 263 = deriveBitLen msg := rfl
  have hwrap : usize (deriveBitLen msg + 7) = deriveBitLen msg + 7 := usize_eq hsize
  have hint : cint ((deriveBitLen msg + 7) / 8 : Nat) = ((deriveBitLen msg + 7) / 8 : Nat) :=
    cint_eq _ (by omega) (by omega)
  rw [hsum]
  -- with room the call returns its size
  have hroom : (deriveBitLen msg + 7) / 8 ≤ len → ∃ r,
      roinput_derive_message st out len kp msg network_id =
        .ok (((deriveBitLen msg + 7) / 8 : Nat), r) ∧
      Appends out r 0 (deriveBits msg kp network_id) := fun h => by
    obtain ⟨r, hr, happ⟩ := derive_message_writes hin hfc hbc st kp network_id out
      (show usize (deriveBitLen msg + 7) / 8 ≤ len by rwa [hwrap]) (by omega)
    rw [hwrap, hint] at hr
    exact ⟨r, hr, happ⟩
  refine ⟨⟨fun h => ?_, fun h => ?_⟩, fun hfit => ?_⟩
  · by_contra hfit
    obtain ⟨r, hr, -⟩ := hroom (Nat.le_of_not_lt hfit)
    rw [hr] at h
    have := congrArg Prod.fst (Except.ok.inj h)
    simp only at this
    omega
  · exact derive_message_refused hin hfc hbc st kp network_id out (by rwa [hwrap])
  · obtain ⟨r, hr, happ⟩ := hroom hfit
    refine ⟨r, hr, ?_, fun m hm => happ.tail m (by omega)⟩
    have hhead := happ.head
    rw [Nat.zero_add, hlength] at hhead
    exact hhead

/-- A field, three bits and the public key, private key and network behind them. -/
theorem derive_message_contains_sample :
    ∃ r : Vector UInt8 130, roinput_derive_message ⟨fun _ => 0⟩ (Vector.replicate 130 255) 129
        ⟨⟨ofNum 1, ofNum 2⟩, ofNum 3⟩ (⟨#v[ofNum 7], #v[5], 1, 3⟩ : ROInput 1 1) MAINNET_ID =
        .ok (129, r) ∧ bitAt r 1031 = true ∧ bitAt r 1032 = true := by
  obtain ⟨-, hfit⟩ := @derive_message_contains 1 1 130 ⟨#v[ofNum 7], #v[5], 1, 3⟩
    ⟨by decide, by decide⟩ ⟨by decide, by decide, by decide⟩ ⟨fun _ => 0⟩
    ⟨⟨ofNum 1, ofNum 2⟩, ofNum 3⟩ MAINNET_ID (Vector.replicate 130 255) 129 (by norm_num)
  obtain ⟨r, hr, -, htail⟩ := hfit (by decide)
  refine ⟨r, hr, (htail 1031 (by decide)).trans ?_, (htail 1032 (by decide)).trans ?_⟩
  · rw [bitAt_eq]; rfl
  · rw [bitAt_eq]; rfl

/-- 16843009 fields: with the two of the public key their bits are 509 more than 2^32. -/
def manyFields : ROInput 16843009 0 :=
  ⟨Vector.replicate 16843009 (ofNum 0), Vector.replicate 0 0, 16843009, 0⟩

/-- One bit in so many bytes that the bits of the local copy are 2^32. -/
def manyBytes : ROInput 0 (2 ^ 29 - 33) :=
  ⟨Vector.replicate 0 (ofNum 0), Vector.replicate (2 ^ 29 - 33) 0, 0, 1⟩

/-- Beyond the machine's integers neither direction holds: 97 bytes are too few for
`manyFields` and overrun, and enough for `manyBytes` and refused. -/
theorem derive_message_uncounted (st : Stale) (kp : Keypair) (network_id : UInt8)
    (out : Vector UInt8 97) :
    (roinput_derive_message st out 97 kp manyFields network_id = .error .undefined ∧
      97 < (deriveBitLen manyFields + 7) / 8) ∧
    (roinput_derive_message st out 97 kp manyBytes network_id = .ok (-1, out) ∧
      (deriveBitLen manyBytes + 7) / 8 ≤ 97) := by
  refine ⟨⟨?_, by decide⟩, ?_, by decide⟩
  · have hin : manyFields.Within := ⟨le_rfl, le_rfl⟩
    exact derive_message_overruns hin (by decide) (by decide) st kp network_id out (by decide)
      (by decide)
  · have hfl : ¬manyBytes.fields_len > 0 + 2 := by decide
    have hbl : manyBytes.bits_len > usize ((2 ^ 29 - 33 + SCALAR_BYTES + 1) * 8) := by decide
    rw [roinput_derive_message, if_neg hfl, if_pos hbl]; rfl

/-- So the equivalence fails both ways. -/
theorem derive_message_not_all :
    (¬∀ (fc bc n : Nat) (msg : ROInput fc bc) (st : Stale) (kp : Keypair) (network_id : UInt8)
      (out : Vector UInt8 n), msg.Within → n < (deriveBitLen msg + 7) / 8 →
      roinput_derive_message st out n kp msg network_id = .ok (-1, out)) ∧
    (¬∀ (fc bc n : Nat) (msg : ROInput fc bc) (st : Stale) (kp : Keypair) (network_id : UInt8)
      (out : Vector UInt8 n), msg.Within →
      roinput_derive_message st out n kp msg network_id = .ok (-1, out) →
      n < (deriveBitLen msg + 7) / 8) := by
  obtain ⟨⟨hover, hsmall⟩, hrefused, hfits⟩ := derive_message_uncounted ⟨fun _ => 0⟩
    ⟨⟨ofNum 1, ofNum 2⟩, ofNum 3⟩ TESTNET_ID (Vector.replicate 97 0)
  have hmany : manyFields.Within := ⟨le_rfl, le_rfl⟩
  have hbytes : manyBytes.Within := ⟨le_rfl, by decide⟩
  constructor
  · intro h
    rw [h _ _ 97 manyFields _ _ _ _ hmany hsmall] at hover
    cases hover
  · intro h
    exact absurd (h _ _ 97 manyBytes _ _ TESTNET_ID _ hbytes hrefused) (Nat.not_lt.mpr hfits)

end MinaLedger
