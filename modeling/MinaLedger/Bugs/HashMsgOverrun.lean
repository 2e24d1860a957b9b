import MinaLedger.L2Crypto.Packing
import MinaLedger.L2Crypto.Sign

/-!
# The room check of roinput_to_fields forgets the bits

`roinput_to_fields` compares `len` with the number of fields and then stores one more
element for each 254 bits (src/src/random_oracle_input.c:128-168), and `message_hash`
passes it `sizeof(hash_msg)`, the 288 bytes of nine elements
(src/src/crypto.c:622-637), where its sibling `message_derive` has an array of bytes. So
ten elements, or nine fields and one bit, are stored past the array.

Counterexample: seven fields and one bit.

The exact condition (`packing_respects_iff`): each function is refused by a check of its own or
the chunks have room as well.
-/
namespace MinaLedger.Bugs.HashMsgOverrun

variable {fc bc : Nat}

/-- -1 and nothing written, or a count of at most `len`; a store past the `len` elements
would be a fault. -/
def Safe {len : Nat} (out : Vector Field len) (x : Exec (Int × Vector Field len)) : Prop :=
  x = .ok (-1, out) ∨ ∃ (count : Nat) (r : Vector Field len), x = .ok (count, r) ∧ count ≤ len

/-- Into `len` elements both functions are safe; `message_hash` counts its nine elements
right and returns false when there are more to store. -/
structure Respects (input : ROInput fc bc) (len : Nat) : Prop where
  to_fields : ∀ out : Vector Field len, Safe out (roinput_to_fields out len input)
  hash_message : ∀ (st : Stale) (out : Vector Field len) (pub : Affine) (rx : Field),
    Safe out (roinput_hash_message st out len pub rx input)
  passed : ∀ (st : Stale) (out : Vector Field 9) (pub : Affine) (rx : Field),
    roinput_hash_message st out (9 * FIELD_BYTES) pub rx input =
      roinput_hash_message st out 9 pub rx input
  message_hash : 9 < input.fields_len + 3 + chunkCount input.bits_len →
    ∀ (poseidon : UInt8 → List Field → Exec Field) (st : Stale) (pub : Affine) (rx : Field)
      (network_id : UInt8), message_hash poseidon st pub rx input network_id = .ok none

/-! ## Into an array of `len` elements -/

theorem not_safe_error {len : Nat} (out : Vector Field len) :
    ¬Safe out (.error .undefined) := by
  rintro (h | ⟨count, r, h, -⟩) <;> cases h

/-- The fields are refused, or everything has room. -/
theorem safe_iff {input : ROInput fc bc} (hin : input.Within) {len : Nat}
    (hlen : FIELD_BYTES * len < 2 ^ 32) (out : Vector Field len) :
    Safe out (roinput_to_fields out len input) ↔
      len < input.fields_len ∨ input.fields_len + chunkCount input.bits_len ≤ len := by
  constructor
  · intro h
    by_contra hbad
    rw [not_or, not_lt, not_le] at hbad
    rw [roinput_to_fields_overrun hin out hbad.1 hbad.2] at h
    exact not_safe_error out h
  · rintro (h | h)
    · exact .inl (by rw [roinput_to_fields, if_pos h]; rfl)
    · obtain ⟨r, hr, -⟩ := roinput_to_fields_packed hin hlen h out
        (show input.fields_len ≤ len by omega)
      exact .inr ⟨_, r, hr, h⟩

section Message

variable {input : ROInput fc bc} (hin : input.Within) (hfc : FIELD_BYTES * (fc + 3) < 2 ^ 32)

include hin hfc

/-- What `roinput_hash_message` hands on, and the cases of what comes back. -/
theorem hash_message_cases (st : Stale) (pub : Affine) (rx : Field) :
    ∃ d : ROInput (fc + 3) bc, d.Within ∧ d.fields_len = input.fields_len + 3 ∧
      d.bits_len = input.bits_len ∧
      (usize (bc * 8) < input.bits_len → ∀ (n : Nat) (out : Vector Field n) (len : Nat),
        roinput_hash_message st out len pub rx input = .ok (-1, out)) ∧
      (¬usize (bc * 8) < input.bits_len → ∀ (n : Nat) (out : Vector Field n) (len : Nat),
        roinput_hash_message st out len pub rx input = roinput_to_fields out len d) := by
  unfold FIELD_BYTES at hfc
  obtain ⟨h1, h2⟩ := hin
  obtain ⟨d, hfl, hbl, -, -, hrun⟩ := roinput_hash_message_eq st ⟨h1, h2⟩ (by omega) pub rx
  refine ⟨d, ⟨by omega, by omega⟩, hfl, hbl, fun h n out len => ?_, fun h n out len => ?_⟩
  · rw [hrun, if_pos h]
  · rw [hrun, if_neg h]

theorem hash_message_safe_iff {len : Nat} (hlen : FIELD_BYTES * len < 2 ^ 32) (st : Stale)
    (out : Vector Field len) (pub : Affine) (rx : Field) :
    Safe out (roinput_hash_message st out len pub rx input) ↔
      usize (bc * 8) < input.bits_len ∨ len < input.fields_len + 3 ∨
        input.fields_len + 3 + chunkCount input.bits_len ≤ len := by
  obtain ⟨d, hd, hfl, hbl, hrefused, hrun⟩ := hash_message_cases hin hfc st pub rx
  by_cases h : usize (bc * 8) < input.bits_len
  · rw [hrefused h]
    exact iff_of_true (.inl rfl) (.inl h)
  · rw [hrun h, safe_iff hd hlen, hfl, hbl, or_iff_right h]

/-! ## The nine elements of `hash_msg` -/

/-- More than nine elements and none of the checks refuses them. -/
theorem hash_msg_overrun (h9 : 9 < input.fields_len + 3 + chunkCount input.bits_len)
    (hbits : ¬usize (bc * 8) < input.bits_len) (hfields : ¬288 < input.fields_len + 3)
    (st : Stale) (out : Vector Field 9) (pub : Affine) (rx : Field) :
    roinput_hash_message st out (9 * FIELD_BYTES) pub rx input = .error .undefined := by
  have hF : FIELD_BYTES = 32 := rfl
  obtain ⟨d, hd, hfl, hbl, -, hrun⟩ := hash_message_cases hin hfc st pub rx
  rw [hrun hbits]
  exact roinput_to_fields_overrun hd out (by omega) (by rw [hfl, hbl]; exact h9)

/-- One of the checks refuses them. -/
theorem hash_msg_refused (h : usize (bc * 8) < input.bits_len ∨ 288 < input.fields_len + 3)
    {len : Nat} (hlen : len ≤ 9 * FIELD_BYTES) (st : Stale) (out : Vector Field 9)
    (pub : Affine) (rx : Field) :
    roinput_hash_message st out len pub rx input = .ok (-1, out) := by
  have hF : FIELD_BYTES = 32 := rfl
  obtain ⟨d, hd, hfl, hbl, hrefused, hrun⟩ := hash_message_cases hin hfc st pub rx
  by_cases hbits : usize (bc * 8) < input.bits_len
  · exact hrefused hbits 9 out len
  · rw [hrun hbits, roinput_to_fields, if_pos (by omega)]; rfl

theorem passed_of_room (h : input.fields_len + 3 + chunkCount input.bits_len ≤ 9) (st : Stale)
    (out : Vector Field 9) (pub : Affine) (rx : Field) :
    roinput_hash_message st out (9 * FIELD_BYTES) pub rx input =
      roinput_hash_message st out 9 pub rx input := by
  have hF : FIELD_BYTES = 32 := rfl
  obtain ⟨d, hd, hfl, hbl, hrefused, hrun⟩ := hash_message_cases hin hfc st pub rx
  by_cases hbits : usize (bc * 8) < input.bits_len
  · rw [hrefused hbits, hrefused hbits]
  · rw [hrun hbits, hrun hbits, roinput_to_fields, roinput_to_fields, if_neg (by omega),
      if_neg (by omega)]

end Message

/-- The exact condition: of each function either a check refuses the input or every
chunk has room. The first two are about the `len` elements, the last about `hash_msg`. -/
theorem packing_respects_iff {input : ROInput fc bc} (hin : input.Within) {len : Nat}
    (hlen : FIELD_BYTES * len < 2 ^ 32) (hfc : FIELD_BYTES * (fc + 3) < 2 ^ 32) :
    Respects input len ↔
      (len < input.fields_len ∨ input.fields_len + chunkCount input.bits_len ≤ len) ∧
      (usize (bc * 8) < input.bits_len ∨ len < input.fields_len + 3 ∨
        input.fields_len + 3 + chunkCount input.bits_len ≤ len) ∧
      (usize (bc * 8) < input.bits_len ∨ 288 < input.fields_len + 3 ∨
        input.fields_len + 3 + chunkCount input.bits_len ≤ 9) := by
  constructor
  · intro h
    refine ⟨(safe_iff hin hlen (Vector.replicate len (ofNum 0))).mp (h.to_fields _),
      (hash_message_safe_iff hin hfc hlen (cleanStack 0) (Vector.replicate len (ofNum 0))
        AFFINE_ONE (ofNum 0)).mp (h.hash_message _ _ _ _), ?_⟩
    by_contra hbad
    rw [not_or, not_or, not_le] at hbad
    obtain ⟨hbits, hfields, h9⟩ := hbad
    have hfalse := h.message_hash h9 constDigest (cleanStack 0) AFFINE_ONE (ofNum 0) 0
    rw [message_hash, hash_msg_overrun hin hfc h9 hbits hfields] at hfalse
    cases hfalse
  · rintro ⟨hfields, hmessage, hhash⟩
    rw [← or_assoc] at hhash
    refine ⟨fun out => (safe_iff hin hlen out).mpr hfields,
      fun st out pub rx => (hash_message_safe_iff hin hfc hlen st out pub rx).mpr hmessage,
      fun st out pub rx => ?_, fun h9 poseidon st pub rx network_id => ?_⟩
    · rcases hhash with h | h
      · rw [hash_msg_refused hin hfc h le_rfl, hash_msg_refused hin hfc h (by decide)]
      · exact passed_of_room hin hfc h st out pub rx
    · have hrefused := hhash.resolve_right (by omega)
      simp only [message_hash, hash_msg_refused hin hfc hrefused le_rfl, ok_bind,
        if_pos (show (-1 : Int) < 0 by norm_num), pure_eq_ok]

/-- Seven fields and one bit. -/
def sevenFields : ROInput 7 1 := ⟨Vector.replicate 7 (ofNum 1), #v[1], 7, 1⟩

/-- Three fields and three bytes into the four elements they take, and into `hash_msg`. -/
theorem packing_respects_three : Respects (⟨Vector.replicate 3 (ofNum 1), #v[1, 2, 3], 3, 24⟩ :
    ROInput 3 3) 4 := by
  refine (packing_respects_iff ⟨by decide, by decide⟩ (by decide) (by decide)).mpr ?_
  decide

/-- They pass the check for seven elements, and the bit is stored in the eighth; hashed
with the key they are eleven elements, of which `hash_msg` has room for nine. -/
theorem sevenFields_overrun : ¬Respects sevenFields 7 ∧
    roinput_to_fields (Vector.replicate 7 (ofNum 0)) 7 sevenFields = .error .undefined ∧
    message_hash constDigest (cleanStack 0) AFFINE_ONE (ofNum 0) sevenFields TESTNET_ID =
      .error .undefined := by
  have hin : sevenFields.Within := ⟨le_rfl, by decide⟩
  have hfields : roinput_to_fields (Vector.replicate 7 (ofNum 0)) 7 sevenFields =
      .error .undefined := roinput_to_fields_overrun hin _ le_rfl (by decide)
  refine ⟨fun h => not_safe_error _ (hfields ▸ h.to_fields _), hfields, ?_⟩
  rw [message_hash, hash_msg_overrun hin (by decide) (by decide) (by decide) (by decide)]
  rfl

end MinaLedger.Bugs.HashMsgOverrun
