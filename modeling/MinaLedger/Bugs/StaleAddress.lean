import MinaLedger.Bugs.AddressKind

/-!
# Address validation can read the stack

`validate_address` and `read_public_key_compressed` declare `bytes[40]` and
drop the result of `b58_decode`, which writes the array only when it returns
true. A text of 55 characters that does not decode is therefore judged on what
the array held before.

Counterexample: fifty-five '0' characters, not one of them in the alphabet, are
accepted when the array still holds the forty bytes of `receiver`, and read as
its key.

The exact condition (`staleFree_iff`): the outcome is independent of the old
content if and only if the text has not 55 characters or decodes.
-/
namespace MinaLedger.Bugs.StaleAddress
open Lib.Radix AddressKind

/-- The verdict is the same for every old content; and when the text is accepted,
it is 55 characters that decode, and the key read from it is the same too. -/
def StaleFree (sha256 : List UInt8 → Vector UInt8 32) (address : List UInt8) : Prop :=
  (∀ st st', validate_address sha256 st address = validate_address sha256 st' address) ∧
  ∀ st, validate_address sha256 st address = .ok true →
    (strnlen address MINA_ADDRESS_LEN = 55 ∧ Decodes 40 (address.take 55)) ∧
    ∀ st₁ st₂ out, read_public_key_compressed st₁ out address =
      read_public_key_compressed st₂ out address

variable (sha256 : List UInt8 → Vector UInt8 32) {address : List UInt8}

/-! ## Texts that do not decode -/

section Undecodable

variable (hlen : strnlen address 56 = 55) (hdec : ¬Decodes 40 (address.take 55))

include hlen hdec

/-- The verdict is about the old content, not about the text. -/
theorem validate_address_stale (st : Stale) :
    validate_address sha256 st address =
      .ok ((st.array 40).toList.drop 36 == checksum sha256 ((st.array 40).toList.take 36)) := by
  rw [validate_address_seen sha256 hlen, seenBytes, if_neg hdec]

/-- The key is the one in the old content. -/
theorem read_public_key_compressed_stale (st : Stale) (out : Compressed) :
    read_public_key_compressed st out address = .ok (keyOf (st.array 40).toList) := by
  rw [read_public_key_compressed_seen hlen, seenBytes, if_neg hdec]

end Undecodable

/-- A stack that holds the given bytes. -/
def holding (bytes : List UInt8) : Stale := ⟨fun i => bytes.getD i 0⟩

theorem array_holding {bytes : List UInt8} {n : Nat} (h : bytes.length = n) :
    ((holding bytes).array n).toList = bytes := by
  refine List.ext_getElem (by simp [h]) fun i h1 h2 => ?_
  simp [Stale.array, holding, List.getD_eq_getElem?_getD, h2]

/-- Some content is accepted, and some is not. -/
theorem verdict_depends (hlen : strnlen address 56 = 55)
    (hdec : ¬Decodes 40 (address.take 55)) :
    ∃ st st', validate_address sha256 st address = .ok true ∧
      validate_address sha256 st' address = .ok false := by
  let body : List UInt8 := List.replicate 36 0
  have hbody : body.length = 36 := List.length_replicate
  have hsum : (checksum sha256 body).length = 4 := length_checksum sha256 body
  -- any four bytes that are not the checksum
  let wrong := (checksum sha256 body).map (· + 1)
  have hwrong : wrong.length = 4 := by simp [wrong]
  have hne : wrong ≠ checksum sha256 body := by
    obtain ⟨b, l, hbl⟩ := List.exists_cons_of_length_pos (by omega : 0 < (checksum sha256 body).length)
    simp only [wrong, hbl, List.map_cons]
    intro h
    have hb : b + 1 = b := (List.cons.inj h).1
    simp at hb
  refine ⟨holding (body ++ checksum sha256 body), holding (body ++ wrong), ?_, ?_⟩
  · rw [validate_address_stale sha256 hlen hdec, array_holding (by simp [hbody]),
      List.take_left' hbody, List.drop_left' hbody, beq_self_eq_true]
  · rw [validate_address_stale sha256 hlen hdec, array_holding (by simp [hbody, hwrong]),
      List.take_left' hbody, List.drop_left' hbody]
    exact congrArg _ (beq_eq_false_iff_ne.mpr hne)

/-! ## The exact condition -/

theorem staleFree_of_decodes (hlen : strnlen address 56 = 55)
    (hdec : Decodes 40 (address.take 55)) : StaleFree sha256 address := by
  refine ⟨fun st st' => ?_, fun _ _ => ⟨⟨hlen, hdec⟩, fun st₁ st₂ out => ?_⟩⟩
  · rw [validate_address_eq sha256 hlen hdec, validate_address_eq sha256 hlen hdec]
  · rw [read_public_key_compressed_eq hlen hdec, read_public_key_compressed_eq hlen hdec]

/-- The exact condition, for every string and every hash. -/
theorem staleFree_iff (address : List UInt8) :
    StaleFree sha256 address ↔
      (strnlen address MINA_ADDRESS_LEN ≠ 55 ∨ Decodes 40 (address.take 55)) := by
  constructor
  · intro h
    by_contra hno
    rw [not_or, not_not] at hno
    obtain ⟨st, st', htrue, hfalse⟩ := verdict_depends sha256 hno.1 hno.2
    have := htrue.symm.trans ((h.1 st st').trans hfalse)
    simp at this
  · rintro (hlen | hdec)
    · refine ⟨fun st st' => ?_, fun st hst => ?_⟩
      · rw [validate_address_of_length sha256 hlen, validate_address_of_length sha256 hlen]
      · rw [validate_address_of_length sha256 hlen] at hst; simp at hst
    · by_cases hlen : strnlen address 56 = 55
      · exact staleFree_of_decodes sha256 hlen hdec
      · refine ⟨fun st st' => ?_, fun st hst => ?_⟩
        · rw [validate_address_of_length sha256 hlen, validate_address_of_length sha256 hlen]
        · rw [validate_address_of_length sha256 hlen] at hst; simp at hst

/-! ## Fifty-five zeros -/

/-- '0' is not in the alphabet. -/
def zeros : List UInt8 := List.replicate 55 48 ++ [0]

/-- The array after `receiver` has been looked at. -/
def afterReceiver : Stale := holding (addressDecode receiver)

/-- The zeros are rejected on a stack of ones, and accepted as the receiver's key
on the one its validation leaves behind. -/
theorem zeros_accepted_after_receiver :
    (∀ c ∈ zeros.take 55, c ∉ B58_ALPHABET) ∧
    validate_address sha256Table afterReceiver (receiver ++ [0]) = .ok true ∧
    validate_address sha256Table ⟨fun _ => 1⟩ zeros = .ok false ∧
    validate_address sha256Table afterReceiver zeros = .ok true ∧
    (∀ out, read_public_key_compressed afterReceiver out zeros =
      read_public_key_compressed afterReceiver out (receiver ++ [0])) ∧
    ¬StaleFree sha256Table zeros := by
  have hlen : strnlen zeros 56 = 55 := by decide
  have hdec : ¬Decodes 40 (zeros.take 55) := by decide +kernel
  have h40 : (addressDecode receiver).length = 40 := length_beBytes 40 _
  have harr : (afterReceiver.array 40).toList = addressDecode receiver := array_holding h40
  have hones : validate_address sha256Table ⟨fun _ => 1⟩ zeros = .ok false := by
    rw [validate_address_stale sha256Table hlen hdec]; decide +kernel
  have hafter : validate_address sha256Table afterReceiver zeros = .ok true := by
    rw [validate_address_stale sha256Table hlen hdec, harr]; decide +kernel
  refine ⟨by decide +kernel, accepted_receiver _, hones, hafter, fun out => ?_, fun h => ?_⟩
  · rw [read_public_key_compressed_stale hlen hdec, harr, read_text (by decide +kernel) decodes_receiver]
  · have := hones.symm.trans ((h.1 _ _).trans hafter)
    simp at this

end MinaLedger.Bugs.StaleAddress
