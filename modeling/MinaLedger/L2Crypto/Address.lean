import MinaLedger.L1Encoding.Base58Decode
import MinaLedger.L1Encoding.Base58Encode
import MinaLedger.L2Crypto.Field

/-!
# Addresses

An address is the base-58 text of 40 bytes: version, kind, the reversed
x-coordinate, the parity of y and four bytes of a double hash. SHA-256 is not
part of the repository, so it is an arbitrary function here.

Results:
* `generate_address_eq`: the generated text is that of `addressBytes`, and it
  has exactly 55 characters (`length_addressText`).
* `validate_address_seen`, `read_public_key_compressed_seen`: the two readers look
  at the bytes the text decodes to, or at what their buffer held before if it
  does not decode (`seenBytes`).
* `address_round_trip`: every generated address is accepted and gives its key
  back.
-/
namespace MinaLedger
open Lib.Radix

variable {n : Nat}

section Functions

variable (sha256 : List UInt8 → Vector UInt8 32)

/-- mirrors src/src/crypto.c:524-567 -/
def generate_address (st : Stale) (address : Vector UInt8 n) (len : Nat) (pub_key : Affine) :
    Exec (Bool × Vector UInt8 n) := do
  if len ≠ MINA_ADDRESS_LEN then
    let address ← store address 0 0
    return (false, address)
  let version : UInt8 := 0xcb
  -- kinds, reversed x-coordinate, y-coordinate parity
  let payload : List UInt8 :=
    [0x01, 0x01] ++ pub_key.x.toList.reverse ++ [if field_is_odd pub_key.y then 1 else 0]
  let hash1 := sha256 (version :: payload)
  let hash2 := sha256 hash1.toList
  let checksum := hash2.toList.take 4
  let raw := version :: payload ++ checksum
  let (result, address) ← b58_encode st raw 40 address len
  let address ← store address (MINA_ADDRESS_LEN - 1) 0
  if result < 0 then
    let address ← store address 0 0
    return (false, address)
  if result ≠ MINA_ADDRESS_LEN - 1 then
    let address ← store address 0 0
    return (false, address)
  return (true, address)

/-- mirrors src/src/crypto.c:569-592 -/
def validate_address (st : Stale) (address : List UInt8) : Exec Bool := do
  let bytes : Vector UInt8 40 := st.array 40
  if strnlen address MINA_ADDRESS_LEN ≠ MINA_ADDRESS_LEN - 1 then
    return false
  -- the result of the decoder is not looked at
  let (_, bytes, _) ← b58_decode bytes 40 address (MINA_ADDRESS_LEN - 1)
  let hash1 := sha256 (bytes.toList.take 36)
  let hash2 := sha256 hash1.toList
  return bytes.toList.drop 36 == hash2.toList.take 4

end Functions

/-- mirrors src/src/utils.c:267-288 -/
def read_public_key_compressed (st : Stale) (out : Compressed) (address : List UInt8) :
    Exec Compressed := do
  if strnlen address MINA_ADDRESS_LEN ≠ MINA_ADDRESS_LEN - 1 then
    return out
  let bytes : Vector UInt8 40 := st.array 40
  let (_, bytes, _) ← b58_decode bytes 40 address (MINA_ADDRESS_LEN - 1)
  let payload := (bytes.toList.drop 1).take 35
  -- extract the x-coordinate and swap its byte order
  return { x := ⟨((payload.drop 2).take 32).reverse.toArray, by simp [payload]⟩
           is_odd := payload.getD 34 0 ≠ 0 }

/-! ## The address of a key -/

/-- The 36 bytes that are hashed. -/
def addressBody (x : Field) (odd : UInt8) : List UInt8 :=
  [0xcb, 0x01, 0x01] ++ x.toList.reverse ++ [odd]

/-- The four checksum bytes of a body. -/
def checksum (sha256 : List UInt8 → Vector UInt8 32) (body : List UInt8) : List UInt8 :=
  (sha256 (sha256 body).toList).toList.take 4

def addressBytes (sha256 : List UInt8 → Vector UInt8 32) (x : Field) (odd : UInt8) : List UInt8 :=
  addressBody x odd ++ checksum sha256 (addressBody x odd)

def oddByte (b : Bool) : UInt8 := if b then 1 else 0

variable (sha256 : List UInt8 → Vector UInt8 32)

@[simp] theorem length_checksum (body : List UInt8) : (checksum sha256 body).length = 4 := by
  simp [checksum]

@[simp] theorem length_addressBody (x : Field) (odd : UInt8) : (addressBody x odd).length = 36 := by
  simp [addressBody]

@[simp] theorem length_addressBytes (x : Field) (odd : UInt8) :
    (addressBytes sha256 x odd).length = 40 := by simp [addressBytes]

/-- Forty bytes that start with 0xcb have a text of 55 characters, none a leading '1'. -/
theorem length_b58Text_cb {bytes : List UInt8} (hlen : bytes.length = 40)
    (hhead : bytes.head? = some 0xcb) : (b58Text bytes).length = 55 := by
  obtain ⟨rest, rfl⟩ : ∃ rest, bytes = 0xcb :: rest := by
    cases bytes with
    | nil => simp at hhead
    | cons b rest => exact ⟨rest, by rw [List.head?_cons] at hhead; rw [Option.some.inj hhead]⟩
  have hrest : rest.length = 39 := by simpa using hlen
  have hlt : beVal rest < 256 ^ 39 := hrest ▸ beVal_lt rest
  have hcb : (0xcb : UInt8).toNat = 203 := rfl
  have hval : beVal (0xcb :: rest) = 203 * 256 ^ 39 + beVal rest := by
    rw [beVal_cons, hrest, hcb]
  have hz : (((0xcb : UInt8) :: rest).takeWhile (· = 0)).length = 0 := by
    rw [List.takeWhile_cons_of_neg (by decide)]; rfl
  have hlow : 58 ^ 54 ≤ 203 * 256 ^ 39 := by norm_num
  have hhigh : 203 * 256 ^ 39 + 256 ^ 39 ≤ 58 ^ 55 := by norm_num
  have h1 := length_digitsBE_le (b := 58) (k := 55) (by norm_num)
    (show beVal (0xcb :: rest) < 58 ^ 55 by omega)
  have h2 := lt_length_digitsBE (b := 58) (k := 54) (by norm_num)
    (show 58 ^ 54 ≤ beVal (0xcb :: rest) by omega)
  rw [b58Text, List.length_append, List.length_map, List.length_replicate, hz]
  omega

/-- The text of a key's address. -/
def addressText (x : Field) (odd : UInt8) : List UInt8 := b58Text (addressBytes sha256 x odd)

theorem length_addressText (x : Field) (odd : UInt8) : (addressText sha256 x odd).length = 55 :=
  length_b58Text_cb (length_addressBytes sha256 x odd) rfl

/-! ## Generating -/

/-- `generate_address` writes the text and a NUL, and never fails. -/
theorem generate_address_eq (st : Stale) (address : Vector UInt8 56) (pub : Affine) :
    ∃ r, generate_address sha256 st address MINA_ADDRESS_LEN pub = .ok (true, r) ∧
      r.toList = addressText sha256 pub.x (oddByte (field_is_odd pub.y)) ++ [0] := by
  have hlen := length_addressText sha256 pub.x (oddByte (field_is_odd pub.y))
  have h40 := length_addressBytes sha256 pub.x (oddByte (field_is_odd pub.y))
  have htake : (addressBytes sha256 pub.x (oddByte (field_is_odd pub.y))).take 40 =
      addressBytes sha256 pub.x (oddByte (field_is_odd pub.y)) := List.take_of_length_le (le_of_eq h40)
  obtain ⟨r, hwrite, hr⟩ := writeBytes_toList address 0
    (addressText sha256 pub.x (oddByte (field_is_odd pub.y))) (by rw [hlen]; omega)
  rw [hlen, List.take_zero, List.nil_append] at hr
  obtain ⟨r', hstore, hr'⟩ := store_toList r 55 0 (by norm_num)
  have henc := b58_encode_eq st (show 40 ≤ 82 by norm_num) (le_of_eq h40.symm) address 56
  rw [htake, ← addressText, hlen, if_neg (by norm_num), hwrite, ok_bind] at henc
  refine ⟨r', ?_, ?_⟩
  · unfold generate_address
    rw [if_neg (by simp)]
    change (b58_encode st (addressBytes sha256 pub.x (oddByte (field_is_odd pub.y))) 40 address 56 >>=
      fun _ => _) = _
    rw [henc]
    simp [MINA_ADDRESS_LEN, hstore]
  · have htail : ∃ b, address.toList.drop 55 = [b] :=
      List.length_eq_one_iff.mp (by simp)
    obtain ⟨b, hb⟩ := htail
    rw [hr', hr, Nat.zero_add, hb, List.set_append_right _ _ (by omega), hlen]; rfl

/-! ## Reading back -/

/-- A text the two readers look at: 55 characters before the NUL. -/
theorem le_length_of_strnlen {address : List UInt8} (h : strnlen address 56 = 55) :
    55 ≤ address.length := by
  have h1 := (List.takeWhile_prefix (p := fun b : UInt8 => decide (b ≠ 0))
    (l := address.take 56)).length_le
  have h2 := List.length_take_le' 56 address
  unfold strnlen at h
  omega

theorem strnlen_append_zero {s rest : List UInt8} (hlen : s.length = 55) (h : (0 : UInt8) ∉ s) :
    strnlen (s ++ 0 :: rest) 56 = 55 := by
  have htake : (s ++ 0 :: rest).take 56 = s ++ [0] := by
    rw [List.take_append, List.take_of_length_le (by omega), hlen]; rfl
  rw [strnlen, htake, List.takeWhile_append_of_pos (fun b hb => by
    have : b ≠ 0 := fun h0 => h (h0 ▸ hb)
    simpa using this)]
  simp [hlen]

theorem zero_not_mem {s : List UInt8} (h : IsB58 s) : (0 : UInt8) ∉ s := fun h0 =>
  absurd (h 0 h0) (by decide)

/-- The forty bytes a text decodes to. -/
def addressDecode (s : List UInt8) : List UInt8 := beBytes 40 (b58Value s)

/-- `bytes[40]` behind the call of `b58_decode`: where it fails, what was there before. -/
def seenBytes (st : Stale) (address : List UInt8) : List UInt8 :=
  if Decodes 40 (address.take 55) then addressDecode (address.take 55) else (st.array 40).toList

/-- The key in forty bytes. -/
def keyOf (bytes : List UInt8) : Compressed :=
  ⟨ofNum (leVal ((bytes.drop 3).take 32)), decide (bytes.getD 35 0 ≠ 0)⟩

theorem length_seenBytes (st : Stale) (address : List UInt8) :
    (seenBytes st address).length = 40 := by
  unfold seenBytes addressDecode
  split <;> simp

theorem num_keyOf (bytes : List UInt8) : num (keyOf bytes).x = leVal ((bytes.drop 3).take 32) := by
  have hlt := leVal_lt ((bytes.drop 3).take 32)
  have hle := Nat.pow_le_pow_right (show 0 < 256 by norm_num)
    (List.length_take_le 32 (bytes.drop 3))
  exact num_ofNum (lt_of_lt_of_le hlt hle)

theorem toList_keyOf {bytes : List UInt8} (h : bytes.length = 40) :
    (keyOf bytes).x.toList = ((bytes.drop 3).take 32).reverse := by
  have hlen : ((bytes.drop 3).take 32).reverse.length = 32 := by simp [h]
  refine beVal_inj (by rw [Vector.length_toList, hlen]) ?_
  rw [beVal_reverse]
  exact num_keyOf bytes

section Readers

variable {address : List UInt8} (hlen : strnlen address 56 = 55)

include hlen

theorem b58_decode_seen (st : Stale) :
    ∃ ok bin k, b58_decode (st.array 40) 40 address 55 = .ok (ok, bin, k) ∧
      bin.toList = seenBytes st address := by
  have hmem := le_length_of_strnlen hlen
  by_cases hdec : Decodes 40 (address.take 55)
  · obtain ⟨bin, hbin, hlist⟩ := b58_decode_true (st.array 40) (by norm_num) (by norm_num) hmem hdec
    exact ⟨_, _, _, hbin, by rw [hlist, seenBytes, if_pos hdec]; rfl⟩
  · exact ⟨_, _, _, b58_decode_false (st.array 40) (by norm_num) (by norm_num) hmem hdec, by
      rw [seenBytes, if_neg hdec]⟩

/-- The verdict is about the bytes seen. -/
theorem validate_address_seen (st : Stale) :
    validate_address sha256 st address =
      .ok ((seenBytes st address).drop 36 == checksum sha256 ((seenBytes st address).take 36)) := by
  obtain ⟨ok, bin, k, hbin, hlist⟩ := b58_decode_seen hlen st
  unfold validate_address
  rw [if_neg (by simpa [MINA_ADDRESS_LEN] using hlen)]
  simp only [MINA_ADDRESS_LEN, show 56 - 1 = 55 from rfl, hbin, ok_bind, pure_eq_ok, hlist]
  rfl

/-- So is the key. -/
theorem read_public_key_compressed_seen (st : Stale) (out : Compressed) :
    read_public_key_compressed st out address = .ok (keyOf (seenBytes st address)) := by
  obtain ⟨ok, bin, k, hbin, hlist⟩ := b58_decode_seen hlen st
  have hx := toList_keyOf (length_seenBytes st address)
  unfold read_public_key_compressed
  rw [if_neg (by simpa [MINA_ADDRESS_LEN] using hlen)]
  simp only [MINA_ADDRESS_LEN, show 56 - 1 = 55 from rfl, hbin, ok_bind, pure_eq_ok]
  refine congrArg _ (Compressed.ext (Vector.toList_inj.mp ?_) ?_)
  · rw [hx, ← hlist]
    simp [List.drop_take, List.take_take]
  · rw [keyOf, ← hlist]
    simp [List.getD_eq_getElem?_getD]

variable (hdec : Decodes 40 (address.take 55))

include hdec

/-- A text that decodes is judged on its own bytes. -/
theorem validate_address_eq (st : Stale) :
    validate_address sha256 st address =
      .ok ((addressDecode (address.take 55)).drop 36 ==
        checksum sha256 ((addressDecode (address.take 55)).take 36)) := by
  rw [validate_address_seen sha256 hlen, seenBytes, if_pos hdec]

/-- The key a text that decodes stands for, on every reading of it. -/
theorem read_public_key_compressed_eq (st : Stale) (out : Compressed) :
    read_public_key_compressed st out address = .ok (keyOf (addressDecode (address.take 55))) := by
  rw [read_public_key_compressed_seen hlen, seenBytes, if_pos hdec]

end Readers

/-- A text of another length is rejected before it is decoded. -/
theorem validate_address_of_length {address : List UInt8} (hlen : strnlen address 56 ≠ 55)
    (st : Stale) : validate_address sha256 st address = .ok false := by
  unfold validate_address
  rw [if_pos (by simpa [MINA_ADDRESS_LEN] using hlen)]; rfl

theorem strnlen_of_valid {st : Stale} {address : List UInt8}
    (h : validate_address sha256 st address = .ok true) :
    strnlen address 56 = 55 := by
  by_contra hlen
  rw [validate_address_of_length sha256 hlen] at h
  simp at h

/-- The key read from a text that is valid is the key of the bytes its reading sees. -/
theorem read_of_valid {st st' : Stale} {address : List UInt8} {pk : Compressed}
    (h : validate_address sha256 st address = .ok true)
    (hread : ∃ out, read_public_key_compressed st' out address = .ok pk) :
    pk = keyOf (seenBytes st' address) := by
  obtain ⟨out, hout⟩ := hread
  rw [read_public_key_compressed_seen (strnlen_of_valid sha256 h)] at hout
  exact (Except.ok.inj hout).symm

/-- The readers return on every string. -/
theorem validate_address_returns (st : Stale) (address : List UInt8) :
    ∃ b, validate_address sha256 st address = .ok b := by
  by_cases hlen : strnlen address 56 = 55
  · exact ⟨_, validate_address_seen sha256 hlen st⟩
  · exact ⟨_, validate_address_of_length sha256 hlen st⟩

theorem read_public_key_compressed_returns (st : Stale) (out : Compressed) (address : List UInt8) :
    ∃ pk, read_public_key_compressed st out address = .ok pk := by
  by_cases hlen : strnlen address 56 = 55
  · exact ⟨_, read_public_key_compressed_seen hlen st out⟩
  · refine ⟨out, ?_⟩
    unfold read_public_key_compressed
    rw [if_pos (by simpa [MINA_ADDRESS_LEN] using hlen)]; rfl

/-! ## The round trip -/

theorem decodes_addressText (x : Field) (odd : UInt8) :
    Decodes 40 (addressText sha256 x odd) ∧
      addressDecode (addressText sha256 x odd) = addressBytes sha256 x odd := by
  have h40 := length_addressBytes sha256 x odd
  have hval : b58Value (addressText sha256 x odd) = beVal (addressBytes sha256 x odd) :=
    b58Value_b58Text _
  have hlt := beVal_lt (addressBytes sha256 x odd)
  rw [h40] at hlt
  refine ⟨⟨isB58_b58Text _, by rw [hval]; exact hlt⟩, ?_⟩
  rw [addressDecode, hval, beBytes_beVal h40]

/-- What every reader makes of the text of a key. -/
theorem read_addressText (x : Field) (odd : UInt8) {address : List UInt8}
    (h : address = addressText sha256 x odd ++ [0]) (st : Stale) (out : Compressed) :
    validate_address sha256 st address = .ok true ∧
    read_public_key_compressed st out address = .ok ⟨x, decide (odd ≠ 0)⟩ := by
  have hlen := length_addressText sha256 x odd
  obtain ⟨hdec, hbytes⟩ := decodes_addressText sha256 x odd
  have htake : address.take 55 = addressText sha256 x odd := by rw [h, List.take_left' hlen]
  have hstr : strnlen address 56 = 55 := by
    rw [h]; exact strnlen_append_zero hlen (zero_not_mem hdec.1)
  rw [← htake] at hdec hbytes
  refine ⟨?_, ?_⟩
  · rw [validate_address_eq sha256 hstr hdec, hbytes, addressBytes,
      List.drop_left' (length_addressBody x odd), List.take_left' (length_addressBody x odd)]
    simp
  · rw [read_public_key_compressed_eq hstr hdec, hbytes]
    refine congrArg _ (Compressed.ext (Vector.toList_inj.mp ?_) ?_)
    · rw [toList_keyOf (length_addressBytes sha256 x odd), addressBytes, addressBody]
      simp
    · rw [keyOf, addressBytes, addressBody]
      simp [List.getD_eq_getElem?_getD]

theorem oddByte_ne_zero (b : Bool) : decide (oddByte b ≠ 0) = b := by cases b <;> rfl

/-- Every generated address has 55 characters, is accepted and gives back its
key; so two keys never share one. The buffers may hold anything before. -/
theorem address_round_trip (st st' st'' : Stale) (buf : Vector UInt8 56) (out : Compressed)
    (pub : Affine) :
    ∃ address s, generate_address sha256 st buf MINA_ADDRESS_LEN pub = .ok (true, address) ∧
      (address.toList = s ++ [0] ∧ s.length = 55 ∧ IsB58 s) ∧
      validate_address sha256 st' address.toList = .ok true ∧
      read_public_key_compressed st'' out address.toList =
        .ok ⟨pub.x, decide (num pub.y % 2 = 1)⟩ ∧
      ∀ (stq : Stale) (bufq : Vector UInt8 56) (pubq : Affine),
        generate_address sha256 stq bufq MINA_ADDRESS_LEN pubq = .ok (true, address) →
          pubq.x = pub.x ∧ num pubq.y % 2 = num pub.y % 2 := by
  have hread : ∀ (stq : Stale) (bufq : Vector UInt8 56) (pubq : Affine) (address : Vector UInt8 56),
      generate_address sha256 stq bufq MINA_ADDRESS_LEN pubq = .ok (true, address) →
      read_public_key_compressed st'' out address.toList =
        .ok ⟨pubq.x, decide (num pubq.y % 2 = 1)⟩ := by
    intro stq bufq pubq address h
    obtain ⟨r, hr, hlist⟩ := generate_address_eq sha256 stq bufq pubq
    obtain rfl : r = address := (Prod.mk.inj (Except.ok.inj (hr.symm.trans h))).2
    rw [(read_addressText sha256 _ _ hlist st'' out).2, oddByte_ne_zero, field_is_odd_eq]
  obtain ⟨address, hgen, hlist⟩ := generate_address_eq sha256 st buf pub
  refine ⟨address, _, hgen, ⟨hlist, length_addressText sha256 _ _,
    (decodes_addressText sha256 _ _).1.1⟩, (read_addressText sha256 _ _ hlist st' out).1,
    hread st buf pub address hgen, fun stq bufq pubq hq => ?_⟩
  have heq := (hread stq bufq pubq address hq).symm.trans (hread st buf pub address hgen)
  obtain ⟨hx, hodd⟩ := Compressed.mk.inj (Except.ok.inj heq)
  have hiff := decide_eq_decide.mp hodd
  exact ⟨hx, by omega⟩

/-! ## Two known texts -/

/-- The receiver of src/tests/random_oracle_input_tests.c. -/
def receiver : List UInt8 := chars "B62qrcFstkpqXww1EkSGrqMCwCNho86kuqBd4FrAAUsPxNKdiPzAUsy"

/-- Its version, kinds and reversed x. -/
def receiverBytes : List UInt8 := [
    203, 1, 1, 243, 75, 80, 94, 26, 5, 236, 251, 50, 125, 141, 102, 79, 246, 39, 45, 223, 92,
    193, 246, 150, 24, 187, 106, 68, 7, 233, 83, 48, 103, 231, 3]

/-- SHA-256 on the strings hashed for `receiver` and for the same bytes with parity byte 2. -/
def sha256Table (l : List UInt8) : Vector UInt8 32 :=
  let first : Vector UInt8 32 := #v[
      208, 245, 231, 147, 86, 139, 19, 85, 44, 245, 244, 72, 145, 184, 24, 146, 95, 15, 50, 226,
      41, 182, 230, 13, 76, 136, 98, 136, 10, 73, 238, 5]
  let again : Vector UInt8 32 := #v[
      66, 106, 137, 239, 50, 51, 106, 85, 252, 31, 94, 130, 96, 8, 49, 95, 54, 100, 220, 213,
      40, 243, 70, 234, 164, 222, 161, 181, 74, 221, 186, 204]
  if l = receiverBytes ++ [1] then first
  else if l = first.toList then #v[
      229, 81, 56, 80, 157, 242, 225, 37, 40, 237, 94, 166, 253, 78, 237, 101, 115, 29, 129, 20,
      96, 200, 96, 239, 2, 106, 14, 103, 219, 185, 143, 7]
  else if l = receiverBytes ++ [2] then again
  else if l = again.toList then #v[
      218, 202, 46, 177, 16, 156, 113, 135, 195, 65, 88, 198, 43, 155, 141, 100, 128, 89, 122,
      171, 108, 25, 101, 0, 2, 118, 173, 170, 154, 98, 10, 221]
  else Vector.replicate 32 0

theorem decodes_receiver : Decodes 40 receiver := by decide +kernel

theorem accepted_receiver (st : Stale) :
    validate_address sha256Table st (receiver ++ [0]) = .ok true := by
  rw [validate_address_eq sha256Table (by decide +kernel) (by decide +kernel)]; decide +kernel

end MinaLedger
