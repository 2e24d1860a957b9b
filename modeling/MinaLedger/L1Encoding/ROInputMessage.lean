import MinaLedger.L1Encoding.ROInput

/-!
# Messages from the random-oracle input

src/src/random_oracle_input.c, the half that reads an `ROInput` out again: as
the bytes the nonce is derived from and as the field elements that are hashed.
Both callers first copy the message into larger local arrays, whose previous
content is a `Stale`.

Results:
* `roinput_to_fields_spec`: the output is the fields followed by the bits in
  chunks of 254, one element a chunk.
* `roinput_hash_message_spec`: so for the message with the public key and rx
  appended.
* `roinput_to_bytes_spec`, `roinput_derive_message_spec`: the bits written are
  the low 255 bits of every field and then the bits, private key and network
  included.
-/
namespace MinaLedger
open Lib.Radix Lib.BitString

variable {fc bc n : Nat}

/-! ## The functions -/

/-- An uninitialised `Field[n]`. -/
def Stale.fieldArray (s : Stale) (n : Nat) : Vector Field n :=
  Vector.ofFn fun i => Vector.ofFn fun j => s.bytes (2 ^ 16 + 32 * i + j)

/-- One field of `roinput_to_bytes`. mirrors src/src/random_oracle_input.c:111-119 -/
def fieldToBits (field : Field) (s : Vector UInt8 n × Nat) : Exec (Vector UInt8 n × Nat) :=
  (List.range FIELD_BITS).foldlM (fun s j => do
    let b ← packed_bit_array_get field j
    let out ← packed_bit_array_set s.1 s.2 b
    return (out, s.2 + 1)) s

/-- mirrors src/src/random_oracle_input.c:105-126 -/
def roinput_to_bytes (out : Vector UInt8 n) (input : ROInput fc bc) : Exec (Vector UInt8 n) := do
  let s ← (List.range input.fields_len).foldlM (fun s i => do
    let field_bits ← load input.fields.toList i
    fieldToBits field_bits s) (out, 0)
  let s ← (List.range input.bits_len).foldlM (fun s i => do
    let b ← packed_bit_array_get input.bits i
    let out ← packed_bit_array_set s.1 s.2 b
    return (out, s.2 + 1)) s
  return s.1

/-- `tmp` of one round. mirrors src/src/random_oracle_input.c:149-162 -/
def packChunk (input : ROInput fc bc) (bits_consumed chunk_size_in_bits : Nat) : Exec Field :=
  (List.range chunk_size_in_bits).foldlM (fun tmp i => do
    let b ← packed_bit_array_get input.bits (bits_consumed + i)
    packed_bit_array_set tmp i b) (Vector.replicate 32 0)

/-- The `while` loop. mirrors src/src/random_oracle_input.c:148-165 -/
def packBits (input : ROInput fc bc) : Nat → Vector Field n → Nat → Nat → Exec (Vector Field n × Nat)
  | 0, out, output_len, bits_consumed =>
    if bits_consumed < input.bits_len then .error .outOfFuel else .ok (out, output_len)
  | fuel + 1, out, output_len, bits_consumed =>
    if bits_consumed < input.bits_len then do
      let MAX_CHUNK_SIZE := FIELD_BITS - 1
      let remaining := input.bits_len - bits_consumed
      let chunk := if remaining ≥ MAX_CHUNK_SIZE then MAX_CHUNK_SIZE else remaining
      let tmp ← packChunk input bits_consumed chunk
      let out ← store out output_len tmp.reverse
      packBits input fuel out (output_len + 1) (bits_consumed + chunk)
    else .ok (out, output_len)

/-- The returned length and the output array. mirrors src/src/random_oracle_input.c:128-168 -/
def roinput_to_fields (out : Vector Field n) (len : Nat) (input : ROInput fc bc) :
    Exec (Int × Vector Field n) := do
  if len < input.fields_len then
    return (-1, out)
  let out ← (List.range input.fields_len).foldlM (fun out i => do
    let field ← load input.fields.toList i
    store out i field.reverse) out
  let (out, output_len) ← packBits input input.bits_len out input.fields_len 0
  return (cint output_len, out)

/-- The two `memcpy` and the lengths.
mirrors src/src/random_oracle_input.c:183-186, 217-220 -/
def ROInput.copy {fc' bc' : Nat} (input : ROInput fc' bc') (msg : ROInput fc bc) :
    Exec (ROInput fc' bc') := do
  let fields ← writeBytes input.fields 0 (← readBytes msg.fields.toList 0 msg.fields_len)
  let bits ← writeBytes input.bits 0 (← readBytes msg.bits.toList 0 (usize (msg.bits_len + 7) / 8))
  return ⟨fields, bits, msg.fields_len, msg.bits_len⟩

/-- mirrors src/src/random_oracle_input.c:170-202 -/
def roinput_derive_message (st : Stale) (out : Vector UInt8 n) (len : Nat) (kp : Keypair)
    (msg : ROInput fc bc) (network_id : UInt8) : Exec (Int × Vector UInt8 n) := do
  let input : ROInput (fc + 2) (bc + SCALAR_BYTES + 1) :=
    ⟨st.fieldArray _, st.array _, 0, 0⟩
  if msg.fields_len > fc + 2 then
    return (-1, out)
  if msg.bits_len > usize ((bc + SCALAR_BYTES + 1) * 8) then
    return (-1, out)
  let input ← input.copy msg
  let input ← roinput_add_field input kp.pub.x
  let input ← roinput_add_field input kp.pub.y
  let input ← roinput_add_scalar input kp.priv
  let input ← roinput_add_bytes input [network_id] 1
  let input_size_in_bytes := usize (input.bits_len + FIELD_BITS * input.fields_len + 7) / 8
  let out ← if input_size_in_bytes ≤ len then roinput_to_bytes out input else pure out
  return (if input_size_in_bytes > len then -1 else cint input_size_in_bytes, out)

/-- mirrors src/src/random_oracle_input.c:204-227 -/
def roinput_hash_message (st : Stale) (out : Vector Field n) (len : Nat) (pub : Affine) (rx : Field)
    (msg : ROInput fc bc) : Exec (Int × Vector Field n) := do
  let input : ROInput (fc + 3) bc := ⟨st.fieldArray _, st.array _, 0, 0⟩
  if msg.fields_len > fc + 3 then
    return (-1, out)
  if msg.bits_len > usize (bc * 8) then
    return (-1, out)
  let input ← input.copy msg
  let input ← roinput_add_field input pub.x
  let input ← roinput_add_field input pub.y
  let input ← roinput_add_field input rx
  roinput_to_fields out len input

/-! ## Copying the message -/

/-- The copy has the message's content. -/
theorem copy_spec {fc' bc' : Nat} (input : ROInput fc' bc') {msg : ROInput fc bc}
    (hin : msg.Within) (hfc : fc ≤ fc') (hbc : bc ≤ bc') :
    ∃ r, input.copy msg = .ok r ∧ r.fieldList = msg.fieldList ∧
      (msg.bits_len + 7 < 2 ^ 32 → r.bitString = msg.bitString) ∧
      r.fields_len = msg.fields_len ∧ r.bits_len = msg.bits_len := by
  obtain ⟨h1, h2⟩ := hin
  have hwrap : usize (msg.bits_len + 7) ≤ msg.bits_len + 7 := Nat.mod_le _ _
  have hbytes : usize (msg.bits_len + 7) / 8 ≤ bc := by omega
  have hrf := readBytes_eq msg.fields.toList 0 msg.fields_len (by simpa using h1)
  have hrb := readBytes_eq msg.bits.toList 0 (usize (msg.bits_len + 7) / 8) (by simpa using hbytes)
  rw [List.drop_zero] at hrf hrb
  obtain ⟨fields, hwf', hfl⟩ := writeBytes_toList input.fields 0
    (msg.fields.toList.take msg.fields_len) (by simp; omega)
  obtain ⟨bits, hwb, hbl⟩ := writeBytes_toList input.bits 0
    (msg.bits.toList.take (usize (msg.bits_len + 7) / 8)) (by simp; omega)
  refine ⟨⟨fields, bits, msg.fields_len, msg.bits_len⟩, ?_, ?_, fun h32 => ?_, rfl, rfl⟩
  · rw [ROInput.copy, hrf, ok_bind, hwf', ok_bind, hrb, ok_bind, hwb, ok_bind]; rfl
  · have htake : fields.toList.take msg.fields_len = msg.fields.toList.take msg.fields_len := by
      rw [hfl, List.take_zero, List.nil_append, List.take_append_of_le_length (by simp; omega),
        List.take_take, Nat.min_self]
    simp only [ROInput.fieldList, htake]
  · rw [usize_eq h32] at hbl
    refine bitsLE_congr fun i hi => ?_
    have hi : i < msg.bits_len := hi
    have hlen : i / 8 < (msg.bits.toList.take ((msg.bits_len + 7) / 8)).length := by simp; omega
    have hget : bits.toList.getD (i / 8) 0 = msg.bits.toList.getD (i / 8) 0 := by
      rw [hbl, List.take_zero, List.nil_append, List.getD_append _ _ _ _ hlen,
        List.getD_eq_getElem _ _ hlen, List.getElem_take, List.getD_eq_getElem]
    rw [testBit_leVal, testBit_leVal, hget]

/-! ## Packing into field elements -/

/-- Storing the next element extends the written prefix. -/
theorem store_take {α : Type} (a : Vector α n) {k : Nat} (v : α) (h : k < n) :
    ∃ r, store a k v = .ok r ∧ r.toList.take (k + 1) = a.toList.take k ++ [v] := by
  obtain ⟨r, hr, hlist⟩ := store_toList a k v h
  refine ⟨r, hr, ?_⟩
  rw [hlist, List.take_succ_eq_append_getElem (by simpa using h), List.take_set_of_le le_rfl,
    List.getElem_set_self]

/-- A loop that stores element `i` in round `i`. -/
theorem storeRange_take {α : Type} (get : Nat → Exec α) (v : Nat → α) (a : Vector α n) :
    ∀ len, (∀ i < len, get i = .ok (v i)) → len ≤ n →
      ∃ r, (List.range len).foldlM (fun out i => do
          let x ← get i
          store out i x) a = .ok r ∧ r.toList.take len = (List.range len).map v := by
  intro len
  induction len with
  | zero => intro _ _; exact ⟨a, rfl, rfl⟩
  | succ len ih =>
    intro hget hlen
    obtain ⟨r, hr, htake⟩ := ih (fun i hi => hget i (by omega)) (by omega)
    obtain ⟨r', hr', htake'⟩ := store_take r (v len) (k := len) (by omega)
    refine ⟨r', ?_, ?_⟩
    · rw [List.range_succ, List.foldlM_append, hr, ok_bind, List.foldlM_cons,
        hget len (by omega), ok_bind, hr']; rfl
    · rw [htake', htake, List.range_succ, List.map_append, List.map_singleton]

/-- The element one chunk of bits becomes. -/
def chunkField (ds : List Bool) : Field := ofNum (leBits ds)

/-- At most 254 bits make a number below 2^254. -/
theorem chunk_lt {ds : List Bool} (h : ds.length ≤ 254) : leBits ds < 2 ^ 254 :=
  (leBits_lt ds).trans_le (Nat.pow_le_pow_right (by norm_num) h)

theorem num_chunkField {ds : List Bool} (h : ds.length ≤ 254) : num (chunkField ds) = leBits ds := by
  have h254 : 2 ^ 254 ≤ 256 ^ 32 := by norm_num
  exact num_ofNum ((chunk_lt h).trans_le h254)

theorem chunkField_lt {ds : List Bool} (h : ds.length ≤ 254) : num (chunkField ds) < 2 ^ 254 := by
  rw [num_chunkField h]; exact chunk_lt h

theorem packChunk_spec (input : ROInput fc bc) (hin : input.Within) {off len : Nat} (hlen : len ≤ 254)
    (hoff : off + len ≤ input.bits_len) :
    ∃ tmp, packChunk input off len = .ok tmp ∧
      tmp.reverse = chunkField ((input.bitString.drop off).take len) := by
  have hb := hin.bits_len_le
  obtain ⟨tmp, hloop, happ⟩ := setRange_appends (Vector.replicate 32 (0 : UInt8)) 0
    (fun i => packed_bit_array_get input.bits (off + i)) (fun i => bitAt input.bits (off + i)) len
    (fun i hi => get_eq _ (by omega)) (by omega)
  refine ⟨tmp, ?_, ?_⟩
  · simpa only [packChunk, Nat.zero_add] using hloop
  · -- the chunk is the slice of the bit string, and above it `tmp` keeps its zeros
    have hslice : (List.range len).map (fun i => bitAt input.bits (off + i)) =
        (input.bitString.drop off).take len := by
      refine List.ext_getElem (by simp; omega) fun i h1 h2 => ?_
      simp [ROInput.bitString, bitList, bitsLE, bitAt]
    rw [hslice] at happ
    have hds : ((input.bitString.drop off).take len).length = len := by simp; omega
    generalize (input.bitString.drop off).take len = ds at happ hds ⊢
    have hval : leVal tmp.toList = leBits ds := by
      apply Nat.eq_of_testBit_eq
      intro i
      rw [testBit_leBits]
      rcases Nat.lt_or_ge i len with hi | hi
      · have hhead := happ.head
        simp only [hds, Nat.zero_add] at hhead
        have := congrArg (·.getD i false) hhead
        simpa [bitList, bitsLE, List.getD_eq_getElem?_getD, hi] using this
      · have htail := happ.tail i (by omega)
        rw [bitAt] at htail
        rw [htail, List.getD_eq_default _ _ (by omega), bitAt, Vector.toList_replicate,
          leVal_replicate_zero, Nat.zero_testBit]
    apply num_inj
    rw [num_chunkField (by omega), num, Vector.toList_reverse, beVal_reverse, hval]

/-- Elements needed for `k` bits. -/
def chunkCount (k : Nat) : Nat := (k + 253) / 254

/-- The next chunk: at most 254 of the `k` bits left, and one element fewer to go. -/
theorem chunk_step {k : Nat} (hk : 0 < k) :
    ∃ chunk, (if k ≥ FIELD_BITS - 1 then FIELD_BITS - 1 else k) = chunk ∧ chunk ≤ 254 ∧
      0 < chunk ∧ chunk ≤ k ∧ chunkCount k = chunkCount (k - chunk) + 1 ∧
      (chunk = 254 ∨ chunk = k) := by
  refine ⟨_, rfl, ?_⟩
  unfold FIELD_BITS chunkCount
  split <;> omega

theorem packBits_spec (input : ROInput fc bc) (hin : input.Within) :
    ∀ (fuel : Nat) (out : Vector Field n) (output_len bits_consumed : Nat),
      input.bits_len - bits_consumed ≤ fuel → bits_consumed ≤ input.bits_len →
      output_len + chunkCount (input.bits_len - bits_consumed) ≤ n →
      ∃ r, packBits input fuel out output_len bits_consumed =
          .ok (r, output_len + chunkCount (input.bits_len - bits_consumed)) ∧
        r.toList.take (output_len + chunkCount (input.bits_len - bits_consumed)) =
          out.toList.take output_len ++
            (chunks 254 (chunkCount (input.bits_len - bits_consumed))
              (input.bitString.drop bits_consumed)).map chunkField := by
  intro fuel
  induction fuel with
  | zero =>
    intro out output_len bits_consumed hfuel _ _
    have h0 : input.bits_len - bits_consumed = 0 := by omega
    refine ⟨out, ?_, ?_⟩
    · rw [packBits, if_neg (by omega), h0]; rfl
    · rw [h0]; simp [chunkCount, chunks]
  | succ fuel ih =>
    intro out output_len bits_consumed hfuel hle hroom
    by_cases hmore : bits_consumed < input.bits_len
    · obtain ⟨chunk, hc, h254, hpos, hrem, hcount, hfull⟩ :=
        @chunk_step (input.bits_len - bits_consumed) (by omega)
      rw [Nat.sub_sub] at hcount
      have hend : bits_consumed + chunk ≤ input.bits_len := by omega
      obtain ⟨tmp, htmp, hrev⟩ := packChunk_spec input hin h254 hend
      obtain ⟨out', hstore, htake⟩ := store_take out tmp.reverse (k := output_len) (by omega)
      obtain ⟨r, hr, hrtake⟩ := ih out' (output_len + 1) (bits_consumed + chunk) (by omega)
        (by omega) (by omega)
      have hcnt : output_len + 1 + chunkCount (input.bits_len - (bits_consumed + chunk)) =
          output_len + chunkCount (input.bits_len - bits_consumed) := by omega
      refine ⟨r, ?_, ?_⟩
      · simp only [packBits, if_pos hmore, hc, htmp, ok_bind, hstore]
        rw [hr, hcnt]
      · -- one chunk of `chunk` bits, then the chunks of the rest
        have htk : (input.bitString.drop bits_consumed).take 254 =
            (input.bitString.drop bits_consumed).take chunk := by
          rcases hfull with h | h
          · rw [h]
          · rw [List.take_of_length_le (by simp; omega), List.take_of_length_le (by simp; omega)]
        have hdr : chunks 254 (chunkCount (input.bits_len - (bits_consumed + chunk)))
            ((input.bitString.drop bits_consumed).drop 254) =
            chunks 254 (chunkCount (input.bits_len - (bits_consumed + chunk)))
              (input.bitString.drop (bits_consumed + chunk)) := by
          rcases hfull with h | h
          · rw [List.drop_drop, h]
          · have h0 : input.bits_len - (bits_consumed + chunk) = 0 := by omega
            rw [h0]; rfl
        rw [← hcnt, hrtake, htake, hrev, hcount, chunks, List.map_cons, htk, hdr,
          List.append_assoc]; rfl
    · have h0 : input.bits_len - bits_consumed = 0 := by omega
      refine ⟨out, ?_, ?_⟩
      · rw [packBits, if_neg hmore, h0]; rfl
      · rw [h0]; simp [chunkCount, chunks]

/-- The fields, then the bits in chunks of 254. -/
def ROInput.packed (input : ROInput fc bc) : List Field :=
  input.fieldList ++ (chunks 254 (chunkCount input.bits_len) input.bitString).map chunkField

theorem ROInput.length_packed {input : ROInput fc bc} (hin : input.Within) :
    input.packed.length = input.fields_len + chunkCount input.bits_len := by
  simp [packed, length_fieldList hin]

theorem fieldList_eq_map {input : ROInput fc bc} (hin : input.Within) :
    (List.range input.fields_len).map
      (fun i => (input.fields.toList.getD i (Vector.replicate 32 0)).reverse) = input.fieldList := by
  have hle := hin.fields_len_le
  refine List.ext_getElem (by simp [ROInput.fieldList]; omega) fun i h1 h2 => ?_
  have hi : i < input.fields_len := by simpa using h1
  simp [ROInput.fieldList, List.getD_eq_getElem?_getD, show i < fc by omega]

theorem roinput_to_fields_spec {input : ROInput fc bc} (hin : input.Within) (out : Vector Field n)
    {len : Nat} (hlen : input.fields_len ≤ len)
    (hroom : input.fields_len + chunkCount input.bits_len ≤ n) :
    ∃ r, roinput_to_fields out len input =
        .ok (cint (input.fields_len + chunkCount input.bits_len : Nat), r) ∧
      r.toList.take (input.fields_len + chunkCount input.bits_len) = input.packed := by
  have hle := hin.fields_len_le
  obtain ⟨out', hloop, htake⟩ := storeRange_take
    (fun i => do let field ← load input.fields.toList i; return field.reverse)
    (fun i => (input.fields.toList.getD i (Vector.replicate 32 0)).reverse) out input.fields_len
    (fun i hi => by
      have hi' : i < input.fields.toList.length := by simp; omega
      rw [load_eq _ _ hi', ok_bind, List.getD_eq_getElem _ _ hi']; rfl) (by omega)
  obtain ⟨r, hr, hrtake⟩ := packBits_spec input hin input.bits_len out' input.fields_len 0
    (by omega) (by omega) (by simpa using hroom)
  rw [Nat.sub_zero] at hr hrtake
  refine ⟨r, ?_, ?_⟩
  · simp only [bind_assoc, pure_bind] at hloop
    rw [roinput_to_fields, if_neg (by omega)]
    simp only [hloop, ok_bind, hr, pure_eq_ok]
  · rw [hrtake, htake, fieldList_eq_map hin, List.drop_zero, ROInput.packed]

/-- The elements hashed for a message: its fields, the key, rx, the packed bits. -/
def hashFields (msg : ROInput fc bc) (pub : Affine) (rx : Field) : List Field :=
  msg.fieldList ++ [pub.x, pub.y, rx] ++
    (chunks 254 (chunkCount msg.bits_len) msg.bitString).map chunkField

/-- What is packed is the message with the public key and rx behind its fields. -/
theorem roinput_hash_message_eq (st : Stale) {msg : ROInput fc bc} (hin : msg.Within)
    (hfc : fc + 3 < 2 ^ 28) (pub : Affine) (rx : Field) :
    ∃ d : ROInput (fc + 3) bc, d.fields_len = msg.fields_len + 3 ∧ d.bits_len = msg.bits_len ∧
      d.fieldList = msg.fieldList ++ [pub.x, pub.y, rx] ∧
      (msg.bits_len + 7 < 2 ^ 32 → d.bitString = msg.bitString) ∧
      ∀ (n : Nat) (out : Vector Field n) (len : Nat), roinput_hash_message st out len pub rx msg =
        if usize (bc * 8) < msg.bits_len then .ok (-1, out) else roinput_to_fields out len d := by
  have h1 := hin.fields_len_le
  obtain ⟨a, ha, hfa, hba, hfla, hbla⟩ := copy_spec
    (⟨st.fieldArray (fc + 3), st.array bc, 0, 0⟩ : ROInput (fc + 3) bc) hin (by omega) le_rfl
  obtain ⟨b, hb, hfb, hbb, hflb, hblb⟩ := @roinput_add_field_room _ _ a pub.x (by omega) hfc
  obtain ⟨c, hc, hfc', hbc, hflc, hblc⟩ := @roinput_add_field_room _ _ b pub.y (by omega) hfc
  obtain ⟨d, hd, hfd, hbd, hfld, hbld⟩ := @roinput_add_field_room _ _ c rx (by omega) hfc
  refine ⟨d, by omega, by omega, ?_, fun h32 => ?_, fun n out len => ?_⟩
  · rw [hfd, hfc', hfb, hfa]; simp
  · rw [hbd, hbc, hbb, hba h32]
  · rw [roinput_hash_message, if_neg (by omega)]
    by_cases hlen : usize (bc * 8) < msg.bits_len
    · rw [if_pos hlen, if_pos hlen]; rfl
    · rw [if_neg hlen, if_neg hlen, ha, ok_bind, hb, ok_bind, hc, ok_bind, hd, ok_bind]

theorem roinput_hash_message_spec (st : Stale) {msg : ROInput fc bc} (hwf : msg.WF)
    (hfc : fc + 3 < 2 ^ 28) (out : Vector Field n) {len : Nat} (hlen : msg.fields_len + 3 ≤ len)
    (hroom : msg.fields_len + 3 + chunkCount msg.bits_len ≤ n) (pub : Affine) (rx : Field) :
    ∃ r, roinput_hash_message st out len pub rx msg =
        .ok (cint (msg.fields_len + 3 + chunkCount msg.bits_len : Nat), r) ∧
      r.toList.take (msg.fields_len + 3 + chunkCount msg.bits_len) = hashFields msg pub rx := by
  obtain ⟨h1, h2, -, hbc⟩ := id hwf
  obtain ⟨d, hfields, hbits, hfd, hbd, hrun⟩ := roinput_hash_message_eq st hwf.within hfc pub rx
  obtain ⟨r, hr, hrtake⟩ := roinput_to_fields_spec (⟨by omega, by omega⟩ : d.Within) out
    (hfields.trans_le hlen) (by rw [hfields, hbits]; exact hroom)
  have hpacked : d.packed = hashFields msg pub rx := by
    rw [ROInput.packed, hfd, hbd (by omega), hbits]; rfl
  have husize : usize (bc * 8) = bc * 8 := usize_eq (by omega)
  rw [hfields, hbits] at hr hrtake
  rw [hpacked] at hrtake
  exact ⟨r, by rw [hrun, husize, if_neg (by omega), hr], hrtake⟩

/-! ## Packing into bytes -/

theorem fieldToBits_appends (a : Vector UInt8 n) (field : Field) {k : Nat} (h : k + 255 ≤ 8 * n) :
    ∃ r, fieldToBits field (a, k) = .ok (r, k + 255) ∧
      Appends a r k (bitsLE 255 (leVal field.toList)) := by
  obtain ⟨r, hr, happ⟩ := setCounting_appends a k (packed_bit_array_get field) (bitAt field) 255
    (fun i hi => get_eq field (by omega)) h
  exact ⟨r, hr, happ⟩

/-- The low 255 bits of a field element. -/
def fieldBits (a : Field) : List Bool := bitsLE 255 (num a)

theorem fieldBits_eq_iff {a b : Field} :
    fieldBits a = fieldBits b ↔ num a % 2 ^ 255 = num b % 2 ^ 255 := bitsLE_eq_iff

theorem flatMap_fieldBits {input : ROInput fc bc} (hin : input.Within) :
    (List.range input.fields_len).flatMap
      (fun i => bitsLE 255 (leVal (input.fields.toList.getD i (Vector.replicate 32 0)).toList)) =
      input.fieldList.flatMap fieldBits := by
  rw [← fieldList_eq_map hin, List.flatMap_map]
  congr 1
  funext i
  rw [fieldBits, num, Vector.toList_reverse, beVal_reverse]

theorem length_flatMap_fieldBits (l : List Field) :
    (l.flatMap fieldBits).length = 255 * l.length := by
  have hf : ∀ f : Field, (fieldBits f).length = 255 := fun f => length_bitsLE _ _
  simp [List.length_flatMap, hf, Nat.mul_comm]

section ToBytes

variable {input : ROInput fc bc} (hin : input.Within) (out : Vector UInt8 n)

include hin

/-- The first `k` fields, as far as there is room. -/
theorem fieldsToBits_appends {k : Nat} (hk : k ≤ input.fields_len) (hroom : 255 * k ≤ 8 * n) :
    ∃ a, (List.range k).foldlM (fun s i => do
        let field_bits ← load input.fields.toList i
        fieldToBits field_bits s) (out, 0) = .ok (a, 255 * k) ∧
      Appends out a 0 ((List.range k).flatMap
        (fun i => bitsLE 255 (leVal (input.fields.toList.getD i (Vector.replicate 32 0)).toList))) := by
  have hle := hin.fields_len_le
  obtain ⟨a, ha, happ⟩ := rounds_append 0
    (fun s i => do let field_bits ← load input.fields.toList i; fieldToBits field_bits s)
    (fun i => bitsLE 255 (leVal (input.fields.toList.getD i (Vector.replicate 32 0)).toList)) 255
    (fun i => by simp) k (fun i hi a => by
      have hi' : i < input.fields.toList.length := by simp; omega
      obtain ⟨r, hr, happ⟩ := fieldToBits_appends a
        (input.fields.toList.getD i (Vector.replicate 32 0)) (k := 0 + 255 * i) (by omega)
      refine ⟨r, ?_, happ⟩
      rw [load_eq _ _ hi', ok_bind, ← List.getD_eq_getElem _ (Vector.replicate 32 0) hi', hr,
        Nat.add_assoc, Nat.mul_succ]) out
  rw [Nat.zero_add] at ha
  exact ⟨a, ha, happ⟩

theorem roinput_to_bytes_spec (hroom : 255 * input.fields_len + input.bits_len ≤ 8 * n) :
    ∃ r, roinput_to_bytes out input = .ok r ∧
      Appends out r 0 (input.fieldList.flatMap fieldBits ++ input.bitString) := by
  have hble := hin.bits_len_le
  obtain ⟨a, ha, happ⟩ := fieldsToBits_appends hin out le_rfl (by omega)
  rw [flatMap_fieldBits hin] at happ
  obtain ⟨b, hb, happ'⟩ := setCounting_appends a (255 * input.fields_len)
    (packed_bit_array_get input.bits) (bitAt input.bits) input.bits_len
    (fun i hi => get_eq _ (by omega)) (by omega)
  refine ⟨b, ?_, happ.trans ?_⟩
  · unfold roinput_to_bytes
    rw [ha, ok_bind, hb, ok_bind]; rfl
  · rw [length_flatMap_fieldBits, ROInput.length_fieldList hin, Nat.zero_add]
    exact happ'

/-- An array with room for fewer bits is overrun, by a field or by the bits. -/
theorem roinput_to_bytes_overrun (hover : 8 * n < 255 * input.fields_len + input.bits_len) :
    roinput_to_bytes out input = .error .undefined := by
  have hle := hin.fields_len_le
  have hble := hin.bits_len_le
  unfold roinput_to_bytes
  rcases Nat.lt_or_ge (8 * n) (255 * input.fields_len) with h | h
  · have hfull : 8 * n / 255 < input.fields_len := by omega
    obtain ⟨a, ha, -⟩ := fieldsToBits_appends hin out hfull.le (by omega)
    have hi : 8 * n / 255 < input.fields.toList.length := by simp; omega
    rw [foldlM_range_error hfull ha (by
      rw [load_eq _ _ hi, ok_bind]
      exact setCounting_overrun a _ (fun i hi => get_eq _ (by unfold FIELD_BITS at hi; omega))
        (by omega) (by unfold FIELD_BITS; omega)), error_bind]
  · obtain ⟨a, ha, -⟩ := fieldsToBits_appends hin out le_rfl h
    rw [ha, ok_bind, setCounting_overrun a _ (fun i hi => get_eq _ (by omega)) h hover, error_bind]

end ToBytes

/-- The bits the nonce is derived from: the fields, the key, the message bits,
the private key and the network. -/
def deriveBits (msg : ROInput fc bc) (kp : Keypair) (network_id : UInt8) : List Bool :=
  (msg.fieldList ++ [kp.pub.x, kp.pub.y]).flatMap fieldBits ++ msg.bitString ++
    fieldBits kp.priv ++ bitsLE 8 network_id.toNat

/-- The size of the derivation message in bytes. -/
def deriveLen (msg : ROInput fc bc) : Nat :=
  (255 * (msg.fields_len + 2) + msg.bits_len + 263 + 7) / 8

/-- What is written out is the message with the two keys and the network behind it. -/
theorem roinput_derive_message_eq (st : Stale) {msg : ROInput fc bc} (hin : msg.Within)
    (hfc : fc + 2 < 2 ^ 28) (hbc : bc + 33 < 2 ^ 28) (kp : Keypair) (network_id : UInt8) :
    ∃ e : ROInput (fc + 2) (bc + SCALAR_BYTES + 1), e.Within ∧
      e.fields_len = msg.fields_len + 2 ∧ e.bits_len = msg.bits_len + 263 ∧
      e.fieldList.flatMap fieldBits ++ e.bitString = deriveBits msg kp network_id ∧
      ∀ (n : Nat) (out : Vector UInt8 n) (len : Nat),
        roinput_derive_message st out len kp msg network_id = (do
          let size := usize (255 * (msg.fields_len + 2) + msg.bits_len + 270) / 8
          let out ← if size ≤ len then roinput_to_bytes out e else pure out
          return (if size > len then -1 else cint size, out)) := by
  obtain ⟨h1, h2⟩ := id hin
  have hS : SCALAR_BYTES = 32 := rfl
  obtain ⟨a, ha, hfa, hba, hfla, hbla⟩ := copy_spec
    (⟨st.fieldArray _, st.array _, 0, 0⟩ : ROInput (fc + 2) (bc + SCALAR_BYTES + 1)) hin
    (by omega) (by omega)
  have wfa : a.WF := ⟨by omega, by omega, hfc, by omega⟩
  obtain ⟨b, hb, hab⟩ := roinput_add_field_appends wfa kp.pub.x (by omega)
  have hbl := hab.fields_len wfa
  rw [List.length_singleton] at hbl
  obtain ⟨c, hc, hbc'⟩ := roinput_add_field_appends hab.wf kp.pub.y (by omega)
  have hcl := hbc'.fields_len hab.wf
  rw [List.length_singleton] at hcl
  have hcbl : c.bits_len = msg.bits_len := by rw [(hab.trans hbc').bits_len, hbla]; rfl
  obtain ⟨d, hd, hcd⟩ := roinput_add_scalar_appends hbc'.wf kp.priv (by omega)
  have hdbl := hcd.bits_len
  rw [length_bitsLE] at hdbl
  have hone : [network_id].length = 1 := rfl
  obtain ⟨e, he, hde⟩ := roinput_add_bytes_appends hcd.wf hone (by omega)
  have hebl := hde.bits_len
  rw [length_bitsLE] at hebl
  have hadds := ((hab.trans hbc').trans hcd).trans hde
  have hbits : e.bits_len = msg.bits_len + 263 := by omega
  have hfields : e.fields_len = msg.fields_len + 2 := by
    rw [hadds.fields_len wfa, hfla]; rfl
  have hsize : e.bits_len + FIELD_BITS * e.fields_len + 7 =
      255 * (msg.fields_len + 2) + msg.bits_len + 270 := by
    rw [hbits, hfields, FIELD_BITS]; ring
  have husize : usize ((bc + SCALAR_BYTES + 1) * 8) = (bc + SCALAR_BYTES + 1) * 8 :=
    usize_eq (by omega)
  refine ⟨e, hadds.wf.within, hfields, hbits, ?_, fun n out len => ?_⟩
  · have hnet : leVal [network_id] = network_id.toNat := by simp [leVal_cons]
    have hpriv : bitsLE 255 (num kp.priv) = fieldBits kp.priv := rfl
    have hnid : bitsLE (8 * 1) network_id.toNat = bitsLE 8 network_id.toNat := rfl
    rw [hadds.fields, hadds.bits, hfa, hba (by omega), deriveBits, hnet, hpriv, hnid]
    simp only [List.append_assoc, List.nil_append, List.append_nil, List.singleton_append]
  · rw [roinput_derive_message, if_neg (by omega), husize, if_neg (by omega), ha, ok_bind, hb,
      ok_bind, hc, ok_bind, hd, ok_bind, he, ok_bind]
    simp only [hsize]

theorem roinput_derive_message_spec (st : Stale) {msg : ROInput fc bc} (hwf : msg.WF)
    (hfc : fc + 2 < 2 ^ 22) (hbc : bc + 33 < 2 ^ 28) (out : Vector UInt8 n) {len : Nat}
    (hlen : deriveLen msg ≤ len) (hroom : deriveLen msg ≤ n) (kp : Keypair) (network_id : UInt8) :
    ∃ r, roinput_derive_message st out len kp msg network_id = .ok (cint (deriveLen msg), r) ∧
      Appends out r 0 (deriveBits msg kp network_id) := by
  obtain ⟨h1, h2⟩ := hwf.within
  obtain ⟨e, hin, hfields, hbits, hmsg, hrun⟩ :=
    roinput_derive_message_eq st hwf.within (by omega) hbc kp network_id
  have hbound : 255 * (msg.fields_len + 2) + msg.bits_len + 270 < 2 ^ 32 := by omega
  have hsize : usize (255 * (msg.fields_len + 2) + msg.bits_len + 270) / 8 = deriveLen msg := by
    rw [usize_eq hbound, deriveLen]
  obtain ⟨r, hr, happ⟩ := roinput_to_bytes_spec hin out (by
    rw [hbits, hfields]; unfold deriveLen at hroom; omega)
  rw [hmsg] at happ
  refine ⟨r, ?_, happ⟩
  simp only [hrun, hsize, if_pos hlen, hr, ok_bind, if_neg (Nat.not_lt.mpr hlen), pure_eq_ok]

end MinaLedger
