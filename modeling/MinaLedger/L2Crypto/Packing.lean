import MinaLedger.L1Encoding.Builder
import MinaLedger.L1Encoding.ROInputMessage
import MinaLedger.L2Crypto.Pasta

/-!
# What `roinput_to_fields` keeps and how far it writes

The elements `roinput_to_fields` writes are the fields and then one element for each 254
bits. `unpack` reads them back: the fields as they stand, and from each further element
the bits it has room for.

Results:
* `unpack_packed`: nothing is lost on the way.
* `roinput_to_fields_lossless`: what each element of the output is, and that the output
  determines the fields and the bits.
* `roinput_to_fields_overrun`: an output without room for every chunk is overrun, unless
  the fields alone are more than `len`.
-/
namespace MinaLedger
open Pasta Lib.Radix Lib.BitString

variable {fc bc n : Nat}

/-! ## Reading the elements back -/

/-- The `k` bits in a list of elements: 254 from each, what is left from the last. -/
def unpackBits : Nat → List Field → List Bool
  | _, [] => []
  | k, a :: l => bitsLE (min 254 k) (num a) ++ unpackBits (k - 254) l

/-- The content that `fields_len` fields and `bits_len` packed bits came from. -/
def unpack (fields_len bits_len : Nat) (l : List Field) : ROInput.Content :=
  ⟨l.take fields_len, unpackBits bits_len (l.drop fields_len)⟩

theorem unpackBits_chunks (c : Nat) (ds : List Bool) (h : ds.length ≤ 254 * c) :
    unpackBits ds.length ((chunks 254 c ds).map chunkField) = ds := by
  induction c generalizing ds with
  | zero =>
    obtain rfl : ds = [] := List.length_eq_zero_iff.mp (by omega)
    rfl
  | succ c ih =>
    have hhead : bitsLE (min 254 ds.length) (num (chunkField (ds.take 254))) = ds.take 254 := by
      rw [num_chunkField (List.length_take_le _ _), bitsLE_leBits (List.length_take ..)]
    have hrest : unpackBits (ds.length - 254) ((chunks 254 c (ds.drop 254)).map chunkField) =
        ds.drop 254 := by
      rw [← List.length_drop]
      exact ih _ (by rw [List.length_drop]; omega)
    rw [chunks, List.map_cons, unpackBits, hhead, hrest, List.take_append_drop]

/-- `k` bits fit their chunks. -/
theorem le_chunkCount (k : Nat) : k ≤ 254 * chunkCount k := by unfold chunkCount; omega

/-- Packing loses nothing. -/
theorem unpack_packed {input : ROInput fc bc} (hin : input.Within) :
    unpack input.fields_len input.bits_len input.packed = input.content := by
  have hlen := ROInput.length_fieldList hin
  rw [unpack, ROInput.packed, List.take_left' hlen, List.drop_left' hlen, ROInput.content]
  congr 1
  conv_lhs => rw [← input.length_bitString]
  exact unpackBits_chunks _ _ (by rw [input.length_bitString]; exact le_chunkCount _)

/-- Bits `254 * j` up to `min (254 * (j + 1)) bits_len`. -/
def ROInput.chunkBits (input : ROInput fc bc) (j : Nat) : List Bool :=
  (input.bitString.drop (254 * j)).take (min (254 * (j + 1)) input.bits_len - 254 * j)

/-- Element `fields_len + j` is the number whose bits are chunk `j`. -/
theorem getElem_packed {input : ROInput fc bc} (hin : input.Within) {j : Nat}
    (h : input.fields_len + j < input.packed.length) :
    num input.packed[input.fields_len + j] = leBits (input.chunkBits j) := by
  have hlen := ROInput.length_fieldList hin
  have htake : input.chunkBits j = (input.bitString.drop (254 * j)).take 254 := by
    rw [ROInput.chunkBits, List.take_eq_take_iff, List.length_drop, input.length_bitString]
    omega
  have hchunk : input.packed[input.fields_len + j] = chunkField (input.chunkBits j) := by
    simp only [ROInput.packed, htake]
    rw [List.getElem_append_right (by omega), List.getElem_map, getElem_chunks]
    simp only [hlen, Nat.add_sub_cancel_left]
  rw [hchunk, num_chunkField (by rw [htake]; exact List.length_take_le _ _)]

theorem length_chunkBits_le (input : ROInput fc bc) (j : Nat) :
    (input.chunkBits j).length ≤ 254 := by
  rw [ROInput.chunkBits, List.length_take]; omega

/-! ## The output -/

/-- The size of an array of elements is a `size_t`, so the count is an `int`. -/
theorem roinput_to_fields_packed {input : ROInput fc bc} (hin : input.Within)
    (hn : FIELD_BYTES * n < 2 ^ 32) (hroom : input.fields_len + chunkCount input.bits_len ≤ n)
    (out : Vector Field n) {len : Nat} (hlen : input.fields_len ≤ len) :
    ∃ r, roinput_to_fields out len input =
        .ok ((input.fields_len + chunkCount input.bits_len : Nat), r) ∧
      r.toList.take (input.fields_len + chunkCount input.bits_len) = input.packed := by
  obtain ⟨r, hr, htake⟩ := roinput_to_fields_spec hin out hlen hroom
  unfold FIELD_BYTES at hn
  rw [cint_eq _ (by omega) (by omega)] at hr
  exact ⟨r, hr, htake⟩

/-- `roinput_to_fields` returns fields_len + ceil(bits_len / 254): the fields as they were
added, then the numbers whose bits are the chunks of 254. Reading the elements back gives
the content, so the output determines it. -/
theorem roinput_to_fields_lossless {input : ROInput fc bc} (hin : input.Within)
    (hn : FIELD_BYTES * n < 2 ^ 32)
    (hroom : input.fields_len + (input.bits_len + 253) / 254 ≤ n) (out : Vector Field n)
    {len : Nat} (hlen : input.fields_len ≤ len) :
    ∃ r, roinput_to_fields out len input =
        .ok ((input.fields_len + (input.bits_len + 253) / 254 : Nat), r) ∧
      r.toList.take input.fields_len = input.fieldList ∧
      (∀ (start : ROInput fc bc) (calls : List ROInput.Call), fc < 2 ^ 28 → bc < 2 ^ 28 →
        start.fields_len = 0 → start.bits_len = 0 → (∀ c ∈ calls, c.Short) →
        ROInput.runCalls calls start = .ok input → r.toList.take input.fields_len =
          (calls.foldl (ROInput.Content.put fc bc) ⟨[], []⟩).fields) ∧
      (∀ j < (input.bits_len + 253) / 254, ∃ h : input.fields_len + j < n,
        num r[input.fields_len + j] = leBits (input.chunkBits j) ∧
        num r[input.fields_len + j] < 2 ^ 254 ∧ num r[input.fields_len + j] < fieldModulus) ∧
      unpack input.fields_len input.bits_len
        (r.toList.take (input.fields_len + (input.bits_len + 253) / 254)) = input.content ∧
      ∀ (fc' bc' : Nat) (other : ROInput fc' bc'), other.Within →
        other.fields_len = input.fields_len → other.bits_len = input.bits_len →
        ∀ out' : Vector Field n, ∃ r', roinput_to_fields out' len other =
            .ok ((input.fields_len + (input.bits_len + 253) / 254 : Nat), r') ∧
          (r'.toList.take (input.fields_len + (input.bits_len + 253) / 254) =
            r.toList.take (input.fields_len + (input.bits_len + 253) / 254) →
            other.content = input.content) := by
  obtain ⟨r, hr, htake⟩ := roinput_to_fields_packed hin hn hroom out hlen
  have hlength := ROInput.length_packed hin
  have hfields : r.toList.take input.fields_len = input.fieldList := by
    have h := congrArg (List.take input.fields_len) htake
    rwa [List.take_take, Nat.min_eq_left (by omega), ROInput.packed,
      List.take_left' (ROInput.length_fieldList hin)] at h
  refine ⟨r, hr, hfields, ?_, fun j hj => ?_, ?_, ?_⟩
  · intro start calls hfc hbc hfl hbl hshort hrun
    obtain ⟨r', hr', -, hcontent⟩ := ROInput.runCalls_empty hfc hbc hfl hbl hshort
    obtain rfl : input = r' := Except.ok.inj (hrun.symm.trans hr')
    rw [hfields, ← hcontent, ROInput.content]
  · have hlt : input.fields_len + j < input.packed.length := by
      rw [hlength, chunkCount]; omega
    have hj' : input.fields_len + j < n := by omega
    have hget : r[input.fields_len + j] = input.packed[input.fields_len + j] := by
      simp only [← htake, List.getElem_take, Vector.getElem_toList]
    have hval := getElem_packed hin hlt
    rw [← hget] at hval
    have h254 : num r[input.fields_len + j] < 2 ^ 254 := by
      rw [hval]; exact chunk_lt (length_chunkBits_le input j)
    exact ⟨hj', hval, h254, h254.trans two_pow_254_lt⟩
  · exact (congrArg (unpack _ _) htake).trans (unpack_packed hin)
  · intro fc' bc' other hin' hfl hbl out'
    obtain ⟨r', hr', htake'⟩ := roinput_to_fields_packed hin' hn (by rw [hfl, hbl]; exact hroom)
      out' (hfl.trans_le hlen)
    rw [hfl, hbl] at hr' htake'
    refine ⟨r', hr', fun heq => ?_⟩
    rw [← unpack_packed hin', ← unpack_packed hin, hfl, hbl]
    exact congrArg (unpack _ _) (htake'.symm.trans (heq.trans htake))

/-- The field 7 and 259 bits: the second chunk is 01101, from the middle of byte 31 on. -/
theorem roinput_to_fields_lossless_sample :
    ∃ r : Vector Field 3, roinput_to_fields (Vector.replicate 3 (ofNum 0)) 3
        (⟨#v[(ofNum 7).reverse], Vector.replicate 33 0xa5, 1, 259⟩ : ROInput 1 33) = .ok (3, r) ∧
      r.toList.take 1 = [ofNum 7] ∧ num r[2] = 22 ∧
      unpack 1 259 (r.toList.take 3) = ⟨[ofNum 7], bitList (Vector.replicate 33 0xa5) 259⟩ := by
  obtain ⟨r, hr, hfields, -, hchunks, hback, -⟩ := @roinput_to_fields_lossless 1 33 3
    ⟨#v[(ofNum 7).reverse], Vector.replicate 33 0xa5, 1, 259⟩ ⟨by simp, by simp⟩ (by decide)
    (by decide) (Vector.replicate 3 (ofNum 0)) 3 (by decide)
  have hseven : [(ofNum 7).reverse.reverse] = [ofNum 7] := by rw [Vector.reverse_reverse]
  obtain ⟨_, hsecond, -⟩ := hchunks 1 (by decide)
  have htail : leBits (ROInput.chunkBits
      (⟨#v[(ofNum 7).reverse], Vector.replicate 33 0xa5, 1, 259⟩ : ROInput 1 33) 1) = 22 := by
    decide +kernel
  exact ⟨r, hr, hfields.trans hseven, hsecond.trans htail,
    hback.trans (congrArg₂ ROInput.Content.mk hseven rfl)⟩

/-! ## Outputs that are too small -/

/-- The loop over the bits stores past an array that ends before the last chunk. -/
theorem packBits_overrun {input : ROInput fc bc} (hin : input.Within) :
    ∀ (fuel : Nat) (out : Vector Field n) (output_len bits_consumed : Nat),
      input.bits_len - bits_consumed ≤ fuel → bits_consumed ≤ input.bits_len → output_len ≤ n →
      n < output_len + chunkCount (input.bits_len - bits_consumed) →
      packBits input fuel out output_len bits_consumed = .error .undefined := by
  intro fuel
  induction fuel with
  | zero =>
    intro out output_len bits_consumed hfuel _ hle hover
    rw [show input.bits_len - bits_consumed = 0 by omega, chunkCount] at hover
    omega
  | succ fuel ih =>
    intro out output_len bits_consumed hfuel hconsumed hle hover
    have hmore : bits_consumed < input.bits_len := by
      by_contra hno
      rw [show input.bits_len - bits_consumed = 0 by omega, chunkCount] at hover
      omega
    obtain ⟨chunk, hc, h254, hpos, hrem, hcount, -⟩ :=
      @chunk_step (input.bits_len - bits_consumed) (by omega)
    rw [Nat.sub_sub] at hcount
    obtain ⟨tmp, htmp, -⟩ := packChunk_spec input hin h254
      (show bits_consumed + chunk ≤ input.bits_len by omega)
    simp only [packBits, if_pos hmore, hc, htmp, ok_bind]
    by_cases hend : output_len = n
    · rw [store_outside out _ hend.ge, error_bind]
    · obtain ⟨out', hstore, -⟩ := store_toList out output_len tmp.reverse (by omega)
      rw [hstore, ok_bind]
      exact ih out' (output_len + 1) (bits_consumed + chunk) (by omega) (by omega) (by omega)
        (by omega)

/-- Once the fields alone fit `len`, every chunk without room is stored past the end. -/
theorem roinput_to_fields_overrun {input : ROInput fc bc} (hin : input.Within)
    (out : Vector Field n) {len : Nat} (hlen : input.fields_len ≤ len)
    (hover : n < input.fields_len + chunkCount input.bits_len) :
    roinput_to_fields out len input = .error .undefined := by
  have hle := hin.fields_len_le
  have hget : ∀ i < input.fields_len,
      (do let field ← load input.fields.toList i; return field.reverse : Exec Field) =
        .ok ((input.fields.toList.getD i (Vector.replicate 32 0)).reverse) := by
    intro i hi
    have hi' : i < input.fields.toList.length := by simp; omega
    rw [load_eq _ _ hi', ok_bind, List.getD_eq_getElem _ _ hi']; rfl
  rw [roinput_to_fields, if_neg (by omega)]
  rcases Nat.lt_or_ge n input.fields_len with hn | hn
  · obtain ⟨t, ht, -⟩ := storeRange_take
      (fun i => do let field ← load input.fields.toList i; return field.reverse) _ out n
      (fun i hi => hget i (by omega)) le_rfl
    simp only [bind_assoc, pure_bind] at ht
    have hn' : n < input.fields.toList.length := by simp; omega
    rw [foldlM_range_error hn ht (by rw [load_eq _ _ hn', ok_bind, store_outside t _ le_rfl]),
      error_bind]
  · obtain ⟨t, ht, -⟩ := storeRange_take
      (fun i => do let field ← load input.fields.toList i; return field.reverse) _ out
      input.fields_len hget hn
    simp only [bind_assoc, pure_bind] at ht
    rw [ht, ok_bind, packBits_overrun hin input.bits_len t input.fields_len 0 (by omega)
      (Nat.zero_le _) hn (by simpa using hover), error_bind]

end MinaLedger
