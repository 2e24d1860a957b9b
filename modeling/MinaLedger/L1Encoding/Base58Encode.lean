import MinaLedger.L1Encoding.Base58

/-!
# Correctness of b58_encode

The in-place long division against the digits of the number.

Results, for inputs of up to 82 bytes (the local buffers are 164 bytes and the
digits are written from offset `2 * length` down):
* `b58EncodeLoop_spec`: each round divides what is left of `tmp` by 58, so the
  loop ends after as many rounds as there are digits and leaves them in
  `buffer`.
* `b58_encode_eq`: the function writes the canonical text, or refuses when the
  output is too small.
-/
namespace MinaLedger
open Lib.Radix Lib.LongArith

variable {n : Nat}

/-! ## One pass -/

/-- The part of `tmp` still to be divided. -/
def slice (tmp : Vector UInt8 164) (startAt length : Nat) : List UInt8 :=
  (tmp.toList.take length).drop startAt

theorem slice_cons (tmp : Vector UInt8 164) {i length : Nat} (hi : i < tmp.toList.length)
    (h : i < length) : slice tmp i length = tmp.toList[i] :: slice tmp (i + 1) length := by
  have hlt : i < (tmp.toList.take length).length := by
    rw [List.length_take]; omega
  rw [slice, List.drop_eq_getElem_cons hlt, List.getElem_take, slice]

/-- One pass over `count` bytes from offset `i`, with remainder `r` so far. -/
theorem b58DivPass_rounds : ∀ (count i r : Nat) (tmp : Vector UInt8 164), i + count ≤ 164 →
    ∃ tmp', (List.range' i count).foldlM (fun (s : Vector UInt8 164 × Nat) divLoop => do
        let digit256 := (← load s.1.toList divLoop).toNat
        let tmpDiv := s.2 * 256 + digit256
        let tmp ← store s.1 divLoop (UInt8.ofNat (tmpDiv / 58))
        return (tmp, tmpDiv % 58)) (tmp, r) =
          .ok (tmp', (divMod 256 58 r ((slice tmp i (i + count)).map UInt8.toNat)).2) ∧
      tmp'.toList = tmp.toList.take i ++
        (divMod 256 58 r ((slice tmp i (i + count)).map UInt8.toNat)).1.map UInt8.ofNat ++
        tmp.toList.drop (i + count) := by
  intro count
  induction count with
  | zero =>
    intro i r tmp _
    have h0 : slice tmp i (i + 0) = [] := by simp [slice]
    exact ⟨tmp, by rw [h0]; rfl, by rw [h0]; simp [divMod]⟩
  | succ count ih =>
    intro i r tmp hle
    have hi : i < tmp.toList.length := by simp; omega
    obtain ⟨tmp₁, hstore, hlist⟩ := store_toList tmp i
      (UInt8.ofNat ((r * 256 + (tmp.toList[i]).toNat) / 58)) (by omega)
    obtain ⟨tmp', hloop, htmp'⟩ := ih (i + 1) ((r * 256 + (tmp.toList[i]).toNat) % 58) tmp₁
      (by omega)
    -- the store touched byte `i` only, so the rest of the slice is the old one
    have hrest : slice tmp₁ (i + 1) (i + 1 + count) = slice tmp (i + 1) (i + 1 + count) := by
      simp only [slice, List.drop_take, hlist]
      rw [List.drop_set_of_lt (by omega)]
    have hslice : slice tmp i (i + (count + 1)) =
        tmp.toList[i] :: slice tmp (i + 1) (i + 1 + count) := by
      rw [slice_cons tmp hi (by omega), show i + (count + 1) = i + 1 + count by omega]
    rw [hrest] at hloop htmp'
    refine ⟨tmp', ?_, ?_⟩
    · rw [List.range'_succ, List.foldlM_cons]
      simp only [load_eq _ _ hi, ok_bind, hstore, pure_eq_ok]
      rw [hslice, List.map_cons]
      exact hloop
    · have htake : tmp₁.toList.take (i + 1) =
          tmp.toList.take i ++ [UInt8.ofNat ((r * 256 + (tmp.toList[i]).toNat) / 58)] := by
        rw [hlist, List.take_succ_eq_append_getElem (by simpa using hi), List.take_set_of_le le_rfl,
          List.getElem_set_self]
      have hdrop : tmp₁.toList.drop (i + 1 + count) = tmp.toList.drop (i + (count + 1)) := by
        rw [hlist, List.drop_set_of_lt (by omega), show i + 1 + count = i + (count + 1) by omega]
      rw [htmp', htake, hdrop, hslice, List.map_cons, divMod]
      simp

theorem map_ofNat_toNat {ds : List Nat} (h : ∀ d ∈ ds, d < 256) :
    (ds.map UInt8.ofNat).map UInt8.toNat = ds := by
  rw [List.map_map]
  conv_rhs => rw [← List.map_id ds]
  refine List.map_congr_left fun d hd => ?_
  rw [Function.comp, UInt8.toNat_ofNat', Nat.mod_eq_of_lt (h d hd), id]

theorem b58DivPass_spec (tmp : Vector UInt8 164) {startAt length : Nat} (hs : startAt ≤ length)
    (hl : length ≤ 164) :
    ∃ tmp', b58DivPass tmp startAt length =
        .ok (tmp', beVal (slice tmp startAt length) % 58) ∧
      (slice tmp' startAt length).map UInt8.toNat =
        (divMod 256 58 0 ((slice tmp startAt length).map UInt8.toNat)).1 := by
  obtain ⟨tmp', hloop, hlist⟩ := b58DivPass_rounds (length - startAt) startAt 0 tmp (by omega)
  rw [show startAt + (length - startAt) = length by omega] at hloop hlist
  rw [(divMod_eq (by norm_num) _).2] at hloop
  refine ⟨tmp', hloop, ?_⟩
  have hq : (slice tmp startAt length).length = length - startAt := by
    simp [slice]; omega
  have htake : (tmp.toList.take startAt).length = startAt := by simp; omega
  have hmid : slice tmp' startAt length =
      (divMod 256 58 0 ((slice tmp startAt length).map UInt8.toNat)).1.map UInt8.ofNat := by
    have hlen : (tmp.toList.take startAt ++ (divMod 256 58 0
        ((slice tmp startAt length).map UInt8.toNat)).1.map UInt8.ofNat).length = length := by
      rw [List.length_append, htake, List.length_map, length_divMod, List.length_map, hq]; omega
    rw [slice, hlist, List.take_left' hlen, List.drop_left' htake]
  rw [hmid, map_ofNat_toNat]
  exact divMod_lt (by norm_num) _ 0 (by norm_num) (map_toNat_lt _)

/-! ## The division loop -/

theorem beVal_pos {b : UInt8} {l : List UInt8} (h : (b :: l).head? ≠ some 0) :
    0 < beVal (b :: l) := by
  have hne : b ≠ 0 := by rintro rfl; exact h rfl
  have hb : 0 < b.toNat := Nat.pos_of_ne_zero fun h0 => hne (UInt8.toNat_inj.mp h0)
  have hp : 0 < 256 ^ l.length := by positivity
  have := Nat.mul_pos hb hp
  rw [beVal_cons]; omega

theorem beVal_zero_cons (l : List UInt8) : beVal (0 :: l) = beVal l := by
  rw [beVal_cons]; simp

/-- What one round leaves: the quotient, again without a leading zero byte. -/
theorem b58_round {l l' : List UInt8} (hl : l.head? ≠ some 0)
    (h : l'.map UInt8.toNat = (divMod 256 58 0 (l.map UInt8.toNat)).1) :
    beVal l' = beVal l / 58 ∧ ∀ b q, l' = b :: q → b = 0 → q.head? ≠ some 0 := by
  have hval : beVal l' = beVal l / 58 := by
    rw [beVal, h, (divMod_eq (by norm_num) _).1]; rfl
  refine ⟨hval, fun b q hl' hb => ?_⟩
  subst hl' hb
  cases l with
  | nil => simp [divMod] at h
  | cons d l =>
    have hd0 : d ≠ 0 := by rintro rfl; exact hl rfl
    have hd : d.toNat ≠ 0 := fun h0 => hd0 (UInt8.toNat_inj.mp h0)
    rw [List.map_cons, List.map_cons, divMod] at h
    obtain ⟨hquot, hrest⟩ := List.cons.inj h
    -- the first byte was below 58, so it is all carried into the second
    have h58 : d.toNat < 58 := by
      have h0 : (0 * 256 + d.toNat) / 58 = 0 := hquot.symm
      omega
    have hcarry : (0 * 256 + d.toNat) % 58 ≠ 0 := by omega
    intro hq
    cases l with
    | nil =>
      cases q with
      | nil => simp at hq
      | cons x q => simp [divMod] at hrest
    | cons e l =>
      refine divMod_head_ne_zero (B := 256) (m := 58) (by norm_num) (by norm_num) hcarry e.toNat
        (l.map UInt8.toNat) ?_
      rw [List.map_cons] at hrest
      rw [← hrest, List.head?_map, hq]; rfl

theorem b58EncodeLoop_done {length : Nat} (fuel : Nat) (tmp buffer : Vector UInt8 164) (j : Nat)
    {startAt : Nat} (h : ¬startAt < length) :
    b58EncodeLoop length fuel tmp buffer j startAt = .ok (buffer, j) := by
  cases fuel <;> rw [b58EncodeLoop, if_neg h]

theorem load_alphabet {d : Nat} (h : d < 58) : load B58_ALPHABET d = .ok (b58Char d) := by
  have hlen : d < B58_ALPHABET.length := h
  rw [load_eq _ _ hlen, b58Char, List.getD_eq_getElem _ _ hlen]

theorem slice_of_le (tmp : Vector UInt8 164) {startAt length : Nat} (h : ¬startAt < length) :
    slice tmp startAt length = [] := by
  simp [slice]; omega

/-- As long as the loop runs there is a digit to come. -/
theorem slice_ne_zero (tmp : Vector UInt8 164) {startAt length : Nat} (hl : length ≤ 164)
    (hmore : startAt < length) (hhead : (slice tmp startAt length).head? ≠ some 0) :
    beVal (slice tmp startAt length) ≠ 0 := by
  have hi : startAt < tmp.toList.length := by simp; omega
  rw [slice_cons tmp hi hmore] at hhead ⊢
  exact (beVal_pos hhead).ne'

/-- One round writes the last digit and goes on with the quotient, wherever that now starts. -/
theorem b58EncodeLoop_step {length : Nat} (hl : length ≤ 164) (tmp : Vector UInt8 164)
    {startAt : Nat} (hmore : startAt < length)
    (hhead : (slice tmp startAt length).head? ≠ some 0) :
    ∃ tmp' startAt', startAt' ≤ length ∧ (slice tmp' startAt' length).head? ≠ some 0 ∧
      beVal (slice tmp' startAt' length) = beVal (slice tmp startAt length) / 58 ∧
      ∀ fuel buffer j, b58EncodeLoop length (fuel + 1) tmp buffer j startAt = (do
        let buffer ← store buffer (uchar (j + 255)) (b58Char (beVal (slice tmp startAt length) % 58))
        b58EncodeLoop length fuel tmp' buffer (uchar (j + 255)) startAt') := by
  obtain ⟨tmp', hpass, hquot⟩ := b58DivPass_spec tmp hmore.le hl
  have hi : startAt < tmp'.toList.length := by simp; omega
  obtain ⟨hval, hnext⟩ := b58_round hhead hquot
  have hcons := slice_cons tmp' hi hmore
  have hchar := load_alphabet (Nat.mod_lt (beVal (slice tmp startAt length)) (by norm_num : 0 < 58))
  have hrun : ∀ fuel buffer j, b58EncodeLoop length (fuel + 1) tmp buffer j startAt = (do
      let buffer ← store buffer (uchar (j + 255)) (b58Char (beVal (slice tmp startAt length) % 58))
      b58EncodeLoop length fuel tmp' buffer (uchar (j + 255))
        (if tmp'.toList[startAt] = 0 then startAt + 1 else startAt)) := fun fuel buffer j => by
    simp only [b58EncodeLoop, if_pos hmore, hpass, ok_bind, load_eq _ _ hi, hchar]
  by_cases hz : tmp'.toList[startAt] = 0
  · rw [if_pos hz] at hrun
    refine ⟨tmp', startAt + 1, hmore, hnext _ _ hcons hz, ?_, hrun⟩
    rw [← hval, hcons, hz, beVal_zero_cons]
  · rw [if_neg hz] at hrun
    exact ⟨tmp', startAt, hmore.le, by rw [hcons]; simpa using hz, hval, hrun⟩

/-- The loop leaves the digits of the number in front of what `buffer` held. -/
theorem b58EncodeLoop_spec {length : Nat} (hl : length ≤ 164) : ∀ (fuel : Nat)
    (tmp buffer : Vector UInt8 164) (j startAt : Nat),
    (slice tmp startAt length).head? ≠ some 0 →
    (digitsBE 58 (beVal (slice tmp startAt length))).length ≤ fuel →
    (digitsBE 58 (beVal (slice tmp startAt length))).length ≤ j → j ≤ 164 →
    ∃ buffer', b58EncodeLoop length fuel tmp buffer j startAt =
        .ok (buffer', j - (digitsBE 58 (beVal (slice tmp startAt length))).length) ∧
      buffer'.toList.drop (j - (digitsBE 58 (beVal (slice tmp startAt length))).length) =
        (digitsBE 58 (beVal (slice tmp startAt length))).map b58Char ++ buffer.toList.drop j := by
  intro fuel
  induction fuel with
  | zero =>
    intro tmp buffer j startAt hhead hfuel hj hj164
    by_cases hmore : startAt < length
    · -- a number that is not zero has a digit
      have hpos := slice_ne_zero tmp hl hmore hhead
      rw [digitsBE_step (by norm_num) hpos, List.length_append, List.length_singleton] at hfuel
      omega
    · rw [slice_of_le tmp hmore, beVal_nil, digitsBE_zero]
      exact ⟨buffer, b58EncodeLoop_done 0 tmp buffer j hmore, rfl⟩
  | succ fuel ih =>
    intro tmp buffer j startAt hhead hfuel hj hj164
    by_cases hmore : startAt < length
    swap
    · rw [slice_of_le tmp hmore, beVal_nil, digitsBE_zero]
      exact ⟨buffer, b58EncodeLoop_done _ tmp buffer j hmore, rfl⟩
    have hpos := slice_ne_zero tmp hl hmore hhead
    obtain ⟨tmp', startAt', -, hhead', hval', hrun⟩ := b58EncodeLoop_step hl tmp hmore hhead
    generalize beVal (slice tmp startAt length) = v at hval' hrun hpos hfuel hj ⊢
    have hdigits := digitsBE_step (by norm_num : 1 < 58) hpos
    rw [hdigits, List.length_append, List.length_singleton] at hfuel hj ⊢
    have huchar : uchar (j + 255) = j - 1 := by unfold uchar; omega
    obtain ⟨buffer₁, hstore, hlist⟩ := store_toList buffer (j - 1) (b58Char (v % 58)) (by omega)
    obtain ⟨buffer', hloop, hbuf⟩ := ih tmp' buffer₁ (j - 1) _ hhead'
      (by rw [hval']; omega) (by rw [hval']; omega) (by omega)
    rw [hval'] at hloop hbuf
    have hidx : j - 1 - (digitsBE 58 (v / 58)).length = j - ((digitsBE 58 (v / 58)).length + 1) := by
      omega
    rw [hidx] at hloop hbuf
    refine ⟨buffer', ?_, ?_⟩
    · rw [hrun, huchar, hstore, ok_bind]
      exact hloop
    · have hj1 : j - 1 < buffer₁.toList.length := by simp; omega
      have hdrop : buffer₁.toList.drop (j - 1) = b58Char (v % 58) :: buffer.toList.drop j := by
        rw [List.drop_eq_getElem_cons hj1, show j - 1 + 1 = j by omega]
        simp only [hlist, List.getElem_set_self, List.drop_set_of_lt (show j - 1 < j by omega)]
      rw [hbuf, hdrop, List.map_append, List.map_singleton, List.append_assoc, List.singleton_append]

/-! ## The whole function -/

theorem b58PutOnes_spec : ∀ (zeroCount : Nat) (buffer : Vector UInt8 164) (j : Nat),
    zeroCount ≤ j → j ≤ 164 →
    ∃ buffer', b58PutOnes zeroCount buffer j = .ok (buffer', j - zeroCount) ∧
      buffer'.toList.drop (j - zeroCount) = List.replicate zeroCount 49 ++ buffer.toList.drop j := by
  intro zeroCount
  induction zeroCount with
  | zero => intro buffer j _ _; exact ⟨buffer, rfl, rfl⟩
  | succ zeroCount ih =>
    intro buffer j hj hj164
    obtain ⟨buffer₁, hstore, hlist⟩ := store_toList buffer (j - 1) 49 (by omega)
    obtain ⟨buffer', hloop, hbuf⟩ := ih buffer₁ (j - 1) (by omega) (by omega)
    have huchar : uchar (j + 255) = j - 1 := by unfold uchar; omega
    have hidx : j - 1 - zeroCount = j - (zeroCount + 1) := by omega
    rw [hidx] at hloop hbuf
    refine ⟨buffer', ?_, ?_⟩
    · simp only [b58PutOnes, huchar, hstore, ok_bind]
      exact hloop
    · have hj1 : j - 1 < buffer₁.toList.length := by simp; omega
      have hdrop : buffer₁.toList.drop (j - 1) = 49 :: buffer.toList.drop j := by
        rw [List.drop_eq_getElem_cons hj1, show j - 1 + 1 = j by omega]
        simp only [hlist, List.getElem_set_self, List.drop_set_of_lt (show j - 1 < j by omega)]
      rw [hbuf, hdrop, List.replicate_succ', List.append_assoc, List.singleton_append]

/-- The first digit of a number is not zero, so its text does not start with '1'. -/
theorem head?_digits_ne_one (v : Nat) : ((digitsBE 58 v).map b58Char).head? ≠ some 49 := by
  rcases h : digitsBE 58 v with _ | ⟨d, ds⟩
  · simp
  have hv : Nat.digits 58 v ≠ [] := fun h0 => by rw [digitsBE, h0] at h; cases h
  have hd0 : d ≠ 0 := by
    -- the first digit is the last one of `Nat.digits`, which is never zero
    have hlast := Nat.getLast_digit_ne_zero 58 (Nat.digits_ne_nil_iff_ne_zero.mp hv)
    have hrev : Nat.digits 58 v = ds.reverse ++ [d] := by
      rw [← List.reverse_reverse (Nat.digits 58 v), show (Nat.digits 58 v).reverse = d :: ds from h,
        List.reverse_cons]
    simpa [hrev] using hlast
  have hd58 : d < 58 := digitsBE_lt (by norm_num) (by rw [h]; exact List.mem_cons_self)
  rw [List.map_cons, List.head?_cons]
  exact fun h1 => hd0 (by rw [← idxOf_b58Char hd58, Option.some.inj h1]; rfl)

/-- The character at `j` is not a '1', so nothing is skipped. -/
theorem b58SkipOnes_stop {length j : Nat} (fuel : Nat) {buffer : Vector UInt8 164} {c : UInt8}
    (hget : j < 2 * length → load buffer.toList j = .ok c) (hc : c ≠ 49) :
    b58SkipOnes length (fuel + 1) buffer j = .ok j := by
  by_cases hj : j < 2 * length
  · rw [b58SkipOnes, if_pos hj, hget hj, ok_bind, if_neg hc]; rfl
  · rw [b58SkipOnes, if_neg hj]

/-- The digits of a number do not start with a '1'. -/
theorem b58SkipOnes_digits {length j v : Nat} (fuel : Nat) {buffer : Vector UInt8 164}
    {rest : List UInt8} (hv : digitsBE 58 v ≠ [])
    (hbuf : buffer.toList.drop j = (digitsBE 58 v).map b58Char ++ rest) :
    b58SkipOnes length (fuel + 1) buffer j = .ok j := by
  have hhead := head?_digits_ne_one v
  obtain ⟨d, ds, hd⟩ := List.exists_cons_of_ne_nil hv
  rw [hd, List.map_cons, List.cons_append] at hbuf
  have hlt : j < buffer.toList.length := by
    by_contra hge
    rw [List.drop_eq_nil_of_le (by omega)] at hbuf
    cases hbuf
  have hget : buffer.toList[j] = b58Char d := by
    rw [List.drop_eq_getElem_cons hlt] at hbuf
    exact (List.cons.inj hbuf).1
  have hchar : b58Char d ≠ 49 := fun h => hhead (by rw [hd, List.map_cons, List.head?_cons, h])
  exact b58SkipOnes_stop fuel (fun _ => by rw [load_eq _ _ hlt, hget]) hchar

/-- No digit in front is a '1', and without a digit `j` is at the end. -/
theorem b58SkipOnes_spec {length j v : Nat} (fuel : Nat) {buffer : Vector UInt8 164}
    {rest : List UInt8} (hlen : j + (digitsBE 58 v).length = 2 * length)
    (hbuf : buffer.toList.drop j = (digitsBE 58 v).map b58Char ++ rest) :
    b58SkipOnes length (fuel + 1) buffer j = .ok j := by
  by_cases hv : digitsBE 58 v = []
  · rw [hv, List.length_nil] at hlen
    rw [b58SkipOnes, if_neg (by omega)]
  · exact b58SkipOnes_digits fuel hv hbuf

theorem beVal_drop_zeros (l : List UInt8) :
    beVal (l.drop (l.takeWhile (· = 0)).length) = beVal l ∧
      (l.drop (l.takeWhile (· = 0)).length).head? ≠ some 0 := by
  induction l with
  | nil => exact ⟨rfl, by simp⟩
  | cons b l ih =>
    by_cases hb : b = 0
    · subst hb
      rw [List.takeWhile_cons_of_pos (by simp), List.length_cons, List.drop_succ_cons,
        beVal_zero_cons]
      exact ih
    · rw [List.takeWhile_cons_of_neg (by simpa using hb), List.length_nil, List.drop_zero]
      exact ⟨rfl, by simpa using hb⟩

/-- The text takes at most two characters a byte. -/
theorem length_b58Text_le (bytes : List UInt8) :
    (bytes.takeWhile (· = 0)).length ≤ bytes.length ∧
    (digitsBE 58 (beVal bytes)).length ≤ 2 * (bytes.length - (bytes.takeWhile (· = 0)).length) := by
  have hz := (List.takeWhile_prefix (p := fun b : UInt8 => decide (b = 0)) (l := bytes)).length_le
  refine ⟨hz, length_digitsBE_le (by norm_num) ?_⟩
  have hlt := beVal_lt (bytes.drop (bytes.takeWhile (· = 0)).length)
  rw [(beVal_drop_zeros bytes).1, List.length_drop] at hlt
  calc beVal bytes < 256 ^ (bytes.length - (bytes.takeWhile (· = 0)).length) := hlt
    _ ≤ (58 ^ 2) ^ (bytes.length - (bytes.takeWhile (· = 0)).length) :=
        Nat.pow_le_pow_left (by norm_num) _
    _ = _ := by rw [← pow_mul]

/-- The leading zero bytes are counted, the rest is divided. -/
theorem b58_encode_start (st : Stale) {input : List UInt8} {length : Nat} (hlen : length ≤ 164)
    (hin : length ≤ input.length) (out : Vector UInt8 n) (maxoutlen : Nat) :
    ∃ tmp : Vector UInt8 164,
      slice tmp ((input.take length).takeWhile (· = 0)).length length =
        (input.take length).drop ((input.take length).takeWhile (· = 0)).length ∧
      b58_encode st input length out maxoutlen = (do
        let (buffer, j) ← b58EncodeLoop length (2 * length) tmp
          (Stale.array ⟨fun i => st.bytes (164 + i)⟩ 164) (uchar (2 * length))
          ((input.take length).takeWhile (· = 0)).length
        let j ← b58SkipOnes length 256 buffer j
        let (buffer, j) ← b58PutOnes ((input.take length).takeWhile (· = 0)).length buffer j
        let length := uchar (2 * length - j)
        if maxoutlen < length then
          return (-1, out)
        let out ← writeBytes out 0 (← readBytes buffer.toList j length)
        return (length, out)) := by
  have hread := readBytes_eq input 0 length (by omega)
  rw [List.drop_zero] at hread
  have hbytes : (input.take length).length = length := by simp [hin]
  obtain ⟨tmp, hwrite, htmp⟩ := writeBytes_toList (st.array 164) 0 (input.take length)
    (by rw [hbytes]; omega)
  rw [List.take_zero, List.nil_append, Nat.zero_add, hbytes] at htmp
  have htake : tmp.toList.take length = input.take length := by rw [htmp, List.take_left' hbytes]
  refine ⟨tmp, by rw [slice, htake], ?_⟩
  simp only [b58_encode, if_neg (show ¬length > 164 by omega), hread, ok_bind, hwrite, htake]

/-- `b58_encode` writes the canonical text, if the output has room for it. -/
theorem b58_encode_eq (st : Stale) {input : List UInt8} {length : Nat} (hlen : length ≤ 82)
    (hin : length ≤ input.length) (out : Vector UInt8 n) (maxoutlen : Nat) :
    b58_encode st input length out maxoutlen =
      if maxoutlen < (b58Text (input.take length)).length then .ok (-1, out)
      else do
        let out ← writeBytes out 0 (b58Text (input.take length))
        return ((b58Text (input.take length)).length, out) := by
  obtain ⟨tmp, hslice, hrun⟩ := b58_encode_start st (by omega : length ≤ 164) hin out maxoutlen
  have hbytes : (input.take length).length = length := by simp [hin]
  obtain ⟨hz, hk⟩ := length_b58Text_le (input.take length)
  obtain ⟨hval, hhead⟩ := beVal_drop_zeros (input.take length)
  have htext : (b58Text (input.take length)).length =
      ((input.take length).takeWhile (· = 0)).length +
        (digitsBE 58 (beVal (input.take length))).length := by
    simp [b58Text]
  rw [hbytes] at hz hk
  rw [← hslice] at hval hhead
  generalize hzc : ((input.take length).takeWhile (· = 0)).length = zeroCount at *
  obtain ⟨buffer, hloop, hbuf⟩ := b58EncodeLoop_spec (show length ≤ 164 by omega) (2 * length) tmp
    (Stale.array ⟨fun i => st.bytes (164 + i)⟩ 164) (2 * length) zeroCount hhead
    (by rw [hval]; omega) (by rw [hval]; omega) (by omega)
  rw [hval] at hloop hbuf
  have hdigits : (2 * length - (digitsBE 58 (beVal (input.take length))).length) +
      (digitsBE 58 (beVal (input.take length))).length = 2 * length := by omega
  have hskip := b58SkipOnes_spec 255 hdigits hbuf
  -- `j` and `J`, where the digits and where the whole text start
  generalize hj : 2 * length - (digitsBE 58 (beVal (input.take length))).length = j at *
  obtain ⟨buffer', hones, hbuf'⟩ := b58PutOnes_spec zeroCount buffer j (by omega) (by omega)
  generalize hJ : j - zeroCount = J at *
  rw [hbuf] at hbuf'
  have h2 : uchar (2 * length) = 2 * length := by unfold uchar; omega
  have hL : uchar (2 * length - J) = (b58Text (input.take length)).length := by
    rw [htext]; unfold uchar; omega
  have hout : (buffer'.toList.drop J).take (b58Text (input.take length)).length =
      b58Text (input.take length) := by
    have happ : List.replicate zeroCount 49 ++ (digitsBE 58 (beVal (input.take length))).map b58Char =
        b58Text (input.take length) := by rw [b58Text, hzc]
    rw [hbuf', ← List.append_assoc, happ, List.take_left' rfl]
  have hfinal := readBytes_eq buffer'.toList J (b58Text (input.take length)).length
    (by rw [htext, Vector.length_toList]; omega)
  rw [hout] at hfinal
  rw [hrun, h2]
  simp only [hloop, ok_bind, hskip, hones, hL, hfinal, pure_eq_ok]

end MinaLedger
