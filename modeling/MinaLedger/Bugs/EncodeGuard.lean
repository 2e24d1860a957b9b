import MinaLedger.L1Encoding.Base58Encode

/-!
# The size check of b58_encode lets too long inputs through

`b58_encode` refuses inputs longer than `tmp[164]`, but the text is built in
`buffer[164]` from offset `2 * length` down, and that offset is kept in an
`unsigned char` (src/src/utils.c:25-53). From 83 bytes on `--j` starts behind the
buffer; from 128 bytes on the offset has wrapped to at most 72, less than the
characters to come, and `--j` runs from 0 to 255.

Counterexample: 83 zero bytes.

The exact condition (`respects_iff`): at most 82 bytes, or more than 164.
-/
namespace MinaLedger.Bugs.EncodeGuard
open Lib.Radix

/-- Whatever the arrays held, the call stays inside them and returns -1 or the length of
the canonical text. -/
def Respects (input : List UInt8) (maxoutlen : Nat) : Prop :=
  ∀ (st : Stale) (out : Vector UInt8 maxoutlen), ∃ r out',
    b58_encode st input input.length out maxoutlen = .ok (r, out') ∧
      (r = -1 ∨ r = (b58Text input).length)

/-! ## Inputs the buffer has room for -/

theorem respects_of_le {input : List UInt8} (h : input.length ≤ 82) (maxoutlen : Nat) :
    Respects input maxoutlen := by
  intro st out
  have henc := b58_encode_eq st h le_rfl out maxoutlen
  rw [List.take_length] at henc
  by_cases hroom : maxoutlen < (b58Text input).length
  · rw [if_pos hroom] at henc
    exact ⟨-1, out, henc, .inl rfl⟩
  · obtain ⟨out', hwrite, -⟩ := writeBytes_toList out 0 (b58Text input) (by omega)
    rw [if_neg hroom, hwrite] at henc
    exact ⟨_, out', henc, .inr rfl⟩

theorem respects_of_refused {input : List UInt8} (h : 164 < input.length) (maxoutlen : Nat) :
    Respects input maxoutlen := fun st out =>
  ⟨-1, out, by rw [b58_encode, if_pos h]; rfl, .inl rfl⟩

/-! ## The others -/

/-- `--j` is outside `buffer`. -/
theorem store_behind (buffer : Vector UInt8 164) {j : Nat} (h256 : j < 256)
    (h : j = 0 ∨ 164 < j) (c : UInt8) : store buffer (uchar (j + 255)) c = .error .undefined := by
  have hj : ¬uchar (j + 255) < 164 := by unfold uchar; omega
  rw [store, dif_neg hj]

/-- More digits than there is room in front of `j`. -/
theorem b58EncodeLoop_overrun {length : Nat} (hl : length ≤ 164) : ∀ (fuel : Nat)
    (tmp buffer : Vector UInt8 164) (j startAt : Nat),
    (slice tmp startAt length).head? ≠ some 0 →
    (digitsBE 58 (beVal (slice tmp startAt length))).length ≤ fuel →
    startAt < length → j < 256 →
    j < (digitsBE 58 (beVal (slice tmp startAt length))).length ∨ 164 < j →
    b58EncodeLoop length fuel tmp buffer j startAt = .error .undefined := by
  intro fuel
  induction fuel with
  | zero =>
    intro tmp buffer j startAt hhead hfuel hmore _ _
    have hpos := slice_ne_zero tmp hl hmore hhead
    rw [digitsBE_step (by norm_num) hpos, List.length_append, List.length_singleton] at hfuel
    omega
  | succ fuel ih =>
    intro tmp buffer j startAt hhead hfuel hmore h256 hover
    have hpos := slice_ne_zero tmp hl hmore hhead
    obtain ⟨tmp', startAt', -, hhead', hval', hrun⟩ := b58EncodeLoop_step hl tmp hmore hhead
    rw [hrun]
    by_cases hj : j = 0 ∨ 164 < j
    · rw [store_behind buffer h256 hj]; rfl
    · rw [digitsBE_step (by norm_num) hpos, List.length_append, List.length_singleton] at hfuel hover
      have huchar : uchar (j + 255) = j - 1 := by unfold uchar; omega
      rw [huchar, store_eq _ _ _ (by omega), ok_bind]
      have hmore' : startAt' < length := by
        by_contra hdone
        rw [slice_of_le tmp' hdone, beVal_nil] at hval'
        rw [← hval', digitsBE_zero, List.length_nil] at hover
        omega
      exact ih tmp' _ (j - 1) startAt' hhead' (by rw [hval']; omega) hmore' (by omega)
        (by rw [hval']; omega)

/-- More '1' characters than there is room in front of `j`. -/
theorem b58PutOnes_overrun : ∀ (zeroCount : Nat) (buffer : Vector UInt8 164) (j : Nat),
    0 < zeroCount → j < 256 → j < zeroCount ∨ 164 < j →
    b58PutOnes zeroCount buffer j = .error .undefined := by
  intro zeroCount
  induction zeroCount with
  | zero => intro buffer j h0 _ _; omega
  | succ zeroCount ih =>
    intro buffer j _ h256 hover
    rw [b58PutOnes]
    by_cases hj : j = 0 ∨ 164 < j
    · rw [store_behind buffer h256 hj]; rfl
    · have huchar : uchar (j + 255) = j - 1 := by unfold uchar; omega
      simp only [huchar, store_eq _ _ _ (show j - 1 < 164 by omega), ok_bind]
      exact ih _ (j - 1) (by omega) (by omega) (by omega)

/-- Every byte takes at least one character. -/
theorem le_length_b58Text (bytes : List UInt8) : bytes.length ≤ (b58Text bytes).length := by
  obtain ⟨hz, -⟩ := length_b58Text_le bytes
  obtain ⟨hval, hhead⟩ := beVal_drop_zeros bytes
  have htext : (b58Text bytes).length =
      (bytes.takeWhile (· = 0)).length + (digitsBE 58 (beVal bytes)).length := by simp [b58Text]
  have hlen := List.length_drop (i := (bytes.takeWhile (· = 0)).length) (l := bytes)
  rw [htext, ← hval]
  generalize bytes.drop (bytes.takeWhile (· = 0)).length = rest at hhead hlen ⊢
  cases rest with
  | nil => rw [List.length_nil] at hlen; omega
  | cons b l =>
    have hb : 1 ≤ b.toNat := Nat.one_le_iff_ne_zero.mpr fun h0 =>
      hhead (by rw [List.head?_cons, UInt8.toNat_inj.mp (h0.trans rfl : b.toNat = (0 : UInt8).toNat)])
    have hpow : 58 ^ l.length ≤ beVal (b :: l) := by
      rw [beVal_cons]
      calc 58 ^ l.length ≤ 1 * 256 ^ l.length := by
            rw [Nat.one_mul]; exact Nat.pow_le_pow_left (by norm_num) _
        _ ≤ b.toNat * 256 ^ l.length := Nat.mul_le_mul_right _ hb
        _ ≤ _ := Nat.le_add_right _ _
    have hdigits := lt_length_digitsBE (by norm_num) hpow
    rw [List.length_cons] at hlen
    omega

/-- A stack of zeros, on which no '1' is skipped. -/
def zeroStale : Stale := ⟨fun _ => 0⟩

/-- Between 83 and 164 bytes there is a store behind `buffer`, whatever the input. -/
theorem b58_encode_overrun {input : List UInt8} (h83 : 82 < input.length)
    (h164 : input.length ≤ 164) {k : Nat} (out : Vector UInt8 k) (maxoutlen : Nat) :
    b58_encode zeroStale input input.length out maxoutlen = .error .undefined := by
  obtain ⟨tmp, hslice, hrun⟩ := b58_encode_start zeroStale h164 le_rfl out maxoutlen
  obtain ⟨hz, hk⟩ := length_b58Text_le input
  obtain ⟨hval, hhead⟩ := beVal_drop_zeros input
  have hlong := le_length_b58Text input
  have htext : (b58Text input).length =
      (input.takeWhile (· = 0)).length + (digitsBE 58 (beVal input)).length := by simp [b58Text]
  rw [List.take_length] at hslice hrun
  rw [← hslice] at hval hhead
  rw [hrun]
  generalize (input.takeWhile (· = 0)).length = zeroCount at *
  generalize hbuffer : Stale.array ⟨fun i => zeroStale.bytes (164 + i)⟩ 164 = buffer
  generalize hlen : input.length = length at *
  -- where the digits would end
  have hj : uchar (2 * length) < 256 ∧ (164 < uchar (2 * length) ∨ uchar (2 * length) < length) := by
    unfold uchar; omega
  generalize uchar (2 * length) = j at hj ⊢
  obtain ⟨h256, hwrap⟩ := hj
  by_cases hmore : zeroCount < length
  · by_cases hover : j < (digitsBE 58 (beVal input)).length ∨ 164 < j
    · rw [b58EncodeLoop_overrun h164 _ tmp buffer j zeroCount hhead (by rw [hval]; omega) hmore h256
        (by rwa [hval])]
      rfl
    · -- the digits fit and the leading zeros do not
      obtain ⟨buffer', hloop, hbuf⟩ := b58EncodeLoop_spec h164 (2 * length) tmp buffer j zeroCount
        hhead (by rw [hval]; omega) (by rw [hval]; omega) (by omega)
      have hne := slice_ne_zero tmp h164 hmore hhead
      rw [hval] at hloop hbuf hne
      have hdigits : digitsBE 58 (beVal input) ≠ [] := by
        rw [digitsBE_step (by norm_num) hne]; simp
      rw [hloop, ok_bind]
      simp only [b58SkipOnes_digits 255 hdigits hbuf, ok_bind]
      rw [b58PutOnes_overrun zeroCount buffer' _ (by omega) (by omega) (by omega)]
      rfl
  · -- nothing but zeros
    rw [b58EncodeLoop_done _ tmp buffer j hmore, ok_bind]
    have hskip : b58SkipOnes length (255 + 1) buffer j = .ok j ∨
        b58SkipOnes length (255 + 1) buffer j = .error .undefined := by
      by_cases hin : j < buffer.toList.length
      · have hzero : buffer.toList[j] = 0 := by simp [← hbuffer, Stale.array, zeroStale]
        exact .inl (b58SkipOnes_stop 255 (fun _ => by rw [load_eq _ _ hin, hzero]) (by decide))
      · by_cases hend : j < 2 * length
        · refine .inr ?_
          rw [b58SkipOnes, if_pos hend, load, List.getElem?_eq_none (by omega)]; rfl
        · exact .inl (by rw [b58SkipOnes, if_neg hend])
    rcases hskip with hskip | hskip
    · simp only [hskip, ok_bind]
      rw [b58PutOnes_overrun zeroCount buffer j (by omega) h256 (by omega)]
      rfl
    · simp only [hskip, error_bind]

/-- The exact condition. -/
theorem respects_iff (input : List UInt8) (maxoutlen : Nat) :
    Respects input maxoutlen ↔ input.length ≤ 82 ∨ 164 < input.length := by
  constructor
  · intro h
    by_contra hbad
    rw [not_or, not_le, not_lt] at hbad
    obtain ⟨r, out', hrun, -⟩ := h zeroStale (Vector.replicate maxoutlen 0)
    rw [b58_encode_overrun hbad.1 hbad.2] at hrun
    cases hrun
  · rintro (h | h)
    · exact respects_of_le h maxoutlen
    · exact respects_of_refused h maxoutlen

/-- 83 zero bytes. -/
theorem zeros_overrun : ¬Respects (List.replicate 83 0) 255 := by
  intro h
  obtain ⟨r, out', hrun, -⟩ := h zeroStale (Vector.replicate 255 0)
  have hfault : b58_encode zeroStale (List.replicate 83 0) (List.replicate 83 (0 : UInt8)).length
      (Vector.replicate 255 0) 255 = .error .undefined := by decide +kernel
  rw [hfault] at hrun
  cases hrun

end MinaLedger.Bugs.EncodeGuard
