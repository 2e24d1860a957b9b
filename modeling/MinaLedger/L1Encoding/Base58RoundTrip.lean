import MinaLedger.L1Encoding.Base58Decode
import MinaLedger.L1Encoding.Base58Encode

/-!
# b58_encode and b58_decode are inverse

The encoder writes the canonical text of its bytes, the decoder the bytes of
its text's value. Left to compare are the leading zeros, which the value of a
text does not show: the encoder counts zero bytes and writes as many '1', the
decoder counts both and answers with the difference in `*binszp`.

Results:
* `leading_ones_b58Text`: the canonical text has as many leading '1' as the
  bytes have leading zeros.
* `b58Text_of_decoded`: a text with as many leading '1' as its bytes have
  leading zeros is canonical.
* `b58_round_trip`: so decoding undoes encoding, and encoding undoes every
  decoding whose `*binszp` is the size of the buffer.
-/
namespace MinaLedger
open Lib.Radix Lib.LongArith

variable {n : Nat}

/-! ## Leading zeros -/

theorem takeWhile_replicate_append {s : List UInt8} (c : UInt8) (k : Nat) (hs : s.head? ≠ some c) :
    ((List.replicate k c ++ s).takeWhile (· = c)).length = k := by
  induction k with
  | zero =>
    cases s with
    | nil => rfl
    | cons b s =>
      have hb : b ≠ c := fun h => hs (by rw [h, List.head?_cons])
      rw [List.replicate_zero, List.nil_append, List.takeWhile_cons_of_neg (by simpa using hb),
        List.length_nil]
  | succ k ih =>
    rw [List.replicate_succ, List.cons_append, List.takeWhile_cons_of_pos (by simp),
      List.length_cons, ih]

/-- One leading '1' for every leading zero byte. -/
theorem leading_ones_b58Text (bytes : List UInt8) :
    ((b58Text bytes).takeWhile (· = 49)).length = (bytes.takeWhile (· = 0)).length :=
  takeWhile_replicate_append 49 _ (head?_digits_ne_one (beVal bytes))

theorem head?_drop_ones (s : List UInt8) :
    (s.drop (s.takeWhile (· = 49)).length).head? ≠ some 49 := by
  induction s with
  | nil => simp
  | cons c s ih =>
    by_cases hc : c = 49
    · rw [List.takeWhile_cons_of_pos (by simpa using hc), List.length_cons, List.drop_succ_cons]
      exact ih
    · rw [List.takeWhile_cons_of_neg (by simpa using hc), List.length_nil, List.drop_zero,
        List.head?_cons]
      exact fun h => hc (Option.some.inj h)

/-- A text of the alphabet is the canonical text of its bytes, if the leading zeros agree. -/
theorem b58Text_of_decoded {s bytes : List UInt8} (hs : IsB58 s) (hval : beVal bytes = b58Value s)
    (hlead : (bytes.takeWhile (· = 0)).length = (s.takeWhile (· = 49)).length) :
    b58Text bytes = s := by
  have hrest := map_digitsBE_b58Value ((isB58_drop_ones s).mpr hs) (head?_drop_ones s)
  rw [b58Value_drop_ones] at hrest
  rw [b58Text, hlead, hval, hrest, ones_append]

/-- The text of a string that is not empty: at least one character, at most two a byte. -/
theorem length_b58Text_bounds {bytes : List UInt8} (h : bytes ≠ []) :
    0 < (b58Text bytes).length ∧ (b58Text bytes).length ≤ 2 * bytes.length := by
  obtain ⟨hz, hk⟩ := length_b58Text_le bytes
  have hlen : (b58Text bytes).length =
      (bytes.takeWhile (· = 0)).length + (digitsBE 58 (beVal bytes)).length := by simp [b58Text]
  refine ⟨Nat.pos_of_ne_zero fun h0 => ?_, by omega⟩
  -- an empty text has value 0 and no leading '1', so its bytes start with no zero and yet are zero
  have hnil : b58Text bytes = [] := List.eq_nil_of_length_eq_zero h0
  have hval : beVal bytes = 0 := by rw [← b58Value_b58Text, hnil]; rfl
  have hhead : bytes.head? ≠ some 0 := by
    have hd := (beVal_drop_zeros bytes).2
    rwa [show (bytes.takeWhile (· = 0)).length = 0 by omega, List.drop_zero] at hd
  obtain ⟨b, l, rfl⟩ := List.exists_cons_of_ne_nil h
  exact absurd hval (beVal_pos hhead).ne'

/-! ## The round trips -/

/-- An output with room for the text receives it. -/
theorem b58_encode_room (st : Stale) (bytes : Vector UInt8 n) (h82 : n ≤ 82) {k maxoutlen : Nat}
    (out : Vector UInt8 k) (hmax : (b58Text bytes.toList).length ≤ maxoutlen) (hk : maxoutlen ≤ k) :
    ∃ out', b58_encode st bytes.toList n out maxoutlen =
        .ok ((b58Text bytes.toList).length, out') ∧
      out'.toList.take (b58Text bytes.toList).length = b58Text bytes.toList := by
  have htake : bytes.toList.take n = bytes.toList := List.take_of_length_le (by simp)
  obtain ⟨out', hwrite, hlist⟩ := writeBytes_toList out 0 (b58Text bytes.toList) (by omega)
  refine ⟨out', ?_, ?_⟩
  · rw [b58_encode_eq st h82 (by simp) out maxoutlen, htake, if_neg (by omega), hwrite]; rfl
  · rw [hlist, List.take_zero, List.nil_append, List.take_left' rfl]

/-- Decoding the canonical text gives the bytes back, and says that all of them count. -/
theorem b58_decode_b58Text (h1 : 1 ≤ n) (bytes bin : Vector UInt8 n) {mem : List UInt8}
    (hmem : mem.take (b58Text bytes.toList).length = b58Text bytes.toList) :
    b58_decode bin n mem (b58Text bytes.toList).length = .ok (true, bytes, n) := by
  have hne : bytes.toList ≠ [] := fun h => by
    have hlen := bytes.length_toList
    rw [h, List.length_nil] at hlen; omega
  obtain ⟨hpos, -⟩ := length_b58Text_bounds hne
  have hle : (b58Text bytes.toList).length ≤ mem.length := by
    have hlen := congrArg List.length hmem
    rw [List.length_take] at hlen; omega
  have hfits : b58Value (b58Text bytes.toList) < 256 ^ n := by
    have hlt := beVal_lt bytes.toList
    rwa [bytes.length_toList, ← b58Value_b58Text] at hlt
  have hdec : Decodes n (mem.take (b58Text bytes.toList).length) := by
    rw [hmem]; exact ⟨isB58_b58Text _, hfits⟩
  obtain ⟨bin', hbin, hlist⟩ := b58_decode_true bin h1 hpos.ne' hle hdec
  rw [hmem, b58Value_b58Text, beBytes_beVal bytes.length_toList] at hlist
  have heq : bin' = bytes := Vector.toList_inj.mp hlist
  have hz := (List.takeWhile_prefix (p := fun b : UInt8 => decide (b = 0))
    (l := bytes.toList)).length_le
  rw [bytes.length_toList] at hz
  rw [hbin, heq, hmem, leading_ones_b58Text, Nat.sub_add_cancel hz]

/-- A text accepted with all bytes counted is the canonical text of those bytes. -/
theorem b58Text_of_b58_decode (h1 : 1 ≤ n) {bin bin' : Vector UInt8 n} {s : List UInt8} (hs : s ≠ [])
    (h : b58_decode bin n s s.length = .ok (true, bin', n)) :
    b58Text bin'.toList = s ∧
      (s.takeWhile (· = 49)).length = (bin'.toList.takeWhile (· = 0)).length := by
  have hsz : s.length ≠ 0 := fun h0 => hs (List.eq_nil_of_length_eq_zero h0)
  by_cases hdec : Decodes n (s.take s.length)
  swap
  · rw [b58_decode_false bin h1 hsz le_rfl hdec] at h
    cases h
  obtain ⟨bin₀, hbin, hlist⟩ := b58_decode_true bin h1 hsz le_rfl hdec
  rw [List.take_length] at hdec hbin hlist
  rw [h] at hbin
  obtain ⟨-, rfl, hcount⟩ : true = true ∧ bin' = bin₀ ∧
      n = n - (bin₀.toList.takeWhile (· = 0)).length + (s.takeWhile (· = 49)).length := by
    simpa using hbin
  have hz := (List.takeWhile_prefix (p := fun b : UInt8 => decide (b = 0))
    (l := bin'.toList)).length_le
  rw [bin'.length_toList] at hz
  have hlead : (bin'.toList.takeWhile (· = 0)).length = (s.takeWhile (· = 49)).length := by omega
  have hval : beVal bin'.toList = b58Value s := by rw [hlist, beVal_beBytes hdec.2]
  exact ⟨b58Text_of_decoded hdec.1 hval hlead, hlead.symm⟩

/-- Encoding and decoding are inverse for every size the encoder's buffers hold, and
leading zero bytes and leading '1' characters correspond one to one. -/
theorem b58_round_trip (h1 : 1 ≤ n) (h82 : n ≤ 82) :
    (∀ bytes : Vector UInt8 n, ∃ L ≤ 2 * n, ∀ (st : Stale) (k maxoutlen : Nat)
      (out : Vector UInt8 k), L ≤ maxoutlen → maxoutlen ≤ k →
      ∃ out', b58_encode st bytes.toList n out maxoutlen = .ok ((L : Int), out') ∧
        (out'.toList.take L).length = L ∧ IsB58 (out'.toList.take L) ∧
        (∀ bin : Vector UInt8 n, b58_decode bin n out'.toList L = .ok (true, bytes, n)) ∧
        ((out'.toList.take L).takeWhile (· = 49)).length =
          (bytes.toList.takeWhile (· = 0)).length) ∧
    (∀ (s : List UInt8) (bin bin' : Vector UInt8 n), s ≠ [] →
      b58_decode bin n s s.length = .ok (true, bin', n) →
      (s.takeWhile (· = 49)).length = (bin'.toList.takeWhile (· = 0)).length ∧
      s.length ≤ 2 * n ∧
      ∀ (st : Stale) (k maxoutlen : Nat) (out : Vector UInt8 k), s.length ≤ maxoutlen →
        maxoutlen ≤ k → ∃ out', b58_encode st bin'.toList n out maxoutlen =
          .ok ((s.length : Int), out') ∧ out'.toList.take s.length = s) := by
  have hne : ∀ bytes : Vector UInt8 n, bytes.toList ≠ [] := fun bytes h => by
    have hlen := bytes.length_toList
    rw [h, List.length_nil] at hlen; omega
  have hbound : ∀ bytes : Vector UInt8 n, (b58Text bytes.toList).length ≤ 2 * n := fun bytes => by
    have hb := (length_b58Text_bounds (hne bytes)).2
    rwa [bytes.length_toList] at hb
  constructor
  · intro bytes
    refine ⟨(b58Text bytes.toList).length, hbound bytes, ?_⟩
    intro st k maxoutlen out hmax hk
    obtain ⟨out', henc, htext⟩ := b58_encode_room st bytes h82 out hmax hk
    refine ⟨out', henc, by rw [htext], by rw [htext]; exact isB58_b58Text _, ?_, ?_⟩
    · exact fun bin => b58_decode_b58Text h1 bytes bin htext
    · rw [htext, leading_ones_b58Text]
  · intro s bin bin' hs h
    obtain ⟨htext, hlead⟩ := b58Text_of_b58_decode h1 hs h
    refine ⟨hlead, by rw [← htext]; exact hbound bin', ?_⟩
    intro st k maxoutlen out hmax hk
    rw [← htext] at hmax ⊢
    exact b58_encode_room st bin' h82 out hmax hk

/-- At two bytes, the first of them zero. -/
theorem b58_round_trip_two :
    (∃ out', b58_encode ⟨fun _ => 0⟩ [0, 1] 2 (Vector.replicate 4 0) 4 = .ok (2, out') ∧
      b58_decode #v[7, 7] 2 out'.toList 2 = .ok (true, #v[0, 1], 2)) ∧
    ∃ out', b58_encode ⟨fun _ => 0⟩ [0, 1] 2 (Vector.replicate 4 0) 4 = .ok (2, out') ∧
      out'.toList.take 2 = chars "12" := by
  have h := b58_round_trip (n := 2) (by norm_num) (by norm_num)
  constructor
  · obtain ⟨L, hL, hrun⟩ := h.1 #v[0, 1]
    obtain ⟨out', henc, -, -, hdec, -⟩ :=
      hrun ⟨fun _ => 0⟩ 4 4 (Vector.replicate 4 0) (by omega) le_rfl
    have htwo : b58_encode ⟨fun _ => 0⟩ [0, 1] 2 (Vector.replicate 4 0) 4 =
        .ok (2, #v[49, 50, 0, 0]) := by decide +kernel
    have hsame := henc.symm.trans htwo
    injection hsame with hsame
    obtain ⟨hl, rfl⟩ := Prod.mk.inj hsame
    have hl2 : L = 2 := by exact_mod_cast hl
    subst hl2
    exact ⟨_, henc, hdec #v[7, 7]⟩
  · obtain ⟨-, -, henc⟩ := h.2 (chars "12") #v[7, 7] #v[0, 1] (by decide +kernel) (by decide +kernel)
    exact henc ⟨fun _ => 0⟩ 4 4 (Vector.replicate 4 0) (by decide +kernel) le_rfl

end MinaLedger
