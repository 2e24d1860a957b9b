import MinaLedger.L1Encoding.Base58

/-!
# Correctness of b58_decode

The multi-limb multiply-and-add against the value of the text.

Results:
* `b58Digits_spec`: the digit loop keeps the value of the text read so far and
  gives up exactly at a character outside the alphabet or a value of more than
  `binsz` bytes.
* `b58_decode_true`, `b58_decode_false`: so the decoder succeeds exactly on
  texts of the alphabet whose value fits, with the big-endian bytes of the
  value, and leaves the buffer alone otherwise.
* `limbLoop_eq`: no product of the inner loop leaves its 64 bits.
* `b58_decode_fits`: the verdict, the buffer and `*binszp`, for every text and size.
-/
namespace MinaLedger
open Lib.Radix Lib.LongArith

variable {n : Nat}

/-- The zero mask of a buffer of `binsz` bytes. -/
def zeromask (binsz : Nat) : Nat :=
  if binsz % 4 ≠ 0 then (2 ^ 32 - 1) <<< (binsz % 4 * 8) % 2 ^ 32 else 0

/-- The limbs hold a number: `k` of them, each below 2^32. -/
structure Limbs (k : Nat) (outi : List Nat) : Prop where
  length : outi.length = k
  lt : ∀ d ∈ outi, d < 2 ^ 32

theorem Limbs.cons {k : Nat} {outi : List Nat} (h : Limbs (k + 1) outi) :
    ∃ d l, outi = d :: l ∧ d < 2 ^ 32 ∧ Limbs k l := by
  obtain ⟨hlen, hlt⟩ := h
  cases outi with
  | nil => simp at hlen
  | cons d l =>
    exact ⟨d, l, rfl, hlt d List.mem_cons_self, by simpa using hlen,
      fun x hx => hlt x (List.mem_cons_of_mem d hx)⟩

theorem Limbs.value_lt {k : Nat} {outi : List Nat} (h : Limbs k outi) :
    ofBE (2 ^ 32) outi < 256 ^ (4 * k) := by
  have hlt := ofBE_lt (by norm_num) h.lt
  rwa [h.length, show (2 ^ 32 : Nat) = 256 ^ 4 by norm_num, ← pow_mul] at hlt

/-! ## The inner loop -/

/-- The loop over the limbs in the types of the source: `t` has 64 bits, a limb and the
carry 32. mirrors src/src/utils.c:122-126 -/
def limbLoop : List UInt32 → UInt32 → List UInt32 × UInt32
  | [], c => ([], c)
  | d :: outi, c =>
    let (outi, c) := limbLoop outi c
    let t : UInt64 := d.toUInt64 * 58 + c.toUInt64
    ((t &&& 0xffffffff).toUInt32 :: outi, (t >>> 32).toUInt32)

/-- Nothing is lost in it, so it is `mulAdd`. -/
theorem limbLoop_eq (outi : List UInt32) (c : UInt32) :
    (limbLoop outi c).1.map UInt32.toNat =
      (mulAdd (2 ^ 32) 58 (outi.map UInt32.toNat) c.toNat).1 ∧
    (limbLoop outi c).2.toNat = (mulAdd (2 ^ 32) 58 (outi.map UInt32.toNat) c.toNat).2 := by
  induction outi with
  | nil => exact ⟨rfl, rfl⟩
  | cons d outi ih =>
    obtain ⟨hdigits, hcarry⟩ := ih
    generalize hr : limbLoop outi c = r at hdigits hcarry
    obtain ⟨l, cy⟩ := r
    have hd := d.toNat_lt
    have hcy := cy.toNat_lt
    have ht : (d.toUInt64 * 58 + cy.toUInt64).toNat = d.toNat * 58 + cy.toNat := by
      have hfit : d.toNat * 58 + cy.toNat < 2 ^ 64 := by omega
      simp only [UInt64.toNat_add, UInt64.toNat_mul, UInt32.toNat_toUInt64, UInt64.reduceToNat]
      omega
    have hmask : (0xffffffff : UInt64).toNat = 2 ^ 32 - 1 := rfl
    simp only [limbLoop, hr, List.map_cons, mulAdd_cons, ← hdigits, ← hcarry,
      UInt64.toNat_toUInt32, UInt64.toNat_and, UInt64.toNat_shiftRight, ht, hmask,
      Nat.and_two_pow_sub_one_eq_mod, Nat.shiftRight_eq_div_pow]
    refine ⟨?_, ?_⟩
    · rw [Nat.mod_mod]
    · exact Nat.mod_eq_of_lt (by simp; omega)

/-! ## The mask test -/

/-- The mask cuts the first limb down to `b` bytes. -/
theorem and_mask_eq_zero {d b : Nat} (hd : d < 2 ^ 32) (hb : b < 4) (h0 : b ≠ 0) :
    d &&& ((2 ^ 32 - 1) <<< (b * 8) % 2 ^ 32) = 0 ↔ d < 256 ^ b := by
  have hmask : (2 ^ 32 - 1) <<< (b * 8) % 2 ^ 32 = (2 ^ (32 - b * 8) - 1) <<< (b * 8) := by
    interval_cases b <;> simp_all
  rw [hmask]
  constructor
  · intro h
    have hpow : (256 : Nat) ^ b = 2 ^ (b * 8) := by
      rw [show (256 : Nat) = 2 ^ 8 by norm_num, ← pow_mul, Nat.mul_comm]
    rw [hpow]
    apply Nat.lt_pow_two_of_testBit
    intro i hi
    rcases Nat.lt_or_ge i 32 with h32 | h32
    · have hbit := congrArg (·.testBit i) h
      simp only [Nat.testBit_and, Nat.testBit_shiftLeft, Nat.zero_testBit,
        Nat.testBit_two_pow_sub_one] at hbit
      have h1 : i - b * 8 < 32 - b * 8 := by omega
      simpa [hi, h1] using hbit
    · have hle : 2 ^ 32 ≤ 2 ^ i := Nat.pow_le_pow_right (by norm_num) h32
      exact Nat.testBit_lt_two_pow (by omega)
  · intro h
    have hpow : (256 : Nat) ^ b = 2 ^ (b * 8) := by
      rw [show (256 : Nat) = 2 ^ 8 by norm_num, ← pow_mul, Nat.mul_comm]
    rw [hpow] at h
    apply Nat.eq_of_testBit_eq
    intro i
    rw [Nat.testBit_and, Nat.testBit_shiftLeft, Nat.zero_testBit]
    rcases Nat.lt_or_ge i (b * 8) with hi | hi
    · simp [Nat.not_le.mpr hi]
    · have hle : 2 ^ (b * 8) ≤ 2 ^ i := Nat.pow_le_pow_right (by norm_num) hi
      rw [Nat.testBit_lt_two_pow (by omega), Bool.false_and]

/-- Carry and mask together say that the number fits. -/
theorem fits_iff {binsz : Nat} (hn : 0 < binsz) {outi : List Nat}
    (h : Limbs ((binsz + 4 - 1) / 4) outi) :
    (outi.headD 0 &&& zeromask binsz = 0) ↔ ofBE (2 ^ 32) outi < 256 ^ binsz := by
  obtain ⟨k, hk⟩ : ∃ k, (binsz + 4 - 1) / 4 = k + 1 := ⟨(binsz + 4 - 1) / 4 - 1, by omega⟩
  rw [hk] at h
  obtain ⟨d, l, rfl, hd, hl⟩ := h.cons
  have hlow := hl.value_lt
  have hpow : (2 ^ 32 : Nat) ^ k = 256 ^ (4 * k) := by
    rw [show (2 ^ 32 : Nat) = 256 ^ 4 by norm_num, ← pow_mul]
  rw [List.headD_cons, ofBE_cons, hl.length, hpow]
  unfold zeromask
  by_cases h0 : binsz % 4 = 0
  · -- whole limbs: nothing to test
    have hsz : 256 ^ binsz = 256 ^ 4 * 256 ^ (4 * k) := by
      rw [← pow_add]; congr 1; omega
    rw [if_neg (by simpa using h0), Nat.and_zero, hsz]
    have : d * 256 ^ (4 * k) + 256 ^ (4 * k) ≤ 256 ^ 4 * 256 ^ (4 * k) := by
      rw [← Nat.succ_mul]; exact Nat.mul_le_mul_right _ (by omega)
    constructor
    · intro _; omega
    · intro _; rfl
  · have hsz : 256 ^ binsz = 256 ^ (binsz % 4) * 256 ^ (4 * k) := by
      rw [← pow_add]; congr 1; omega
    rw [if_pos h0, and_mask_eq_zero hd (Nat.mod_lt _ (by norm_num)) h0, hsz]
    have hpos : 0 < 256 ^ (4 * k) := by positivity
    constructor
    · intro hlt
      have : d * 256 ^ (4 * k) + 256 ^ (4 * k) ≤ 256 ^ (binsz % 4) * 256 ^ (4 * k) := by
        rw [← Nat.succ_mul]; exact Nat.mul_le_mul_right _ hlt
      omega
    · intro hlt
      by_contra hge
      have : 256 ^ (binsz % 4) * 256 ^ (4 * k) ≤ d * 256 ^ (4 * k) :=
        Nat.mul_le_mul_right _ (by omega)
      omega

/-! ## The digit loop -/

/-- The number read after `s`, starting from `v`. -/
def b58From (v : Nat) (s : List UInt8) : Nat := v * 58 ^ s.length + b58Value s

theorem b58From_cons (v : Nat) (c : UInt8) (s : List UInt8) :
    b58From v (c :: s) = b58From (58 * v + B58_ALPHABET.idxOf c) s := by
  simp only [b58From, b58Value, List.map_cons, ofBE_cons, List.length_cons, List.length_map]
  ring

/-- What was read stays a lower bound. -/
theorem le_b58From (v : Nat) (s : List UInt8) : v ≤ b58From v s := by
  have h : 1 ≤ 58 ^ s.length := Nat.one_le_pow _ _ (by norm_num)
  have := Nat.mul_le_mul_left v h
  unfold b58From; omega

/-- One character outside the alphabet ends the loop. -/
theorem b58Digits_bad {mask : Nat} {c : UInt8} (hc : c ∉ B58_ALPHABET) (s : List UInt8)
    (outi : List Nat) : b58Digits mask (c :: s) outi = .ok none := by
  rw [b58Digits]
  rcases digitsMap_not_mem hc with h | h
  · rw [if_pos h]; rfl
  · by_cases hbit : c &&& 0x80 = 0
    · rw [if_neg (by simpa using hbit), h]; rfl
    · rw [if_pos hbit]; rfl

/-- One character of the alphabet multiplies and adds, or overflows. -/
theorem b58Digits_good {binsz : Nat} {c : UInt8} (hc : c ∈ B58_ALPHABET) (s : List UInt8)
    (outi : List Nat) {k : Nat} (hlimbs : Limbs (k + 1) outi) :
    b58Digits (zeromask binsz) (c :: s) outi =
      if (mulAdd (2 ^ 32) 58 outi (B58_ALPHABET.idxOf c)).2 ≠ 0 ∨
          (mulAdd (2 ^ 32) 58 outi (B58_ALPHABET.idxOf c)).1.headD 0 &&& zeromask binsz ≠ 0
      then .ok none
      else b58Digits (zeromask binsz) s (mulAdd (2 ^ 32) 58 outi (B58_ALPHABET.idxOf c)).1 := by
  obtain ⟨hbit, hload⟩ := digitsMap_mem hc
  have hne : ¬(B58_ALPHABET.idxOf c : Int) = -1 := by omega
  have hlen : 0 < (mulAdd (2 ^ 32) 58 outi (B58_ALPHABET.idxOf c)).1.length := by
    rw [length_mulAdd, hlimbs.length]; omega
  rw [b58Digits, if_neg (by simpa using hbit), hload, ok_bind, if_neg hne, Int.toNat_natCast]
  generalize mulAdd (2 ^ 32) 58 outi (B58_ALPHABET.idxOf c) = r at hlen ⊢
  obtain ⟨o, cy⟩ := r
  have hhead : load o 0 = .ok (o.headD 0) := by
    rw [load_eq _ _ hlen]
    cases o with
    | nil => simp at hlen
    | cons x o => rfl
  by_cases hcy : cy = 0
  · simp [hcy, hhead]
  · simp [hcy]

theorem b58Digits_spec {binsz : Nat} (hn : 0 < binsz) : ∀ (s : List UInt8) (outi : List Nat),
    Limbs ((binsz + 4 - 1) / 4) outi →
    (IsB58 s ∧ b58From (ofBE (2 ^ 32) outi) s < 256 ^ binsz →
      ∃ o, b58Digits (zeromask binsz) s outi = .ok (some o) ∧ Limbs ((binsz + 4 - 1) / 4) o ∧
        ofBE (2 ^ 32) o = b58From (ofBE (2 ^ 32) outi) s) ∧
    (¬(IsB58 s ∧ b58From (ofBE (2 ^ 32) outi) s < 256 ^ binsz) →
      ofBE (2 ^ 32) outi < 256 ^ binsz → b58Digits (zeromask binsz) s outi = .ok none) := by
  intro s
  induction s with
  | nil =>
    intro outi hl
    refine ⟨fun _ => ⟨outi, rfl, hl, by simp [b58From, b58Value]⟩, fun hno hlt => absurd ?_ hno⟩
    exact ⟨fun c hc => (by cases hc), by simpa [b58From, b58Value] using hlt⟩
  | cons c s ih =>
    intro outi hl
    by_cases hc : c ∈ B58_ALPHABET
    swap
    · exact ⟨fun h => absurd (h.1 c List.mem_cons_self) hc, fun _ _ => b58Digits_bad hc s outi⟩
    obtain ⟨k, hk⟩ : ∃ k, (binsz + 4 - 1) / 4 = k + 1 := ⟨(binsz + 4 - 1) / 4 - 1, by omega⟩
    rw [b58Digits_good hc s outi (hk ▸ hl), b58From_cons]
    have hval := mulAdd_value (2 ^ 32) 58 outi (B58_ALPHABET.idxOf c)
    have hl' : Limbs ((binsz + 4 - 1) / 4) (mulAdd (2 ^ 32) 58 outi (B58_ALPHABET.idxOf c)).1 :=
      ⟨by rw [length_mulAdd, hl.length], fun d hd => mulAdd_lt (by norm_num) hd⟩
    have hfits := fits_iff hn hl'
    generalize mulAdd (2 ^ 32) 58 outi (B58_ALPHABET.idxOf c) = r at hval hl' hfits ⊢
    generalize 58 * ofBE (2 ^ 32) outi + B58_ALPHABET.idxOf c = v at hval ⊢
    have hcap : 256 ^ binsz ≤ (2 ^ 32) ^ outi.length := by
      rw [show (2 ^ 32 : Nat) = 256 ^ 4 by norm_num, ← pow_mul, hl.length]
      exact Nat.pow_le_pow_right (by norm_num) (by omega)
    by_cases hover : r.2 ≠ 0 ∨ r.1.headD 0 &&& zeromask binsz ≠ 0
    · -- the number so far does not fit, so the whole text does not
      have hge : 256 ^ binsz ≤ v := by
        rcases hover with hcy | hm
        · have : 1 * (2 ^ 32) ^ outi.length ≤ r.2 * (2 ^ 32) ^ outi.length :=
            Nat.mul_le_mul_right _ (Nat.one_le_iff_ne_zero.mpr hcy)
          omega
        · have hbig := mt hfits.mpr hm
          omega
      have hle := le_b58From v s
      rw [if_pos hover]
      exact ⟨fun h => absurd h.2 (by omega), fun _ _ => rfl⟩
    · have hcy : r.2 = 0 := by by_contra h; exact hover (.inl h)
      have hm : r.1.headD 0 &&& zeromask binsz = 0 := by by_contra h; exact hover (.inr h)
      rw [hcy, Nat.zero_mul, Nat.zero_add] at hval
      obtain ⟨htrue, hfalse⟩ := ih r.1 hl'
      rw [hval] at htrue hfalse
      have hiff : IsB58 (c :: s) ↔ IsB58 s :=
        ⟨fun h x hx => h x (List.mem_cons_of_mem c hx), fun h x hx => by
          rcases List.mem_cons.mp hx with rfl | hx
          · exact hc
          · exact h x hx⟩
      rw [if_neg hover, hiff]
      have hlt := hfits.mp hm
      rw [hval] at hlt
      exact ⟨htrue, fun hno _ => hfalse hno hlt⟩

/-! ## The bytes -/

theorem beVal_flatMap {k : Nat} {outi : List Nat} (h : Limbs k outi) :
    beVal (outi.flatMap (beBytes 4)) = ofBE (2 ^ 32) outi := by
  induction outi generalizing k with
  | nil => rfl
  | cons d l ih =>
    have hd : d < 256 ^ 4 := h.lt d List.mem_cons_self
    have hl : Limbs l.length l := ⟨rfl, fun x hx => h.lt x (List.mem_cons_of_mem d hx)⟩
    have hlen : (l.flatMap (beBytes 4)).length = 4 * l.length := by
      simp [List.length_flatMap, Nat.mul_comm]
    rw [List.flatMap_cons, beVal_append, ih hl, hlen, beVal_beBytes hd, ofBE_cons,
      show (2 ^ 32 : Nat) = 256 ^ 4 by norm_num, pow_mul]

/-- The limbs are written out as the `binsz` bytes of the number. -/
theorem limbBytes_eq {binsz : Nat} (hn : 0 < binsz) {outi : List Nat}
    (h : Limbs ((binsz + 4 - 1) / 4) outi) (hlt : ofBE (2 ^ 32) outi < 256 ^ binsz) :
    limbBytes (binsz % 4) outi = beBytes binsz (ofBE (2 ^ 32) outi) := by
  obtain ⟨k, hk⟩ : ∃ k, (binsz + 4 - 1) / 4 = k + 1 := ⟨(binsz + 4 - 1) / 4 - 1, by omega⟩
  have hmask := (fits_iff hn h).mpr hlt
  obtain ⟨d, l, rfl, hd, hl⟩ := (hk ▸ h).cons
  have hflat : ((d :: l).flatMap (beBytes 4)).length = 4 * (k + 1) := by
    simp [List.length_flatMap, hl.length]; omega
  have hflat' : (l.flatMap (beBytes 4)).length = 4 * k := by
    simp [List.length_flatMap, hl.length, Nat.mul_comm]
  unfold limbBytes
  by_cases h0 : binsz % 4 = 0
  · rw [if_neg (by simpa using h0)]
    refine beVal_inj (by rw [hflat, length_beBytes]; omega) ?_
    rw [beVal_flatMap h, beVal_beBytes hlt]
  · rw [if_pos h0, List.headD_cons, List.tail_cons]
    refine beVal_inj ?_ ?_
    · rw [List.length_append, hflat', length_beBytes, length_beBytes]; omega
    · have hdlt : d < 256 ^ (binsz % 4) := by
        rw [zeromask, if_pos h0, List.headD_cons] at hmask
        exact (and_mask_eq_zero hd (Nat.mod_lt _ (by norm_num)) h0).mp hmask
      rw [beVal_append, beVal_beBytes hdlt, beVal_flatMap hl, hflat', beVal_beBytes hlt, ofBE_cons,
        hl.length, show (2 ^ 32 : Nat) = 256 ^ 4 by norm_num, pow_mul]

/-! ## The decoder -/

theorem takeWhile_eq_replicate (s : List UInt8) (c : UInt8) :
    s.takeWhile (· = c) = List.replicate (s.takeWhile (· = c)).length c := by
  refine List.eq_replicate_of_mem fun x hx => ?_
  have := List.all_takeWhile (p := fun x => decide (x = c)) (l := s)
  simpa using List.all_eq_true.mp this x hx

/-- A text is its leading '1' characters and the rest. -/
theorem ones_append (s : List UInt8) :
    List.replicate (s.takeWhile (· = 49)).length 49 ++ s.drop (s.takeWhile (· = 49)).length = s := by
  rw [← takeWhile_eq_replicate]
  exact List.prefix_iff_eq_append.mp (List.takeWhile_prefix _)

theorem b58Value_drop_ones (s : List UInt8) :
    b58Value (s.drop (s.takeWhile (· = 49)).length) = b58Value s := by
  conv_rhs => rw [← ones_append s, b58Value_ones]

theorem isB58_drop_ones (s : List UInt8) :
    IsB58 (s.drop (s.takeWhile (· = 49)).length) ↔ IsB58 s := by
  constructor
  · intro h c hc
    rw [← ones_append s] at hc
    rcases List.mem_append.mp hc with hc | hc
    · rw [List.eq_of_mem_replicate hc]; decide
    · exact h c hc
  · exact fun h c hc => h c (List.mem_of_mem_drop hc)

/-- The text decodes into `binsz` bytes: the alphabet's characters, and a value that fits. -/
def Decodes (binsz : Nat) (s : List UInt8) : Prop := IsB58 s ∧ b58Value s < 256 ^ binsz

instance (binsz : Nat) (s : List UInt8) : Decidable (Decodes binsz s) :=
  inferInstanceAs (Decidable (_ ∧ _))

theorem limbs_zero (k : Nat) : Limbs k (List.replicate k 0) where
  length := List.length_replicate
  lt d hd := by rw [List.eq_of_mem_replicate hd]; norm_num

theorem ofBE_replicate_zero (B k : Nat) : ofBE B (List.replicate k 0) = 0 := by
  induction k with
  | zero => rfl
  | succ k ih => rw [List.replicate_succ, ofBE_cons, ih]; simp

section Decoder

variable (bin : Vector UInt8 n) {mem : List UInt8} {b58sz : Nat}

/-- Text that does not decode leaves the buffer and the size alone. -/
theorem b58_decode_false (hn : 0 < n) (hsz : b58sz ≠ 0) (hmem : b58sz ≤ mem.length)
    (h : ¬Decodes n (mem.take b58sz)) : b58_decode bin n mem b58sz = .ok (false, bin, n) := by
  have hread := readBytes_eq mem 0 b58sz (by omega)
  rw [List.drop_zero] at hread
  have hspec := (b58Digits_spec hn
    ((mem.take b58sz).drop ((mem.take b58sz).takeWhile (· = 49)).length) _
    (limbs_zero ((n + 4 - 1) / 4))).2
  rw [ofBE_replicate_zero, b58From, Nat.zero_mul, Nat.zero_add, b58Value_drop_ones,
    isB58_drop_ones] at hspec
  have hnone := hspec h (by positivity)
  rw [zeromask] at hnone
  simp only [b58_decode, if_neg hsz, pure_eq_ok, ok_bind, hread, hnone]

/-- Text that decodes gives the big-endian bytes of its value. -/
theorem b58_decode_true (hn : 0 < n) (hsz : b58sz ≠ 0) (hmem : b58sz ≤ mem.length)
    (h : Decodes n (mem.take b58sz)) :
    ∃ bin', b58_decode bin n mem b58sz = .ok (true, bin',
        n - (bin'.toList.takeWhile (· = 0)).length +
          ((mem.take b58sz).takeWhile (· = 49)).length) ∧
      bin'.toList = beBytes n (b58Value (mem.take b58sz)) := by
  have hread := readBytes_eq mem 0 b58sz (by omega)
  rw [List.drop_zero] at hread
  have hspec := (b58Digits_spec hn
    ((mem.take b58sz).drop ((mem.take b58sz).takeWhile (· = 49)).length) _
    (limbs_zero ((n + 4 - 1) / 4))).1
  rw [ofBE_replicate_zero, b58From, Nat.zero_mul, Nat.zero_add, b58Value_drop_ones,
    isB58_drop_ones] at hspec
  obtain ⟨outi, hout, hlimbs, hval⟩ := hspec h
  have hbytes := limbBytes_eq hn hlimbs (by rw [hval]; exact h.2)
  rw [hval] at hbytes
  obtain ⟨bin', hwrite, hlist⟩ := writeBytes_toList bin 0 (beBytes n (b58Value (mem.take b58sz)))
    (by simp)
  have hall : bin.toList.drop n = [] := List.drop_of_length_le (by simp)
  refine ⟨bin', ?_, by simpa [hall] using hlist⟩
  have htake : bin'.toList.take n = bin'.toList := List.take_of_length_le (by simp)
  rw [zeromask] at hout
  simp only [b58_decode, if_neg hsz, pure_eq_ok, ok_bind, hread, hout, hbytes, hwrite, htake]

end Decoder

/-- `b58` points at the text `s`: `b58sz` characters, or, for `b58sz` 0, all up to the NUL. -/
def TextAt (b58 : List UInt8) (b58sz : Nat) (s : List UInt8) : Prop :=
  (b58sz = s.length ∧ ∃ rest, b58 = s ++ rest) ∨
    (b58sz = 0 ∧ 0 ∉ s ∧ ∃ rest, b58 = s ++ [0] ++ rest)

/-- What lies behind the text does not matter, nor how its length is given. -/
theorem b58_decode_textAt (bin : Vector UInt8 n) {b58 s : List UInt8} {b58sz : Nat} (hs : s ≠ [])
    (h : TextAt b58 b58sz s) : b58_decode bin n b58 b58sz = b58_decode bin n s s.length := by
  have hsz : s.length ≠ 0 := fun h0 => hs (List.eq_nil_of_length_eq_zero h0)
  have hread : ∀ rest : List UInt8, readBytes (s ++ rest) 0 s.length = .ok s := fun rest => by
    rw [readBytes_eq _ _ _ (by simp), List.drop_zero, List.take_left' rfl]
  have hself := hread []
  rw [List.append_nil] at hself
  rcases h with ⟨rfl, rest, rfl⟩ | ⟨rfl, hzero, rest, rfl⟩
  · simp only [b58_decode, if_neg hsz, pure_eq_ok, ok_bind, hread, hself]
  · have hlen : strlen (s ++ [0] ++ rest) = .ok s.length := strlen_text hzero
    rw [List.append_assoc] at hlen ⊢
    simp only [b58_decode, if_neg hsz, if_true, pure_eq_ok, hlen, ok_bind, hread, hself]

/-- The decoder accepts exactly the texts of the alphabet whose value fits the buffer. -/
theorem b58_decode_fits (h1 : 1 ≤ n) {b58 s : List UInt8} {b58sz : Nat} (hs : s ≠ [])
    (htext : TextAt b58 b58sz s) (bin : Vector UInt8 n) :
    ∃ ok bin' binszp', b58_decode bin n b58 b58sz = .ok (ok, bin', binszp') ∧
      (ok = true ↔ (∀ c ∈ s, c ∈ B58_ALPHABET) ∧ b58Value s < 256 ^ n) ∧
      (ok = true → num bin' = b58Value s ∧
        binszp' = n - (bin'.toList.takeWhile (· = 0)).length + (s.takeWhile (· = 49)).length) ∧
      (ok = false → bin' = bin ∧ binszp' = n) := by
  have hsz : s.length ≠ 0 := fun h0 => hs (List.eq_nil_of_length_eq_zero h0)
  rw [b58_decode_textAt bin hs htext]
  by_cases hdec : Decodes n s
  · obtain ⟨bin', hbin, hlist⟩ := b58_decode_true bin h1 hsz le_rfl (by rwa [List.take_length])
    rw [List.take_length] at hbin hlist
    have hnum : num bin' = b58Value s := by rw [num, hlist, beVal_beBytes hdec.2]
    exact ⟨true, bin', _, hbin, ⟨fun _ => hdec, fun _ => rfl⟩, fun _ => ⟨hnum, rfl⟩,
      fun h => absurd h.symm Bool.false_ne_true⟩
  · have hbin := b58_decode_false bin h1 hsz le_rfl (by rwa [List.take_length])
    exact ⟨false, bin, n, hbin, ⟨fun h => absurd h Bool.false_ne_true, fun h => absurd h hdec⟩,
      fun h => absurd h Bool.false_ne_true, fun _ => ⟨rfl, rfl⟩⟩

/-- "12" and "zzz" at two bytes, the second up to its NUL: 1 with a leading zero, and
57 * 58 ^ 2 + 57 * 58 + 57, which is too large. -/
theorem b58_decode_fits_two :
    (∃ bin', b58_decode #v[7, 7] 2 (chars "12") 2 = .ok (true, bin', 2) ∧ num bin' = 1) ∧
    b58_decode #v[7, 7] 2 (chars "zzz" ++ [0]) 0 = .ok (false, #v[7, 7], 2) := by
  have hone : TextAt (chars "12") 2 (chars "12") := .inl ⟨by decide +kernel, [], by simp⟩
  have hzzz : TextAt (chars "zzz" ++ [0]) 0 (chars "zzz") :=
    .inr ⟨rfl, by decide +kernel, [], by simp⟩
  obtain ⟨ok, bin', sz, h, hiff, htrue, -⟩ := b58_decode_fits (n := 2) (by norm_num)
    (by decide +kernel) hone #v[7, 7]
  obtain ⟨ok', bin'', sz', h', hiff', -, hfalse⟩ := b58_decode_fits (n := 2) (by norm_num)
    (by decide +kernel) hzzz #v[7, 7]
  constructor
  · obtain rfl := hiff.mpr (by decide +kernel)
    obtain ⟨hnum, rfl⟩ := htrue rfl
    have hval : b58Value (chars "12") = 1 := by decide +kernel
    have hbin : bin' = #v[0, 1] := num_inj (by rw [hnum, hval]; decide)
    subst hbin
    exact ⟨_, h.trans (by decide +kernel), hnum.trans hval⟩
  · have hno : ok' = false := by
      by_contra hne
      exact absurd (hiff'.mp (Bool.eq_true_of_not_eq_false hne)) (by decide +kernel)
    obtain ⟨rfl, rfl⟩ := hfalse hno
    rw [h', hno]

end MinaLedger
