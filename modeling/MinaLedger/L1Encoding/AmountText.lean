import MinaLedger.Lib.Text
import MinaLedger.Types
import Mathlib.Tactic.IntervalCases

/-!
# Amounts and numbers as text

`amount_to_string` and `value_to_string` of src/src/utils.c. Both count the
characters first and then write them from the last to the first, so the text
begins at the start of the buffer only if the two loops agree.

Results:
* `value_to_string_spec`, `amount_to_string_spec`: they agree; the buffer
  starts with the text and a NUL and is otherwise unchanged.
* `readDecimal_decimal`, `readAmount_amountText`: the texts are read back, so different
  numbers have different texts (`decimal_inj`, `amountText_inj`).
-/
namespace MinaLedger
open Lib.Radix Lib.Text

variable {n : Nat}

/-- `*(--end) = c`. -/
def putBefore (buf : Vector UInt8 n) (end_ : Nat) (c : UInt8) : Exec (Vector UInt8 n × Nat) :=
  if end_ = 0 then .error .undefined
  else do
    let buf ← store buf (end_ - 1) c
    return (buf, end_ - 1)

/-- `for (; value; value /= 10) digits++`. mirrors src/src/utils.c:186-189, 224-226 -/
def countDigits : Nat → Nat → Nat → Exec Nat
  | 0, value, digits => if value ≠ 0 then .error .outOfFuel else .ok digits
  | fuel + 1, value, digits =>
    if value ≠ 0 then countDigits fuel (value / 10) (digits + 1) else .ok digits

/-- The loop that looks for the last nonzero decimal; its `len` counts down from 9.
mirrors src/src/utils.c:177-183 -/
def mantissaLen : Nat → Nat → Nat
  | 0, _ => 1
  | len + 1, value =>
    if value = 0 then 1
    else if value % 10 ≠ 0 then len + 1
    else mantissaLen len (value / 10)

/-- The writing loop. mirrors src/src/utils.c:200-215 -/
def amountLoop : Nat → Vector UInt8 n → Nat → Bool → Nat → Nat → Exec (Vector UInt8 n)
  | 0, buf, _, _, i, amount => if amount ≠ 0 ∨ i < 11 then .error .outOfFuel else .ok buf
  | fuel + 1, buf, end_, show_digit, i, amount =>
    if amount ≠ 0 ∨ i < 11 then do
      let digit := UInt8.ofNat (amount % 10)
      if i = 9 then
        let (buf, end_) ← putBefore buf end_ 46
        amountLoop fuel buf end_ show_digit (i + 1) amount
      else if i > 7 ∨ (digit ≠ 0 ∧ i < 8) ∨ show_digit then
        let (buf, end_) ← putBefore buf end_ (48 + digit)
        amountLoop fuel buf end_ true (i + 1) (amount / 10)
      else amountLoop fuel buf end_ show_digit (i + 1) (amount / 10)
    else .ok buf

/-- mirrors src/src/utils.c:174-218 -/
def amount_to_string (buf : Vector UInt8 n) (len : Nat) (amount : UInt64) :
    Exec (Vector UInt8 n) := do
  let mantissa_len := mantissaLen 9 amount.toNat
  let characteristic_len ← countDigits 20 (amount.toNat / COIN) 0
  let characteristic_len := if characteristic_len ≠ 0 then characteristic_len else 1
  let total_len := characteristic_len + 1 + mantissa_len + 1
  if total_len > len then
    store buf 0 0
  else
    let end_ := total_len - 1
    let buf ← store buf end_ 0
    amountLoop 22 buf end_ false 0 amount.toNat

/-- The writing loop. mirrors src/src/utils.c:236-240 -/
def valueLoop : Nat → Vector UInt8 n → Nat → Nat → Nat → Exec (Vector UInt8 n)
  | 0, buf, _, i, value => if value ≠ 0 ∨ i < 1 then .error .outOfFuel else .ok buf
  | fuel + 1, buf, end_, i, value =>
    if value ≠ 0 ∨ i < 1 then do
      let digit := UInt8.ofNat (value % 10)
      let (buf, end_) ← putBefore buf end_ (48 + digit)
      valueLoop fuel buf end_ (i + 1) (value / 10)
    else .ok buf

/-- The buffer, and `false` for the result NULL. mirrors src/src/utils.c:220-243 -/
def value_to_string (buf : Vector UInt8 n) (len : Nat) (value : UInt64) :
    Exec (Bool × Vector UInt8 n) := do
  let digits ← countDigits 20 value.toNat 0
  let digits := if digits ≠ 0 then digits else 1
  let total_len := digits + 1
  if total_len > len then
    return (false, buf)
  let end_ := total_len - 1
  let buf ← store buf end_ 0
  let buf ← valueLoop 21 buf end_ 0 value.toNat
  return (true, buf)

/-! ## The texts -/

/-- The character of a decimal digit. -/
def digitChar (d : Nat) : UInt8 := 48 + UInt8.ofNat d

/-- The digits of a number, at least one. -/
def decimal (v : Nat) : List UInt8 :=
  if v = 0 then [digitChar 0] else (digitsBE 10 v).map digitChar

/-- The last `k + 1` digits, the lowest first, without the zeros in front of
them (unless `shown`) but never without the last. -/
def fracDigits : Bool → Nat → Nat → List Nat
  | _, 0, v => [v % 10]
  | shown, k + 1, v =>
    if v % 10 ≠ 0 ∨ shown then v % 10 :: fracDigits true k (v / 10)
    else fracDigits shown k (v / 10)

/-- Units, point, nine decimals without trailing zeros. -/
def amountText (amount : Nat) : List UInt8 :=
  decimal (amount / COIN) ++ [46] ++ ((fracDigits false 8 amount).map digitChar).reverse

theorem toNat_digitChar {d : Nat} (h : d < 10) : (digitChar d).toNat = 48 + d := by
  interval_cases d <;> rfl

theorem fracDigits_lt : ∀ (k : Nat) (shown : Bool) (v : Nat), ∀ d ∈ fracDigits shown k v, d < 10
  | 0, _, v, d, h => by
    rw [fracDigits, List.mem_singleton] at h
    omega
  | k + 1, shown, v, d, h => by
    rw [fracDigits] at h
    split at h
    · rcases List.mem_cons.mp h with rfl | h
      · omega
      · exact fracDigits_lt k true _ d h
    · exact fracDigits_lt k shown _ d h

theorem length_fracDigits_le : ∀ (k : Nat) (shown : Bool) (v : Nat),
    (fracDigits shown k v).length ≤ k + 1
  | 0, _, _ => le_rfl
  | k + 1, shown, v => by
    rw [fracDigits]
    split
    · have := length_fracDigits_le k true (v / 10); simpa using this
    · have := length_fracDigits_le k shown (v / 10); omega

theorem fracDigits_ne_nil : ∀ (k : Nat) (shown : Bool) (v : Nat), fracDigits shown k v ≠ []
  | 0, _, _ => by simp [fracDigits]
  | k + 1, shown, v => by
    rw [fracDigits]
    split
    · simp
    · exact fracDigits_ne_nil k shown (v / 10)

/-- Once a digit is shown, all are. -/
theorem length_fracDigits_true : ∀ k v, (fracDigits true k v).length = k + 1
  | 0, _ => rfl
  | k + 1, v => by rw [fracDigits, if_pos (.inr rfl), List.length_cons, length_fracDigits_true k]

theorem digit_of_mem_decimal {v : Nat} {c : UInt8} (h : c ∈ decimal v) :
    ∃ d < 10, c = digitChar d := by
  unfold decimal at h
  split at h
  · exact ⟨0, by norm_num, List.mem_singleton.mp h⟩
  · obtain ⟨d, hd, rfl⟩ := List.mem_map.mp h
    exact ⟨d, digitsBE_lt (by norm_num) hd, rfl⟩

/-- A digit is neither the NUL nor the point. -/
theorem digitChar_ne {d : Nat} (h : d < 10) : digitChar d ≠ 0 ∧ digitChar d ≠ 46 := by
  interval_cases d <;> decide

theorem zero_notMem_decimal (v : Nat) : (0 : UInt8) ∉ decimal v := fun h => by
  obtain ⟨d, hd, h0⟩ := digit_of_mem_decimal h
  exact (digitChar_ne hd).1 h0.symm

theorem point_notMem_decimal (v : Nat) : (46 : UInt8) ∉ decimal v := fun h => by
  obtain ⟨d, hd, h0⟩ := digit_of_mem_decimal h
  exact (digitChar_ne hd).2 h0.symm

theorem zero_notMem_amountText (amount : Nat) : (0 : UInt8) ∉ amountText amount := by
  intro h
  rcases List.mem_append.mp h with h | h
  · rcases List.mem_append.mp h with h | h
    · exact zero_notMem_decimal _ h
    · exact absurd (List.mem_singleton.mp h) (by decide)
  · obtain ⟨d, hd, h0⟩ := List.mem_map.mp (List.mem_reverse.mp h)
    exact (digitChar_ne (fracDigits_lt 8 false amount d hd)).1 h0

/-! ## Reading the texts back -/

theorem map_toNat_digitChar {ds : List Nat} (h : ∀ d ∈ ds, d < 10) :
    (ds.map digitChar).map UInt8.toNat = ds.map (48 + ·) := by
  rw [List.map_map]
  exact List.map_congr_left fun d hd => toNat_digitChar (h d hd)

theorem readDecimal_digitChars {ds : List Nat} (hne : ds ≠ []) (h : ∀ d ∈ ds, d < 10) :
    readDecimal (ds.map digitChar) = some (ofBE 10 ds) :=
  readDecimal_eq (map_toNat_digitChar h) hne h

theorem readDecimal_decimal (v : Nat) : readDecimal (decimal v) = some v := by
  by_cases h0 : v = 0
  · rw [decimal, if_pos h0, h0]; rfl
  · have hne : digitsBE 10 v ≠ [] := by
      rw [digitsBE_step (by norm_num) h0]; simp
    rw [decimal, if_neg h0, readDecimal_digitChars hne fun d hd => digitsBE_lt (by norm_num) hd,
      ofBE_digitsBE]

theorem decimal_inj {v w : Nat} (h : decimal v = decimal w) : v = w :=
  Option.some.inj (by rw [← readDecimal_decimal, h, readDecimal_decimal])

/-- The digits that are left out are zeros. -/
theorem ofDigits_fracDigits : ∀ (k : Nat) (shown : Bool) (v : Nat),
    10 ^ (k + 1 - (fracDigits shown k v).length) * Nat.ofDigits 10 (fracDigits shown k v) =
      v % 10 ^ (k + 1)
  | 0, _, v => by simp [fracDigits]
  | k + 1, shown, v => by
    have hmod : v % 10 ^ (k + 1 + 1) = v % 10 + 10 * (v / 10 % 10 ^ (k + 1)) := by
      rw [pow_succ' 10 (k + 1), Nat.mod_mul]
    rw [fracDigits]
    split
    · have ih := ofDigits_fracDigits k true (v / 10)
      rw [length_fracDigits_true, Nat.sub_self, pow_zero, one_mul] at ih
      rw [List.length_cons, length_fracDigits_true, Nat.sub_self, pow_zero, one_mul,
        Nat.ofDigits_cons, ih, hmod]
    · rename_i h
      have h0 : v % 10 = 0 := by by_contra hne; exact h (.inl hne)
      have ih := ofDigits_fracDigits k shown (v / 10)
      have hle := length_fracDigits_le k shown (v / 10)
      rw [show k + 1 + 1 - (fracDigits shown k (v / 10)).length =
        k + 1 - (fracDigits shown k (v / 10)).length + 1 by omega, pow_succ', mul_assoc, ih, hmod,
        h0, Nat.zero_add]

/-- Reads units, a point and one to nine decimals, as a number of billionths. -/
def readAmount (text : List UInt8) : Option Nat := do
  let units ← readDecimal (text.takeWhile (· ≠ 46))
  let decimals := (text.dropWhile (· ≠ 46)).tail
  let frac ← readDecimal decimals
  if decimals.length ≤ 9 then some (units * COIN + frac * 10 ^ (9 - decimals.length)) else none

theorem readAmount_amountText (amount : Nat) : readAmount (amountText amount) = some amount := by
  have hsplit : amountText amount =
      decimal (amount / COIN) ++ 46 :: ((fracDigits false 8 amount).reverse.map digitChar) := by
    rw [amountText, List.append_assoc, List.map_reverse]; rfl
  -- the only point ends the units
  have hunits : (amountText amount).takeWhile (· ≠ 46) = decimal (amount / COIN) := by
    rw [hsplit, List.takeWhile_append_of_pos fun c hc => by
      simpa using fun h : c = 46 => point_notMem_decimal _ (h ▸ hc)]
    simp
  have hfrac : ((amountText amount).dropWhile (· ≠ 46)).tail =
      (fracDigits false 8 amount).reverse.map digitChar := by
    rw [hsplit, List.dropWhile_append_of_pos fun c hc => by
      simpa using fun h : c = 46 => point_notMem_decimal _ (h ▸ hc)]
    simp
  have hread := @readDecimal_digitChars (fracDigits false 8 amount).reverse
    (by simpa using fracDigits_ne_nil 8 false amount)
    (fun d hd => fracDigits_lt 8 false amount d (List.mem_reverse.mp hd))
  have hlen := length_fracDigits_le 8 false amount
  have hval := ofDigits_fracDigits 8 false amount
  simp only [readAmount, hunits, hfrac, readDecimal_decimal, hread, ofBE, List.reverse_reverse,
    List.length_map, List.length_reverse, Option.bind_eq_bind, Option.bind_some, if_pos hlen,
    Option.some.injEq]
  rw [Nat.mul_comm (Nat.ofDigits 10 _), hval, COIN]
  omega

theorem amountText_inj {v w : Nat} (h : amountText v = amountText w) : v = w :=
  Option.some.inj (by rw [← readAmount_amountText, h, readAmount_amountText])

/-! ## Writing backwards -/

/-- `cs` stands right before `end_`, and nothing else has changed. -/
structure WrittenBefore (buf : Vector UInt8 n) (end_ : Nat) (cs : List UInt8)
    (r : Vector UInt8 n) : Prop where
  room : cs.length ≤ end_
  toList : r.toList = buf.toList.take (end_ - cs.length) ++ cs ++ buf.toList.drop end_

theorem WrittenBefore.nil (buf : Vector UInt8 n) (end_ : Nat) : WrittenBefore buf end_ [] buf :=
  ⟨Nat.zero_le _, by simp⟩

/-- One character, then the text before it. -/
theorem WrittenBefore.cons {buf r : Vector UInt8 n} {end_ : Nat} (hend : end_ < n) (c : UInt8)
    {cs : List UInt8} (h : WrittenBefore (buf.set end_ c) end_ cs r) :
    WrittenBefore buf (end_ + 1) (cs ++ [c]) r := by
  obtain ⟨hroom, hlist⟩ := h
  refine ⟨by simpa using hroom, ?_⟩
  have hlen : end_ < buf.toList.length := by simpa using hend
  rw [hlist, Vector.toList_set, List.take_set_of_le (by omega), List.drop_set, if_neg (by omega),
    Nat.sub_self, List.drop_eq_getElem_cons hlen, List.set_cons_zero, List.length_append,
    List.length_singleton, Nat.add_sub_add_right]
  simp

theorem putBefore_eq {buf : Vector UInt8 n} {end_ : Nat} (h : end_ < n) (c : UInt8) :
    putBefore buf (end_ + 1) c = .ok (buf.set end_ c, end_) := by
  rw [putBefore, if_neg (Nat.succ_ne_zero _), Nat.add_sub_cancel, store_eq _ _ _ h]; rfl

theorem countDigits_eq : ∀ (fuel value digits : Nat), value < 10 ^ fuel →
    countDigits fuel value digits = .ok (digits + (digitsBE 10 value).length)
  | 0, value, digits, h => by
    obtain rfl : value = 0 := by omega
    simp [countDigits, digitsBE_zero]
  | fuel + 1, value, digits, h => by
    rw [countDigits]
    split
    · rename_i hne
      have hlt : value / 10 < 10 ^ fuel := Nat.div_lt_of_lt_mul (by rwa [pow_succ'] at h)
      rw [countDigits_eq fuel _ _ hlt, digitsBE_step (by norm_num) hne, List.length_append,
        List.length_singleton, Nat.add_assoc, Nat.add_comm 1]
    · rename_i h0
      obtain rfl : value = 0 := by omega
      rw [digitsBE_zero]; rfl

/-- The count, with at least one digit, is the length of the text. -/
theorem length_decimal (value : Nat) :
    (decimal value).length =
      if (digitsBE 10 value).length ≠ 0 then (digitsBE 10 value).length else 1 := by
  unfold decimal
  split
  · rename_i h0
    rw [h0, digitsBE_zero]; rfl
  · rename_i hne
    have := lt_length_digitsBE (b := 10) (k := 0) (by norm_num) (Nat.pos_of_ne_zero hne)
    rw [if_pos (by omega), List.length_map]

/-- `decimal` digit by digit, as the loops produce it. -/
theorem decimal_step (value : Nat) :
    decimal value = (digitsBE 10 (value / 10)).map digitChar ++ [digitChar (value % 10)] := by
  unfold decimal
  split
  · rename_i h0
    rw [h0]; simp [digitsBE_zero]
  · rename_i hne
    rw [digitsBE_step (by norm_num) hne, List.map_append]; rfl

/-! ## value_to_string -/

/-- The loop after its first round writes the digits that are left. -/
theorem valueLoop_spec : ∀ (fuel : Nat) (buf : Vector UInt8 n) (end_ i value : Nat),
    value < 10 ^ fuel → 1 ≤ i → (digitsBE 10 value).length ≤ end_ → end_ ≤ n →
    ∃ r, valueLoop fuel buf end_ i value = .ok r ∧
      WrittenBefore buf end_ ((digitsBE 10 value).map digitChar) r
  | 0, buf, end_, i, value, h, hi, _, _ => by
    obtain rfl : value = 0 := by omega
    refine ⟨buf, ?_, by rw [digitsBE_zero]; exact .nil buf end_⟩
    rw [valueLoop, if_neg (by omega)]
  | fuel + 1, buf, end_, i, value, h, hi, hroom, hn => by
    by_cases h0 : value = 0
    · subst h0
      refine ⟨buf, ?_, by rw [digitsBE_zero]; exact .nil buf end_⟩
      rw [valueLoop, if_neg (by omega)]
    · have hstep := digitsBE_step (b := 10) (by norm_num) h0
      rw [hstep, List.length_append, List.length_singleton] at hroom
      obtain ⟨e, rfl⟩ : ∃ e, end_ = e + 1 := ⟨end_ - 1, by omega⟩
      have hlt : value / 10 < 10 ^ fuel := Nat.div_lt_of_lt_mul (by rwa [pow_succ'] at h)
      obtain ⟨r, hr, hw⟩ := valueLoop_spec fuel
        (buf.set e (digitChar (value % 10))) e (i + 1) _ hlt (by omega) (by omega) (by omega)
      refine ⟨r, ?_, ?_⟩
      · rw [valueLoop, if_pos (.inl h0)]
        simp only [putBefore_eq (Nat.lt_of_succ_le hn), ok_bind]
        exact hr
      · rw [hstep, List.map_append]
        exact hw.cons (Nat.lt_of_succ_le hn) _

/-- The whole loop writes the digits, at least one. -/
theorem valueLoop_zero {fuel : Nat} (buf : Vector UInt8 n) {end_ value : Nat}
    (h : value < 10 ^ fuel) (hroom : (decimal value).length ≤ end_) (hn : end_ ≤ n) :
    ∃ r, valueLoop (fuel + 1) buf end_ 0 value = .ok r ∧
      WrittenBefore buf end_ (decimal value) r := by
  rw [decimal_step, List.length_append, List.length_map, List.length_singleton] at hroom
  obtain ⟨e, rfl⟩ : ∃ e, end_ = e + 1 := ⟨end_ - 1, by omega⟩
  have hlt : value / 10 < 10 ^ fuel := lt_of_le_of_lt (Nat.div_le_self _ _) h
  obtain ⟨r, hr, hw⟩ := valueLoop_spec fuel
    (buf.set e (digitChar (value % 10))) e 1 _ hlt le_rfl (by omega) (by omega)
  refine ⟨r, ?_, ?_⟩
  · rw [valueLoop, if_pos (.inr (by norm_num))]
    simp only [putBefore_eq (Nat.lt_of_succ_le hn), ok_bind]
    exact hr
  · rw [decimal_step]
    exact hw.cons (Nat.lt_of_succ_le hn) _

/-- A text and its NUL at the start of the buffer. -/
theorem WrittenBefore.toList_text {buf r : Vector UInt8 n} {cs : List UInt8}
    (hlen : cs.length < n) (h : WrittenBefore (buf.set cs.length 0) cs.length cs r) :
    r.toList = cs ++ [0] ++ buf.toList.drop (cs.length + 1) := by
  have hl : cs.length < buf.toList.length := by simpa using hlen
  rw [h.toList, Nat.sub_self, List.take_zero, List.nil_append, Vector.toList_set, List.drop_set,
    if_neg (by omega), Nat.sub_self, List.drop_eq_getElem_cons hl, List.set_cons_zero]
  simp

/-- The text fits, or nothing is written. -/
theorem value_to_string_spec (buf : Vector UInt8 n) {len : Nat} (hlen : len ≤ n) (value : UInt64) :
    ((decimal value.toNat).length < len → ∃ r, value_to_string buf len value = .ok (true, r) ∧
      r.toList = decimal value.toNat ++ [0] ++ buf.toList.drop ((decimal value.toNat).length + 1)) ∧
    (len ≤ (decimal value.toNat).length → value_to_string buf len value = .ok (false, buf)) := by
  have hlt : value.toNat < 10 ^ 20 := lt_of_lt_of_le value.toNat_lt (by norm_num)
  have hcount := countDigits_eq 20 value.toNat 0 hlt
  have hdec := length_decimal value.toNat
  rw [Nat.zero_add] at hcount
  refine ⟨fun hfit => ?_, fun hbig => ?_⟩
  · obtain ⟨r, hr, hw⟩ := valueLoop_zero (buf.set (decimal value.toNat).length 0 (by omega)) hlt
      le_rfl (by omega)
    refine ⟨r, ?_, hw.toList_text (by omega)⟩
    simp only [value_to_string, hcount, ok_bind, ← hdec, Nat.add_sub_cancel,
      store_eq _ _ _ (show (decimal value.toNat).length < n by omega), hr, pure_eq_ok,
      if_neg (show ¬(decimal value.toNat).length + 1 > len by omega)]
  · simp only [value_to_string, hcount, ok_bind, ← hdec, pure_eq_ok,
      if_pos (show (decimal value.toNat).length + 1 > len by omega)]

/-! ## amount_to_string -/

theorem WrittenBefore.trans {buf b r : Vector UInt8 n} {end_ : Nat} (hn : end_ ≤ n)
    {cs ds : List UInt8} (h : WrittenBefore buf end_ cs b)
    (h' : WrittenBefore b (end_ - cs.length) ds r) : WrittenBefore buf end_ (ds ++ cs) r := by
  have hroom := h.room
  have hroom' := h'.room
  have hlen : (buf.toList.take (end_ - cs.length)).length = end_ - cs.length := by
    rw [List.length_take, Vector.length_toList]; omega
  refine ⟨by rw [List.length_append]; omega, ?_⟩
  rw [h'.toList, h.toList, List.append_assoc _ cs, List.drop_left' hlen,
    List.take_append_of_le_length (by omega), List.take_take, Nat.min_eq_left (by omega),
    List.length_append, Nat.add_comm ds.length, Nat.sub_add_eq]
  simp

theorem WrittenBefore.single {buf : Vector UInt8 n} {end_ : Nat} (hend : end_ < n) (c : UInt8) :
    WrittenBefore buf (end_ + 1) [c] (buf.set end_ c) := (WrittenBefore.nil _ end_).cons hend c

theorem mantissaLen_eq : ∀ k v, mantissaLen (k + 1) v = (fracDigits false k v).length
  | 0, v => by
    simp only [mantissaLen, fracDigits]
    split
    · rfl
    · split <;> rfl
  | k + 1, v => by
    rw [mantissaLen, fracDigits]
    by_cases h0 : v % 10 = 0
    · have hno : ¬(v % 10 ≠ 0 ∨ false = true) := by simp [h0]
      rw [if_neg hno, ← mantissaLen_eq k (v / 10)]
      by_cases hv : v = 0
      · -- nothing but zeros is left
        rw [if_pos hv, hv]; simp [mantissaLen]
      · rw [if_neg hv, if_neg (by simpa using h0)]
    · have hv : v ≠ 0 := by rintro rfl; exact h0 rfl
      rw [if_neg hv, if_pos h0, if_pos (.inl h0), List.length_cons, length_fracDigits_true]

theorem ofNat_mod_ten_ne_zero (v : Nat) : UInt8.ofNat (v % 10) ≠ 0 ↔ v % 10 ≠ 0 := by
  have h : v % 10 < 10 := Nat.mod_lt _ (by norm_num)
  generalize v % 10 = d at h
  interval_cases d <;> decide

/-- The first nine rounds write the decimals. -/
theorem amountLoop_frac : ∀ (k fuel : Nat) (buf : Vector UInt8 n) (end_ : Nat) (shown : Bool)
    (amount : Nat), k ≤ 8 → (fracDigits shown k amount).length ≤ end_ → end_ ≤ n →
    ∃ b, amountLoop (fuel + k + 1) buf end_ shown (8 - k) amount =
        amountLoop fuel b (end_ - (fracDigits shown k amount).length) true 9
          (amount / 10 ^ (k + 1)) ∧
      WrittenBefore buf end_ ((fracDigits shown k amount).map digitChar).reverse b
  | 0, fuel, buf, end_, shown, amount, _, hroom, hn => by
    rw [fracDigits, List.length_singleton] at hroom
    obtain ⟨e, rfl⟩ : ∃ e, end_ = e + 1 := ⟨end_ - 1, by omega⟩
    refine ⟨buf.set e (digitChar (amount % 10)), ?_, .single (Nat.lt_of_succ_le hn) _⟩
    rw [amountLoop, if_pos (.inr (by norm_num)), if_neg (by norm_num), if_pos (.inl (by norm_num))]
    simp only [putBefore_eq (Nat.lt_of_succ_le hn), ok_bind]
    rfl
  | k + 1, fuel, buf, end_, shown, amount, hk, hroom, hn => by
    have hi : 8 - (k + 1) + 1 = 8 - k := by omega
    rw [amountLoop, if_pos (.inr (by omega)), if_neg (by omega), hi, fracDigits]
    rw [fracDigits] at hroom
    have hdiv : amount / 10 / 10 ^ (k + 1) = amount / 10 ^ (k + 1 + 1) := by
      rw [Nat.div_div_eq_div_mul, ← pow_succ']
    by_cases hshow : amount % 10 ≠ 0 ∨ shown
    · rw [if_pos hshow, List.length_cons] at hroom
      obtain ⟨e, rfl⟩ : ∃ e, end_ = e + 1 := ⟨end_ - 1, by omega⟩
      obtain ⟨b, hb, hw⟩ := amountLoop_frac k fuel (buf.set e (digitChar (amount % 10))) e true
        (amount / 10) (by omega) (by omega) (by omega)
      rw [hdiv] at hb
      refine ⟨b, ?_, ?_⟩
      · rw [if_pos hshow, if_pos (.inr (hshow.imp_left fun h =>
          ⟨(ofNat_mod_ten_ne_zero amount).mpr h, by omega⟩)), List.length_cons,
          Nat.add_sub_add_right]
        simp only [putBefore_eq (Nat.lt_of_succ_le hn), ok_bind]
        exact hb
      · rw [if_pos hshow, List.map_cons, List.reverse_cons]
        exact hw.cons (Nat.lt_of_succ_le hn) _
    · rw [if_neg hshow] at hroom
      obtain ⟨b, hb, hw⟩ := amountLoop_frac k fuel buf end_ shown (amount / 10) (by omega) hroom hn
      rw [hdiv] at hb
      refine ⟨b, ?_, by rw [if_neg hshow]; exact hw⟩
      rw [if_neg hshow, if_neg ?_]
      · exact hb
      · rintro (h | ⟨h, -⟩ | h)
        · omega
        · exact hshow (.inl ((ofNat_mod_ten_ne_zero amount).mp h))
        · exact hshow (.inr h)

/-- From the tenth round on it is the loop of `value_to_string`. -/
theorem amountLoop_units : ∀ (fuel : Nat) (buf : Vector UInt8 n) (end_ i value : Nat),
    amountLoop fuel buf end_ true (i + 10) value = valueLoop fuel buf end_ i value
  | 0, buf, end_, i, value => by
    simp only [amountLoop, valueLoop, show i + 10 < 11 ↔ i < 1 by omega]
  | fuel + 1, buf, end_, i, value => by
    simp only [amountLoop, valueLoop, show i + 10 < 11 ↔ i < 1 by omega,
      if_neg (show ¬i + 10 = 9 by omega), or_true, if_true, Nat.add_right_comm i 10 1,
      amountLoop_units fuel]

/-- The whole loop writes the text. -/
theorem amountLoop_spec (buf : Vector UInt8 n) (amount : UInt64) {end_ : Nat}
    (hroom : (amountText amount.toNat).length ≤ end_) (hn : end_ ≤ n) :
    ∃ r, amountLoop 22 buf end_ false 0 amount.toNat = .ok r ∧
      WrittenBefore buf end_ (amountText amount.toNat) r := by
  have hunits : amount.toNat / COIN < 10 ^ 11 :=
    Nat.div_lt_of_lt_mul (lt_of_lt_of_le amount.toNat_lt (by unfold COIN; norm_num))
  simp only [amountText, List.length_append, List.length_reverse, List.length_map,
    List.length_singleton] at hroom
  obtain ⟨b, hb, hw⟩ := amountLoop_frac 8 13 buf end_ false amount.toNat le_rfl (by omega) hn
  have hlen : (((fracDigits false 8 amount.toNat).map digitChar).reverse).length =
      (fracDigits false 8 amount.toNat).length := by simp
  generalize hm : (fracDigits false 8 amount.toNat).length = m at hroom hb hlen
  obtain ⟨e, he⟩ : ∃ e, end_ - m = e + 1 := ⟨end_ - m - 1, by omega⟩
  obtain ⟨r, hr, hw'⟩ := @valueLoop_zero n 11 (b.set e 46) e _ hunits (by omega) (by omega)
  have hdot := hw'.cons (show e < n by omega) 46
  rw [← he, ← hlen] at hdot
  refine ⟨r, ?_, ?_⟩
  · rw [show (22 : Nat) = 13 + 8 + 1 from rfl]
    refine hb.trans ?_
    rw [he, amountLoop, if_pos (.inr (by norm_num)), if_pos rfl]
    simp only [putBefore_eq (show e < n by omega), ok_bind]
    rw [amountLoop_units 12 _ _ 0]
    exact hr
  · rw [amountText]
    exact hw.trans hn hdot

/-- The counted length is the length of the text. -/
theorem length_amountText (amount : Nat) :
    (amountText amount).length =
      (decimal (amount / COIN)).length + 1 + mantissaLen 9 amount := by
  rw [mantissaLen_eq]; simp [amountText, Nat.add_assoc, Nat.add_comm 1]

/-- The text fits, or the buffer becomes the empty string. -/
theorem amount_to_string_spec (buf : Vector UInt8 n) {len : Nat} (hlen : len ≤ n)
    (amount : UInt64) :
    ((amountText amount.toNat).length < len → ∃ r, amount_to_string buf len amount = .ok r ∧
      r.toList = amountText amount.toNat ++ [0] ++
        buf.toList.drop ((amountText amount.toNat).length + 1)) ∧
    (len ≤ (amountText amount.toNat).length →
      amount_to_string buf len amount = store buf 0 0) := by
  have hunits : amount.toNat / COIN < 10 ^ 20 :=
    lt_of_le_of_lt (Nat.div_le_self _ _) (lt_of_lt_of_le amount.toNat_lt (by norm_num))
  have hcount := countDigits_eq 20 (amount.toNat / COIN) 0 hunits
  have hdec := length_decimal (amount.toNat / COIN)
  have htext := length_amountText amount.toNat
  rw [Nat.zero_add] at hcount
  refine ⟨fun hfit => ?_, fun hbig => ?_⟩
  · obtain ⟨r, hr, hw⟩ := amountLoop_spec (buf.set (amountText amount.toNat).length 0 (by omega))
      amount le_rfl (by omega)
    refine ⟨r, ?_, hw.toList_text (by omega)⟩
    simp only [amount_to_string, hcount, ok_bind, ← hdec, ← htext, Nat.add_sub_cancel,
      store_eq _ _ _ (show (amountText amount.toNat).length < n by omega), hr,
      if_neg (show ¬(amountText amount.toNat).length + 1 > len by omega)]
  · simp only [amount_to_string, hcount, ok_bind, ← hdec, ← htext,
      if_pos (show (amountText amount.toNat).length + 1 > len by omega)]

/-! ## Buffers of 32 bytes -/

theorem length_decimal_le {value k : Nat} (hk : 0 < k) (h : value < 10 ^ k) :
    (decimal value).length ≤ k := by
  rw [length_decimal]
  have := length_digitsBE_le (b := 10) (by norm_num) h
  split <;> omega

theorem length_amountText_lt (amount : UInt64) : (amountText amount.toNat).length < 32 := by
  have hunits : amount.toNat / COIN < 10 ^ 11 :=
    Nat.div_lt_of_lt_mul (lt_of_lt_of_le amount.toNat_lt (by unfold COIN; norm_num))
  have h1 := length_decimal_le (by norm_num) hunits
  have h2 := length_fracDigits_le 8 false amount.toNat
  rw [length_amountText, mantissaLen_eq]
  omega

/-- A 32-byte buffer always shows the text. -/
theorem amount_to_string_text (buf : Vector UInt8 32) (amount : UInt64) :
    ∃ r, amount_to_string buf 32 amount = .ok r ∧ cstr r.toList = amountText amount.toNat := by
  obtain ⟨r, hr, hlist⟩ := (amount_to_string_spec buf le_rfl amount).1 (length_amountText_lt amount)
  exact ⟨r, hr, by rw [hlist, cstr_append_zero (zero_notMem_amountText _)]⟩

theorem value_to_string_text (buf : Vector UInt8 32) (value : UInt64) :
    ∃ r, value_to_string buf 32 value = .ok (true, r) ∧
      cstr r.toList = decimal value.toNat := by
  have hlt : value.toNat < 10 ^ 20 := lt_of_lt_of_le value.toNat_lt (by norm_num)
  have hle := length_decimal_le (by norm_num) hlt
  obtain ⟨r, hr, hlist⟩ := (value_to_string_spec buf le_rfl value).1 (by omega)
  exact ⟨r, hr, by rw [hlist, cstr_append_zero (zero_notMem_decimal _)]⟩

end MinaLedger
