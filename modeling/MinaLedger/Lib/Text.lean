import MinaLedger.Lib.Radix

/-!
# Texts: UTF-8, hexadecimal and decimal

A text is a list of code points, surrogates included; `utf8` is its UTF-8
encoding. Bytes and integers are written in lower-case hexadecimal: two digits a
byte (`hexText`), a minimum width for an integer (`formatHex`). `readDecimal` reads
a decimal number from ASCII bytes.

Results:
* `length_utf8`: an encoding has no fewer bytes than the text has characters, and
  as many only if the text is ASCII.
* `utf8Decode_utf8`: an encoded text is read back.
* `formatHex_eq`, `formatHex_fits`: a width of `2 * k` is the text of `k` big-endian
  bytes exactly for the numbers that fit in them.
* `fromHex_hexText`: the bytes are read back.
* `hexText_of_fromHex`: a text of signs and lower-case digits that is read is the text of
  its bytes.
* `readDecimal_eq`: a nonempty string of digits is read as its value.
-/
namespace Lib.Text
open Lib.Radix

/-! ## Code points -/

abbrev CodePoint := Fin 0x110000
abbrev Str := List CodePoint

instance neZero_codePoints : NeZero 0x110000 := ⟨by decide⟩

def ofString (s : String) : Str := s.toList.map fun c => Fin.ofNat _ c.toNat

theorem char_toNat_lt (c : Char) : c.toNat < 0x110000 := by
  rcases c.valid with h | ⟨-, h⟩
  · exact lt_trans h (by norm_num)
  · exact h

/-- A text determines its characters. -/
theorem ofString_inj {s t : String} : ofString s = ofString t ↔ s = t := by
  refine ⟨fun h => String.toList_injective (List.map_injective_iff.mpr (fun c d hcd => ?_) h),
    fun h => congrArg _ h⟩
  have hval : c.toNat % 0x110000 = d.toNat % 0x110000 := congrArg Fin.val hcd
  rw [Nat.mod_eq_of_lt (char_toNat_lt c), Nat.mod_eq_of_lt (char_toNat_lt d)] at hval
  exact Char.toNat_inj.mp hval

/-- A surrogate has no encoding. -/
def utf8Char (c : CodePoint) : Option (List UInt8) :=
  let byte (v : Nat) : UInt8 := UInt8.ofNat v
  let tail (k : Nat) : UInt8 := byte (0x80 + c.val / 2 ^ k % 64)
  if c.val < 0x80 then some [byte c.val]
  else if c.val < 0x800 then some [byte (0xC0 + c.val / 2 ^ 6), tail 0]
  else if 0xD800 ≤ c.val ∧ c.val ≤ 0xDFFF then none
  else if c.val < 0x10000 then some [byte (0xE0 + c.val / 2 ^ 12), tail 6, tail 0]
  else some [byte (0xF0 + c.val / 2 ^ 18), tail 12, tail 6, tail 0]

def utf8 : Str → Option (List UInt8)
  | [] => some []
  | c :: s => do return (← utf8Char c) ++ (← utf8 s)

def IsAscii (s : Str) : Prop := ∀ c ∈ s, c.val < 128

instance (s : Str) : Decidable (IsAscii s) := List.decidableBAll (fun c : CodePoint => c.val < 128) s

def asciiBytes (s : Str) : List UInt8 := s.map fun c => UInt8.ofNat c.val

@[simp] theorem length_asciiBytes (s : Str) : (asciiBytes s).length = s.length := List.length_map _

theorem utf8_ascii : ∀ {s : Str}, IsAscii s → utf8 s = some (asciiBytes s)
  | [], _ => rfl
  | c :: s, h => by
    have hc : utf8Char c = some [UInt8.ofNat c.val] := if_pos (h c List.mem_cons_self)
    have hs := utf8_ascii (s := s) fun d hd => h d (List.mem_cons_of_mem _ hd)
    rw [utf8, hc, hs]
    rfl

theorem length_utf8Char {c : CodePoint} {l : List UInt8} (h : utf8Char c = some l) :
    1 ≤ l.length ∧ (l.length = 1 → c.val < 128) := by
  unfold utf8Char at h
  split at h
  · rename_i hc
    cases h
    exact ⟨le_refl _, fun _ => hc⟩
  repeat' split at h
  all_goals
    cases h
    try exact ⟨by simp, fun h => absurd h (by simp)⟩

/-- The encoding of other characters is longer. -/
theorem length_utf8 : ∀ {s : Str} {l : List UInt8}, utf8 s = some l →
    s.length ≤ l.length ∧ (l.length = s.length → IsAscii s)
  | [], l, h => by
    obtain rfl := Option.some.inj h
    exact ⟨le_refl _, fun _ _ hc => by cases hc⟩
  | c :: s, l, h => by
    rw [utf8] at h
    obtain ⟨a, ha, h⟩ := Option.bind_eq_some_iff.mp h
    obtain ⟨b, hb, h⟩ := Option.bind_eq_some_iff.mp h
    obtain rfl := Option.some.inj h
    obtain ⟨hlc, hc⟩ := length_utf8Char ha
    obtain ⟨hls, hs⟩ := length_utf8 hb
    simp only [List.length_append, List.length_cons]
    refine ⟨by omega, fun hlen d hd => ?_⟩
    rcases List.mem_cons.mp hd with rfl | hd
    · exact hc (by omega)
    · exact hs (by omega) d hd

/-! ## Reading UTF-8 -/

/-- A character from its number, which must not be one of a surrogate, or be too large or
small for its encoding. -/
def decodedChar (min v : Nat) : Option CodePoint :=
  if h : min ≤ v ∧ v < 0x110000 ∧ ¬(0xD800 ≤ v ∧ v ≤ 0xDFFF) then some ⟨v, h.2.1⟩ else none

/-- Bytes that go on with a character: `need` more, the least number it may have, and its
number so far. -/
def utf8DecodeFrom : (need min v : Nat) → List UInt8 → Option Str
  | 0, _, _, [] => some []
  | _ + 1, _, _, [] => none
  | 0, _, _, b :: l =>
    let a := b.toNat
    if a < 0x80 then do return Fin.ofNat _ a :: (← utf8DecodeFrom 0 0 0 l)
    else if a < 0xC0 then none
    else if a < 0xE0 then utf8DecodeFrom 1 0x80 (a - 0xC0) l
    else if a < 0xF0 then utf8DecodeFrom 2 0x800 (a - 0xE0) l
    else if a < 0xF8 then utf8DecodeFrom 3 0x10000 (a - 0xF0) l
    else none
  | need + 1, min, v, b :: l =>
    if 0x80 ≤ b.toNat ∧ b.toNat < 0xC0 then
      let v := v * 64 + (b.toNat - 0x80)
      if need = 0 then do return (← decodedChar min v) :: (← utf8DecodeFrom 0 0 0 l)
      else utf8DecodeFrom need min v l
    else none

def utf8Decode (l : List UInt8) : Option Str := utf8DecodeFrom 0 0 0 l

theorem tail_toNat {v : Nat} (k : Nat) :
    (UInt8.ofNat (0x80 + v / 2 ^ k % 64)).toNat = 0x80 + v / 2 ^ k % 64 := by
  rw [UInt8.toNat_ofNat', Nat.mod_eq_of_lt (by omega)]

theorem decodedChar_eq {c : CodePoint} {min : Nat} (hmin : min ≤ c.val)
    (hc : ¬(0xD800 ≤ c.val ∧ c.val ≤ 0xDFFF)) : decodedChar min c.val = some c :=
  dif_pos ⟨hmin, c.isLt, hc⟩

/-- The last byte of a character. -/
theorem utf8DecodeFrom_last {c : CodePoint} {min v : Nat} {b : UInt8} {l : List UInt8}
    (hmin : min ≤ c.val) (hc : ¬(0xD800 ≤ c.val ∧ c.val ≤ 0xDFFF)) (hb : 0x80 ≤ b.toNat ∧ b.toNat < 0xC0)
    (hv : v * 64 + (b.toNat - 0x80) = c.val) :
    utf8DecodeFrom 1 min v (b :: l) = do return c :: (← utf8DecodeFrom 0 0 0 l) := by
  rw [utf8DecodeFrom, if_pos hb]
  simp only [if_true, hv, decodedChar_eq hmin hc]
  rfl

theorem utf8DecodeFrom_tail {need min v : Nat} {b : UInt8} {l : List UInt8}
    (hb : 0x80 ≤ b.toNat ∧ b.toNat < 0xC0) :
    utf8DecodeFrom (need + 2) min v (b :: l) =
      utf8DecodeFrom (need + 1) min (v * 64 + (b.toNat - 0x80)) l := by
  rw [utf8DecodeFrom, if_pos hb, if_neg (Nat.succ_ne_zero need)]

/-- The first byte of a character of more bytes. -/
theorem utf8DecodeFrom_lead {need min v lead : Nat} {l : List UInt8}
    (hlead : (lead = 0xC0 ∧ v < 0x20 ∧ need = 1 ∧ min = 0x80) ∨
      (lead = 0xE0 ∧ v < 0x10 ∧ need = 2 ∧ min = 0x800) ∨
      (lead = 0xF0 ∧ v < 0x08 ∧ need = 3 ∧ min = 0x10000)) :
    utf8DecodeFrom 0 0 0 (UInt8.ofNat (lead + v) :: l) = utf8DecodeFrom need min v l := by
  have hbyte : (UInt8.ofNat (lead + v)).toNat = lead + v := by
    rw [UInt8.toNat_ofNat', Nat.mod_eq_of_lt (by omega)]
  rw [utf8DecodeFrom, hbyte]
  rcases hlead with ⟨rfl, hv, rfl, rfl⟩ | ⟨rfl, hv, rfl, rfl⟩ | ⟨rfl, hv, rfl, rfl⟩
  · simp only [if_neg (show ¬0xC0 + v < 0x80 by omega), if_neg (show ¬0xC0 + v < 0xC0 by omega),
      if_pos (show 0xC0 + v < 0xE0 by omega), Nat.add_sub_cancel_left]
  · simp only [if_neg (show ¬0xE0 + v < 0x80 by omega), if_neg (show ¬0xE0 + v < 0xC0 by omega),
      if_neg (show ¬0xE0 + v < 0xE0 by omega), if_pos (show 0xE0 + v < 0xF0 by omega),
      Nat.add_sub_cancel_left]
  · simp only [if_neg (show ¬0xF0 + v < 0x80 by omega), if_neg (show ¬0xF0 + v < 0xC0 by omega),
      if_neg (show ¬0xF0 + v < 0xE0 by omega), if_neg (show ¬0xF0 + v < 0xF0 by omega),
      if_pos (show 0xF0 + v < 0xF8 by omega), Nat.add_sub_cancel_left]

theorem utf8DecodeFrom_char {c : CodePoint} {bytes l : List UInt8} (h : utf8Char c = some bytes) :
    utf8DecodeFrom 0 0 0 (bytes ++ l) = do return c :: (← utf8DecodeFrom 0 0 0 l) := by
  have hlt := c.isLt
  have htail : ∀ k, (UInt8.ofNat (0x80 + c.val / 2 ^ k % 64)).toNat = 0x80 + c.val / 2 ^ k % 64 :=
    tail_toNat
  have hrange : ∀ k, 0x80 ≤ (UInt8.ofNat (0x80 + c.val / 2 ^ k % 64)).toNat ∧
      (UInt8.ofNat (0x80 + c.val / 2 ^ k % 64)).toNat < 0xC0 := fun k => by rw [htail]; omega
  unfold utf8Char at h
  split at h
  · rename_i hc
    obtain rfl := Option.some.inj h
    have hbyte : (UInt8.ofNat c.val).toNat = c.val := by
      rw [UInt8.toNat_ofNat', Nat.mod_eq_of_lt (by omega)]
    rw [List.singleton_append, utf8DecodeFrom, hbyte, if_pos hc, Fin.ofNat_val_eq_self]
  split at h
  · obtain rfl := Option.some.inj h
    rw [List.cons_append, utf8DecodeFrom_lead (.inl ⟨rfl, by omega, rfl, rfl⟩), List.cons_append,
      List.nil_append]
    exact utf8DecodeFrom_last (by omega) (by omega) (hrange 0) (by rw [htail]; omega)
  split at h
  · cases h
  split at h
  · obtain rfl := Option.some.inj h
    rw [List.cons_append, utf8DecodeFrom_lead (.inr (.inl ⟨rfl, by omega, rfl, rfl⟩)),
      List.cons_append, utf8DecodeFrom_tail (hrange 6), List.cons_append, List.nil_append]
    exact utf8DecodeFrom_last (by omega) (by omega) (hrange 0) (by rw [htail, htail]; omega)
  · obtain rfl := Option.some.inj h
    rw [List.cons_append, utf8DecodeFrom_lead (.inr (.inr ⟨rfl, by omega, rfl, rfl⟩)),
      List.cons_append, utf8DecodeFrom_tail (hrange 12), List.cons_append,
      utf8DecodeFrom_tail (hrange 6),
      List.cons_append, List.nil_append]
    exact utf8DecodeFrom_last (by omega) (by omega) (hrange 0)
      (by rw [htail, htail, htail]; omega)

/-- A text is read back. -/
theorem utf8Decode_utf8 : ∀ {s : Str} {l : List UInt8}, utf8 s = some l → utf8Decode l = some s
  | [], l, h => by
    obtain rfl := Option.some.inj h
    rfl
  | c :: s, l, h => by
    rw [utf8] at h
    obtain ⟨a, ha, h⟩ := Option.bind_eq_some_iff.mp h
    obtain ⟨b, hb, h⟩ := Option.bind_eq_some_iff.mp h
    obtain rfl := Option.some.inj h
    have hs := utf8Decode_utf8 hb
    rw [utf8Decode] at hs ⊢
    rw [utf8DecodeFrom_char ha, hs]
    rfl

/-- The characters of ASCII bytes. -/
def codes (l : List UInt8) : Str := l.map fun b => Fin.ofNat _ b.toNat

theorem val_code (b : UInt8) : (Fin.ofNat 0x110000 b.toNat).val = b.toNat :=
  Nat.mod_eq_of_lt (by have := b.toNat_lt; omega)

theorem isAscii_codes {l : List UInt8} (h : ∀ b ∈ l, b.toNat < 128) : IsAscii (codes l) := by
  intro c hc
  obtain ⟨b, hb, rfl⟩ := List.mem_map.mp hc
  rw [val_code]
  exact h b hb

theorem asciiBytes_codes (l : List UInt8) : asciiBytes (codes l) = l := by
  rw [asciiBytes, codes, List.map_map]
  refine (List.map_congr_left fun b _ => ?_).trans (List.map_id _)
  show UInt8.ofNat (Fin.ofNat 0x110000 b.toNat).val = b
  rw [val_code, UInt8.ofNat_toNat]

/-- ASCII bytes are the encoding of their characters. -/
theorem utf8Decode_ascii {l : List UInt8} (h : ∀ b ∈ l, b.toNat < 128) :
    utf8Decode l = some (codes l) := by
  refine utf8Decode_utf8 ?_
  rw [utf8_ascii (isAscii_codes h), asciiBytes_codes]

/-! ## Bytes in hexadecimal -/

def hexByte (b : UInt8) : List Char :=
  [Nat.digitChar (b.toNat / 16), Nat.digitChar (b.toNat % 16)]

/-- Two digits a byte. -/
def hexText (l : List UInt8) : List Char := l.flatMap hexByte

@[simp] theorem hexText_nil : hexText [] = [] := rfl

theorem hexText_cons (b : UInt8) (l : List UInt8) : hexText (b :: l) = hexByte b ++ hexText l := rfl

theorem hexText_append (l m : List UInt8) : hexText (l ++ m) = hexText l ++ hexText m :=
  List.flatMap_append

theorem hexText_flatten : ∀ l : List (List UInt8), hexText l.flatten = (l.map hexText).flatten
  | [] => rfl
  | a :: l => by rw [List.flatten_cons, hexText_append, hexText_flatten l]; rfl

@[simp] theorem length_hexText (l : List UInt8) : (hexText l).length = 2 * l.length := by
  induction l with
  | nil => rfl
  | cons b l ih => rw [hexText_cons, List.length_append, ih, List.length_cons, hexByte]; simp; omega

theorem digitChar_ne_minus {d : Nat} (h : d < 16) : Nat.digitChar d ≠ '-' := by
  revert d; decide

theorem minus_notMem_hexText (l : List UInt8) : '-' ∉ hexText l := by
  rw [hexText, List.mem_flatMap]
  rintro ⟨b, -, hb⟩
  have hlt := b.toNat_lt
  rcases List.mem_cons.mp hb with hb | hb
  · exact digitChar_ne_minus (by omega) hb.symm
  · exact digitChar_ne_minus (by omega) (List.mem_singleton.mp hb).symm

/-- The value of a digit of either case. -/
def digitVal (c : Char) : Option Nat :=
  if '0' ≤ c ∧ c ≤ '9' then some (c.toNat - 48)
  else if 'a' ≤ c ∧ c ≤ 'f' then some (c.toNat - 87)
  else if 'A' ≤ c ∧ c ≤ 'F' then some (c.toNat - 55)
  else none

def isSpace (c : Char) : Bool := c = ' ' ∨ ('\t' ≤ c ∧ c ≤ '\r')

/-- White space between two bytes is skipped. -/
def fromHex : List Char → Option (List UInt8)
  | [] => some []
  | [c] => if isSpace c then some [] else none
  | a :: b :: s =>
    if isSpace a then fromHex (b :: s)
    else do
      let hi ← digitVal a
      let lo ← digitVal b
      return UInt8.ofNat (16 * hi + lo) :: (← fromHex s)

theorem digitVal_digitChar {d : Nat} (h : d < 16) :
    digitVal (Nat.digitChar d) = some d ∧ isSpace (Nat.digitChar d) = false := by
  revert d; decide

theorem fromHex_hexText (l : List UInt8) : fromHex (hexText l) = some l := by
  induction l with
  | nil => rfl
  | cons b l ih =>
    have hlt := b.toNat_lt
    obtain ⟨hhi, hspace⟩ := digitVal_digitChar (show b.toNat / 16 < 16 by omega)
    obtain ⟨hlo, -⟩ := digitVal_digitChar (show b.toNat % 16 < 16 by omega)
    have hval : 16 * (b.toNat / 16) + b.toNat % 16 = b.toNat := Nat.div_add_mod _ _
    rw [hexText_cons, hexByte, List.cons_append, List.cons_append, List.nil_append, fromHex, hspace,
      if_neg Bool.false_ne_true, hhi, hlo, ih]
    simp only [Option.pure_def, Option.bind_eq_bind, Option.bind_some, hval, UInt8.ofNat_toNat]

/-! ## Integers in a minimum width -/

/-- Zeros in front, up to the width. -/
def padDigits (w n : Nat) : List Char :=
  List.replicate (w - (Nat.toDigits 16 n).length) '0' ++ Nat.toDigits 16 n

/-- The sign comes before the zeros and counts. -/
def formatHex (w : Nat) (v : Int) : List Char :=
  if v < 0 then '-' :: padDigits (w - 1) v.natAbs else padDigits w v.natAbs

theorem length_padDigits (w n : Nat) :
    (padDigits w n).length = max w (Nat.toDigits 16 n).length := by
  rw [padDigits, List.length_append, List.length_replicate]; omega

theorem length_padDigits_eq {w n : Nat} (hw : 0 < w) :
    (padDigits w n).length = w ↔ n < 16 ^ w := by
  rw [length_padDigits, ← Nat.length_toDigits_le_iff (by norm_num) hw]; omega

/-- The last digit, and the others in one place less. -/
theorem padDigits_step {w n : Nat} (hw : 0 < w) :
    padDigits (w + 1) n = padDigits w (n / 16) ++ [Nat.digitChar (n % 16)] := by
  rcases Nat.lt_or_ge n 16 with hn | hn
  · obtain ⟨k, rfl⟩ := Nat.exists_eq_succ_of_ne_zero hw.ne'
    rw [padDigits, padDigits, Nat.toDigits_of_lt_base hn, Nat.div_eq_of_lt hn, Nat.mod_eq_of_lt hn,
      Nat.toDigits_zero]
    simp [List.replicate_succ']
  · rw [padDigits, padDigits, Nat.toDigits_of_base_le (by norm_num) hn, List.length_append,
      List.length_singleton, Nat.add_sub_add_right, List.append_assoc]

theorem padDigits_one {n : Nat} (h : n < 16) : padDigits 1 n = [Nat.digitChar n] := by
  rw [padDigits, Nat.toDigits_of_lt_base h]; rfl

/-- Two digits more are one byte more. -/
theorem padDigits_eq : ∀ {k : Nat} {n : Nat}, 0 < k → n < 256 ^ k →
    padDigits (2 * k) n = hexText (beBytes k n)
  | 1, n, _, h => by
    have hn : n < 256 := by simpa using h
    have hbyte : (UInt8.ofNat n).toNat = n := by rw [UInt8.toNat_ofNat']; omega
    rw [padDigits_step one_pos, padDigits_one (by omega)]
    show [Nat.digitChar (n / 16), Nat.digitChar (n % 16)] = hexByte (UInt8.ofNat n)
    rw [hexByte, hbyte]
  | k + 2, n, _, h => by
    have hdiv : n / 256 < 256 ^ (k + 1) := by
      rw [Nat.div_lt_iff_lt_mul (by norm_num), ← pow_succ]; exact h
    have hbyte : (UInt8.ofNat n).toNat = n % 256 := UInt8.toNat_ofNat'
    have hbytes : beBytes (k + 2) n = beBytes (k + 1) (n / 256) ++ [UInt8.ofNat n] := by
      rw [beBytes, leBytes, List.reverse_cons]; rfl
    rw [show 2 * (k + 2) = 2 * (k + 1) + 1 + 1 by ring, padDigits_step (by omega),
      padDigits_step (by omega), Nat.div_div_eq_div_mul, padDigits_eq k.succ_pos hdiv, hbytes,
      hexText_append, List.append_assoc]
    congr 1
    show [Nat.digitChar (n / 16 % 16), Nat.digitChar (n % 16)] = hexByte (UInt8.ofNat n)
    rw [hexByte, hbyte, show n % 256 / 16 = n / 16 % 16 by omega,
      show n % 256 % 16 = n % 16 by omega]

/-- A number that fits in `k` bytes is their text. -/
theorem formatHex_eq {w k : Nat} (hw : w = 2 * k) (hk : 0 < k) {v : Int}
    (h : 0 ≤ v ∧ v < 256 ^ k) : formatHex w v = hexText (beBytes k v.toNat) := by
  obtain ⟨h0, h⟩ := h
  have hv : v.natAbs = v.toNat := by omega
  rw [hw, formatHex, if_neg (by omega), hv, padDigits_eq hk]
  have hcast : (v.toNat : Int) < ((256 ^ k : Nat) : Int) := by
    rw [Int.toNat_of_nonneg h0]; exact_mod_cast h
  exact_mod_cast hcast

theorem le_length_formatHex {w : Nat} (hw : 0 < w) (v : Int) : w ≤ (formatHex w v).length := by
  unfold formatHex
  split
  · rw [List.length_cons, length_padDigits]; omega
  · rw [length_padDigits]; omega

/-- Any other number has a sign or is longer. -/
theorem formatHex_fits {w k : Nat} (hw : w = 2 * k) (hk : 0 < k) {v : Int} :
    (formatHex w v).length = w ∧ '-' ∉ formatHex w v ↔ 0 ≤ v ∧ v < 256 ^ k := by
  subst hw
  constructor
  · rintro ⟨hlen, hsign⟩
    by_cases hneg : v < 0
    · rw [formatHex, if_pos hneg] at hsign
      exact absurd List.mem_cons_self hsign
    · rw [formatHex, if_neg hneg, length_padDigits_eq (by omega), pow_mul] at hlen
      have hlt : (v.natAbs : Int) < 256 ^ k := by exact_mod_cast hlen
      rw [Int.natAbs_of_nonneg (not_lt.mp hneg)] at hlt
      exact ⟨not_lt.mp hneg, hlt⟩
  · intro h
    rw [formatHex_eq rfl hk h, length_hexText, length_beBytes]
    exact ⟨rfl, minus_notMem_hexText _⟩

/-! ## Texts of digits -/

/-- A sign or a lower-case digit. -/
def SignOrDigit (c : Char) : Prop := c = '-' ∨ ∃ d < 16, c = Nat.digitChar d

theorem signOrDigit_toDigits : ∀ n : Nat, ∀ c ∈ Nat.toDigits 16 n, SignOrDigit c := by
  intro n
  induction n using Nat.strong_induction_on with
  | _ n ih =>
    intro c hc
    rcases Nat.lt_or_ge n 16 with hn | hn
    · rw [Nat.toDigits_of_lt_base hn, List.mem_singleton] at hc
      exact .inr ⟨n, hn, hc⟩
    · rw [Nat.toDigits_of_base_le (by norm_num) hn, List.mem_append, List.mem_singleton] at hc
      rcases hc with hc | hc
      · exact ih (n / 16) (by omega) c hc
      · exact .inr ⟨n % 16, Nat.mod_lt _ (by norm_num), hc⟩

theorem signOrDigit_formatHex {w : Nat} {v : Int} : ∀ c ∈ formatHex w v, SignOrDigit c := by
  have hpad : ∀ w n, ∀ c ∈ padDigits w n, SignOrDigit c := by
    intro w n c hc
    rcases List.mem_append.mp hc with hc | hc
    · exact .inr ⟨0, by norm_num, List.eq_of_mem_replicate hc⟩
    · exact signOrDigit_toDigits n c hc
  intro c hc
  unfold formatHex at hc
  split at hc
  · rcases List.mem_cons.mp hc with hc | hc
    · exact .inl hc
    · exact hpad _ _ c hc
  · exact hpad _ _ c hc

theorem signOrDigit_hexText {l : List UInt8} : ∀ c ∈ hexText l, SignOrDigit c := by
  intro c hc
  obtain ⟨b, -, hb⟩ := List.mem_flatMap.mp hc
  have hlt := b.toNat_lt
  rcases List.mem_cons.mp hb with hb | hb
  · exact .inr ⟨_, by omega, hb⟩
  · exact .inr ⟨_, Nat.mod_lt _ (by norm_num), List.mem_singleton.mp hb⟩

theorem digit_of_digitVal {c : Char} (hc : SignOrDigit c) {v : Nat} (h : digitVal c = some v) :
    v < 16 ∧ c = Nat.digitChar v := by
  rcases hc with rfl | ⟨d, hd, rfl⟩
  · rw [show digitVal '-' = none by decide] at h
    cases h
  · obtain rfl := Option.some.inj ((digitVal_digitChar hd).1.symm.trans h)
    exact ⟨hd, rfl⟩

theorem not_isSpace {c : Char} (hc : SignOrDigit c) : isSpace c = false := by
  rcases hc with rfl | ⟨d, hd, rfl⟩
  · decide
  · exact (digitVal_digitChar hd).2

/-- Of such a text only two digits for each byte can be read. -/
theorem hexText_of_fromHex : ∀ {s : List Char} {l : List UInt8}, (∀ c ∈ s, SignOrDigit c) →
    fromHex s = some l → s = hexText l
  | [], l, _, h => by obtain rfl := Option.some.inj h; rfl
  | [c], l, hs, h => by
    rw [fromHex, not_isSpace (hs c List.mem_cons_self)] at h
    cases h
  | a :: b :: s, l, hs, h => by
    have ha := hs a List.mem_cons_self
    have hb := hs b (List.mem_cons_of_mem _ List.mem_cons_self)
    rw [fromHex, not_isSpace ha] at h
    obtain ⟨hi, hhi, h⟩ := Option.bind_eq_some_iff.mp h
    obtain ⟨lo, hlo, h⟩ := Option.bind_eq_some_iff.mp h
    obtain ⟨l', hl', h⟩ := Option.bind_eq_some_iff.mp h
    obtain rfl := Option.some.inj h
    obtain ⟨hi16, rfl⟩ := digit_of_digitVal ha hhi
    obtain ⟨lo16, rfl⟩ := digit_of_digitVal hb hlo
    have hrest := hexText_of_fromHex
      (fun c hc => hs c (List.mem_cons_of_mem _ (List.mem_cons_of_mem _ hc))) hl'
    have hbyte : (UInt8.ofNat (16 * hi + lo)).toNat = 16 * hi + lo := by
      rw [UInt8.toNat_ofNat', Nat.mod_eq_of_lt (by omega)]
    rw [hexText_cons, hexByte, hbyte, ← hrest, show (16 * hi + lo) / 16 = hi by omega,
      show (16 * hi + lo) % 16 = lo by omega]
    rfl

theorem hexText_injective {l m : List UInt8} (h : hexText l = hexText m) : l = m :=
  Option.some.inj ((fromHex_hexText l).symm.trans (h ▸ fromHex_hexText m))

/-! ## Decimal numbers -/

/-- The number a nonempty string of decimal digits stands for. -/
def readDecimal (l : List UInt8) : Option Nat :=
  let codes := l.map UInt8.toNat
  if codes ≠ [] ∧ ∀ c ∈ codes, 48 ≤ c ∧ c ≤ 57 then some (ofBE 10 (codes.map (· - 48))) else none

theorem readDecimal_eq {l : List UInt8} {ds : List Nat}
    (hl : l.map UInt8.toNat = ds.map (48 + ·)) (hne : ds ≠ []) (hlt : ∀ d ∈ ds, d < 10) :
    readDecimal l = some (ofBE 10 ds) := by
  have hcodes : ∀ c ∈ ds.map (48 + ·), 48 ≤ c ∧ c ≤ 57 := by
    intro c hc
    obtain ⟨d, hd, rfl⟩ := List.mem_map.mp hc
    have := hlt d hd
    omega
  have hback : (ds.map (48 + ·)).map (· - 48) = ds := by
    rw [List.map_map]
    exact (List.map_congr_left fun d _ => Nat.add_sub_cancel_left 48 d).trans (List.map_id ds)
  rw [readDecimal, hl, if_pos ⟨by simpa using hne, hcodes⟩, hback]

end Lib.Text
