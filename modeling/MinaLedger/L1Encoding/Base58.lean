import MinaLedger.Types
import MinaLedger.Lib.LongArith

/-!
# Base 58

`b58_encode` and `b58_decode` of src/src/utils.c, and the number a base-58
text stands for.

Results: the digit table holds the position of every character of the alphabet
and -1 for the others (`digitsMap_ok`), and the canonical text of a byte string,
its leading zeros as '1' and then the digits of its value, reads back to that
value (`b58Value_b58Text`).
-/
namespace MinaLedger
open Lib.Radix Lib.LongArith

/-- mirrors src/src/utils.c:12-17 -/
def B58_ALPHABET : List UInt8 := [
  49, 50, 51, 52, 53, 54, 55, 56, 57, 65, 66, 67, 68, 69, 70,
  71, 72, 74, 75, 76, 77, 78, 80, 81, 82, 83, 84, 85, 86, 87,
  88, 89, 90, 97, 98, 99, 100, 101, 102, 103, 104, 105, 106, 107, 109,
  110, 111, 112, 113, 114, 115, 116, 117, 118, 119, 120, 121, 122]

/-- mirrors src/src/utils.c:75-84 -/
def B58_DIGITS_MAP : List Int := [
  -1, -1, -1, -1, -1, -1, -1, -1, -1, -1, -1, -1, -1, -1, -1, -1,
  -1, -1, -1, -1, -1, -1, -1, -1, -1, -1, -1, -1, -1, -1, -1, -1,
  -1, -1, -1, -1, -1, -1, -1, -1, -1, -1, -1, -1, -1, -1, -1, -1,
  -1, 0, 1, 2, 3, 4, 5, 6, 7, 8, -1, -1, -1, -1, -1, -1,
  -1, 9, 10, 11, 12, 13, 14, 15, 16, -1, 17, 18, 19, 20, 21, -1,
  22, 23, 24, 25, 26, 27, 28, 29, 30, 31, 32, -1, -1, -1, -1, -1,
  -1, 33, 34, 35, 36, 37, 38, 39, 40, 41, 42, 43, -1, 44, 45, 46,
  47, 48, 49, 50, 51, 52, 53, 54, 55, 56, 57, -1, -1, -1, -1, -1]

/-! ## Encoding -/

/-- An `unsigned char`. -/
def uchar (v : Nat) : Nat := v % 256

variable {n : Nat}

/-- The `for` loop: one pass of the long division in place.
mirrors src/src/utils.c:41-48 -/
def b58DivPass (tmp : Vector UInt8 164) (startAt length : Nat) : Exec (Vector UInt8 164 × Nat) :=
  (List.range' startAt (length - startAt)).foldlM (fun s divLoop => do
    let digit256 := (← load s.1.toList divLoop).toNat
    let tmpDiv := s.2 * 256 + digit256
    let tmp ← store s.1 divLoop (UInt8.ofNat (tmpDiv / 58))
    return (tmp, tmpDiv % 58)) (tmp, 0)

/-- The `while (startAt < length)` loop: `buffer` and `j` at its end.
mirrors src/src/utils.c:39-53 -/
def b58EncodeLoop (length : Nat) :
    Nat → Vector UInt8 164 → Vector UInt8 164 → Nat → Nat → Exec (Vector UInt8 164 × Nat)
  | 0, _, buffer, j, startAt =>
    if startAt < length then .error .outOfFuel else .ok (buffer, j)
  | fuel + 1, tmp, buffer, j, startAt =>
    if startAt < length then do
      let (tmp, remainder) ← b58DivPass tmp startAt length
      let startAt := if (← load tmp.toList startAt) = 0 then startAt + 1 else startAt
      let j := uchar (j + 255)
      let buffer ← store buffer j (← load B58_ALPHABET remainder)
      b58EncodeLoop length fuel tmp buffer j startAt
    else .ok (buffer, j)

/-- Skips '1' characters the division left in front. mirrors src/src/utils.c:54-56 -/
def b58SkipOnes (length : Nat) : Nat → Vector UInt8 164 → Nat → Exec Nat
  | 0, _, j => if j < 2 * length then .error .outOfFuel else .ok j
  | fuel + 1, buffer, j =>
    if j < 2 * length then do
      if (← load buffer.toList j) = 49 then b58SkipOnes length fuel buffer (uchar (j + 1))
      else return j
    else .ok j

/-- `while (zeroCount-- > 0)`. mirrors src/src/utils.c:57-59 -/
def b58PutOnes : Nat → Vector UInt8 164 → Nat → Exec (Vector UInt8 164 × Nat)
  | 0, buffer, j => .ok (buffer, j)
  | zeroCount + 1, buffer, j => do
    let j := uchar (j + 255)
    let buffer ← store buffer j 49
    b58PutOnes zeroCount buffer j

/-- The result and the output array. mirrors src/src/utils.c:22-67 -/
def b58_encode (st : Stale) (input : List UInt8) (length : Nat) (out : Vector UInt8 n)
    (maxoutlen : Nat) : Exec (Int × Vector UInt8 n) := do
  let tmp : Vector UInt8 164 := st.array 164
  let buffer : Vector UInt8 164 := Stale.array ⟨fun i => st.bytes (164 + i)⟩ 164
  if length > 164 then
    return (-1, out)
  let tmp ← writeBytes tmp 0 (← readBytes input 0 length)
  let zeroCount := ((tmp.toList.take length).takeWhile (· = 0)).length
  let (buffer, j) ← b58EncodeLoop length (2 * length) tmp buffer (uchar (2 * length)) zeroCount
  let j ← b58SkipOnes length 256 buffer j
  let (buffer, j) ← b58PutOnes zeroCount buffer j
  let length := uchar (2 * length - j)
  if maxoutlen < length then
    return (-1, out)
  let out ← writeBytes out 0 (← readBytes buffer.toList j length)
  return (length, out)

/-! ## Decoding -/

/-- The digit loop; `none` is one of the three failure exits. `mulAdd` is the
inner loop over the limbs. mirrors src/src/utils.c:114-133 -/
def b58Digits (zeromask : Nat) : List UInt8 → List Nat → Exec (Option (List Nat))
  | [], outi => .ok (some outi)
  | c :: b58u, outi => do
    if c &&& 0x80 ≠ 0 then
      return none
    let d ← load B58_DIGITS_MAP c.toNat
    if d = -1 then
      return none
    let (outi, c) := mulAdd (2 ^ 32) 58 outi d.toNat
    if c ≠ 0 then
      return none
    if (← load outi 0) &&& zeromask ≠ 0 then
      return none
    b58Digits zeromask b58u outi

/-- The bytes of the limbs, `bytesleft` of the first. mirrors src/src/utils.c:135-147 -/
def limbBytes (bytesleft : Nat) (outi : List Nat) : List UInt8 :=
  if bytesleft ≠ 0 then
    beBytes bytesleft (outi.headD 0) ++ outi.tail.flatMap (beBytes 4)
  else outi.flatMap (beBytes 4)

/-- `strlen`. -/
def strlen (s : List UInt8) : Exec Nat :=
  if 0 ∈ s then .ok (cstr s).length else .error .undefined

/-- The result, the buffer and `*binszp`. `outisz` counts in `Nat`: the sum in it would
leave the 32 bits of a `size_t` for `binsz` of 2^32 - 3 on, and no buffer of so many bytes
exists beside its limbs. mirrors src/src/utils.c:89-159 -/
def b58_decode (bin : Vector UInt8 n) (binszp : Nat) (b58 : List UInt8) (b58sz : Nat) :
    Exec (Bool × Vector UInt8 n × Nat) := do
  let binsz := binszp
  let outisz := (binsz + 4 - 1) / 4
  let bytesleft := binsz % 4
  let zeromask := if bytesleft ≠ 0 then (2 ^ 32 - 1) <<< (bytesleft * 8) % 2 ^ 32 else 0
  let b58sz ← if b58sz = 0 then strlen b58 else pure b58sz
  let b58u ← readBytes b58 0 b58sz
  -- leading zeros, just count
  let zerocount := (b58u.takeWhile (· = 49)).length
  match ← b58Digits zeromask (b58u.drop zerocount) (List.replicate outisz 0) with
  | none => return (false, bin, binszp)
  | some outi =>
    let bin ← writeBytes bin 0 (limbBytes bytesleft outi)
    -- count canonical base58 byte count
    let zeros := ((bin.toList.take binsz).takeWhile (· = 0)).length
    return (true, bin, binszp - zeros + zerocount)

theorem strlen_text {s rest : List UInt8} (h : (0 : UInt8) ∉ s) :
    strlen (s ++ [0] ++ rest) = .ok s.length := by
  rw [strlen, if_pos (by simp), cstr_append_zero h]

/-! ## Texts and numbers -/

/-- The character of a digit. -/
def b58Char (d : Nat) : UInt8 := B58_ALPHABET.getD d 0

/-- Every character is in the alphabet. -/
def IsB58 (s : List UInt8) : Prop := ∀ c ∈ s, c ∈ B58_ALPHABET

instance (s : List UInt8) : Decidable (IsB58 s) := List.decidableBAll _ s

/-- The number a text stands for. -/
def b58Value (s : List UInt8) : Nat := ofBE 58 (s.map (B58_ALPHABET.idxOf ·))

/-- The canonical text: leading zero bytes as '1', then the digits of the value. -/
def b58Text (bytes : List UInt8) : List UInt8 :=
  List.replicate (bytes.takeWhile (· = 0)).length 49 ++ (digitsBE 58 (beVal bytes)).map b58Char

theorem alphabet_nodup : B58_ALPHABET.Nodup := by decide

theorem b58Char_mem {d : Nat} (h : d < 58) : b58Char d ∈ B58_ALPHABET := by
  have hlen : d < B58_ALPHABET.length := h
  rw [b58Char, List.getD_eq_getElem _ _ hlen]
  exact List.getElem_mem hlen

theorem idxOf_b58Char {d : Nat} (h : d < 58) : B58_ALPHABET.idxOf (b58Char d) = d := by
  have hlen : d < B58_ALPHABET.length := h
  rw [b58Char, List.getD_eq_getElem _ _ hlen]
  exact alphabet_nodup.idxOf_getElem d hlen

theorem b58Char_idxOf {c : UInt8} (h : c ∈ B58_ALPHABET) : b58Char (B58_ALPHABET.idxOf c) = c := by
  rw [b58Char, List.getD_eq_getElem _ _ (List.idxOf_lt_length_of_mem h)]
  exact List.getElem_idxOf _

theorem idxOf_lt {c : UInt8} (h : c ∈ B58_ALPHABET) : B58_ALPHABET.idxOf c < 58 :=
  List.idxOf_lt_length_of_mem h

/-- What the digit table says of one character. -/
def digitsMapOk (c : UInt8) : Prop :=
  if c ∈ B58_ALPHABET then
    c &&& 0x80 = 0 ∧ load B58_DIGITS_MAP c.toNat = .ok (B58_ALPHABET.idxOf c : Int)
  else c &&& 0x80 ≠ 0 ∨ load B58_DIGITS_MAP c.toNat = .ok (-1)

instance (c : UInt8) : Decidable (digitsMapOk c) :=
  inferInstanceAs (Decidable (if c ∈ B58_ALPHABET then _ ∧ _ else _ ∨ _))

theorem digitsMap_table : ∀ v < 256, digitsMapOk (UInt8.ofNat v) := by decide +kernel

/-- The digit table holds the position in the alphabet, or -1. -/
theorem digitsMap_ok (c : UInt8) : digitsMapOk c := by
  have h := digitsMap_table c.toNat c.toNat_lt
  rwa [UInt8.ofNat_toNat] at h

theorem digitsMap_mem {c : UInt8} (h : c ∈ B58_ALPHABET) :
    c &&& 0x80 = 0 ∧ load B58_DIGITS_MAP c.toNat = .ok (B58_ALPHABET.idxOf c : Int) := by
  have hok := digitsMap_ok c
  rwa [digitsMapOk, if_pos h] at hok

theorem digitsMap_not_mem {c : UInt8} (h : c ∉ B58_ALPHABET) :
    c &&& 0x80 ≠ 0 ∨ load B58_DIGITS_MAP c.toNat = .ok (-1) := by
  have hok := digitsMap_ok c
  rwa [digitsMapOk, if_neg h] at hok

/-! ## The canonical text -/

theorem isB58_map_b58Char {ds : List Nat} (h : ∀ d ∈ ds, d < 58) : IsB58 (ds.map b58Char) := by
  intro c hc
  obtain ⟨d, hd, rfl⟩ := List.mem_map.mp hc
  exact b58Char_mem (h d hd)

theorem map_idxOf_b58Char {ds : List Nat} (h : ∀ d ∈ ds, d < 58) :
    (ds.map b58Char).map (B58_ALPHABET.idxOf ·) = ds := by
  rw [List.map_map]
  conv_rhs => rw [← List.map_id ds]
  exact List.map_congr_left fun d hd => idxOf_b58Char (h d hd)

theorem b58Value_ones (k : Nat) (s : List UInt8) :
    b58Value (List.replicate k 49 ++ s) = b58Value s := by
  induction k with
  | zero => rfl
  | succ k ih =>
    rw [List.replicate_succ, List.cons_append, b58Value, List.map_cons, ofBE_cons]
    have h0 : B58_ALPHABET.idxOf 49 = 0 := rfl
    rw [h0, Nat.zero_mul, Nat.zero_add]
    exact ih

theorem isB58_b58Text (bytes : List UInt8) : IsB58 (b58Text bytes) := by
  intro c hc
  rcases List.mem_append.mp hc with h | h
  · rw [List.eq_of_mem_replicate h]; decide
  · exact isB58_map_b58Char (fun d hd => digitsBE_lt (by norm_num) hd) c h

theorem b58Value_b58Text (bytes : List UInt8) : b58Value (b58Text bytes) = beVal bytes := by
  rw [b58Text, b58Value_ones, b58Value, map_idxOf_b58Char (fun d hd => digitsBE_lt (by norm_num) hd),
    ofBE_digitsBE]

/-- A text of the alphabet without a leading '1' is the digits of its value. -/
theorem map_digitsBE_b58Value {s : List UInt8} (hs : IsB58 s) (hhead : s.head? ≠ some 49) :
    (digitsBE 58 (b58Value s)).map b58Char = s := by
  have hlt : ∀ d ∈ s.map (B58_ALPHABET.idxOf ·), d < 58 := fun d hd => by
    obtain ⟨c, hc, rfl⟩ := List.mem_map.mp hd
    exact idxOf_lt (hs c hc)
  have hdrop : (s.map (B58_ALPHABET.idxOf ·)).dropWhile (· == 0) = s.map (B58_ALPHABET.idxOf ·) := by
    cases s with
    | nil => rfl
    | cons c s =>
      rw [List.map_cons, List.dropWhile_cons_of_neg]
      intro h0
      have hc := b58Char_idxOf (hs c List.mem_cons_self)
      rw [beq_iff_eq.mp h0] at hc
      exact hhead (by rw [List.head?_cons, ← hc]; rfl)
  rw [b58Value, digitsBE_ofBE (by norm_num) hlt, hdrop, List.map_map]
  conv_rhs => rw [← List.map_id s]
  exact List.map_congr_left fun c hc => b58Char_idxOf (hs c hc)

end MinaLedger
