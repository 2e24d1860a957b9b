import Mathlib.Data.Nat.Digits.Lemmas
import Mathlib.Data.Nat.Bitwise
import Mathlib.Tactic.Ring

/-!
# Positional numbers over digit lists and byte strings

Digit lists are read most significant digit first (`ofBE`, over Mathlib's
`Nat.ofDigits`); byte strings are read in either order (`leVal`, `beVal`).

Results:
* `digitsBE_ofBE`: the canonical digits of a digit list's value are the list
  without its leading zeros.
* `leVal_leBytes`, `beVal_beBytes`, `beBytes_beVal`: fixed-width bytes and numbers
  below `256 ^ k` are in bijection.
* `testBit_leVal`: bit `i` of a little-endian byte string is bit `i % 8` of
  byte `i / 8`, so packed bit arrays are numbers, and two byte strings of one
  length with the same bits are equal (`leVal_ext`).
-/
namespace Lib.Radix

/-! ## Digit lists, most significant digit first -/

def ofBE (b : Nat) (l : List Nat) : Nat := Nat.ofDigits b l.reverse

/-- The canonical digits of `n`: none for 0, no leading zero. -/
def digitsBE (b n : Nat) : List Nat := (Nat.digits b n).reverse

@[simp] theorem ofBE_nil (b : Nat) : ofBE b [] = 0 := rfl

theorem ofBE_cons (b d : Nat) (l : List Nat) : ofBE b (d :: l) = d * b ^ l.length + ofBE b l := by
  simp only [ofBE, List.reverse_cons, Nat.ofDigits_append, Nat.ofDigits_singleton,
    List.length_reverse]
  ring

theorem ofBE_concat (b d : Nat) (l : List Nat) : ofBE b (l ++ [d]) = b * ofBE b l + d := by
  simp only [ofBE, List.reverse_append, List.reverse_singleton, List.singleton_append,
    Nat.ofDigits_cons]
  exact Nat.add_comm _ _

theorem ofBE_append (b : Nat) (l m : List Nat) :
    ofBE b (l ++ m) = ofBE b l * b ^ m.length + ofBE b m := by
  simp only [ofBE, List.reverse_append, Nat.ofDigits_append, List.length_reverse]
  ring

theorem ofBE_lt {b : Nat} (hb : 1 < b) {l : List Nat} (h : ∀ d ∈ l, d < b) :
    ofBE b l < b ^ l.length := by
  have := Nat.ofDigits_lt_base_pow_length hb (l := l.reverse) (by simpa using h)
  simpa [ofBE] using this

theorem ofBE_inj {b : Nat} (hb : 1 < b) {l m : List Nat} (hlen : l.length = m.length)
    (hl : ∀ d ∈ l, d < b) (hm : ∀ d ∈ m, d < b) (h : ofBE b l = ofBE b m) : l = m := by
  have hlen' : l.reverse.length = m.reverse.length := by simpa using hlen
  have := Nat.ofDigits_inj_of_len_eq hb hlen' (by simpa using hl) (by simpa using hm) h
  simpa using this

@[simp] theorem ofBE_digitsBE (b n : Nat) : ofBE b (digitsBE b n) = n := by
  simp [ofBE, digitsBE, Nat.ofDigits_digits]

theorem digitsBE_lt {b n d : Nat} (hb : 1 < b) (h : d ∈ digitsBE b n) : d < b :=
  Nat.digits_lt_base hb (by simpa [digitsBE] using h)

theorem ofBE_dropWhile (b : Nat) : ∀ l : List Nat, ofBE b (l.dropWhile (· == 0)) = ofBE b l
  | [] => rfl
  | d :: l => by
    by_cases h : d = 0
    · subst h; simpa [ofBE_cons] using ofBE_dropWhile b l
    · rw [List.dropWhile_cons_of_neg (by simpa using h)]

/-- A digit list names its value up to leading zeros. -/
theorem digitsBE_ofBE {b : Nat} (hb : 1 < b) {l : List Nat} (h : ∀ d ∈ l, d < b) :
    digitsBE b (ofBE b l) = l.dropWhile (· == 0) := by
  rw [← ofBE_dropWhile, digitsBE, ofBE, Nat.digits_ofDigits b hb, List.reverse_reverse]
  · intro d hd
    exact h d ((List.dropWhile_sublist _).subset (List.mem_reverse.mp hd))
  · intro hne
    rw [List.getLast_reverse]
    have := List.head_dropWhile_not (· == 0) (l := l) (by simpa using hne)
    simpa using this

theorem length_digitsBE_le {b n k : Nat} (hb : 1 < b) (h : n < b ^ k) :
    (digitsBE b n).length ≤ k := by
  have := (Nat.digits_length_le_iff hb n (k := k)).mpr h
  simpa [digitsBE] using this

theorem lt_length_digitsBE {b n k : Nat} (hb : 1 < b) (h : b ^ k ≤ n) :
    k < (digitsBE b n).length := by
  have := (Nat.lt_digits_length_iff hb n (k := k)).mpr h
  simpa [digitsBE] using this

theorem digitsBE_zero (b : Nat) : digitsBE b 0 = [] := by simp [digitsBE]

theorem digitsBE_step {b n : Nat} (hb : 1 < b) (hn : n ≠ 0) :
    digitsBE b n = digitsBE b (n / b) ++ [n % b] := by
  rw [digitsBE, Nat.digits_def' hb (Nat.pos_of_ne_zero hn), List.reverse_cons]; rfl

/-! ## Byte strings -/

/-- Little-endian value. -/
def leVal (l : List UInt8) : Nat := Nat.ofDigits 256 (l.map UInt8.toNat)

/-- Big-endian value. -/
def beVal (l : List UInt8) : Nat := ofBE 256 (l.map UInt8.toNat)

/-- The low `k` bytes of `v`, least significant first. -/
def leBytes : Nat → Nat → List UInt8
  | 0, _ => []
  | k + 1, v => UInt8.ofNat v :: leBytes k (v / 256)

/-- The low `k` bytes of `v`, most significant first. -/
def beBytes (k v : Nat) : List UInt8 := (leBytes k v).reverse

theorem map_toNat_lt (l : List UInt8) : ∀ d ∈ l.map UInt8.toNat, d < 256 := by
  intro d hd
  obtain ⟨b, -, rfl⟩ := List.mem_map.mp hd
  exact b.toNat_lt

theorem map_toNat_inj {l m : List UInt8} (h : l.map UInt8.toNat = m.map UInt8.toNat) : l = m :=
  List.map_injective_iff.mpr (fun _ _ => UInt8.toNat_inj.mp) h

theorem beVal_reverse (l : List UInt8) : beVal l.reverse = leVal l := by
  simp [beVal, leVal, ofBE, List.map_reverse]

theorem leVal_reverse (l : List UInt8) : leVal l.reverse = beVal l := by
  rw [← beVal_reverse, List.reverse_reverse]

@[simp] theorem leVal_nil : leVal [] = 0 := rfl

@[simp] theorem beVal_nil : beVal [] = 0 := rfl

theorem leVal_cons (b : UInt8) (l : List UInt8) : leVal (b :: l) = b.toNat + 256 * leVal l := by
  simp [leVal, Nat.ofDigits_cons]

theorem beVal_cons (b : UInt8) (l : List UInt8) :
    beVal (b :: l) = b.toNat * 256 ^ l.length + beVal l := by
  simp [beVal, ofBE_cons]

theorem beVal_concat (l : List UInt8) (b : UInt8) : beVal (l ++ [b]) = 256 * beVal l + b.toNat := by
  simp [beVal, ofBE_concat]

theorem beVal_append (l m : List UInt8) :
    beVal (l ++ m) = beVal l * 256 ^ m.length + beVal m := by
  simp [beVal, ofBE_append]

theorem beVal_lt (l : List UInt8) : beVal l < 256 ^ l.length := by
  have := ofBE_lt (by norm_num) (map_toNat_lt l)
  simpa [beVal] using this

theorem leVal_lt (l : List UInt8) : leVal l < 256 ^ l.length := by
  rw [← beVal_reverse]
  simpa using beVal_lt l.reverse

theorem beVal_inj {l m : List UInt8} (hlen : l.length = m.length) (h : beVal l = beVal m) : l = m :=
  map_toNat_inj (ofBE_inj (by norm_num) (by simpa using hlen) (map_toNat_lt l) (map_toNat_lt m) h)

theorem leVal_inj {l m : List UInt8} (hlen : l.length = m.length) (h : leVal l = leVal m) :
    l = m := by
  have : l.reverse = m.reverse := beVal_inj (by simpa using hlen) (by simpa [beVal_reverse] using h)
  simpa using this

@[simp] theorem length_leBytes : ∀ k v, (leBytes k v).length = k
  | 0, _ => rfl
  | k + 1, v => by simp [leBytes, length_leBytes k]

@[simp] theorem length_beBytes (k v : Nat) : (beBytes k v).length = k := by simp [beBytes]

theorem leVal_leBytes : ∀ {k v : Nat}, v < 256 ^ k → leVal (leBytes k v) = v
  | 0, v, h => by simp at h; simp [leBytes, h]
  | k + 1, v, h => by
    have hdiv : v / 256 < 256 ^ k := by
      rw [Nat.div_lt_iff_lt_mul (by norm_num)]; simpa [pow_succ] using h
    rw [leBytes, leVal_cons, leVal_leBytes hdiv, UInt8.toNat_ofNat']
    omega

theorem beVal_beBytes {k v : Nat} (h : v < 256 ^ k) : beVal (beBytes k v) = v := by
  rw [beBytes, beVal_reverse, leVal_leBytes h]

theorem beBytes_beVal {k : Nat} {l : List UInt8} (h : l.length = k) : beBytes k (beVal l) = l :=
  beVal_inj (by simp [h]) (beVal_beBytes (h ▸ beVal_lt l))

theorem leVal_replicate_zero : ∀ k, leVal (List.replicate k 0) = 0
  | 0 => rfl
  | k + 1 => by rw [List.replicate_succ, leVal_cons, leVal_replicate_zero k]; rfl

/-! ## Bits -/

/-- Bit `i` of a little-endian byte string is bit `i % 8` of byte `i / 8`. -/
theorem testBit_leVal : ∀ (l : List UInt8) (i : Nat),
    (leVal l).testBit i = (l.getD (i / 8) 0).toNat.testBit (i % 8)
  | [], i => by simp
  | b :: l, i => by
    have hb : b.toNat < 2 ^ 8 := b.toNat_lt
    rw [leVal_cons, show b.toNat + 256 * leVal l = 2 ^ 8 * leVal l + b.toNat by ring,
      Nat.testBit_two_pow_mul_add _ hb]
    split
    · rename_i hi
      rw [Nat.div_eq_of_lt hi, Nat.mod_eq_of_lt hi]; rfl
    · rename_i hi
      have e : i / 8 = (i - 8) / 8 + 1 := by omega
      rw [testBit_leVal l (i - 8), e, List.getD_cons_succ]
      congr 1; omega

theorem testBit_leVal_ge {l : List UInt8} {i : Nat} (h : 8 * l.length ≤ i) :
    (leVal l).testBit i = false := by
  apply Nat.testBit_lt_two_pow
  calc leVal l < 256 ^ l.length := leVal_lt l
    _ = 2 ^ (8 * l.length) := by rw [pow_mul]; norm_num
    _ ≤ 2 ^ i := Nat.pow_le_pow_right (by norm_num) h

/-- Byte strings of one length with the same bits are equal. -/
theorem leVal_ext {l m : List UInt8} (hlen : l.length = m.length)
    (h : ∀ i < 8 * l.length, (leVal l).testBit i = (leVal m).testBit i) : l = m := by
  apply leVal_inj hlen
  apply Nat.eq_of_testBit_eq
  intro i
  rcases Nat.lt_or_ge i (8 * l.length) with hi | hi
  · exact h i hi
  · rw [testBit_leVal_ge hi, testBit_leVal_ge (by omega)]

end Lib.Radix
