import MinaLedger.Lib.Radix

/-!
# Bit strings, least significant bit first

`bitsLE k v` are the low `k` bits of a number and `leBits` reads such a string
back; `chunks` cuts a list into pieces of one length, the last one shorter.

Results:
* `bitsLE_leBits`: a bit string of length `k` is the low `k` bits of its number.
* `bitsLE_eq_iff`: two numbers have the same low `k` bits when they agree modulo 2^k.
* `flatMap_bitsLE`: the bits of a byte string, byte by byte, are the bits of its
  little-endian value.
* `flatten_chunks`: cutting loses nothing.
-/
namespace Lib.BitString
open Lib.Radix

/-- The low `k` bits of `v`. -/
def bitsLE (k v : Nat) : List Bool := (List.range k).map v.testBit

/-- The number whose bits these are. -/
def leBits (ds : List Bool) : Nat := Nat.ofDigits 2 (ds.map Bool.toNat)

@[simp] theorem length_bitsLE (k v : Nat) : (bitsLE k v).length = k := by simp [bitsLE]

theorem bitsLE_succ (k v : Nat) : bitsLE (k + 1) v = bitsLE k v ++ [v.testBit k] := by
  simp [bitsLE, List.range_succ]

theorem bitsLE_congr {k v w : Nat} (h : ∀ i < k, v.testBit i = w.testBit i) :
    bitsLE k v = bitsLE k w :=
  List.map_congr_left fun i hi => h i (List.mem_range.mp hi)

theorem testBit_of_bitsLE_eq {k v w i : Nat} (h : bitsLE k v = bitsLE k w) (hi : i < k) :
    v.testBit i = w.testBit i := by
  have := congrArg (·[i]?) h
  simpa [bitsLE, hi] using this

theorem bitsLE_inj {k v w : Nat} (hv : v < 2 ^ k) (hw : w < 2 ^ k) (h : bitsLE k v = bitsLE k w) :
    v = w := by
  apply Nat.eq_of_testBit_eq
  intro i
  rcases Nat.lt_or_ge i k with hi | hi
  · exact testBit_of_bitsLE_eq h hi
  · have hle : 2 ^ k ≤ 2 ^ i := Nat.pow_le_pow_right (by norm_num) hi
    rw [Nat.testBit_lt_two_pow (by omega), Nat.testBit_lt_two_pow (by omega)]

theorem bitsLE_add (k l v : Nat) : bitsLE (k + l) v = bitsLE k v ++ bitsLE l (v / 2 ^ k) := by
  rw [bitsLE, List.range_add, List.map_append, List.map_map]
  congr 1
  apply List.map_congr_left
  intro i _
  rw [Nat.testBit_div_two_pow, Function.comp, Nat.add_comm]

theorem bitsLE_mod (k v : Nat) : bitsLE k (v % 2 ^ k) = bitsLE k v :=
  bitsLE_congr fun i hi => by simp [Nat.testBit_mod_two_pow, hi]

theorem bitsLE_eq_iff {k v w : Nat} : bitsLE k v = bitsLE k w ↔ v % 2 ^ k = w % 2 ^ k := by
  have hpos : 0 < 2 ^ k := Nat.two_pow_pos k
  constructor
  · intro h
    rw [← bitsLE_mod k v, ← bitsLE_mod k w] at h
    exact bitsLE_inj (Nat.mod_lt v hpos) (Nat.mod_lt w hpos) h
  · intro h
    rw [← bitsLE_mod k v, h, bitsLE_mod]

@[simp] theorem leBits_nil : leBits [] = 0 := rfl

theorem leBits_cons (d : Bool) (ds : List Bool) : leBits (d :: ds) = d.toNat + 2 * leBits ds := by
  simp [leBits, Nat.ofDigits_cons]

theorem leBits_lt : ∀ ds : List Bool, leBits ds < 2 ^ ds.length
  | [] => by simp
  | d :: ds => by
    have ih := leBits_lt ds
    rw [leBits_cons, List.length_cons, pow_succ]
    cases d <;> simp <;> omega

theorem testBit_leBits : ∀ (ds : List Bool) (i : Nat), (leBits ds).testBit i = ds.getD i false
  | [], i => by simp
  | d :: ds, 0 => by cases d <;> simp [leBits_cons, Nat.testBit_zero]
  | d :: ds, i + 1 => by
    have h : (leBits (d :: ds)) / 2 = leBits ds := by
      rw [leBits_cons]; cases d <;> (simp; try omega)
    rw [Nat.testBit_succ, h, testBit_leBits ds i]; simp

theorem bitsLE_leBits {k : Nat} {ds : List Bool} (h : ds.length = k) : bitsLE k (leBits ds) = ds := by
  apply List.ext_getElem (by simp [h])
  intro i hi hi'
  simp [bitsLE, testBit_leBits, hi']

theorem leBits_inj {ds es : List Bool} (hlen : ds.length = es.length) (h : leBits ds = leBits es) :
    ds = es := by
  rw [← bitsLE_leBits hlen, h, bitsLE_leBits rfl]

/-! ## Bytes -/

/-- Byte by byte, the bits of a byte string are those of its value. -/
theorem flatMap_bitsLE : ∀ l : List UInt8,
    l.flatMap (fun b => bitsLE 8 b.toNat) = bitsLE (8 * l.length) (leVal l)
  | [] => rfl
  | b :: l => by
    have hb : b.toNat < 2 ^ 8 := b.toNat_lt
    have hlow : bitsLE 8 (leVal (b :: l)) = bitsLE 8 b.toNat := by
      have hmod : leVal (b :: l) % 2 ^ 8 = b.toNat := by rw [leVal_cons]; omega
      rw [← bitsLE_mod, hmod]
    have hhigh : leVal (b :: l) / 2 ^ 8 = leVal l := by rw [leVal_cons]; omega
    rw [List.flatMap_cons, flatMap_bitsLE l, List.length_cons,
      show 8 * (l.length + 1) = 8 + 8 * l.length by ring, bitsLE_add, hlow, hhigh]

theorem leBytes_eq_map : ∀ k v : Nat,
    leBytes k v = (List.range k).map fun i => UInt8.ofNat (v >>> (8 * i))
  | 0, v => rfl
  | k + 1, v => by
    rw [leBytes, leBytes_eq_map k, List.range_succ_eq_map, List.map_cons, List.map_map]
    congr 1
    apply List.map_congr_left
    intro i _
    have h : v / 256 = v >>> 8 := by rw [Nat.shiftRight_eq_div_pow]
    rw [h, ← Nat.shiftRight_add, Function.comp, Nat.mul_succ, Nat.add_comm]

/-! ## Chunks -/

variable {α : Type*}

/-- The first `c` pieces of length `k`. -/
def chunks (k : Nat) : Nat → List α → List (List α)
  | 0, _ => []
  | c + 1, l => l.take k :: chunks k c (l.drop k)

@[simp] theorem length_chunks (k : Nat) : ∀ (c : Nat) (l : List α), (chunks k c l).length = c
  | 0, _ => rfl
  | c + 1, l => by simp [chunks, length_chunks k c]

theorem length_of_mem_chunks {k : Nat} : ∀ {c : Nat} {l ds : List α}, ds ∈ chunks k c l →
    ds.length ≤ k
  | 0, _, _, h => by cases h
  | c + 1, l, ds, h => by
    rcases List.mem_cons.mp h with rfl | h
    · exact List.length_take_le k l
    · exact length_of_mem_chunks h

/-- Chunk `j` starts at `k * j`. -/
theorem getElem_chunks (k : Nat) : ∀ (c : Nat) (l : List α) (j : Nat)
    (h : j < (chunks k c l).length), (chunks k c l)[j] = (l.drop (k * j)).take k
  | 0, _, _, h => by simp [chunks] at h
  | c + 1, l, 0, _ => by simp [chunks]
  | c + 1, l, j + 1, h => by
    simp only [chunks, List.getElem_cons_succ]
    rw [getElem_chunks k c, List.drop_drop, Nat.mul_succ, Nat.add_comm k]

theorem flatten_chunks (k : Nat) : ∀ (c : Nat) (l : List α),
    l.length ≤ k * c → (chunks k c l).flatten = l
  | 0, l, h => by
    have h0 : l.length = 0 := by simpa using h
    rw [List.length_eq_zero_iff.mp h0]; rfl
  | c + 1, l, h => by
    have hrest : (l.drop k).length ≤ k * c := by
      rw [List.length_drop]; rw [Nat.mul_succ] at h; omega
    rw [chunks, List.flatten_cons, flatten_chunks k c _ hrest, List.take_append_drop]

/-- Two lists of one length whose chunks are read alike are equal. -/
theorem chunks_inj {k c : Nat} {l m : List Bool} (hlen : l.length = m.length)
    (hl : l.length ≤ k * c) (h : (chunks k c l).map leBits = (chunks k c m).map leBits) : l = m := by
  induction c generalizing l m with
  | zero =>
    have h0 : l.length = 0 := by simpa using hl
    have h1 : m.length = 0 := by omega
    rw [List.length_eq_zero_iff.mp h0, List.length_eq_zero_iff.mp h1]
  | succ c ih =>
    simp only [chunks, List.map_cons, List.cons.injEq] at h
    have htake : l.take k = m.take k := leBits_inj (by simp [hlen]) h.1
    have hdrop : l.drop k = m.drop k := by
      refine ih (by simp [hlen]) ?_ h.2
      rw [List.length_drop]; rw [Nat.mul_succ] at hl; omega
    rw [← List.take_append_drop k l, htake, hdrop, List.take_append_drop]

end Lib.BitString
