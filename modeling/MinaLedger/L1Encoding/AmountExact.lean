import Mathlib.Data.List.DropRight
import MinaLedger.L1Encoding.AmountText

/-!
# Displayed amounts are exact

`amountText` follows the loops of `amount_to_string`. Here is the text as it is meant:
the number of whole coins, a point, and the nine digits of the rest without the zeros at
their end.

Results:
* `amountText_eq`: the loops write that text.
* `amount_to_string_exact`: for every amount and every buffer the text is written in
  full from the start of the buffer and nothing else changes, or only the first byte.
-/
namespace MinaLedger
open Lib.Radix

variable {n : Nat}

/-- The `k` lowest digits, the highest first. -/
def lastDigits (k v : Nat) : List Nat := ((List.range k).map fun i => v / 10 ^ i % 10).reverse

/-- Without the zeros at the end, but never without the first digit. -/
def trimZeros : List Nat → List Nat
  | [] => []
  | d :: l => d :: l.rdropWhile (· = 0)

/-- Whole coins, point, the nine digits of the rest, trimmed. -/
def coinText (amount : Nat) : List UInt8 :=
  decimal (amount / 10 ^ 9) ++ [46] ++ (trimZeros (lastDigits 9 (amount % 10 ^ 9))).map digitChar

/-! ## The loops write this text -/

theorem lastDigits_succ (k v : Nat) : lastDigits (k + 1) v = lastDigits k (v / 10) ++ [v % 10] := by
  rw [lastDigits, List.range_succ_eq_map, List.map_cons, List.reverse_cons, List.map_map, lastDigits]
  congr 2
  · refine List.map_congr_left fun i _ => ?_
    rw [Function.comp, pow_succ', Nat.div_div_eq_div_mul]
  · simp

theorem lastDigits_ne_nil (k v : Nat) : lastDigits (k + 1) v ≠ [] := by
  rw [lastDigits_succ]; simp

/-- Digits above the `k` lowest do not matter. -/
theorem lastDigits_mod (k v : Nat) : lastDigits k (v % 10 ^ k) = lastDigits k v := by
  induction k generalizing v with
  | zero => rfl
  | succ k ih =>
    have hdiv : v % 10 ^ (k + 1) / 10 = v / 10 % 10 ^ k := by
      rw [pow_succ', Nat.mod_mul_right_div_self]
    have hmod : v % 10 ^ (k + 1) % 10 = v % 10 := by
      rw [pow_succ', Nat.mod_mul_right_mod]
    rw [lastDigits_succ, lastDigits_succ, hdiv, hmod, ih]

theorem trimZeros_concat {l : List Nat} (hl : l ≠ []) (d : Nat) :
    trimZeros (l ++ [d]) = if d = 0 then trimZeros l else l ++ [d] := by
  cases l with
  | nil => exact absurd rfl hl
  | cons c l =>
    by_cases h0 : d = 0
    · rw [if_pos h0, List.cons_append, trimZeros, trimZeros,
        List.rdropWhile_concat_pos _ _ _ (by simpa using h0)]
    · rw [if_neg h0, List.cons_append, trimZeros,
        List.rdropWhile_concat_neg _ _ _ (by simpa using h0)]

/-- Once a digit is shown, all are. -/
theorem fracDigits_true : ∀ k v, (fracDigits true k v).reverse = lastDigits (k + 1) v
  | 0, v => by simp [fracDigits, lastDigits]
  | k + 1, v => by
    rw [fracDigits, if_pos (.inr rfl), List.reverse_cons, fracDigits_true k, ← lastDigits_succ]

/-- The sticky flag leaves out the zeros at the end. -/
theorem fracDigits_false : ∀ k v, (fracDigits false k v).reverse = trimZeros (lastDigits (k + 1) v)
  | 0, v => by simp [fracDigits, lastDigits, trimZeros]
  | k + 1, v => by
    rw [lastDigits_succ (k + 1), trimZeros_concat (lastDigits_ne_nil k _), fracDigits]
    by_cases h0 : v % 10 = 0
    · rw [if_neg (by simp [h0]), if_pos h0, fracDigits_false k]
    · rw [if_pos (.inl h0), if_neg h0, List.reverse_cons, fracDigits_true k]

theorem amountText_eq (amount : Nat) : amountText amount = coinText amount := by
  rw [amountText, coinText, ← List.map_reverse, fracDigits_false, lastDigits_mod]; rfl

/-! ## The buffer -/

/-- With room for the text and its NUL the buffer starts with them and is otherwise as
before; without, only its first byte is written. The text is read back as the amount, so
no other amount has it, and takes fewer than 32 bytes. -/
theorem amount_to_string_exact (buf : Vector UInt8 n) {len : Nat} (hpos : 1 ≤ len) (hlen : len ≤ n)
    (amount : UInt64) :
    ((coinText amount.toNat).length + 1 ≤ len → ∃ r, amount_to_string buf len amount = .ok r ∧
      r.toList = coinText amount.toNat ++ [0] ++
        buf.toList.drop ((coinText amount.toNat).length + 1)) ∧
    (len < (coinText amount.toNat).length + 1 → ∃ r, amount_to_string buf len amount = .ok r ∧
      r.toList = 0 :: buf.toList.tail) ∧
    readAmount (coinText amount.toNat) = some amount.toNat ∧
    (∀ other : UInt64, coinText other.toNat = coinText amount.toNat → other = amount) ∧
    (coinText amount.toNat).length + 1 ≤ 32 := by
  obtain ⟨hfits, hbig⟩ := amount_to_string_spec buf hlen amount
  have h32 := length_amountText_lt amount
  have hread := readAmount_amountText amount.toNat
  rw [amountText_eq] at hfits hbig h32 hread
  refine ⟨hfits, fun h => ?_, hread, fun other h => ?_, h32⟩
  · obtain ⟨r, hr, hlist⟩ := store_toList buf 0 0 (by omega)
    refine ⟨r, (hbig (by omega)).trans hr, ?_⟩
    rw [hlist]
    cases hbuf : buf.toList with
    | nil =>
      have hzero : buf.toList.length = n := Vector.length_toList
      rw [hbuf, List.length_nil] at hzero
      omega
    | cons c l => rfl
  · rw [← amountText_eq, ← amountText_eq] at h
    exact UInt64.toNat_inj.mp (amountText_inj h)

/-- "1618033.98875" into 14 bytes, and into 13. -/
theorem amount_to_string_exact_sample :
    (∃ r : Vector UInt8 15, amount_to_string (Vector.replicate 15 255) 14 1618033988750000 = .ok r ∧
      r.toList = chars "1618033.98875" ++ [0, 255]) ∧
    ∃ r : Vector UInt8 15, amount_to_string (Vector.replicate 15 255) 13 1618033988750000 = .ok r ∧
      r.toList = 0 :: List.replicate 14 255 := by
  have htext : coinText (1618033988750000 : UInt64).toNat = chars "1618033.98875" := by
    decide +kernel
  have hlength : (chars "1618033.98875").length = 13 := by decide +kernel
  obtain ⟨hfits, -⟩ := @amount_to_string_exact 15 (Vector.replicate 15 255) 14 (by norm_num)
    (by norm_num) 1618033988750000
  obtain ⟨-, hbig, -⟩ := @amount_to_string_exact 15 (Vector.replicate 15 255) 13 (by norm_num)
    (by norm_num) 1618033988750000
  rw [htext, hlength] at hfits hbig
  obtain ⟨r, hr, hlist⟩ := hfits (by norm_num)
  obtain ⟨r', hr', hlist'⟩ := hbig (by norm_num)
  exact ⟨⟨r, hr, by rw [hlist]; rfl⟩, r', hr', hlist'.trans rfl⟩

end MinaLedger
