import Mathlib.Data.Nat.Bitwise
import Mathlib.Tactic.Ring

/-!
# Double-and-add, most significant bit first

One loop serves multiplication in an additive group and powers in a
multiplicative one: `ladder dbl add q ds` doubles for every bit and adds for
the set ones. `ladder_inv` carries any invariant indexed by the number read so
far; the add step may assume that this number stays within a bound `N` on the
whole scalar, which is what rules out the exceptional cases of an incomplete
addition.
-/
namespace Lib.Ladder

/-! ## Bits, most significant first -/

/-- The number read after `ds`, starting from `m`. -/
def valFrom (m : Nat) (ds : List Bool) : Nat := ds.foldl (fun m d => 2 * m + d.toNat) m

/-- The low `k` bits of `n`. -/
def bits (k n : Nat) : List Bool := (List.range k).map fun i => n.testBit (k - 1 - i)

@[simp] theorem valFrom_nil (m : Nat) : valFrom m [] = m := rfl

@[simp] theorem valFrom_cons (m : Nat) (d : Bool) (ds : List Bool) :
    valFrom m (d :: ds) = valFrom (2 * m + d.toNat) ds := rfl

/-- What was read stays a lower bound. -/
theorem le_valFrom : ∀ (ds : List Bool) (m : Nat), m ≤ valFrom m ds
  | [], m => Nat.le_refl m
  | d :: ds, m => by
    have := le_valFrom ds (2 * m + d.toNat)
    rw [valFrom_cons]; omega

theorem valFrom_append (m : Nat) (ds es : List Bool) :
    valFrom m (ds ++ es) = valFrom (valFrom m ds) es := by simp [valFrom]

theorem bits_succ (k n : Nat) : bits (k + 1) n = bits k (n / 2) ++ [n.testBit 0] := by
  rw [bits, List.range_succ, List.map_append, List.map_singleton]
  congr 1
  · apply List.map_congr_left
    intro i hi
    have hi := List.mem_range.mp hi
    rw [Nat.testBit_div_two]
    congr 1; omega
  · simp

theorem valFrom_bits : ∀ {k n : Nat}, n < 2 ^ k → valFrom 0 (bits k n) = n
  | 0, n, h => by simp at h; simp [bits, h]
  | k + 1, n, h => by
    have hd : n / 2 < 2 ^ k := by rw [pow_succ] at h; omega
    rw [bits_succ, valFrom_append, valFrom_bits hd]
    simp only [valFrom_cons, valFrom_nil, Nat.testBit_zero]
    rcases Nat.mod_two_eq_zero_or_one n with h0 | h0 <;> simp [h0] <;> omega

/-! ## The loop -/

variable {R : Type*}

def ladder (dbl add : R → R) (q : R) (ds : List Bool) : R :=
  ds.foldl (fun q d => if d then add (dbl q) else dbl q) q

@[simp] theorem ladder_nil (dbl add : R → R) (q : R) : ladder dbl add q [] = q := rfl

@[simp] theorem ladder_cons (dbl add : R → R) (q : R) (d : Bool) (ds : List Bool) :
    ladder dbl add q (d :: ds) = ladder dbl add (if d then add (dbl q) else dbl q) ds := rfl

/-- An invariant of the doubling and of the adding step holds at the end. -/
theorem ladder_inv (dbl add : R → R) (I : Nat → R → Prop) (N : Nat)
    (hdbl : ∀ m q, I m q → I (2 * m) (dbl q))
    (hadd : ∀ m q, 2 * m + 1 ≤ N → I (2 * m) q → I (2 * m + 1) (add q)) :
    ∀ (ds : List Bool) (m : Nat) (q : R), I m q → valFrom m ds ≤ N →
      I (valFrom m ds) (ladder dbl add q ds)
  | [], _, _, h, _ => h
  | d :: ds, m, q, h, hN => by
    rw [valFrom_cons] at hN ⊢
    rw [ladder_cons]
    refine ladder_inv dbl add I N hdbl hadd ds _ _ ?_ hN
    have hle := le_valFrom ds (2 * m + d.toNat)
    cases d with
    | false => exact hdbl m q h
    | true =>
      rw [if_pos rfl]
      exact hadd m (dbl q) (by simp at hle hN; omega) (hdbl m q h)

/-- What both steps keep, the loop keeps. -/
theorem ladder_preserves (dbl add : R → R) (I : R → Prop) (hdbl : ∀ q, I q → I (dbl q))
    (hadd : ∀ q, I q → I (add q)) (ds : List Bool) (q : R) (h : I q) : I (ladder dbl add q ds) :=
  ladder_inv dbl add (fun _ => I) (valFrom 0 ds) (fun _ => hdbl) (fun _ q _ => hadd q) ds 0 q h
    le_rfl

end Lib.Ladder
