import MinaLedger.Lib.Radix

/-!
# Long arithmetic by a small factor

Schoolbook multiplication and division of a digit list (most significant digit
first) by one small number.

Results: `mulAdd_value` and `divMod_value` say what the passes compute,
`divMod_eq` that the quotient is the digit list of `/` and the remainder `%`.
-/
namespace Lib.LongArith
open Lib.Radix

/-- `m * l + c` from the last digit up: the new digits and the carry out. -/
def mulAdd (B m : Nat) (l : List Nat) (c : Nat) : List Nat × Nat :=
  l.foldr (fun d s => let t := d * m + s.2; (t % B :: s.1, t / B)) ([], c)

@[simp] theorem mulAdd_nil (B m c : Nat) : mulAdd B m [] c = ([], c) := rfl

theorem mulAdd_cons (B m d : Nat) (l : List Nat) (c : Nat) :
    mulAdd B m (d :: l) c =
      ((d * m + (mulAdd B m l c).2) % B :: (mulAdd B m l c).1, (d * m + (mulAdd B m l c).2) / B) :=
  rfl

@[simp] theorem length_mulAdd (B m : Nat) (l : List Nat) (c : Nat) :
    (mulAdd B m l c).1.length = l.length := by
  induction l with
  | nil => rfl
  | cons d l ih => rw [mulAdd_cons, List.length_cons, ih, List.length_cons]

theorem mulAdd_lt {B m c d : Nat} (hB : 0 < B) {l : List Nat} (h : d ∈ (mulAdd B m l c).1) :
    d < B := by
  induction l with
  | nil => cases h
  | cons x l ih =>
    rw [mulAdd_cons] at h
    rcases List.mem_cons.mp h with rfl | h
    · exact Nat.mod_lt _ hB
    · exact ih h

/-- Digits and carry together are the product plus the carry in. -/
theorem mulAdd_value (B m : Nat) (l : List Nat) (c : Nat) :
    (mulAdd B m l c).2 * B ^ l.length + ofBE B (mulAdd B m l c).1 = m * ofBE B l + c := by
  induction l with
  | nil => simp
  | cons d l ih =>
    rw [mulAdd_cons, ofBE_cons, ofBE_cons, length_mulAdd, List.length_cons, pow_succ]
    have hdm := Nat.div_add_mod (d * m + (mulAdd B m l c).2) B
    calc (d * m + (mulAdd B m l c).2) / B * (B ^ l.length * B) +
          ((d * m + (mulAdd B m l c).2) % B * B ^ l.length + ofBE B (mulAdd B m l c).1)
        = (B * ((d * m + (mulAdd B m l c).2) / B) + (d * m + (mulAdd B m l c).2) % B) *
            B ^ l.length + ofBE B (mulAdd B m l c).1 := by ring
      _ = d * m * B ^ l.length +
            ((mulAdd B m l c).2 * B ^ l.length + ofBE B (mulAdd B m l c).1) := by rw [hdm]; ring
      _ = m * (d * B ^ l.length + ofBE B l) + c := by rw [ih]; ring

/-- Division by `m` from the first digit down, with remainder `r` so far. -/
def divMod (B m : Nat) : Nat → List Nat → List Nat × Nat
  | r, [] => ([], r)
  | r, d :: l =>
    let t := r * B + d
    let s := divMod B m (t % m) l
    (t / m :: s.1, s.2)

@[simp] theorem length_divMod (B m : Nat) : ∀ (l : List Nat) (r : Nat),
    (divMod B m r l).1.length = l.length
  | [], _ => rfl
  | d :: l, r => by simp [divMod, length_divMod B m l]

theorem divMod_value (B m : Nat) : ∀ (l : List Nat) (r : Nat),
    ofBE B (divMod B m r l).1 * m + (divMod B m r l).2 = r * B ^ l.length + ofBE B l
  | [], r => by simp [divMod]
  | d :: l, r => by
    have ih := divMod_value B m l ((r * B + d) % m)
    have hdm := Nat.div_add_mod (r * B + d) m
    simp only [divMod, ofBE_cons, length_divMod, List.length_cons, pow_succ]
    calc ((r * B + d) / m * B ^ l.length + ofBE B (divMod B m ((r * B + d) % m) l).1) * m +
          (divMod B m ((r * B + d) % m) l).2
        = (r * B + d) / m * B ^ l.length * m +
            (ofBE B (divMod B m ((r * B + d) % m) l).1 * m +
              (divMod B m ((r * B + d) % m) l).2) := by ring
      _ = (m * ((r * B + d) / m) + (r * B + d) % m) * B ^ l.length + ofBE B l := by rw [ih]; ring
      _ = r * (B ^ l.length * B) + (d * B ^ l.length + ofBE B l) := by rw [hdm]; ring

theorem divMod_snd_lt {B m : Nat} (hm : 0 < m) : ∀ (l : List Nat) (r : Nat), r < m →
    (divMod B m r l).2 < m
  | [], _, h => h
  | _ :: l, _, _ => divMod_snd_lt hm l _ (Nat.mod_lt _ hm)

theorem divMod_lt {B m : Nat} (hm : 0 < m) : ∀ (l : List Nat) (r : Nat), r < m →
    (∀ d ∈ l, d < B) → ∀ d ∈ (divMod B m r l).1, d < B
  | [], _, _, _, _, h => by cases h
  | x :: l, r, hr, hl, d, h => by
    have hx : x < B := hl x List.mem_cons_self
    rcases List.mem_cons.mp h with rfl | h
    · rw [Nat.div_lt_iff_lt_mul hm]
      calc r * B + x < r * B + B := by omega
        _ = (r + 1) * B := by ring
        _ ≤ m * B := Nat.mul_le_mul_right B hr
        _ = B * m := Nat.mul_comm _ _
    · exact divMod_lt hm l _ (Nat.mod_lt _ hm) (fun y hy => hl y (List.mem_cons_of_mem x hy)) d h

/-- The pass over a whole number divides it. -/
theorem divMod_eq {B m : Nat} (hm : 0 < m) (l : List Nat) :
    ofBE B (divMod B m 0 l).1 = ofBE B l / m ∧ (divMod B m 0 l).2 = ofBE B l % m := by
  have hv := divMod_value B m l 0
  have hr := divMod_snd_lt (B := B) hm l 0 hm
  rw [Nat.zero_mul, Nat.zero_add] at hv
  have h1 : ofBE B l / m = ofBE B (divMod B m 0 l).1 :=
    Nat.div_eq_of_lt_le (by omega) (by rw [Nat.add_mul]; omega)
  refine ⟨h1.symm, ?_⟩
  have hdm := Nat.div_add_mod (ofBE B l) m
  rw [h1, Nat.mul_comm] at hdm
  omega

/-- A remainder that is not zero gives a first quotient digit that is not zero. -/
theorem divMod_head_ne_zero {B m r : Nat} (hm : 0 < m) (hB : m ≤ B) (hr : r ≠ 0) (d : Nat)
    (l : List Nat) : (divMod B m r (d :: l)).1.head? ≠ some 0 := by
  have hle : m ≤ r * B + d := by
    calc m ≤ B := hB
      _ = 1 * B := (Nat.one_mul B).symm
      _ ≤ r * B := Nat.mul_le_mul_right B (Nat.one_le_iff_ne_zero.mpr hr)
      _ ≤ r * B + d := Nat.le_add_right _ _
  have hpos : 0 < (r * B + d) / m := Nat.div_pos hle hm
  intro h
  have h0 : (r * B + d) / m = 0 := by simpa [divMod] using h
  omega

end Lib.LongArith
