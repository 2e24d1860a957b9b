import MinaLedger.Lib.Ladder
import Mathlib.NumberTheory.LucasPrimality
import Mathlib.Data.List.Prime

/-!
# Primality certificates

Lucas's test (`lucas_primality`) in a form whose side conditions the kernel
evaluates: powers modulo `p` go through the square-and-multiply ladder
(`powMod`). A certificate lists numbers with a witness and the factors of
their predecessor, each factor certified by an earlier entry;
`prime_of_certify` makes every listed number prime.
-/
namespace Lib.Lucas
open Lib.Ladder

/-- `a ^ n % m` over the low `k` bits of `n`. -/
def powMod (m a k n : Nat) : Nat :=
  ladder (fun r => r * r % m) (fun r => r * a % m) (1 % m) (bits k n)

theorem powMod_eq (m a : Nat) {k n : Nat} (h : n < 2 ^ k) : powMod m a k n = a ^ n % m := by
  have hinv := ladder_inv (fun r => r * r % m) (fun r => r * a % m) (fun e r => r = a ^ e % m) n
    (fun e r hr => by rw [hr, ← Nat.mul_mod, ← pow_add, two_mul])
    (fun e r _ hr => by rw [hr, Nat.mod_mul_mod, ← pow_succ])
    (bits k n) 0 (1 % m) (by simp) (by rw [valFrom_bits h])
  rwa [valFrom_bits h] at hinv

/-- A number, Lucas's witness for it, and the factors of its predecessor as
pairs of a prime and its exponent. -/
structure Entry where
  p : Nat
  a : Nat
  fs : List (Nat × Nat)

/-- The side conditions of Lucas's test. -/
def Entry.test (e : Entry) : Bool :=
  let k := e.p.log2 + 1
  2 ≤ e.p && (e.fs.map fun f => f.1 ^ f.2).prod == e.p - 1 &&
    powMod e.p e.a k (e.p - 1) == 1 && e.fs.all fun f => powMod e.p e.a k ((e.p - 1) / f.1) != 1

/-- Every entry passes its test and has its factors among the earlier ones. -/
def certify (earlier : List Nat) : List Entry → Bool
  | [] => true
  | e :: es => e.test && e.fs.all (fun f => earlier.contains f.1) && certify (e.p :: earlier) es

theorem cast_pow_eq_one_iff {p a n : Nat} (hp : 2 ≤ p) :
    (a : ZMod p) ^ n = 1 ↔ a ^ n % p = 1 := by
  have h1 : 1 % p = 1 := Nat.mod_eq_of_lt hp
  have h2 := ZMod.natCast_eq_natCast_iff' (a ^ n) 1 p
  rwa [Nat.cast_pow, Nat.cast_one, h1] at h2

theorem Entry.prime {e : Entry} (hfs : ∀ f ∈ e.fs, f.1.Prime) (h : e.test = true) :
    e.p.Prime := by
  simp only [Entry.test, Bool.and_eq_true, decide_eq_true_eq, beq_iff_eq, List.all_eq_true,
    bne_iff_ne] at h
  obtain ⟨⟨⟨h2, hprod⟩, hone⟩, hne⟩ := h
  have hk : e.p < 2 ^ (e.p.log2 + 1) := Nat.lt_log2_self
  have hlt : ∀ n ≤ e.p - 1, n < 2 ^ (e.p.log2 + 1) := fun n hn => by omega
  refine lucas_primality e.p (e.a : ZMod e.p) ?_ fun q hq hdvd => ?_
  · rwa [cast_pow_eq_one_iff h2, ← powMod_eq e.p e.a (hlt _ le_rfl)]
  · -- a prime factor of the product is one of the listed primes
    rw [← hprod, hq.prime.dvd_prod_iff] at hdvd
    obtain ⟨x, hx, hqx⟩ := hdvd
    obtain ⟨f, hf, rfl⟩ := List.mem_map.mp hx
    have hqf : q = f.1 := (Nat.prime_dvd_prime_iff_eq hq (hfs f hf)).mp (hq.dvd_of_dvd_pow hqx)
    rw [ne_eq, cast_pow_eq_one_iff h2, ← powMod_eq e.p e.a (hlt _ (Nat.div_le_self _ _)), hqf]
    exact hne f hf

theorem prime_of_certify {es : List Entry} : ∀ {earlier : List Nat},
    (∀ q ∈ earlier, q.Prime) → certify earlier es = true → ∀ e ∈ es, e.p.Prime := by
  induction es with
  | nil => intro _ _ _ e he; cases he
  | cons e es ih =>
    intro earlier hear h
    simp only [certify, Bool.and_eq_true, List.all_eq_true, List.contains_iff_mem] at h
    obtain ⟨⟨htest, hfs⟩, hrest⟩ := h
    have hp : e.p.Prime := e.prime (fun f hf => hear _ (hfs f hf)) htest
    intro e' he'
    rcases List.mem_cons.mp he' with rfl | he'
    · exact hp
    · refine ih (fun q hq => ?_) hrest e' he'
      rcases List.mem_cons.mp hq with rfl | hq
      · exact hp
      · exact hear q hq

end Lib.Lucas
