import MinaLedger.L2Crypto.Poseidon
import MinaLedger.Lib.Spn

/-!
# The Poseidon permutation is a permutation

Over the field the permutation is 63 substitution-permutation rounds and an addition:
5 is prime to FIELD_MODULUS - 1, and the determinant of the MDS matrix is not zero.

Results:
* `permuted_bijective`: the permutation over the field is a bijection.
* `absorbed_ne`: lists that differ in one block lead to different states, whatever the
  injective permutation.
* `poseidon_permutation_bijective`: both for the functions of src/src/poseidon.c.
-/
namespace MinaLedger
open Pasta Lib.Spn

/-! ## The rounds -/

theorem fifth_power_injective : Function.Injective fun x : Fp => x ^ 5 := by
  refine pow_injective ?_ (by norm_num)
  rw [ZMod.card]
  decide +kernel

/-- The two halves of the determinant differ modulo FIELD_MODULUS. -/
theorem mds_det_ne_zero : mds.det ≠ 0 := by
  let m (i j : Fin 3) : Nat := num mds_matrix[i][j]
  have hmod : (m 0 0 * m 1 1 * m 2 2 + m 0 1 * m 1 2 * m 2 0 + m 0 2 * m 1 0 * m 2 1) % fieldModulus ≠
      (m 0 0 * m 1 2 * m 2 1 + m 0 1 * m 1 0 * m 2 2 + m 0 2 * m 1 1 * m 2 0) % fieldModulus := by
    decide +kernel
  have hentry : ∀ i j, mds i j = (m i j : Fp) := fun i j => by
    fin_cases i <;> fin_cases j <;> rfl
  intro hdet
  refine hmod ((ZMod.natCast_eq_natCast_iff' _ _ fieldModulus).mp ?_)
  rw [Matrix.det_fin_three] at hdet
  simp only [hentry] at hdet
  push_cast
  linear_combination hdet

theorem roundOf_injective (r : Nat) : Function.Injective (roundOf · r) :=
  round_injective mds_det_ne_zero fifth_power_injective (roundKey r)

theorem permuted_bijective : Function.Bijective permuted := by
  refine Finite.injective_iff_bijective.mp fun x y h => ?_
  exact foldl_injective roundOf_injective _ (add_right_cancel h)

/-! ## Absorbing -/

/-- In one block of two elements they differ, and nowhere else. -/
def DifferInOneBlock {α : Type} (l m : List α) : Prop :=
  ∃ i, (∃ j, j / 2 = i ∧ l[j]? ≠ m[j]?) ∧ ∀ j, j / 2 ≠ i → l[j]? = m[j]?

theorem DifferInOneBlock.map {α β : Type} {l m : List α} (h : DifferInOneBlock l m) (f : α → β)
    (hf : ∀ a ∈ l, ∀ b ∈ m, f a = f b → a = b) (hlen : l.length = m.length) :
    DifferInOneBlock (l.map f) (m.map f) := by
  obtain ⟨i, ⟨j, hj, hne⟩, hsame⟩ := h
  refine ⟨i, ⟨j, hj, fun heq => hne ?_⟩, fun j hj => ?_⟩
  · rw [List.getElem?_map, List.getElem?_map] at heq
    rcases Nat.lt_or_ge j l.length with hlt | hge
    · rw [List.getElem?_eq_getElem hlt, List.getElem?_eq_getElem (hlen ▸ hlt)] at heq ⊢
      have heq : f l[j] = f m[j] := Option.some.inj heq
      rw [hf _ (List.getElem_mem _) _ (List.getElem_mem _) heq]
    · rw [List.getElem?_eq_none hge, List.getElem?_eq_none (hlen ▸ hge)]
  · rw [List.getElem?_map, List.getElem?_map, hsame j hj]

/-- Behind the first block. -/
theorem DifferInOneBlock.cons_cons {α : Type} {a b c d : α} {l m : List α}
    (h : DifferInOneBlock (a :: b :: l) (c :: d :: m)) :
    ((a ≠ c ∨ b ≠ d) ∧ l = m) ∨ (a = c ∧ b = d ∧ DifferInOneBlock l m) := by
  obtain ⟨i, ⟨j, hj, hne⟩, hsame⟩ := h
  have htail : ∀ k, (a :: b :: l)[k + 2]? = l[k]? ∧ (c :: d :: m)[k + 2]? = m[k]? :=
    fun k => ⟨rfl, rfl⟩
  cases i with
  | zero =>
    refine .inl ⟨?_, List.ext_getElem? fun k => ?_⟩
    · have hj2 : j = 0 ∨ j = 1 := by omega
      rcases hj2 with rfl | rfl
      · exact .inl fun h => hne (congrArg some h)
      · exact .inr fun h => hne (congrArg some h)
    · rw [← (htail k).1, ← (htail k).2]
      exact hsame (k + 2) (by omega)
  | succ i =>
    refine .inr ⟨Option.some.inj (hsame 0 (by omega)), Option.some.inj (hsame 1 (by omega)),
      i, ⟨j - 2, by omega, ?_⟩, fun k hk => ?_⟩
    · obtain ⟨k, rfl⟩ : ∃ k, j = k + 2 := ⟨j - 2, by omega⟩
      exact hne
    · rw [← (htail k).1, ← (htail k).2]
      exact hsame (k + 2) (by omega)

section Absorbing

variable {perm : (Fin 3 → Fp) → Fin 3 → Fp} (hperm : Function.Injective perm)

include hperm

theorem absorbed_injective : ∀ l : List Fp, Function.Injective (absorbed perm l)
  | [] => fun _ _ h => h
  | [_] => fun _ _ h => add_right_cancel (hperm h)
  | _ :: _ :: l => fun _ _ h => add_right_cancel (hperm (absorbed_injective l h))

/-- What goes in differently comes out differently. -/
theorem add_pair_inj {x : Fin 3 → Fp} {a b c d : Fp}
    (h : perm (x + ![a, b, 0]) = perm (x + ![c, d, 0])) : a = c ∧ b = d := by
  have h := add_left_cancel (hperm h)
  exact ⟨congrFun h 0, congrFun h 1⟩

/-- After the block that differs the states differ, and they stay so. -/
theorem absorbed_ne : ∀ l m : List Fp, l.length = m.length → DifferInOneBlock l m →
    ∀ x, absorbed perm l x ≠ absorbed perm m x
  | [], [], _, ⟨_, ⟨_, _, hne⟩, _⟩, _ => absurd rfl hne
  | [a], [c], _, ⟨_, ⟨j, _, hne⟩, _⟩, x => by
    intro h
    obtain ⟨rfl, -⟩ := add_pair_inj hperm h
    exact hne rfl
  | a :: b :: l, c :: d :: m, hlen, hdiff, x => by
    intro h
    rcases hdiff.cons_cons with ⟨hne, rfl⟩ | ⟨rfl, rfl, hrest⟩
    · obtain ⟨rfl, rfl⟩ := add_pair_inj hperm (absorbed_injective hperm l h)
      exact hne.elim (absurd rfl) (absurd rfl)
    · exact absorbed_ne l m (by simpa using hlen) hrest _ h
  | [], _ :: _, hlen, _, _ => by simp at hlen
  | _ :: _, [], hlen, _, _ => by simp at hlen
  | [_], _ :: _ :: _, hlen, _, _ => by simp at hlen
  | _ :: _ :: _, [_], hlen, _, _ => by simp at hlen

end Absorbing

/-! ## The functions -/

/-- With exact arithmetic `poseidon_permutation` is a bijection of the canonical states,
and from every canonical state `poseidon_update` tells lists apart that differ in exactly
one block of two elements. -/
theorem poseidon_permutation_bijective {cx : Cx} (h : cx.Exact) :
    (∀ s : State, s.Canonical → ∃ r, poseidon_permutation cx s = .ok r ∧ r.Canonical) ∧
    (∀ s t : State, s.Canonical → t.Canonical →
      poseidon_permutation cx s = poseidon_permutation cx t → s = t) ∧
    (∀ r : State, r.Canonical → ∃ s, s.Canonical ∧ poseidon_permutation cx s = .ok r) ∧
    ∀ (s : State) (l m : List Field), s.Canonical → (∀ a ∈ l, num a < fieldModulus) →
      (∀ a ∈ m, num a < fieldModulus) → l.length = m.length → DifferInOneBlock l m →
      ∃ r t, poseidon_update cx s l l.length = .ok r ∧ poseidon_update cx s m m.length = .ok t ∧
        r ≠ t := by
  have hrun : ∀ s : State, s.Canonical →
      poseidon_permutation cx s = .ok (encodeState (permuted s.elements)) := fun s hs => by
    conv_lhs => rw [← encodeState_elements hs]
    exact poseidon_permutation_encode h _
  refine ⟨fun s hs => ⟨_, hrun s hs, encodeState_canonical _⟩, fun s t hs ht heq => ?_,
    fun r hr => ?_, fun s l m hs hl hm hlen hdiff => ?_⟩
  · rw [hrun s hs, hrun t ht] at heq
    have helements := permuted_bijective.injective (encodeState_inj (Except.ok.inj heq))
    rw [← encodeState_elements hs, helements, encodeState_elements ht]
  · obtain ⟨x, hx⟩ := permuted_bijective.surjective r.elements
    exact ⟨encodeState x, encodeState_canonical x, by
      rw [poseidon_permutation_encode h, hx, encodeState_elements hr]⟩
  · have hdecode : ∀ a ∈ l, ∀ b ∈ m, decode fieldModulus a = decode fieldModulus b → a = b :=
      fun a ha b hb heq => by rw [← encode_decode (hl a ha), heq, encode_decode (hm b hb)]
    have hne := absorbed_ne permuted_bijective.injective _ _ (by simpa using hlen)
      (hdiff.map _ hdecode hlen) s.elements
    have hl' := poseidon_update_encode h l s.elements hl
    have hm' := poseidon_update_encode h m s.elements hm
    rw [encodeState_elements hs] at hl' hm'
    exact ⟨_, _, hl', hm', fun heq => hne (encodeState_inj heq)⟩

/-- Three elements of which the last differs, from the initial state of the main network. -/
theorem poseidon_permutation_bijective_sample :
    ∃ r t, poseidon_update Cx.reference MAINNET_IV [ofNum 1, ofNum 2, ofNum 3] 3 = .ok r ∧
      poseidon_update Cx.reference MAINNET_IV [ofNum 1, ofNum 2, ofNum 4] 3 = .ok t ∧ r ≠ t := by
  refine (poseidon_permutation_bijective Cx.reference_exact).2.2.2 MAINNET_IV
    [ofNum 1, ofNum 2, ofNum 3] [ofNum 1, ofNum 2, ofNum 4] iv_canonical.2 ?_ ?_ rfl ?_
  · decide +kernel
  · decide +kernel
  · refine ⟨1, ⟨2, rfl, by decide +kernel⟩, fun j hj => ?_⟩
    match j with
    | 0 => rfl
    | 1 => rfl
    | 2 => exact absurd rfl hj
    | _ + 3 => rfl

end MinaLedger
