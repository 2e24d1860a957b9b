import MinaLedger.Types
import MinaLedger.Lib.BitString

/-!
# Packed bit arrays

Bit `i` of a byte array is bit `i % 8` of byte `i / 8`, which makes the array a
little-endian number. The random-oracle input writes such an array strictly
upwards, so its loops are described by what they append: `Appends a b k ds`
says that writing `ds` from bit `k` on turned `a` into `b`.

Results: `packed_bit_array_set` at a position inside the array appends one bit
(`set_appends`), appending composes (`Appends.trans`), and so the three loop
shapes of src/src/random_oracle_input.c append their bits: over a range of
positions (`setRange_appends`), at a position that is counted up
(`setCounting_appends`) and in rounds (`rounds_append`).
-/
namespace MinaLedger
open Lib.Radix Lib.BitString

variable {n : Nat}

/-- mirrors src/src/utils.c:245-256 -/
def packed_bit_array_set (bits : Vector UInt8 n) (i : Nat) (b : Bool) :
    Exec (Vector UInt8 n) := do
  let byte_idx := i / 8
  let in_byte_idx := i % 8
  let v ← load bits.toList byte_idx
  if b then
    store bits byte_idx (v ||| (1 <<< UInt8.ofNat in_byte_idx))
  else
    store bits byte_idx (v &&& ~~~(1 <<< UInt8.ofNat in_byte_idx))

/-- mirrors src/src/utils.c:258-264 -/
def packed_bit_array_get (bits : Vector UInt8 n) (i : Nat) : Exec Bool := do
  let byte_idx := i / 8
  let in_byte_idx := i % 8
  return (← load bits.toList byte_idx).toNat.testBit in_byte_idx

/-! ## One bit -/

/-- Bit `i` of the array. -/
def bitAt (bits : Vector UInt8 n) (i : Nat) : Bool := (leVal bits.toList).testBit i

/-- The first `k` bits of the array. -/
def bitList (bits : Vector UInt8 n) (k : Nat) : List Bool := bitsLE k (leVal bits.toList)

theorem bitAt_eq (bits : Vector UInt8 n) (i : Nat) :
    bitAt bits i = (bits.toList.getD (i / 8) 0).toNat.testBit (i % 8) := testBit_leVal _ _

theorem get_eq (bits : Vector UInt8 n) {i : Nat} (h : i < 8 * n) :
    packed_bit_array_get bits i = .ok (bitAt bits i) := by
  have hi : i / 8 < bits.toList.length := by simp; omega
  rw [packed_bit_array_get, load_eq _ _ hi, ok_bind, bitAt_eq, List.getD_eq_getElem _ _ hi]; rfl

theorem toNat_one_shiftLeft {j : Nat} (hj : j < 8) : ((1 : UInt8) <<< UInt8.ofNat j).toNat = 2 ^ j := by
  interval_cases j <;> rfl

theorem testBit_setBit (v : UInt8) {j : Nat} (hj : j < 8) (m : Nat) :
    (v ||| (1 <<< UInt8.ofNat j)).toNat.testBit m = (decide (j = m) || v.toNat.testBit m) := by
  rw [UInt8.toNat_or, Nat.testBit_or, toNat_one_shiftLeft hj, Nat.testBit_two_pow, Bool.or_comm]

theorem testBit_clearBit (v : UInt8) {j m : Nat} (hj : j < 8) (hm : m < 8) :
    (v &&& ~~~(1 <<< UInt8.ofNat j)).toNat.testBit m = (!decide (j = m) && v.toNat.testBit m) := by
  have hnot : (~~~((1 : UInt8) <<< UInt8.ofNat j)).toNat = 2 ^ 8 - (2 ^ j + 1) := by
    interval_cases j <;> rfl
  have hlt : 2 ^ j < 2 ^ 8 := Nat.pow_lt_pow_right (by norm_num) hj
  rw [UInt8.toNat_and, Nat.testBit_and, hnot, Nat.testBit_two_pow_sub_succ hlt,
    Nat.testBit_two_pow]
  simp [hm, Bool.and_comm]

/-- The set function writes its bit and nothing else. -/
theorem set_ok (bits : Vector UInt8 n) {i : Nat} (b : Bool) (h : i < 8 * n) :
    ∃ r, packed_bit_array_set bits i b = .ok r ∧
      ∀ k, bitAt r k = if k = i then b else bitAt bits k := by
  have hi : i / 8 < n := by omega
  have hload : i / 8 < bits.toList.length := by simpa using hi
  have hmod : i % 8 < 8 := Nat.mod_lt _ (by norm_num)
  unfold packed_bit_array_set
  simp only [load_eq _ _ hload, ok_bind]
  -- the byte at `i / 8` becomes `w`, whose bits are those of the old byte except at `i % 8`
  have key : ∀ w : UInt8, (∀ m < 8, w.toNat.testBit m =
      if m = i % 8 then b else (bits.toList[i / 8]).toNat.testBit m) →
      ∃ r, store bits (i / 8) w = .ok r ∧ ∀ k, bitAt r k = if k = i then b else bitAt bits k := by
    intro w hw
    obtain ⟨r, hr, hlist⟩ := store_toList bits (i / 8) w hi
    refine ⟨r, hr, fun k => ?_⟩
    rw [bitAt_eq, bitAt_eq, hlist]
    by_cases hk : k / 8 = i / 8
    · have hset : (bits.toList.set (i / 8) w).getD (k / 8) 0 = w := by
        rw [hk, List.getD_eq_getElem _ _ (by simpa using hi), List.getElem_set_self]
      rw [hset, hw _ (Nat.mod_lt _ (by norm_num)), hk, List.getD_eq_getElem _ _ hload]
      have hiff : k % 8 = i % 8 ↔ k = i := by omega
      simp only [hiff]
    · have hset : (bits.toList.set (i / 8) w).getD (k / 8) 0 = bits.toList.getD (k / 8) 0 := by
        simp [List.getD_eq_getElem?_getD, List.getElem?_set_ne (fun h => hk h.symm)]
      rw [hset, if_neg (fun h => hk (by rw [h]))]
  cases b with
  | true =>
    rw [if_pos rfl]
    refine key _ fun m hm => ?_
    rw [testBit_setBit _ hmod]
    by_cases hmi : m = i % 8
    · simp [hmi]
    · rw [if_neg hmi, decide_eq_false (fun h => hmi h.symm), Bool.false_or]
  | false =>
    rw [if_neg (by simp)]
    refine key _ fun m hm => ?_
    rw [testBit_clearBit _ hmod hm]
    by_cases hmi : m = i % 8
    · simp [hmi]
    · rw [if_neg hmi, decide_eq_false (fun h => hmi h.symm), Bool.not_false, Bool.true_and]

/-- Behind the array there is nothing to set. -/
theorem set_outside (bits : Vector UInt8 n) {i : Nat} (b : Bool) (h : 8 * n ≤ i) :
    packed_bit_array_set bits i b = .error .undefined := by
  have hi : bits.toList.length ≤ i / 8 := by simp; omega
  rw [packed_bit_array_set, load, List.getElem?_eq_none hi, error_bind]

/-! ## Writing upwards -/

/-- Writing `ds` from bit `k` on turned `a` into `b`. -/
structure Appends (a b : Vector UInt8 n) (k : Nat) (ds : List Bool) : Prop where
  head : bitList b (k + ds.length) = bitList a k ++ ds
  tail : ∀ m, k + ds.length ≤ m → bitAt b m = bitAt a m

theorem Appends.nil (a : Vector UInt8 n) (k : Nat) : Appends a a k [] :=
  ⟨by simp, fun _ _ => rfl⟩

theorem Appends.trans {a b c : Vector UInt8 n} {k : Nat} {ds es : List Bool}
    (h₁ : Appends a b k ds) (h₂ : Appends b c (k + ds.length) es) : Appends a c k (ds ++ es) := by
  refine ⟨?_, fun m hm => ?_⟩
  · rw [List.length_append, ← Nat.add_assoc, h₂.head, h₁.head, List.append_assoc]
  · rw [List.length_append] at hm
    rw [h₂.tail m (by omega), h₁.tail m (by omega)]

/-- Two texts of one length, written to the same place, are equal exactly when the
arrays are. -/
theorem Appends.eq_iff {a b c : Vector UInt8 n} {k : Nat} {ds es : List Bool}
    (h₁ : Appends a b k ds) (h₂ : Appends a c k es) (hlen : ds.length = es.length) :
    b = c ↔ ds = es := by
  constructor
  · rintro rfl
    refine @List.append_cancel_left _ (bitList a k) _ _ ?_
    rw [← h₁.head, ← h₂.head, hlen]
  · rintro rfl
    have hbits : ∀ m, bitAt b m = bitAt c m := fun m => by
      rcases Nat.lt_or_ge m (k + ds.length) with hm | hm
      · exact testBit_of_bitsLE_eq (h₁.head.trans h₂.head.symm) hm
      · rw [h₁.tail m hm, h₂.tail m hm]
    exact Vector.toList_inj.mp (leVal_ext (by simp) fun m _ => hbits m)

/-- Setting the next bit appends it. -/
theorem set_appends (a : Vector UInt8 n) {k : Nat} (d : Bool) (h : k < 8 * n) :
    ∃ r, packed_bit_array_set a k d = .ok r ∧ Appends a r k [d] := by
  obtain ⟨r, hr, hbits⟩ := set_ok a d h
  refine ⟨r, hr, ?_, fun m hm => ?_⟩
  · have hlow : bitList r k = bitList a k := bitsLE_congr fun i hi => by
      have := hbits i
      rwa [if_neg (by omega)] at this
    have hnew : (leVal r.toList).testBit k = d := by
      have := hbits k
      rwa [if_pos rfl] at this
    rw [List.length_singleton, bitList, bitsLE_succ, hnew, ← hlow]; rfl
  · rw [List.length_singleton] at hm
    rw [hbits m, if_neg (by omega)]

/-- A loop that writes bit `off + i` in round `i`. -/
theorem setRange_appends (a : Vector UInt8 n) (off : Nat) (get : Nat → Exec Bool) (v : Nat → Bool) :
    ∀ len, (∀ i < len, get i = .ok (v i)) → off + len ≤ 8 * n →
      ∃ r, (List.range len).foldlM (fun bits i => do
          let b ← get i
          packed_bit_array_set bits (off + i) b) a = .ok r ∧
        Appends a r off ((List.range len).map v) := by
  intro len
  induction len with
  | zero => intro _ _; exact ⟨a, rfl, Appends.nil a off⟩
  | succ len ih =>
    intro hget hlen
    obtain ⟨r, hr, happ⟩ := ih (fun i hi => hget i (by omega)) (by omega)
    obtain ⟨r', hr', happ'⟩ := set_appends r (v len) (k := off + len) (by omega)
    refine ⟨r', ?_, ?_⟩
    · rw [List.range_succ, List.foldlM_append, hr, ok_bind, List.foldlM_cons,
        hget len (by omega), ok_bind, hr']; rfl
    · rw [List.range_succ, List.map_append, List.map_singleton]
      exact happ.trans (by simpa using happ')

/-- A loop that writes at a position it counts up itself. -/
theorem setCounting_appends (a : Vector UInt8 n) (k : Nat) (get : Nat → Exec Bool)
    (v : Nat → Bool) :
    ∀ len, (∀ i < len, get i = .ok (v i)) → k + len ≤ 8 * n →
      ∃ r, (List.range len).foldlM (fun (s : Vector UInt8 n × Nat) i => do
          let b ← get i
          let bits ← packed_bit_array_set s.1 s.2 b
          return (bits, s.2 + 1)) (a, k) = .ok (r, k + len) ∧
        Appends a r k ((List.range len).map v) := by
  intro len
  induction len with
  | zero => intro _ _; exact ⟨a, rfl, Appends.nil a k⟩
  | succ len ih =>
    intro hget hlen
    obtain ⟨r, hr, happ⟩ := ih (fun i hi => hget i (by omega)) (by omega)
    obtain ⟨r', hr', happ'⟩ := set_appends r (v len) (k := k + len) (by omega)
    refine ⟨r', ?_, ?_⟩
    · rw [List.range_succ, List.foldlM_append, hr, ok_bind, List.foldlM_cons,
        hget len (by omega), ok_bind, hr']; rfl
    · rw [List.range_succ, List.map_append, List.map_singleton]
      exact happ.trans (by simpa using happ')

/-- The same loop over more bits than the array has left. -/
theorem setCounting_overrun (a : Vector UInt8 n) {k : Nat} (get : Nat → Exec Bool)
    {v : Nat → Bool} {len : Nat} (hget : ∀ i < len, get i = .ok (v i)) (hk : k ≤ 8 * n)
    (hover : 8 * n < k + len) :
    (List.range len).foldlM (fun (s : Vector UInt8 n × Nat) i => do
      let b ← get i
      let bits ← packed_bit_array_set s.1 s.2 b
      return (bits, s.2 + 1)) (a, k) = .error .undefined := by
  have hlt : 8 * n - k < len := by omega
  obtain ⟨r, hr, -⟩ := setCounting_appends a k get v (8 * n - k)
    (fun i hi => hget i (by omega)) (by omega)
  refine foldlM_range_error hlt hr ?_
  rw [hget _ hlt, ok_bind, set_outside r _ (show 8 * n ≤ k + (8 * n - k) by omega), error_bind]

/-- Loops over rounds that each append a string of their own. -/
theorem rounds_append (k : Nat) (body : Vector UInt8 n × Nat → Nat → Exec (Vector UInt8 n × Nat))
    (v : Nat → List Bool) (w : Nat) (hw : ∀ i, (v i).length = w) :
    ∀ len, (∀ i < len, ∀ a : Vector UInt8 n, ∃ r,
        body (a, k + w * i) i = .ok (r, k + w * (i + 1)) ∧ Appends a r (k + w * i) (v i)) →
      ∀ a : Vector UInt8 n, ∃ r, (List.range len).foldlM body (a, k) = .ok (r, k + w * len) ∧
        Appends a r k ((List.range len).flatMap v) := by
  intro len
  induction len with
  | zero => intro _ a; exact ⟨a, rfl, Appends.nil a k⟩
  | succ len ih =>
    intro hbody a
    obtain ⟨r, hr, happ⟩ := ih (fun i hi => hbody i (by omega)) a
    obtain ⟨r', hr', happ'⟩ := hbody len (by omega) r
    refine ⟨r', ?_, ?_⟩
    · rw [List.range_succ, List.foldlM_append, hr, ok_bind, List.foldlM_cons, hr']; rfl
    · have hlen : ((List.range len).flatMap v).length = w * len := by
        simp [List.length_flatMap, hw, Nat.mul_comm]
      rw [List.range_succ, List.flatMap_append, List.flatMap_singleton]
      exact happ.trans (by rwa [hlen])

end MinaLedger
