import MinaLedger.L2Crypto.PoseidonTables
import Mathlib.Data.Matrix.Mul
import Mathlib.Data.Fin.VecNotation

/-!
# The sponge

src/src/poseidon.c, with the loops that update the state in place.

Results:
* `poseidon_permutation_encode`: on canonical states the permutation is 63
  rounds of x ↦ M (x + k)^5 and a last addition of keys, over the field.
* `poseidon_update_encode`: the update absorbs a list of canonical elements two
  at a time, an odd one alone.
* `poseidon_hash_encode`: the digest of such a list is a canonical element;
  `poseidon_hash_sponge`: it is the digest over the field.
-/
namespace MinaLedger
open Pasta

section Functions

variable (cx : Cx)

/-- mirrors src/src/poseidon.c:1434-1454 -/
def matrix_mul (s1 : State) (m : Vector State SPONGE_SIZE) : Exec State := do
  let s2 : State := Vector.replicate SPONGE_SIZE FIELD_ZERO
  let s2 ← (List.range SPONGE_SIZE).foldlM (fun s2 row =>
    -- inner product
    (List.range SPONGE_SIZE).foldlM (fun s2 col => do
      let t0 ← field_mul cx (← load s1.toList col) (← load (← load m.toList row).toList col)
      let t1 ← load s2.toList row
      let sum ← field_add cx t1 t0
      store s2 row sum) s2) s2
  (List.range SPONGE_SIZE).foldlM (fun s1 col => do
    let v ← load s2.toList col
    store s1 col v) s1

/-- mirrors src/src/poseidon.c:1456-1460 -/
def sbox (x : Field) : Exec Field := field_pow cx x FIELD_FIVE

/-- Add the round keys. mirrors src/src/poseidon.c:1472-1475, 1489-1492 -/
def ark (s : State) (r : Nat) : Exec State :=
  (List.range SPONGE_SIZE).foldlM (fun s i => do
    let tmp ← load s.toList i
    let v ← field_add cx tmp (← load (← load round_keys.toList r).toList i)
    store s i v) s

/-- mirrors src/src/poseidon.c:1478-1481 -/
def sboxes (s : State) : Exec State :=
  (List.range SPONGE_SIZE).foldlM (fun s i => do
    let tmp ← load s.toList i
    let v ← sbox cx tmp
    store s i v) s

/-- mirrors src/src/poseidon.c:1470-1485 -/
def fullRound (s : State) (r : Nat) : Exec State := do
  let s ← ark cx s r
  let s ← sboxes cx s
  matrix_mul cx s mds_matrix

/-- mirrors src/src/poseidon.c:1466-1493 -/
def poseidon_permutation (s : State) : Exec State := do
  let s ← (List.range FULL_ROUNDS).foldlM (fullRound cx) s
  ark cx s (ROUNDS - 1)

/-- `s` stays as it is for any other network. mirrors src/src/poseidon.c:1495-1506 -/
def poseidon_init (s : State) (network_id : UInt8) : State :=
  if network_id = TESTNET_ID then TESTNET_IV
  else if network_id = MAINNET_ID then MAINNET_IV
  else s

/-- `field_copy(tmp, s[i]); field_add(s[i], tmp, input[j])`. mirrors src/src/poseidon.c:1514-1515 -/
def absorb (s : State) (i : Nat) (input : List Field) (j : Nat) : Exec State := do
  let tmp ← load s.toList i
  let v ← field_add cx tmp (← load input j)
  store s i v

/-- mirrors src/src/poseidon.c:1508-1529 -/
def poseidon_update (s : State) (input : List Field) (len : Nat) : Exec State := do
  let pairs := len / 2
  let s ← (List.range pairs).foldlM (fun s i => do
    let s ← absorb cx s 0 input (2 * i)
    let s ← absorb cx s 1 input (2 * i + 1)
    poseidon_permutation cx s) s
  if 2 * pairs < len then
    let s ← absorb cx s 0 input (2 * pairs)
    poseidon_permutation cx s
  else return s

/-- Squeezing. mirrors src/src/poseidon.c:1531-1534 -/
def poseidon_digest (s : State) : Scalar := s[0]

/-- The three calls of `message_hash`; `pos` is the uninitialised state.
mirrors src/src/crypto.c:630-634 -/
def poseidon_hash (pos : State) (network_id : UInt8) (input : List Field) : Exec Field := do
  let pos := poseidon_init pos network_id
  let pos ← poseidon_update cx pos input input.length
  return poseidon_digest pos

end Functions

/-! ## States of field elements -/

def triple {α : Type} (a b c : α) : Vector α SPONGE_SIZE := #v[a, b, c]

def encodeState (x : Fin 3 → Fp) : State := triple (encode (x 0)) (encode (x 1)) (encode (x 2))

def State.elements (s : State) : Fin 3 → Fp :=
  ![decode fieldModulus s[0], decode fieldModulus s[1], decode fieldModulus s[2]]

theorem encodeState_elements {s : State} (h : s.Canonical) : encodeState s.elements = s := by
  have hlt : ∀ i (hi : i < SPONGE_SIZE), num s[i] < fieldModulus := fun i hi =>
    h _ (Vector.mem_toList_iff.mpr (Vector.getElem_mem hi))
  ext i hi : 1
  match i, hi with
  | 0, hi => exact encode_decode (hlt 0 hi)
  | 1, hi => exact encode_decode (hlt 1 hi)
  | 2, hi => exact encode_decode (hlt 2 hi)

theorem encodeState_canonical (x : Fin 3 → Fp) : (encodeState x).Canonical := by
  have hlt (a : Fp) : num (encode a) < fieldModulus := by
    rw [num_encode num_FIELD_MODULUS]; exact ZMod.val_lt a
  intro a ha
  have hmem : a ∈ [encode (x 0), encode (x 1), encode (x 2)] := ha
  simp only [List.mem_cons, List.not_mem_nil, or_false] at hmem
  rcases hmem with rfl | rfl | rfl <;> exact hlt _

theorem encodeState_inj {x y : Fin 3 → Fp} (h : encodeState x = encodeState y) : x = y := by
  have h' : [encode (x 0), encode (x 1), encode (x 2)] = [encode (y 0), encode (y 1), encode (y 2)] :=
    congrArg Vector.toList h
  simp only [List.cons.injEq, encode_inj_iff, and_true] at h'
  obtain ⟨h0, h1, h2⟩ := h'
  funext i
  match i with
  | 0 => exact h0
  | 1 => exact h1
  | 2 => exact h2

/-! ## The permutation over the field -/

/-- The keys of a round. -/
def roundKey (r : Nat) : Fin 3 → Fp :=
  (round_keys.toList.getD r (Vector.replicate SPONGE_SIZE FIELD_ZERO)).elements

def mds : Matrix (Fin 3) (Fin 3) Fp :=
  ![mds_matrix[0].elements, mds_matrix[1].elements, mds_matrix[2].elements]

/-- Add the keys, raise to the fifth power, mix. -/
def roundOf (x : Fin 3 → Fp) (r : Nat) : Fin 3 → Fp := mds.mulVec fun i => (x i + roundKey r i) ^ 5

def permuted (x : Fin 3 → Fp) : Fin 3 → Fp :=
  (List.range FULL_ROUNDS).foldl roundOf x + roundKey (ROUNDS - 1)

/-- Add to the first two elements and permute; an odd element goes to the first. -/
def absorbed (perm : (Fin 3 → Fp) → Fin 3 → Fp) : List Fp → (Fin 3 → Fp) → Fin 3 → Fp
  | [], x => x
  | [a], x => perm (x + ![a, 0, 0])
  | a :: b :: l, x => absorbed perm l (perm (x + ![a, b, 0]))

section Triple

variable {α : Type} (a b c v : α)

theorem load_zero : load (triple a b c).toList 0 = .ok a := rfl
theorem load_one : load (triple a b c).toList 1 = .ok b := rfl
theorem load_two : load (triple a b c).toList 2 = .ok c := rfl
theorem store_zero : store (triple a b c) 0 v = .ok (triple v b c) := rfl
theorem store_one : store (triple a b c) 1 v = .ok (triple a v c) := rfl
theorem store_two : store (triple a b c) 2 v = .ok (triple a b v) := rfl

theorem range_SPONGE_SIZE : List.range SPONGE_SIZE = [0, 1, 2] := rfl

end Triple

theorem load_round_keys {r : Nat} (hr : r < ROUNDS) :
    load round_keys.toList r = .ok (encodeState (roundKey r)) := by
  have hlen : r < round_keys.toList.length := by simpa using hr
  have hmem : round_keys.toList[r] ∈ round_keys.toList := List.getElem_mem hlen
  rw [load_eq _ _ hlen, roundKey, List.getD_eq_getElem _ _ hlen,
    encodeState_elements (round_keys_canonical _ hmem)]

theorem mds_matrix_eq :
    mds_matrix = triple (encodeState (mds 0)) (encodeState (mds 1)) (encodeState (mds 2)) := by
  have hrow : ∀ i (hi : i < SPONGE_SIZE), encodeState mds_matrix[i].elements = mds_matrix[i] :=
    fun i hi => encodeState_elements
      (mds_matrix_canonical _ (Vector.mem_toList_iff.mpr (Vector.getElem_mem hi)))
  ext i hi : 1
  match i, hi with
  | 0, hi => exact (hrow 0 hi).symm
  | 1, hi => exact (hrow 1 hi).symm
  | 2, hi => exact (hrow 2 hi).symm

section Encoded

variable {cx : Cx} (h : cx.Exact)

include h

theorem ark_encode (x : Fin 3 → Fp) {r : Nat} (hr : r < ROUNDS) :
    ark cx (encodeState x) r = .ok (encodeState (x + roundKey r)) := by
  rw [ark, range_SPONGE_SIZE]
  simp only [List.foldlM_cons, List.foldlM_nil, load_round_keys hr, encodeState, load_zero, load_one,
    load_two, store_zero, store_one, store_two, ok_bind, field_add_encode h, pure_eq_ok,
    Pi.add_apply]

theorem sbox_encode (x : Fp) : sbox cx (encode x) = .ok (encode (x ^ 5)) := by
  rw [sbox, field_pow_encode h, show num FIELD_FIVE = 5 from num_ofNum (by norm_num)]

theorem sboxes_encode (x : Fin 3 → Fp) :
    sboxes cx (encodeState x) = .ok (encodeState fun i => x i ^ 5) := by
  rw [sboxes, range_SPONGE_SIZE]
  simp only [List.foldlM_cons, List.foldlM_nil, encodeState, load_zero, load_one, load_two,
    store_zero, store_one, store_two, ok_bind, sbox_encode h, pure_eq_ok]

/-- The product is built beside the state, so no sum sees a new element. -/
theorem matrix_mul_encode (x : Fin 3 → Fp) :
    matrix_mul cx (encodeState x) mds_matrix = .ok (encodeState (mds.mulVec x)) := by
  have hdot : ∀ i, mds.mulVec x i = 0 + x 0 * mds i 0 + x 1 * mds i 1 + x 2 * mds i 2 := fun i => by
    rw [Matrix.mulVec, dotProduct, Fin.sum_univ_three]; ring
  have hzero : (Vector.replicate SPONGE_SIZE FIELD_ZERO : State) =
      triple (encode (0 : Fp)) (encode (0 : Fp)) (encode (0 : Fp)) := by rw [FIELD_ZERO_eq]; rfl
  rw [matrix_mul, range_SPONGE_SIZE, mds_matrix_eq, hzero]
  simp only [List.foldlM_cons, List.foldlM_nil, encodeState, load_zero, load_one,
    load_two, store_zero, store_one, store_two, ok_bind, field_add_encode h, field_mul_encode h,
    pure_eq_ok, hdot]

theorem fullRound_encode (x : Fin 3 → Fp) {r : Nat} (hr : r < ROUNDS) :
    fullRound cx (encodeState x) r = .ok (encodeState (roundOf x r)) := by
  simp only [fullRound, ark_encode h x hr, sboxes_encode h, matrix_mul_encode h, ok_bind]
  rfl

theorem poseidon_permutation_encode (x : Fin 3 → Fp) :
    poseidon_permutation cx (encodeState x) = .ok (encodeState (permuted x)) := by
  -- one round after the other
  have hrounds : ∀ (l : List Nat) (x : Fin 3 → Fp), (∀ r ∈ l, r < ROUNDS) →
      l.foldlM (fullRound cx) (encodeState x) = .ok (encodeState (l.foldl roundOf x)) := by
    intro l
    induction l with
    | nil => intro x _; rfl
    | cons r l ih =>
      intro x hl
      rw [List.foldlM_cons, fullRound_encode h x (hl r (.head _)), ok_bind,
        ih _ fun r' hr' => hl r' (.tail _ hr'), List.foldl_cons]
  have hlt : ∀ r ∈ List.range FULL_ROUNDS, r < ROUNDS := fun r hr =>
    (List.mem_range.mp hr).trans (by decide)
  rw [poseidon_permutation, hrounds _ x hlt, ok_bind, ark_encode h _ (by decide)]
  rfl

end Encoded

/-! ## The update -/

section Update

variable (cx : Cx)

theorem absorb_zero (a b c v : Field) (l : List Field) :
    absorb cx (triple a b c) 0 (v :: l) 0 = (field_add cx a v >>= fun w => .ok (triple w b c)) := rfl

theorem absorb_one (a b c u v : Field) (l : List Field) :
    absorb cx (triple a b c) 1 (u :: v :: l) 1 =
      (field_add cx b v >>= fun w => .ok (triple a w c)) := rfl

theorem poseidon_update_nil (s : State) : poseidon_update cx s [] 0 = .ok s := rfl

theorem poseidon_update_singleton (s : State) (a : Field) :
    poseidon_update cx s [a] 1 = (absorb cx s 0 [a] 0 >>= poseidon_permutation cx) := rfl

/-- The first pair, and then the rest of the list. -/
theorem poseidon_update_cons_cons (s : State) (a b : Field) (l : List Field) :
    poseidon_update cx s (a :: b :: l) (a :: b :: l).length = (do
      let s ← absorb cx s 0 (a :: b :: l) 0
      let s ← absorb cx s 1 (a :: b :: l) 1
      let s ← poseidon_permutation cx s
      poseidon_update cx s l l.length) := by
  have hpairs : (a :: b :: l).length / 2 = l.length / 2 + 1 := by
    rw [List.length_cons, List.length_cons]; omega
  have hodd : 2 * (l.length / 2) + 2 < (a :: b :: l).length ↔ 2 * (l.length / 2) < l.length := by
    rw [List.length_cons, List.length_cons]; omega
  have hshift : ∀ s i j, absorb cx s i (a :: b :: l) (j + 2) = absorb cx s i l j := fun _ _ _ => rfl
  have htwo : ∀ i, 2 * (i + 1) = 2 * i + 2 := fun i => by ring
  have hthree : ∀ i, 2 * i + 2 + 1 = 2 * i + 1 + 2 := fun i => rfl
  simp only [poseidon_update, hpairs, hodd, List.range_succ_eq_map, List.foldlM_cons, List.foldlM_map,
    htwo, hthree, hshift, bind_assoc, Nat.mul_zero, Nat.zero_add]

end Update

section Encoded

variable {cx : Cx} (h : cx.Exact)

include h

theorem field_add_decode (x : Fp) {a : Field} (ha : num a < fieldModulus) :
    field_add cx (encode x) a = .ok (encode (x + decode fieldModulus a)) := by
  conv_lhs => rw [← encode_decode ha]
  exact field_add_encode h _ _

theorem absorb_zero_encode (x : Fin 3 → Fp) {a : Field} (ha : num a < fieldModulus)
    (l : List Field) : absorb cx (encodeState x) 0 (a :: l) 0 =
      .ok (encodeState (x + ![decode fieldModulus a, 0, 0])) := by
  rw [encodeState, absorb_zero, field_add_decode h _ ha]
  simp [encodeState]

theorem absorb_one_encode (x : Fin 3 → Fp) {b : Field} (hb : num b < fieldModulus) (a : Field)
    (l : List Field) : absorb cx (encodeState x) 1 (a :: b :: l) 1 =
      .ok (encodeState (x + ![0, decode fieldModulus b, 0])) := by
  rw [encodeState, absorb_one, field_add_decode h _ hb]
  simp [encodeState]

theorem poseidon_update_encode : ∀ (l : List Field) (x : Fin 3 → Fp),
    (∀ a ∈ l, num a < fieldModulus) → poseidon_update cx (encodeState x) l l.length =
      .ok (encodeState (absorbed permuted (l.map (decode fieldModulus)) x))
  | [], x, _ => poseidon_update_nil cx _
  | [a], x, hl => by
    rw [List.length_singleton, poseidon_update_singleton, absorb_zero_encode h x (hl a (by simp)),
      ok_bind, poseidon_permutation_encode h, List.map_singleton, absorbed]
  | a :: b :: l, x, hl => by
    have hpair : x + ![decode fieldModulus a, 0, 0] + ![0, decode fieldModulus b, 0] =
        x + ![decode fieldModulus a, decode fieldModulus b, 0] := by
      rw [add_assoc]; simp
    rw [poseidon_update_cons_cons, absorb_zero_encode h x (hl a (by simp)), ok_bind,
      absorb_one_encode h _ (hl b (by simp)), ok_bind, poseidon_permutation_encode h, ok_bind, hpair,
      List.map_cons, List.map_cons, absorbed]
    exact poseidon_update_encode l _ fun c hc => hl c (by simp [hc])

end Encoded

/-! ## The digest -/

/-- On the two networks the sponge starts from constants. -/
theorem poseidon_init_encode (pos : State) {network_id : UInt8}
    (hid : network_id = TESTNET_ID ∨ network_id = MAINNET_ID) :
    ∃ x, poseidon_init pos network_id = encodeState x := by
  rcases hid with rfl | rfl
  · exact ⟨_, (encodeState_elements iv_canonical.1).symm⟩
  · exact ⟨_, (encodeState_elements iv_canonical.2).symm⟩

theorem poseidon_hash_encode {cx : Cx} (h : cx.Exact) (pos : State) {network_id : UInt8}
    (hid : network_id = TESTNET_ID ∨ network_id = MAINNET_ID) {l : List Field}
    (hl : ∀ a ∈ l, num a < fieldModulus) :
    ∃ x : Fp, poseidon_hash cx pos network_id l = .ok (encode x) := by
  obtain ⟨x, hx⟩ := poseidon_init_encode pos hid
  refine ⟨absorbed permuted (l.map (decode fieldModulus)) x 0, ?_⟩
  simp only [poseidon_hash, hx, poseidon_update_encode h l x hl, ok_bind]
  rfl

/-- The state a network starts from. -/
def initial (network_id : UInt8) : Fin 3 → Fp :=
  if network_id = TESTNET_ID then TESTNET_IV.elements else MAINNET_IV.elements

/-- Poseidon over the field. -/
def sponge (network_id : UInt8) (l : List Fp) : Fp := absorbed permuted l (initial network_id) 0

theorem poseidon_init_initial (pos : State) {network_id : UInt8}
    (hid : network_id = TESTNET_ID ∨ network_id = MAINNET_ID) :
    poseidon_init pos network_id = encodeState (initial network_id) := by
  rcases hid with rfl | rfl
  · exact (encodeState_elements iv_canonical.1).symm
  · exact (encodeState_elements iv_canonical.2).symm

/-- What is in the uninitialised state does not matter. -/
theorem poseidon_hash_sponge {cx : Cx} (h : cx.Exact) (pos : State) {network_id : UInt8}
    (hid : network_id = TESTNET_ID ∨ network_id = MAINNET_ID) {l : List Field}
    (hl : ∀ a ∈ l, num a < fieldModulus) :
    poseidon_hash cx pos network_id l =
      .ok (encode (sponge network_id (l.map (decode fieldModulus)))) := by
  rw [poseidon_hash, poseidon_init_initial pos hid, poseidon_update_encode h l _ hl]
  rfl

end MinaLedger
