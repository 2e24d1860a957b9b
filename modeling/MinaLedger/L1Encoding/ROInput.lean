import MinaLedger.L1Encoding.PackedBits

/-!
# The random-oracle input builder

src/src/random_oracle_input.c, the `roinput_add_*` half. An `ROInput fc bc`
points at an array of `fc` fields and one of `bc` bytes; its abstract content
is a list of field elements and a list of bits (`fieldList`, `bits`), and
`WF` says that both lengths are within the arrays.

Results: with room for the item each call appends exactly it to the abstract
content and leaves the rest (`roinput_add_field_appends`,
`roinput_add_bit_appends`, `roinput_add_scalar_appends`,
`roinput_add_bytes_appends`, `roinput_add_uint32_appends`,
`roinput_add_uint64_appends`), so a sequence of calls is a sequence of appends.
-/
namespace MinaLedger
open Lib.Radix Lib.BitString

/-- mirrors src/src/random_oracle_input.h:6 -/
def FIELD_BITS : Nat := 255

/-- mirrors src/src/random_oracle_input.h:8-15; the capacities are the types' sizes -/
structure ROInput (fields_capacity bits_capacity : Nat) where
  fields : Vector Field fields_capacity
  bits : Vector UInt8 bits_capacity
  fields_len : Nat
  bits_len : Nat

variable {fc bc : Nat}

/-- `size_t` arithmetic wraps at 2^32. -/
def usize (v : Nat) : Nat := v % 2 ^ 32

namespace ROInput

/-- Fields still free, as the source computes it. -/
def fieldsRemaining (input : ROInput fc bc) : Nat := csize (cint fc - cint input.fields_len)

/-- Bits still free, as the source computes it. -/
def bitsRemaining (input : ROInput fc bc) : Nat := csize (cint bc * 8 - cint input.bits_len)

end ROInput

/-- mirrors src/src/random_oracle_input.c:12-24 -/
def roinput_add_field (input : ROInput fc bc) (a : Field) : Exec (ROInput fc bc) := do
  if input.fieldsRemaining < 1 then
    return input
  -- Mina field elements are little endian
  let fields ← store input.fields input.fields_len a.reverse
  return { input with fields, fields_len := usize (input.fields_len + 1) }

/-- mirrors src/src/random_oracle_input.c:26-36 -/
def roinput_add_bit (input : ROInput fc bc) (b : Bool) : Exec (ROInput fc bc) := do
  if input.bitsRemaining < 1 then
    return input
  let bits ← packed_bit_array_set input.bits input.bits_len b
  return { input with bits, bits_len := usize (input.bits_len + 1) }

/-- mirrors src/src/random_oracle_input.c:40-58 -/
def roinput_add_scalar (input : ROInput fc bc) (a : Scalar) : Exec (ROInput fc bc) := do
  let len := FIELD_BITS
  if input.bitsRemaining < len then
    return input
  let offset := input.bits_len
  let bits ← (List.range len).foldlM (fun bits i => do
    let byte_idx := 32 - i / 8 - 1 -- Mina scalars are little endian
    let bit_idx := i % 8
    let b := (← load a.toList byte_idx).toNat.testBit bit_idx
    packed_bit_array_set bits (offset + i) b) input.bits
  return { input with bits, bits_len := usize (input.bits_len + len) }

/-- The inner loop of `roinput_add_bytes`: one byte, lowest bit first. -/
def addByte (b : UInt8) (s : Vector UInt8 bc × Nat) : Exec (Vector UInt8 bc × Nat) :=
  (List.range 8).foldlM (fun s j => do
    let bits ← packed_bit_array_set s.1 s.2 (b.toNat.testBit j)
    return (bits, s.2 + 1)) s

/-- mirrors src/src/random_oracle_input.c:60-79 -/
def roinput_add_bytes (input : ROInput fc bc) (bytes : List UInt8) (len : Nat) :
    Exec (ROInput fc bc) := do
  if input.bitsRemaining < usize (8 * len) then
    return input
  let s ← (List.range len).foldlM (fun s i => do
    let b ← load bytes i
    addByte b s) (input.bits, input.bits_len)
  return { input with bits := s.1, bits_len := usize (input.bits_len + usize (8 * len)) }

/-- mirrors src/src/random_oracle_input.c:81-91 -/
def roinput_add_uint32 (input : ROInput fc bc) (x : UInt32) : Exec (ROInput fc bc) :=
  let le := (List.range 4).map fun i => UInt8.ofNat (x.toNat >>> (8 * i))
  roinput_add_bytes input le 4

/-- mirrors src/src/random_oracle_input.c:93-103 -/
def roinput_add_uint64 (input : ROInput fc bc) (x : UInt64) : Exec (ROInput fc bc) :=
  let le := (List.range 8).map fun i => UInt8.ofNat (x.toNat >>> (8 * i))
  roinput_add_bytes input le 8

/-! ## The abstract content -/

namespace ROInput

/-- The fields added so far, in big-endian order as they were passed. -/
def fieldList (input : ROInput fc bc) : List Field :=
  (input.fields.toList.take input.fields_len).map Vector.reverse

/-- The bits added so far. -/
def bitString (input : ROInput fc bc) : List Bool := bitList input.bits input.bits_len

/-- The lengths are within the arrays, and the arrays are small enough for `int`. -/
structure WF (input : ROInput fc bc) : Prop where
  fields_len_le : input.fields_len ≤ fc
  bits_len_le : input.bits_len ≤ 8 * bc
  fc_lt : fc < 2 ^ 28
  bc_lt : bc < 2 ^ 28

/-- The lengths are within the arrays, of whatever size. -/
structure Within (input : ROInput fc bc) : Prop where
  fields_len_le : input.fields_len ≤ fc
  bits_len_le : input.bits_len ≤ 8 * bc

theorem WF.within {input : ROInput fc bc} (h : input.WF) : input.Within :=
  ⟨h.fields_len_le, h.bits_len_le⟩

@[simp] theorem length_bitString (input : ROInput fc bc) :
    input.bitString.length = input.bits_len := by simp [bitString, bitList]

theorem length_fieldList {input : ROInput fc bc} (h : input.Within) :
    input.fieldList.length = input.fields_len := by
  simp [fieldList, h.fields_len_le]

theorem fieldsRemaining_eq {input : ROInput fc bc} (h1 : input.fields_len ≤ fc)
    (h3 : fc < 2 ^ 28) : input.fieldsRemaining = fc - input.fields_len := by
  unfold fieldsRemaining
  rw [cint_eq _ (by omega) (by omega), cint_eq _ (by omega) (by omega), ← Int.ofNat_sub h1,
    csize_eq _ (by omega)]

theorem WF.bitsRemaining_eq {input : ROInput fc bc} (h : input.WF) :
    input.bitsRemaining = 8 * bc - input.bits_len := by
  obtain ⟨-, h2, -, h4⟩ := h
  unfold bitsRemaining
  have e : (bc : Int) * 8 - (input.bits_len : Int) = ((8 * bc - input.bits_len : Nat) : Int) := by
    omega
  rw [cint_eq _ (by omega) (by omega), cint_eq _ (by omega) (by omega), e, csize_eq _ (by omega)]

end ROInput

theorem usize_eq {v : Nat} (h : v < 2 ^ 32) : usize v = v := Nat.mod_eq_of_lt h

/-- `r` is `input` with `fs` and `ds` appended. -/
structure Adds (input r : ROInput fc bc) (fs : List Field) (ds : List Bool) : Prop where
  wf : r.WF
  fields : r.fieldList = input.fieldList ++ fs
  bits : r.bitString = input.bitString ++ ds

theorem Adds.trans {a b c : ROInput fc bc} {fs gs : List Field} {ds es : List Bool}
    (h₁ : Adds a b fs ds) (h₂ : Adds b c gs es) : Adds a c (fs ++ gs) (ds ++ es) :=
  ⟨h₂.wf, by rw [h₂.fields, h₁.fields, List.append_assoc],
    by rw [h₂.bits, h₁.bits, List.append_assoc]⟩

theorem Adds.bits_len {input r : ROInput fc bc} {fs : List Field} {ds : List Bool}
    (h : Adds input r fs ds) : r.bits_len = input.bits_len + ds.length := by
  rw [← r.length_bitString, h.bits, List.length_append, input.length_bitString]

theorem Adds.fields_len {input r : ROInput fc bc} {fs : List Field} {ds : List Bool}
    (hwf : input.WF) (h : Adds input r fs ds) : r.fields_len = input.fields_len + fs.length := by
  rw [← ROInput.length_fieldList h.wf.within, h.fields, List.length_append,
    ROInput.length_fieldList hwf.within]

/-! ## Each call appends its item -/

variable {input : ROInput fc bc}

/-- A field goes behind the others; how many bits there are does not matter. -/
theorem roinput_add_field_room (a : Field) (hroom : input.fields_len < fc) (hfc : fc < 2 ^ 28) :
    ∃ r, roinput_add_field input a = .ok r ∧ r.fieldList = input.fieldList ++ [a] ∧
      r.bitString = input.bitString ∧ r.fields_len = input.fields_len + 1 ∧
      r.bits_len = input.bits_len := by
  obtain ⟨fields, hstore, hlist⟩ := store_toList input.fields input.fields_len a.reverse hroom
  have hrem : ¬input.fieldsRemaining < 1 := by
    rw [ROInput.fieldsRemaining_eq hroom.le hfc]; omega
  refine ⟨{ input with fields, fields_len := input.fields_len + 1 }, ?_, ?_, rfl, rfl, rfl⟩
  · rw [roinput_add_field, if_neg hrem, hstore, ok_bind, usize_eq (by omega)]; rfl
  · have hlt : input.fields_len < (fields.toList).length := by simpa using hroom
    have htake : fields.toList.take input.fields_len = input.fields.toList.take input.fields_len := by
      rw [hlist, List.take_set_of_le le_rfl]
    have hget : fields.toList[input.fields_len] = a.reverse := by
      simp [hlist]
    simp only [ROInput.fieldList]
    rw [List.take_succ_eq_append_getElem hlt, List.map_append, htake, hget, List.map_singleton,
      Vector.reverse_reverse]

theorem roinput_add_field_appends (hwf : input.WF) (a : Field) (hroom : input.fields_len < fc) :
    ∃ r, roinput_add_field input a = .ok r ∧ Adds input r [a] [] := by
  obtain ⟨r, hr, hfields, hbits, hfl, hbl⟩ := roinput_add_field_room a hroom hwf.fc_lt
  refine ⟨r, hr, ⟨?_, ?_, hwf.fc_lt, hwf.bc_lt⟩, hfields, by rw [hbits, List.append_nil]⟩
  · rw [hfl]; exact hroom
  · rw [hbl]; exact hwf.bits_len_le

/-- What the four bit-writing calls share: room, the bits written, the new length. -/
theorem adds_bits (hwf : input.WF) {bits : Vector UInt8 bc} {ds : List Bool}
    (hroom : input.bits_len + ds.length ≤ 8 * bc) (happ : Appends input.bits bits input.bits_len ds) :
    Adds input { input with bits, bits_len := input.bits_len + ds.length } [] ds where
  wf := ⟨hwf.fields_len_le, hroom, hwf.fc_lt, hwf.bc_lt⟩
  fields := by simp [ROInput.fieldList]
  bits := happ.head

theorem roinput_add_bit_appends (hwf : input.WF) (b : Bool) (hroom : input.bits_len < 8 * bc) :
    ∃ r, roinput_add_bit input b = .ok r ∧ Adds input r [] [b] := by
  obtain ⟨bits, hset, happ⟩ := set_appends input.bits b hroom
  have hbc := hwf.bc_lt
  have hrem : ¬input.bitsRemaining < 1 := by rw [hwf.bitsRemaining_eq]; omega
  refine ⟨_, ?_, adds_bits hwf (by simpa using hroom) happ⟩
  rw [roinput_add_bit, if_neg hrem, hset, ok_bind, usize_eq (by omega)]; rfl

/-- The bit of a big-endian scalar the loop reads in round `i`. -/
theorem load_scalar_bit (a : Scalar) {i : Nat} (hi : i < 256) :
    (do let v ← load a.toList (32 - i / 8 - 1); return v.toNat.testBit (i % 8) : Exec Bool) =
      .ok ((num a).testBit i) := by
  have h : 32 - i / 8 - 1 < a.toList.length := by simp; omega
  have hr : i / 8 < a.toList.reverse.length := by simp; omega
  rw [load_eq _ _ h, ok_bind, num, ← leVal_reverse, testBit_leVal, List.getD_eq_getElem _ _ hr,
    List.getElem_reverse, pure_eq_ok]
  congr 4
  simp; omega

theorem roinput_add_scalar_appends (hwf : input.WF) (a : Scalar)
    (hroom : input.bits_len + 255 ≤ 8 * bc) :
    ∃ r, roinput_add_scalar input a = .ok r ∧ Adds input r [] (bitsLE 255 (num a)) := by
  obtain ⟨bits, hloop, happ⟩ := setRange_appends input.bits input.bits_len _ (num a).testBit 255
    (fun i hi => load_scalar_bit a (by omega)) hroom
  have hbc := hwf.bc_lt
  have hrem : ¬input.bitsRemaining < 255 := by rw [hwf.bitsRemaining_eq]; omega
  have hadds := adds_bits hwf (by simpa using hroom) happ
  refine ⟨_, ?_, hadds⟩
  simp only [bind_assoc, pure_bind] at hloop
  have hsize : usize (input.bits_len + 255) = input.bits_len + 255 := usize_eq (by omega)
  simp only [roinput_add_scalar, FIELD_BITS, if_neg hrem, hloop, ok_bind, pure_eq_ok, hsize,
    List.length_map, List.length_range]

theorem addByte_appends (a : Vector UInt8 bc) (b : UInt8) {k : Nat} (h : k + 8 ≤ 8 * bc) :
    ∃ r, addByte b (a, k) = .ok (r, k + 8) ∧ Appends a r k (bitsLE 8 b.toNat) := by
  obtain ⟨r, hr, happ⟩ := setCounting_appends a k (fun j => .ok (b.toNat.testBit j))
    b.toNat.testBit 8 (fun _ _ => rfl) h
  exact ⟨r, hr, happ⟩

theorem flatMap_range_getD (l : List UInt8) :
    (List.range l.length).flatMap (fun i => bitsLE 8 (l.getD i 0).toNat) =
      bitsLE (8 * l.length) (leVal l) := by
  have h : (List.range l.length).map (fun i => l.getD i 0) = l :=
    List.ext_getElem (by simp) fun i hi hi' => by simp [hi']
  conv_rhs => rw [← flatMap_bitsLE, ← h]
  rw [List.flatMap_map]

theorem roinput_add_bytes_appends (hwf : input.WF) {bytes : List UInt8} {len : Nat}
    (hlen : bytes.length = len) (hroom : input.bits_len + 8 * len ≤ 8 * bc) :
    ∃ r, roinput_add_bytes input bytes len = .ok r ∧
      Adds input r [] (bitsLE (8 * len) (leVal bytes)) := by
  subst hlen
  have hbc := hwf.bc_lt
  have hmul : usize (8 * bytes.length) = 8 * bytes.length := usize_eq (by omega)
  have hsize : usize (input.bits_len + 8 * bytes.length) = input.bits_len + 8 * bytes.length :=
    usize_eq (by omega)
  have hrem : ¬input.bitsRemaining < 8 * bytes.length := by rw [hwf.bitsRemaining_eq]; omega
  -- every round reads its byte and appends its eight bits
  obtain ⟨bits, hloop, happ⟩ := rounds_append input.bits_len
    (fun s i => do let b ← load bytes i; addByte b s)
    (fun i => bitsLE 8 (bytes.getD i 0).toNat) 8 (fun i => by simp) bytes.length (fun i hi a => by
      obtain ⟨r, hr, happ⟩ := addByte_appends a (bytes.getD i 0) (k := input.bits_len + 8 * i)
        (by omega)
      refine ⟨r, ?_, happ⟩
      rw [load_eq _ _ hi, ok_bind, ← List.getD_eq_getElem _ 0 hi, hr, Nat.add_assoc, Nat.mul_succ])
    input.bits
  rw [flatMap_range_getD] at happ
  have hadds := adds_bits hwf (by simpa using hroom) happ
  refine ⟨_, ?_, hadds⟩
  simp only [roinput_add_bytes, hmul, if_neg hrem, hloop, ok_bind, pure_eq_ok, hsize,
    length_bitsLE]

theorem roinput_add_uint32_appends (hwf : input.WF) (x : UInt32)
    (hroom : input.bits_len + 32 ≤ 8 * bc) :
    ∃ r, roinput_add_uint32 input x = .ok r ∧ Adds input r [] (bitsLE 32 x.toNat) := by
  have h := roinput_add_bytes_appends hwf (length_leBytes 4 x.toNat) (by omega)
  rwa [leVal_leBytes (by have := x.toNat_lt; omega), leBytes_eq_map] at h

theorem roinput_add_uint64_appends (hwf : input.WF) (x : UInt64)
    (hroom : input.bits_len + 64 ≤ 8 * bc) :
    ∃ r, roinput_add_uint64 input x = .ok r ∧ Adds input r [] (bitsLE 64 x.toNat) := by
  have h := roinput_add_bytes_appends hwf (length_leBytes 8 x.toNat) (by omega)
  rwa [leVal_leBytes (by have := x.toNat_lt; omega), leBytes_eq_map] at h

/-! ## Sequences of calls -/

/-- `f` appends `fs` and `ds` to every builder with room for them. -/
def Appender (f : ROInput fc bc → Exec (ROInput fc bc)) (fs : List Field) (ds : List Bool) : Prop :=
  ∀ input : ROInput fc bc, input.WF → input.fields_len + fs.length ≤ fc →
    input.bits_len + ds.length ≤ 8 * bc → ∃ r, f input = .ok r ∧ Adds input r fs ds

theorem Appender.comp {f g : ROInput fc bc → Exec (ROInput fc bc)} {fs gs : List Field}
    {ds es : List Bool} (hf : Appender f fs ds) (hg : Appender g gs es) :
    Appender (fun input => do let input ← f input; g input) (fs ++ gs) (ds ++ es) := by
  intro input hwf hfields hbits
  rw [List.length_append] at hfields hbits
  obtain ⟨a, ha, hadd⟩ := hf input hwf (by omega) (by omega)
  obtain ⟨b, hb, hadd'⟩ := hg a hadd.wf (by rw [hadd.fields_len hwf]; omega)
    (by rw [hadd.bits_len]; omega)
  exact ⟨b, by simp only [ha, ok_bind, hb], hadd.trans hadd'⟩

theorem appender_field (a : Field) :
    Appender (fun input : ROInput fc bc => roinput_add_field input a) [a] [] := fun _ hwf hfields _ =>
  roinput_add_field_appends hwf a hfields

theorem appender_bit (b : Bool) :
    Appender (fun input : ROInput fc bc => roinput_add_bit input b) [] [b] := fun _ hwf _ hbits =>
  roinput_add_bit_appends hwf b hbits

theorem appender_bytes {bytes : List UInt8} {len : Nat} (hlen : bytes.length = len) :
    Appender (fun input : ROInput fc bc => roinput_add_bytes input bytes len) []
      (bitsLE (8 * len) (leVal bytes)) := fun _ hwf _ hbits =>
  roinput_add_bytes_appends hwf hlen (by simpa using hbits)

theorem appender_uint32 (x : UInt32) :
    Appender (fun input : ROInput fc bc => roinput_add_uint32 input x) [] (bitsLE 32 x.toNat) :=
  fun _ hwf _ hbits => roinput_add_uint32_appends hwf x (by simpa using hbits)

theorem appender_uint64 (x : UInt64) :
    Appender (fun input : ROInput fc bc => roinput_add_uint64 input x) [] (bitsLE 64 x.toNat) :=
  fun _ hwf _ hbits => roinput_add_uint64_appends hwf x (by simpa using hbits)

/-- A loop that adds bit `i` of an array in round `i`. -/
theorem appender_bits {len : Nat} (v : Vector Bool len) :
    Appender (fun input : ROInput fc bc => (List.range len).foldlM (fun input i => do
      let b ← load v.toList i
      roinput_add_bit input b) input) [] v.toList := by
  have hk : ∀ k ≤ len, Appender (fun input : ROInput fc bc => (List.range k).foldlM
      (fun input i => do let b ← load v.toList i; roinput_add_bit input b) input) []
      (v.toList.take k) := by
    intro k
    induction k with
    | zero =>
      intro _ input hwf _ _
      exact ⟨input, rfl, hwf, by simp, by simp⟩
    | succ k ih =>
      intro hk
      have hlt : k < v.toList.length := by simp; omega
      have hcomp := (ih (by omega)).comp (appender_bit v.toList[k])
      rw [List.take_succ_eq_append_getElem hlt]
      intro input hwf hfields hbits
      obtain ⟨r, hr, hadd⟩ := hcomp input hwf hfields hbits
      refine ⟨r, ?_, hadd⟩
      rw [← hr, List.range_succ]
      beta_reduce
      rw [List.foldlM_append]
      refine bind_congr fun a => ?_
      rw [List.foldlM_cons, load_eq _ _ hlt, ok_bind]
      exact bind_pure _
  have h := hk len le_rfl
  rwa [List.take_of_length_le (by simp)] at h

end MinaLedger
