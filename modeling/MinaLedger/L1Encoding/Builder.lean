import MinaLedger.L1Encoding.ROInput

/-!
# Runs of the builder

Any sequence of `roinput_add_*` calls on one `ROInput`, from
`roinput_create` on. What a builder holds is a list of fields and a list of bits
(`Content`); a call has an item (`Call.fields`, `Call.bits`) that goes in whole or not at
all (`Content.put`), and a call without room leaves even the unused part of the arrays
alone.

Results:
* `Call.run_room`, `Call.run_full`: what one call does, with room and without.
* `append_only_builder`: so every sequence of calls stays inside the arrays and builds
  what `Content.put` says.
-/
namespace MinaLedger
open Lib.Radix Lib.BitString

variable {fc bc : Nat}

namespace ROInput

/-- mirrors src/src/random_oracle_input.h:24-29 -/
inductive Call where
  | add_field (a : Field)
  | add_scalar (a : Scalar)
  | add_bit (b : Bool)
  | add_bytes (bytes : List UInt8)
  | add_uint32 (x : UInt32)
  | add_uint64 (x : UInt64)

namespace Call

def run (input : ROInput fc bc) : Call → Exec (ROInput fc bc)
  | add_field a => roinput_add_field input a
  | add_scalar a => roinput_add_scalar input a
  | add_bit b => roinput_add_bit input b
  | add_bytes bytes => roinput_add_bytes input bytes bytes.length
  | add_uint32 x => roinput_add_uint32 input x
  | add_uint64 x => roinput_add_uint64 input x

/-- The field of the item, if it is one. -/
def fields : Call → List Field
  | add_field a => [a]
  | _ => []

/-- The bits of the item, in the order they are read. -/
def bits : Call → List Bool
  | add_field _ => []
  | add_scalar a => bitsLE 255 (num a)
  | add_bit b => [b]
  | add_bytes bytes => bytes.flatMap fun b => bitsLE 8 b.toNat
  | add_uint32 x => bitsLE 32 x.toNat
  | add_uint64 x => bitsLE 64 x.toNat

/-- Byte strings whose bits a `size_t` counts with room to spare. -/
def Short : Call → Prop
  | add_bytes bytes => bytes.length < 2 ^ 28
  | _ => True

end Call

/-- There is room for the whole item. -/
def Room (input : ROInput fc bc) (c : Call) : Prop :=
  input.fields_len + c.fields.length ≤ fc ∧ input.bits_len + c.bits.length ≤ 8 * bc

/-! ## One call -/

section Step

variable {input : ROInput fc bc}

theorem Call.run_room (hwf : input.WF) (c : Call) (hroom : input.Room c) :
    ∃ r, c.run input = .ok r ∧ Adds input r c.fields c.bits := by
  obtain ⟨hf, hb⟩ := hroom
  cases c with
  | add_field a => exact roinput_add_field_appends hwf a hf
  | add_scalar a => exact roinput_add_scalar_appends hwf a (by simpa [Call.bits] using hb)
  | add_bit b => exact roinput_add_bit_appends hwf b hb
  | add_bytes bytes =>
    rw [Call.bits, flatMap_bitsLE] at hb ⊢
    exact roinput_add_bytes_appends hwf rfl (by simpa using hb)
  | add_uint32 x => exact roinput_add_uint32_appends hwf x (by simpa [Call.bits] using hb)
  | add_uint64 x => exact roinput_add_uint64_appends hwf x (by simpa [Call.bits] using hb)

/-- The room test of the byte strings, whose length is counted in bits first. -/
theorem roinput_add_bytes_full (hwf : input.WF) (bytes : List UInt8) {len : Nat}
    (hlen : len < 2 ^ 28) (hfull : 8 * bc < input.bits_len + 8 * len) :
    roinput_add_bytes input bytes len = .ok input := by
  have hle := hwf.bits_len_le
  have hrem : input.bitsRemaining < usize (8 * len) := by
    rw [hwf.bitsRemaining_eq, usize_eq (by omega)]; omega
  rw [roinput_add_bytes, if_pos hrem]; rfl

theorem Call.run_full (hwf : input.WF) (c : Call) (hshort : c.Short) (hfull : ¬input.Room c) :
    c.run input = .ok input := by
  obtain ⟨hfle, hble, -, -⟩ := id hwf
  have hrem := hwf.bitsRemaining_eq
  cases c with
  | add_field a =>
    have hlt : input.fieldsRemaining < 1 := by
      rw [fieldsRemaining_eq hwf.fields_len_le hwf.fc_lt]
      simp only [Room, Call.fields, Call.bits, List.length_singleton, List.length_nil] at hfull
      omega
    rw [Call.run, roinput_add_field, if_pos hlt]; rfl
  | add_scalar a =>
    have hlt : input.bitsRemaining < FIELD_BITS := by
      simp only [Room, Call.fields, Call.bits, List.length_nil, length_bitsLE] at hfull
      unfold FIELD_BITS
      omega
    simp only [Call.run, roinput_add_scalar, if_pos hlt, pure_eq_ok]
  | add_bit b =>
    have hlt : input.bitsRemaining < 1 := by
      simp only [Room, Call.fields, Call.bits, List.length_nil, List.length_singleton] at hfull
      omega
    rw [Call.run, roinput_add_bit, if_pos hlt]; rfl
  | add_bytes bytes =>
    refine roinput_add_bytes_full hwf bytes hshort ?_
    simp only [Room, Call.fields, Call.bits, List.length_nil, flatMap_bitsLE, length_bitsLE] at hfull
    omega
  | add_uint32 x =>
    rw [Call.run, roinput_add_uint32]
    refine roinput_add_bytes_full hwf _ (by norm_num) ?_
    simp only [Room, Call.fields, Call.bits, List.length_nil, length_bitsLE] at hfull
    omega
  | add_uint64 x =>
    rw [Call.run, roinput_add_uint64]
    refine roinput_add_bytes_full hwf _ (by norm_num) ?_
    simp only [Room, Call.fields, Call.bits, List.length_nil, length_bitsLE] at hfull
    omega

end Step

/-! ## What a builder holds -/

structure Content where
  fields : List Field
  bits : List Bool

/-- The whole item, or nothing. -/
def Content.put (fc bc : Nat) (s : Content) (c : Call) : Content :=
  if s.fields.length + c.fields.length ≤ fc ∧ s.bits.length + c.bits.length ≤ 8 * bc then
    ⟨s.fields ++ c.fields, s.bits ++ c.bits⟩
  else s

def content (input : ROInput fc bc) : Content := ⟨input.fieldList, input.bitString⟩

theorem content_put {input : ROInput fc bc} (hwf : input.WF) (c : Call) :
    (input.Room c → input.content.put fc bc c =
      ⟨input.fieldList ++ c.fields, input.bitString ++ c.bits⟩) ∧
    (¬input.Room c → input.content.put fc bc c = input.content) := by
  have hf : input.content.fields.length = input.fields_len := length_fieldList hwf.within
  have hb : input.content.bits.length = input.bits_len := length_bitString input
  rw [Content.put, hf, hb]
  exact ⟨fun h => if_pos h, fun h => if_neg h⟩

/-- A call refines `Content.put`. -/
theorem Call.run_spec {input : ROInput fc bc} (hwf : input.WF) (c : Call) (hshort : c.Short) :
    ∃ r, c.run input = .ok r ∧ r.WF ∧ r.content = input.content.put fc bc c := by
  obtain ⟨hput, hsame⟩ := content_put hwf c
  by_cases hroom : input.Room c
  · obtain ⟨r, hr, hadds⟩ := c.run_room hwf hroom
    refine ⟨r, hr, hadds.wf, ?_⟩
    rw [hput hroom, content, hadds.fields, hadds.bits]
  · exact ⟨input, c.run_full hwf hshort hroom, hwf, (hsame hroom).symm⟩

/-! ## Sequences of calls -/

def runCalls (calls : List Call) (input : ROInput fc bc) : Exec (ROInput fc bc) :=
  calls.foldlM (fun input c => c.run input) input

theorem runCalls_spec {input : ROInput fc bc} (hwf : input.WF) {calls : List Call}
    (hshort : ∀ c ∈ calls, c.Short) :
    ∃ r, runCalls calls input = .ok r ∧ r.WF ∧
      r.content = calls.foldl (Content.put fc bc) input.content := by
  induction calls generalizing input with
  | nil => exact ⟨input, rfl, hwf, rfl⟩
  | cons c calls ih =>
    obtain ⟨a, ha, hwfa, hcontent⟩ := c.run_spec hwf (hshort c List.mem_cons_self)
    obtain ⟨r, hr, hwfr, hrest⟩ := ih hwfa fun c' h => hshort c' (List.mem_cons_of_mem c h)
    refine ⟨r, ?_, hwfr, ?_⟩
    · rw [runCalls, List.foldlM_cons, ha, ok_bind]
      exact hr
    · rw [hrest, hcontent, List.foldl_cons]

/-- From an empty builder on. -/
theorem runCalls_empty (hfc : fc < 2 ^ 28) (hbc : bc < 2 ^ 28) {start : ROInput fc bc}
    (hfields : start.fields_len = 0) (hbits : start.bits_len = 0) {calls : List Call}
    (hshort : ∀ c ∈ calls, c.Short) :
    ∃ r, runCalls calls start = .ok r ∧ r.WF ∧
      r.content = calls.foldl (Content.put fc bc) ⟨[], []⟩ := by
  have hwf : start.WF := ⟨by omega, by omega, hfc, hbc⟩
  have hempty : start.content = ⟨[], []⟩ := by
    simp [content, fieldList, bitString, bitList, hfields, hbits, bitsLE]
  rw [← hempty]
  exact runCalls_spec hwf hshort

/-- Every sequence of calls on an empty builder stays inside its arrays and appends the
items that fit; and what is reached that way takes one more item whole, after the earlier
ones, or, exactly without room for it, stays as it is. -/
theorem append_only_builder (hfc : fc < 2 ^ 28) (hbc : bc < 2 ^ 28) {start : ROInput fc bc}
    (hfields : start.fields_len = 0) (hbits : start.bits_len = 0) {calls : List Call}
    (hshort : ∀ c ∈ calls, c.Short) :
    ∃ r, runCalls calls start = .ok r ∧ r.fields_len ≤ fc ∧ r.bits_len ≤ 8 * bc ∧
      r.content = calls.foldl (Content.put fc bc) ⟨[], []⟩ ∧
      ∀ c : Call, c.Short → ∃ r', c.run r = .ok r' ∧
        (r.Room c → r'.fieldList = r.fieldList ++ c.fields ∧
          r'.bitString = r.bitString ++ c.bits ∧
          r'.fields_len = r.fields_len + c.fields.length ∧
          r'.bits_len = r.bits_len + c.bits.length) ∧
        (¬r.Room c → r' = r) := by
  obtain ⟨r, hr, hwfr, hcontent⟩ := runCalls_empty hfc hbc hfields hbits hshort
  refine ⟨r, hr, hwfr.fields_len_le, hwfr.bits_len_le, hcontent, fun c hc => ?_⟩
  by_cases hroom : r.Room c
  · obtain ⟨r', hr', hadds⟩ := c.run_room hwfr hroom
    exact ⟨r', hr', fun _ => ⟨hadds.fields, hadds.bits, hadds.fields_len hwfr, hadds.bits_len⟩,
      fun hfull => absurd hroom hfull⟩
  · exact ⟨r, c.run_full hwfr hc hroom, fun h => absurd h hroom, fun _ => rfl⟩

/-- One field and one byte of room: the second field and the last bit do not fit. -/
theorem append_only_builder_sample :
    ∃ r : ROInput 1 1, runCalls [.add_field (ofNum 7), .add_bytes [5], .add_field (ofNum 8),
        .add_bit true] ⟨#v[ofNum 0], #v[255], 0, 0⟩ = .ok r ∧
      r.fields_len ≤ 1 ∧ r.bits_len ≤ 8 ∧ r.content =
        ⟨[ofNum 7], [true, false, true, false, false, false, false, false]⟩ := by
  obtain ⟨r, hr, hf, hb, hcontent, -⟩ := @append_only_builder 1 1 (by norm_num) (by norm_num)
    ⟨#v[ofNum 0], #v[255], 0, 0⟩ rfl rfl
    [.add_field (ofNum 7), .add_bytes [5], .add_field (ofNum 8), .add_bit true]
    (by simp [Call.Short])
  exact ⟨r, hr, hf, hb, hcontent.trans rfl⟩

end ROInput

end MinaLedger
