import MinaLedger.L1Encoding.NoncePreimage
import MinaLedger.L2Crypto.Sign
import MinaLedger.Lib.Memory

/-!
# The byte buffers of one signature

`sign` once more, with the local byte buffers of src/src/crypto.c:594-684 and
src/src/random_oracle_input.c:170-202 as a memory: `derive_msg` of `message_derive`,
`input_bits` of `roinput_derive_message`, `k` and `tmp` of `sign`. An exception leaves
them as they are and `FINALLY` runs on every way out.

Results:
* `sign_mem_refines`: the outcome is that of `sign`.
* `sign_mem_left`: what the four buffers hold when the call has returned.
-/
namespace MinaLedger
open Pasta Lib.Memory Lib.Radix Lib.BitString

variable {fc bc : Nat}

/-- The local byte buffers of one call of `sign`. -/
@[ext] structure Buffers (bc : Nat) where
  derive_msg : Vector UInt8 268
  input_bits : Vector UInt8 (bc + SCALAR_BYTES + 1)
  k : Scalar
  tmp : Scalar

/-- What the buffers happen to hold before. -/
def Buffers.fresh (st : Nat → Stale) : Buffers bc :=
  ⟨(st 2).array _, (st 0).array _, (st 3).array _, (st 4).array _⟩

abbrev Mem (bc : Nat) := Prog (Buffers bc) Fault

/-- `explicit_bzero(buf, sizeof(buf))`. -/
def zeros (n : Nat) : Vector UInt8 n := Vector.replicate n 0

/-! ## The functions -/

/-- A call that writes to `input`, whose bits are `input_bits`. -/
def onInput (x : Exec (ROInput (fc + 2) (bc + SCALAR_BYTES + 1))) :
    Mem bc (ROInput (fc + 2) (bc + SCALAR_BYTES + 1)) := do
  let input ← call x
  writeMem fun m => { m with input_bits := input.bits }
  return input

/-- mirrors src/src/random_oracle_input.c:170-202, with `out` the `derive_msg` of the caller -/
def roinput_derive_message_mem (st : Stale) (len : Nat) (kp : Keypair) (msg : ROInput fc bc)
    (network_id : UInt8) : Mem bc Int := do
  let m ← readMem
  let input : ROInput (fc + 2) (bc + SCALAR_BYTES + 1) := ⟨st.fieldArray _, m.input_bits, 0, 0⟩
  if msg.fields_len > fc + 2 then
    return -1
  else if msg.bits_len > usize ((bc + SCALAR_BYTES + 1) * 8) then
    return -1
  else
    let input ← onInput (input.copy msg)
    let input ← onInput (roinput_add_field input kp.pub.x)
    let input ← onInput (roinput_add_field input kp.pub.y)
    let input ← onInput (roinput_add_scalar input kp.priv) -- Secret is now on stack!
    let input ← onInput (roinput_add_bytes input [network_id] 1)
    let input_size_in_bytes := usize (input.bits_len + FIELD_BITS * input.fields_len + 7) / 8
    let m ← readMem
    let out ← call (if input_size_in_bytes ≤ len then roinput_to_bytes m.derive_msg input
      else pure m.derive_msg)
    writeMem fun m => { m with derive_msg := out }
    -- Clear privkey material
    writeMem fun m => { m with input_bits := zeros _ }
    return if input_size_in_bytes > len then -1 else cint input_size_in_bytes

section Functions

variable (cx : Cx) (blake2b : List UInt8 → Vector UInt8 32) (poseidon : UInt8 → List Field → Exec Field)

/-- mirrors src/src/crypto.c:594-620, with `out` the `k` of the caller -/
def message_derive_mem (st : Stale) (kp : Keypair) (input : ROInput fc bc) (network_id : UInt8) :
    Mem bc Bool := do
  writeMem fun m => { m with derive_msg := zeros 268 }
  let derive_len ← roinput_derive_message_mem st 268 kp input network_id
  if derive_len < 0 then
    return false
  else
    -- blake2b hash
    let m ← readMem
    let bytes ← call (readBytes m.derive_msg.toList 0 derive_len.toNat)
    writeMem fun m => { m with k := blake2b bytes }
    -- swap from little-endian to big-endian in place, then convert to scalar
    writeMem fun m => { m with k := m.k.reverse }
    writeMem fun m => { m with k := scalar_from_bytes m.k }
    return true

/-- The challenge and the response. mirrors src/src/crypto.c:663-671 -/
def sign_response_mem (st : Nat → Stale) (kp : Keypair) (input : ROInput fc bc) (network_id : UInt8)
    (r : Affine) : Mem bc (Option Signature) := do
  -- e = message_hash(input + kp.pub + r.x)
  let e ← call (message_hash poseidon (st 1) kp.pub r.x input network_id)
  match e with
  | none => call (throwSdk INVALID_PARAMETER)
  | some e => do
    -- s = k + e*sk
    let tmp ← call (scalar_mul cx e kp.priv)
    writeMem fun m => { m with tmp }
    let m ← readMem
    let s ← call (scalar_add cx m.k m.tmp)
    return some ⟨r.x, s⟩

/-- From the nonce on. mirrors src/src/crypto.c:653-671 -/
def sign_rest_mem (st : Nat → Stale) (kp : Keypair) (input : ROInput fc bc) (network_id : UInt8) :
    Mem bc (Option Signature) := do
  -- r = k*g
  let m ← readMem
  let r ← call (affine_scalar_mul cx m.k AFFINE_ONE)
  if field_is_odd r.y then
    -- k = -k
    writeMem fun m => { m with tmp := m.k }
    let m ← readMem
    let k ← call (scalar_negate cx m.tmp)
    writeMem fun m => { m with k }
  sign_response_mem cx poseidon st kp input network_id r

/-- The body of TRY. mirrors src/src/crypto.c:648-671 -/
def sign_try_mem (st : Nat → Stale) (kp : Keypair) (input : ROInput fc bc) (network_id : UInt8) :
    Mem bc (Option Signature) := do
  -- k = message_derive(input.fields + kp.pub + input.bits + kp.priv)
  if ← message_derive_mem blake2b (st 0) kp input network_id then
    sign_rest_mem cx poseidon st kp input network_id
  else call (throwSdk INVALID_PARAMETER)

/-- The outcome and the buffers as CATCH_OTHER and FINALLY leave them.
mirrors src/src/crypto.c:639-684 -/
def sign_mem (st : Nat → Stale) (kp : Keypair) (input : ROInput fc bc) (network_id : UInt8) :
    Exec (Option Signature) × Buffers bc :=
  let (r, m) := sign_try_mem cx blake2b poseidon st kp input network_id (.fresh st)
  -- clear secrets from memory
  (catchOther r (return none), { m with tmp := zeros 32, k := zeros 32 })

end Functions

/-! ## The outcomes -/

/-- `input_bits` behind `roinput_derive_message`: cleared, or never written. -/
def clearedBits (msg : ROInput fc bc) (bits : Vector UInt8 (bc + SCALAR_BYTES + 1)) :
    Vector UInt8 (bc + SCALAR_BYTES + 1) :=
  if msg.fields_len > fc + 2 ∨ msg.bits_len > usize ((bc + SCALAR_BYTES + 1) * 8) then bits
  else zeros _

/-- One write to `input_bits`, and then the rest. -/
theorem onInput_bind {γ δ : Type} {x : Exec (ROInput (fc + 2) (bc + SCALAR_BYTES + 1))}
    {s : Buffers bc} {f : ROInput (fc + 2) (bc + SCALAR_BYTES + 1) → Mem bc γ}
    {g : ROInput (fc + 2) (bc + SCALAR_BYTES + 1) → Exec δ} {Q : γ → Buffers bc → δ → Prop}
    (h : ∀ input, Simulates (f input) { s with input_bits := input.bits } (g input) Q) :
    Simulates (onInput x >>= f) s (x >>= g) Q := by
  cases x with
  | error e => exact .inl ⟨e, s, rfl, rfl⟩
  | ok input => exact h input

theorem roinput_derive_message_mem_simulates (st : Stale) (len : Nat) (kp : Keypair)
    (msg : ROInput fc bc) (network_id : UInt8) {s : Buffers bc} (hs : s.input_bits = st.array _) :
    Simulates (roinput_derive_message_mem st len kp msg network_id) s
      (roinput_derive_message st s.derive_msg len kp msg network_id) fun n s' r =>
        n = r.1 ∧ s' = { s with derive_msg := r.2, input_bits := clearedBits msg s.input_bits } := by
  unfold roinput_derive_message_mem roinput_derive_message
  refine .readMem_bind ?_
  rw [← hs]
  by_cases hfields : msg.fields_len > fc + 2
  · rw [if_pos hfields, if_pos hfields]
    exact .pure ⟨rfl, by rw [clearedBits, if_pos (.inl hfields)]⟩
  · rw [if_neg hfields, if_neg hfields]
    by_cases hbits : msg.bits_len > usize ((bc + SCALAR_BYTES + 1) * 8)
    · rw [if_pos hbits, if_pos hbits]
      exact .pure ⟨rfl, by rw [clearedBits, if_pos (.inr hbits)]⟩
    · rw [if_neg hbits, if_neg hbits]
      have hcleared : clearedBits msg s.input_bits = zeros _ := by
        rw [clearedBits, if_neg (not_or.mpr ⟨hfields, hbits⟩)]
      rw [hcleared]
      -- the five writes to `input_bits`
      refine onInput_bind fun _ => onInput_bind fun _ => onInput_bind fun _ => ?_
      refine onInput_bind fun _ => onInput_bind fun e => ?_
      refine .readMem_bind ?_
      dsimp only
      by_cases hfit : usize (e.bits_len + FIELD_BITS * e.fields_len + 7) / 8 ≤ len
      · rw [if_pos hfit, if_pos hfit]
        refine .call_bind fun out _ => ?_
        exact .writeMem_bind (.writeMem_bind (.pure ⟨rfl, rfl⟩))
      · rw [if_neg hfit, if_neg hfit]
        refine .call_bind fun out _ => ?_
        exact .writeMem_bind (.writeMem_bind (.pure ⟨rfl, rfl⟩))

section Outcomes

variable (cx : Cx) (blake2b : List UInt8 → Vector UInt8 32) (poseidon : UInt8 → List Field → Exec Field)

theorem message_derive_mem_simulates (st : Stale) (kp : Keypair) (input : ROInput fc bc)
    (network_id : UInt8) {s : Buffers bc} (hs : s.input_bits = st.array _) :
    Simulates (message_derive_mem blake2b st kp input network_id) s
      (message_derive blake2b st kp input network_id) fun ok s' o =>
        o = (if ok then some s'.k else none) ∧
        ∃ n, roinput_derive_message st (zeros 268) 268 kp input network_id =
          .ok (n, s'.derive_msg) ∧ s'.input_bits = clearedBits input s.input_bits := by
  unfold message_derive_mem message_derive
  refine .writeMem_bind ?_
  refine (@roinput_derive_message_mem_simulates _ _ st 268 kp input network_id
    { s with derive_msg := zeros 268 } hs).bind fun n _ r hr ⟨hn, hs'⟩ => ?_
  obtain ⟨derive_len, out⟩ := r
  subst hs'
  obtain rfl : n = derive_len := hn
  dsimp only
  by_cases hneg : n < 0
  · rw [if_pos hneg, if_pos hneg]
    exact .pure ⟨rfl, n, hr, rfl⟩
  · rw [if_neg hneg, if_neg hneg]
    refine .readMem_bind (.call_bind fun bytes _ => ?_)
    exact .writeMem_bind (.writeMem_bind (.writeMem_bind (.pure ⟨rfl, n, hr, rfl⟩)))

theorem sign_response_mem_simulates (st : Nat → Stale) (kp : Keypair) (input : ROInput fc bc)
    (network_id : UInt8) (r : Affine) (s : Buffers bc) :
    Simulates (sign_response_mem cx poseidon st kp input network_id r) s (do
      let some e ← message_hash poseidon (st 1) kp.pub r.x input network_id
        | throwSdk INVALID_PARAMETER
      let tmp ← scalar_mul cx e kp.priv
      let s ← scalar_add cx s.k tmp
      return some ⟨r.x, s⟩) fun a _ b => a = b := by
  refine .call_bind fun e _ => ?_
  cases e with
  | none => exact .inl ⟨_, s, rfl, rfl⟩
  | some e =>
    refine .call_bind fun tmp _ => .writeMem_bind (.readMem_bind ?_)
    exact .call_bind fun s _ => .pure rfl

/-- With `k` in memory what is left returns what it returns with `k` passed along. -/
theorem sign_rest_mem_simulates (st : Nat → Stale) (kp : Keypair) (input : ROInput fc bc)
    (network_id : UInt8) (s : Buffers bc) :
    Simulates (sign_rest_mem cx poseidon st kp input network_id) s (do
      let r ← affine_scalar_mul cx s.k AFFINE_ONE
      let k ← (if field_is_odd r.y then scalar_negate cx s.k else pure s.k : Exec Scalar)
      let some e ← message_hash poseidon (st 1) kp.pub r.x input network_id
        | throwSdk INVALID_PARAMETER
      let tmp ← scalar_mul cx e kp.priv
      let s ← scalar_add cx k tmp
      return some ⟨r.x, s⟩) fun a _ b => a = b := by
  refine .readMem_bind (.call_bind fun r _ => ?_)
  by_cases hodd : field_is_odd r.y
  · rw [if_pos hodd, if_pos hodd]
    refine .writeMem_bind (.readMem_bind (.call_bind fun k _ => .writeMem_bind ?_))
    exact sign_response_mem_simulates cx poseidon st kp input network_id r { s with tmp := s.k, k }
  · rw [if_neg hodd, if_neg hodd]
    exact sign_response_mem_simulates cx poseidon st kp input network_id r s

/-- The outcome is that of `sign`. -/
theorem sign_mem_refines (st : Nat → Stale) (kp : Keypair) (input : ROInput fc bc)
    (network_id : UInt8) :
    (sign_mem cx blake2b poseidon st kp input network_id).1 =
      sign cx blake2b poseidon st kp input network_id := by
  show catchOther (sign_try_mem cx blake2b poseidon st kp input network_id (.fresh st)).1 _ = _
  unfold sign
  congr 1
  refine Simulates.fst_eq (R := fun a _ b => a = b) ?_ fun _ _ _ h => h
  refine (message_derive_mem_simulates blake2b (st 0) kp input network_id rfl).bind
    fun ok m o _ ⟨ho, _⟩ => ?_
  subst ho
  cases ok with
  | false => exact .inl ⟨_, m, rfl, rfl⟩
  | true => exact sign_rest_mem_simulates cx poseidon st kp input network_id m

/-! ## What is left -/

theorem sign_response_mem_keeps (st : Nat → Stale) (kp : Keypair) (input : ROInput fc bc)
    (network_id : UInt8) (r : Affine) :
    Keeps (fun m : Buffers bc => (m.derive_msg, m.input_bits))
      (sign_response_mem cx poseidon st kp input network_id r) := by
  refine .bind (.call _) fun e => ?_
  cases e with
  | none => exact .call _
  | some e =>
    refine .bind (.call _) fun tmp => .bind (.writeMem fun _ => rfl) fun _ => ?_
    exact .bind .readMem fun m => .bind (.call _) fun s => .pure _

/-- The buffers of the callees are not touched any more. -/
theorem sign_rest_mem_keeps (st : Nat → Stale) (kp : Keypair) (input : ROInput fc bc)
    (network_id : UInt8) :
    Keeps (fun m : Buffers bc => (m.derive_msg, m.input_bits))
      (sign_rest_mem cx poseidon st kp input network_id) := by
  refine .bind .readMem fun m => .bind (.call _) fun r => .ite ?_ ?_
  · refine .bind (.writeMem fun _ => rfl) fun _ => .bind .readMem fun m => ?_
    refine .bind (.call _) fun k => .bind (.writeMem fun _ => rfl) fun _ => ?_
    exact sign_response_mem_keeps cx poseidon st kp input network_id r
  · exact sign_response_mem_keeps cx poseidon st kp input network_id r

end Outcomes

section Left

variable {msg : ROInput fc bc} (hin : msg.Within) (hfc : FIELD_BYTES * (fc + 2) < 2 ^ 32)
  (hbc : 8 * (bc + SCALAR_BYTES + 1) < 2 ^ 31)

include hin hfc hbc

/-- Into `derive_msg` the call writes the whole message, writes nothing, or overruns it. -/
theorem derive_msg_cases (st : Stale) (kp : Keypair) (network_id : UInt8) :
    (∃ n out, roinput_derive_message st (zeros 268) 268 kp msg network_id = .ok (n, out) ∧
      if deriveLen msg ≤ 268 then Appends (zeros 268) out 0 (deriveBits msg kp network_id)
      else out = zeros 268) ∨
    roinput_derive_message st (zeros 268) 268 kp msg network_id = .error .undefined := by
  have hlen : deriveLen msg = (deriveBitLen msg + 7) / 8 := rfl
  by_cases hroom : deriveLen msg ≤ 268
  · have hsize : usize (deriveBitLen msg + 7) = deriveBitLen msg + 7 := usize_eq (by omega)
    obtain ⟨out, hout, happ⟩ := derive_message_writes hin hfc hbc st kp network_id (zeros 268)
      (show usize (deriveBitLen msg + 7) / 8 ≤ 268 by rwa [hsize]) (by omega)
    exact .inl ⟨_, out, hout, by rwa [if_pos hroom]⟩
  · by_cases hfit : usize (deriveBitLen msg + 7) / 8 ≤ 268
    · exact .inr (derive_message_overruns hin hfc hbc st kp network_id (zeros 268) hfit (by omega))
    · have hout := derive_message_refused hin hfc hbc st kp network_id (zeros 268)
        (Nat.lt_of_not_le hfit)
      exact .inl ⟨_, _, hout, by rw [if_neg hroom]⟩

/-- Nothing up to the nonce throws: a call that stops there does not return. -/
theorem message_derive_error {blake2b : List UInt8 → Vector UInt8 32} {st : Stale} {kp : Keypair}
    {network_id : UInt8} {e : Fault}
    (h : message_derive blake2b st kp msg network_id = .error e) : e = .undefined := by
  have hbody : message_derive blake2b st kp msg network_id =
      (do
        let r ← roinput_derive_message st (zeros 268) 268 kp msg network_id
        if r.1 < 0 then
          return none
        let out := blake2b (← readBytes r.2.toList 0 r.1.toNat)
        return some (scalar_from_bytes out.reverse)) := rfl
  rw [hbody] at h
  rcases derive_msg_cases hin hfc hbc st kp network_id with ⟨n, out, hrun, -⟩ | hrun
  · rw [hrun, ok_bind] at h
    dsimp only at h
    unfold readBytes at h
    split at h
    · cases h
    · split at h
      · cases h
      · exact (Except.error.inj h).symm
  · rw [hrun, error_bind] at h
    exact (Except.error.inj h).symm

/-- A call that has returned has left `derive_msg` as `message_derive` did, and the other
three cleared. -/
theorem sign_mem_left {cx : Cx} {blake2b : List UInt8 → Vector UInt8 32}
    {poseidon : UInt8 → List Field → Exec Field} {st : Nat → Stale} {kp : Keypair}
    {network_id : UInt8} {r : Option Signature}
    (hret : (sign_mem cx blake2b poseidon st kp msg network_id).1 = .ok r) :
    ∃ out, (sign_mem cx blake2b poseidon st kp msg network_id).2 =
        ⟨out, clearedBits msg ((st 0).array _), zeros 32, zeros 32⟩ ∧
      if deriveLen msg ≤ 268 then Appends (zeros 268) out 0 (deriveBits msg kp network_id)
      else out = zeros 268 := by
  have hmem : sign_mem cx blake2b poseidon st kp msg network_id =
      (catchOther (sign_try_mem cx blake2b poseidon st kp msg network_id (.fresh st)).1 (return none),
        { (sign_try_mem cx blake2b poseidon st kp msg network_id (.fresh st)).2 with
          tmp := zeros 32, k := zeros 32 }) := rfl
  rw [hmem] at hret ⊢
  unfold sign_try_mem at hret ⊢
  rcases @message_derive_mem_simulates fc bc blake2b (st 0) kp msg network_id (.fresh st) rfl with
    ⟨e, m, hm, hp⟩ | ⟨ok, m, o, hm, hp, -, n, hrun, hbits⟩
  · obtain rfl := message_derive_error hin hfc hbc hp
    rw [bind_error hm] at hret
    cases hret
  · rw [Lib.Memory.bind_ok hm]
    -- what follows leaves the buffers of the callees
    have hkeep : Keeps (fun m : Buffers bc => (m.derive_msg, m.input_bits))
        (if ok then sign_rest_mem cx poseidon st kp msg network_id
          else call (throwSdk INVALID_PARAMETER)) :=
      .ite (sign_rest_mem_keeps cx poseidon st kp msg network_id) (.call _)
    have hleft := hkeep m
    obtain ⟨hderive, hinput⟩ := Prod.mk.inj hleft
    refine ⟨m.derive_msg, Buffers.ext hderive (hinput.trans hbits) rfl rfl, ?_⟩
    rcases derive_msg_cases hin hfc hbc (st 0) kp network_id with ⟨n', out, hrun', hout⟩ | hrun'
    · obtain ⟨-, rfl⟩ := Prod.mk.inj (Except.ok.inj (hrun'.symm.trans hrun))
      exact hout
    · cases hrun'.symm.trans hrun

end Left

end MinaLedger
