import MinaLedger.L3Message.ParseTx

/-!
# The review of a sign request

src/src/sign_tx.c: the screens of a request and `handle_sign_tx`, which parses
it and picks one of sixteen static flows.

Results:
* `ux_sign_tx_flow_eq`: the sixteen flows are one pattern; a screen is missing
  only when its part of the table says so (`ux_sign_tx_flow_inj`).
* `handle_sign_tx_spec`: what is on screen after an accepted request.
-/
namespace MinaLedger
open Lib.Radix

/-- The steps of the flows. mirrors src/src/sign_tx.c:112-230 -/
inductive SignStep where
  | topic
  | network
  | type
  | from_
  | to_
  | amount
  | fee
  | total
  | nonce
  | valid_until
  | memo
  | approve
  | reject
  deriving DecidableEq, Repr

/-- The lines of a step. mirrors src/src/sign_tx.c:112-230 -/
def SignStep.lines (_ui : ui_t) : SignStep → List (List UInt8)
  | .topic => [chars "Sign", chars "Transaction"]
  | .network => [chars "Network", chars "testnet"]
  | .type => [chars "Type", cstr _ui.type.toList]
  | .from_ => [cstr _ui.from_title.toList, cstr _ui.from_.toList]
  | .to_ => [cstr _ui.to_title.toList, cstr _ui.to_.toList]
  | .amount => [chars "Amount", cstr _ui.amount.toList]
  | .fee => [chars "Fee", cstr _ui.fee.toList]
  | .total => [chars "Total", cstr _ui.total.toList]
  | .nonce => [chars "Nonce", cstr _ui.nonce.toList]
  | .valid_until => [chars "Valid until", cstr _ui.valid_until.toList]
  | .memo => [chars "Memo", cstr _ui.memo.toList]
  | .approve => [chars "Approve"]
  | .reject => [chars "Reject"]

/-! ## The sixteen flows -/

/-- mirrors src/src/sign_tx.c:235-246 -/
def ux_sign_tx_flow_testnet_payment_0_0 : List SignStep := [
  .topic, .network, .type, .from_, .to_, .amount, .fee, .total, .nonce, .approve, .reject]

/-- mirrors src/src/sign_tx.c:248-260 -/
def ux_sign_tx_flow_testnet_payment_0_memo : List SignStep := [
  .topic, .network, .type, .from_, .to_, .amount, .fee, .total, .nonce, .memo, .approve, .reject]

/-- mirrors src/src/sign_tx.c:262-274 -/
def ux_sign_tx_flow_testnet_payment_valid_until_0 : List SignStep := [
  .topic, .network, .type, .from_, .to_, .amount, .fee, .total, .nonce, .valid_until, .approve,
  .reject]

/-- mirrors src/src/sign_tx.c:276-289 -/
def ux_sign_tx_flow_testnet_payment_valid_until_memo : List SignStep := [
  .topic, .network, .type, .from_, .to_, .amount, .fee, .total, .nonce, .valid_until, .memo,
  .approve, .reject]

/-- mirrors src/src/sign_tx.c:291-300 -/
def ux_sign_tx_flow_testnet_delegation_0_0 : List SignStep := [
  .topic, .network, .type, .from_, .to_, .fee, .nonce, .approve, .reject]

/-- mirrors src/src/sign_tx.c:302-312 -/
def ux_sign_tx_flow_testnet_delegation_0_memo : List SignStep := [
  .topic, .network, .type, .from_, .to_, .fee, .nonce, .memo, .approve, .reject]

/-- mirrors src/src/sign_tx.c:314-324 -/
def ux_sign_tx_flow_testnet_delegation_valid_until_0 : List SignStep := [
  .topic, .network, .type, .from_, .to_, .fee, .nonce, .valid_until, .approve, .reject]

/-- mirrors src/src/sign_tx.c:326-337 -/
def ux_sign_tx_flow_testnet_delegation_valid_until_memo : List SignStep := [
  .topic, .network, .type, .from_, .to_, .fee, .nonce, .valid_until, .memo, .approve, .reject]

/-- mirrors src/src/sign_tx.c:339-349 -/
def ux_sign_tx_flow_mainnet_payment_0_0 : List SignStep := [
  .topic, .type, .from_, .to_, .amount, .fee, .total, .nonce, .approve, .reject]

/-- mirrors src/src/sign_tx.c:351-362 -/
def ux_sign_tx_flow_mainnet_payment_0_memo : List SignStep := [
  .topic, .type, .from_, .to_, .amount, .fee, .total, .nonce, .memo, .approve, .reject]

/-- mirrors src/src/sign_tx.c:364-375 -/
def ux_sign_tx_flow_mainnet_payment_valid_until_0 : List SignStep := [
  .topic, .type, .from_, .to_, .amount, .fee, .total, .nonce, .valid_until, .approve, .reject]

/-- mirrors src/src/sign_tx.c:377-389 -/
def ux_sign_tx_flow_mainnet_payment_valid_until_memo : List SignStep := [
  .topic, .type, .from_, .to_, .amount, .fee, .total, .nonce, .valid_until, .memo, .approve,
  .reject]

/-- mirrors src/src/sign_tx.c:391-399 -/
def ux_sign_tx_flow_mainnet_delegation_0_0 : List SignStep := [
  .topic, .type, .from_, .to_, .fee, .nonce, .approve, .reject]

/-- mirrors src/src/sign_tx.c:401-410 -/
def ux_sign_tx_flow_mainnet_delegation_0_memo : List SignStep := [
  .topic, .type, .from_, .to_, .fee, .nonce, .memo, .approve, .reject]

/-- mirrors src/src/sign_tx.c:412-421 -/
def ux_sign_tx_flow_mainnet_delegation_valid_until_0 : List SignStep := [
  .topic, .type, .from_, .to_, .fee, .nonce, .valid_until, .approve, .reject]

/-- mirrors src/src/sign_tx.c:423-433 -/
def ux_sign_tx_flow_mainnet_delegation_valid_until_memo : List SignStep := [
  .topic, .type, .from_, .to_, .fee, .nonce, .valid_until, .memo, .approve, .reject]

/-- n: network, t: delegation, v: valid_until, m: memo.
mirrors src/src/sign_tx.c:444-489 -/
def ux_sign_tx_flow (n t v m : Bool) : List SignStep :=
  match n, t, v, m with
  | false, false, false, false => ux_sign_tx_flow_testnet_payment_0_0
  | false, false, false, true => ux_sign_tx_flow_testnet_payment_0_memo
  | false, false, true, false => ux_sign_tx_flow_testnet_payment_valid_until_0
  | false, false, true, true => ux_sign_tx_flow_testnet_payment_valid_until_memo
  | false, true, false, false => ux_sign_tx_flow_testnet_delegation_0_0
  | false, true, false, true => ux_sign_tx_flow_testnet_delegation_0_memo
  | false, true, true, false => ux_sign_tx_flow_testnet_delegation_valid_until_0
  | false, true, true, true => ux_sign_tx_flow_testnet_delegation_valid_until_memo
  | true, false, false, false => ux_sign_tx_flow_mainnet_payment_0_0
  | true, false, false, true => ux_sign_tx_flow_mainnet_payment_0_memo
  | true, false, true, false => ux_sign_tx_flow_mainnet_payment_valid_until_0
  | true, false, true, true => ux_sign_tx_flow_mainnet_payment_valid_until_memo
  | true, true, false, false => ux_sign_tx_flow_mainnet_delegation_0_0
  | true, true, false, true => ux_sign_tx_flow_mainnet_delegation_0_memo
  | true, true, true, false => ux_sign_tx_flow_mainnet_delegation_valid_until_0
  | true, true, true, true => ux_sign_tx_flow_mainnet_delegation_valid_until_memo

/-- One pattern for all sixteen. -/
theorem ux_sign_tx_flow_eq (n t v m : Bool) :
    ux_sign_tx_flow n t v m =
      [SignStep.topic] ++ (if n then [] else [SignStep.network]) ++
      [SignStep.type, SignStep.from_, SignStep.to_] ++ (if t then [] else [SignStep.amount]) ++
      [SignStep.fee] ++ (if t then [] else [SignStep.total]) ++ [SignStep.nonce] ++
      (if v then [SignStep.valid_until] else []) ++ (if m then [SignStep.memo] else []) ++
      [SignStep.approve, SignStep.reject] := by
  cases n <;> cases t <;> cases v <;> cases m <;> rfl

/-- Which screens a flow has. -/
theorem mem_ux_sign_tx_flow (n t v m : Bool) :
    (.network ∈ ux_sign_tx_flow n t v m ↔ n = false) ∧
    (.amount ∈ ux_sign_tx_flow n t v m ↔ t = false) ∧
    (.valid_until ∈ ux_sign_tx_flow n t v m ↔ v = true) ∧
    (.memo ∈ ux_sign_tx_flow n t v m ↔ m = true) := by
  cases n <;> cases t <;> cases v <;> cases m <;> decide

/-- The screens of a request say which of the sixteen flows it is. -/
theorem ux_sign_tx_flow_inj {n t v m n' t' v' m' : Bool}
    (h : ux_sign_tx_flow n t v m = ux_sign_tx_flow n' t' v' m') :
    n = n' ∧ t = t' ∧ v = v' ∧ m = m' := by
  obtain ⟨hn, ht, hv, hm⟩ := mem_ux_sign_tx_flow n t v m
  obtain ⟨hn', ht', hv', hm'⟩ := mem_ux_sign_tx_flow n' t' v' m'
  rw [h] at hn ht hv hm
  refine ⟨?_, ?_, Bool.eq_iff_iff.mpr (hv.symm.trans hv'), Bool.eq_iff_iff.mpr (hm.symm.trans hm')⟩
  · have := hn.symm.trans hn'
    cases n <;> cases n' <;> simp_all
  · have := ht.symm.trans ht'
    cases t <;> cases t' <;> simp_all

/-! ## Handling a request -/

section Handler

variable (sha256 : List UInt8 → Vector UInt8 32)

/-- `_tx`, `_ui` and the flow started; `none` is THROW(INVALID_PARAMETER), which
leaves the two half written. mirrors src/src/sign_tx.c:492-527 -/
def handle_sign_tx (st : Nat → Stale) (dataBuffer : List UInt8) (dataLength : UInt8) (_tx : tx_t)
    (_ui : ui_t) : Exec (Option (List SignStep) × tx_t × ui_t) := do
  let (ok, _tx, _ui) ← parse_tx sha256 st dataBuffer dataLength _tx _ui
  if !ok then
    return (none, _tx, _ui)
  let _ui ←
    if _tx.tag = PAYMENT_TX then do
      let type ← strncpy _ui.type "Payment" 11
      let from_title ← strncpy _ui.from_title "Sender" 10
      let to_title ← strncpy _ui.to_title "Receiver" 9
      pure { _ui with type, from_title, to_title }
    else if _tx.tag = DELEGATION_TX then do
      let type ← strncpy _ui.type "Delegation" 11
      let from_title ← strncpy _ui.from_title "Delegator" 10
      let to_title ← strncpy _ui.to_title "Delegate" 9
      pure { _ui with type, from_title, to_title }
    else pure _ui
  -- select the appropriate UX flow
  let n_idx := _tx.network_id == MAINNET_ID
  let t_idx := _tx.tag == DELEGATION_TX
  let v_idx := _tx.tx.valid_until != 0xffffffff
  let m_idx := (← load _ui.memo.toList 0) != 0
  return (some (ux_sign_tx_flow n_idx t_idx v_idx m_idx), _tx, _ui)

/-- The flow of a parsed request. -/
def flowOf (tx : tx_t) (ui : ui_t) : List SignStep :=
  ux_sign_tx_flow (tx.network_id == MAINNET_ID) (tx.tag == DELEGATION_TX)
    (tx.tx.valid_until != 0xffffffff) (ui.memo.toList.getD 0 0 != 0)

/-- The titles of a parsed request. -/
def titlesOf (tx : tx_t) : List (List UInt8) :=
  if tx.tag = PAYMENT_TX then [padded "Payment" 11, padded "Sender" 10, padded "Receiver" 9]
  else [padded "Delegation" 11, padded "Delegator" 10, padded "Delegate" 9]

/-- What is on screen: the texts and the transaction of the request, the titles
and the flow for them. -/
structure Shown (st : Nat → Stale) (data : List UInt8) (tx : tx_t) (ui : ui_t)
    (flow : List SignStep) : Prop where
  parsed : Parsed st data tx ui
  titles : [ui.type.toList, ui.from_title.toList, ui.to_title.toList] = titlesOf tx
  flow : flow = flowOf tx ui

/-- The titles are not part of the request. -/
theorem Parsed.withTitles {st : Nat → Stale} {data : List UInt8} {tx : tx_t} {ui : ui_t}
    (h : Parsed st data tx ui) (type : Vector UInt8 11) (from_title : Vector UInt8 10)
    (to_title : Vector UInt8 9) :
    Parsed st data tx { ui with type, from_title, to_title } :=
  ⟨h.account, h.from_, h.source, h.payer, h.to_, h.receiver, h.amount, h.amountText, h.token_id,
    h.fee, h.feeText, h.totalText, h.fee_token, h.nonce, h.nonceText, h.valid_until, h.validText,
    h.token_locked, h.memoText, h.memo, h.tag, h.tagBits, h.network⟩

/-- A request that is not acceptable starts no flow; one that is starts its flow. -/
theorem handle_sign_tx_spec (st : Nat → Stale) {data : List UInt8} (hdata : 172 ≤ data.length)
    (dataLength : UInt8) (tx : tx_t) (ui : ui_t) :
    ∃ r tx' ui', handle_sign_tx sha256 st data dataLength tx ui = .ok (r, tx', ui') ∧
      (r = none ↔ ¬Acceptable sha256 st data dataLength) ∧
      ∀ flow, r = some flow → Shown st data tx' ui' flow := by
  obtain ⟨ok, tx', ui₁, hparse, hok, hparsed⟩ := parse_tx_spec sha256 hdata st dataLength tx ui
  cases ok with
  | false =>
    refine ⟨none, tx', ui₁, ?_, ⟨fun _ ha => ?_, fun _ => rfl⟩, nofun⟩
    · simp only [handle_sign_tx, hparse, ok_bind]; rfl
    · exact absurd (hok.mpr ha) (by simp)
  | true =>
    have hacc := hok.mp rfl
    have hP := hparsed rfl
    have hload : ∀ v : Vector UInt8 (MEMO_BYTES - 1), load v.toList 0 = .ok (v.toList.getD 0 0) :=
      fun v => by
        have hlen : 0 < v.toList.length := by rw [Vector.length_toList]; decide
        rw [load_eq _ _ hlen, List.getD_eq_getElem _ _ hlen]
    have hsome : ∀ flow : List SignStep, some flow = none ↔
        ¬Acceptable sha256 st data dataLength := fun flow => by simp [hacc]
    by_cases h0 : tx'.tag = PAYMENT_TX
    · obtain ⟨type, htype, ltype⟩ := strncpy_eq ui₁.type "Payment"
      obtain ⟨from_title, hfrom, lfrom⟩ := strncpy_eq ui₁.from_title "Sender"
      obtain ⟨to_title, hto, lto⟩ := strncpy_eq ui₁.to_title "Receiver"
      refine ⟨some (flowOf tx' ui₁), tx', { ui₁ with type, from_title, to_title }, ?_, hsome _, ?_⟩
      · simp only [handle_sign_tx, hparse, ok_bind, if_pos h0, htype, hfrom, hto, pure_eq_ok, hload]
        rfl
      · intro flow hflow
        obtain rfl := Option.some.inj hflow
        exact ⟨hP.withTitles type from_title to_title,
          by rw [titlesOf, if_pos h0, ← ltype, ← lfrom, ← lto], rfl⟩
    · have h4 : tx'.tag = DELEGATION_TX := by
        rw [hP.tag] at h0 ⊢
        exact hacc.tag.resolve_left h0
      obtain ⟨type, htype, ltype⟩ := strncpy_eq ui₁.type "Delegation"
      obtain ⟨from_title, hfrom, lfrom⟩ := strncpy_eq ui₁.from_title "Delegator"
      obtain ⟨to_title, hto, lto⟩ := strncpy_eq ui₁.to_title "Delegate"
      refine ⟨some (flowOf tx' ui₁), tx', { ui₁ with type, from_title, to_title }, ?_, hsome _, ?_⟩
      · simp only [handle_sign_tx, hparse, ok_bind, if_neg h0, if_pos h4, htype, hfrom, hto,
          pure_eq_ok, hload]
        rfl
      · intro flow hflow
        obtain rfl := Option.some.inj hflow
        exact ⟨hP.withTitles type from_title to_title,
          by rw [titlesOf, if_neg h0, ← ltype, ← lfrom, ← lto], rfl⟩

end Handler

end MinaLedger
