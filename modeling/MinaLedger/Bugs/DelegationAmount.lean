import MinaLedger.L4App.Review

/-!
# A delegation signs an amount nobody sees

`parse_tx` reads bytes 114-121 into `tx.amount` for every request and
`transaction_to_roinput` serialises it for every request, but no delegation
flow has the amount or the total on a screen. The wallet sends 0 there
(utils/mina_ledger_wallet.py), and so do the tests; the device does not check.

Counterexample: two delegations, alike except that one has amount 1.

The exact condition (`delegation_review_iff`): two requests that look the same
sign the same if and only if their amount bytes are equal.
-/
namespace MinaLedger.Bugs.DelegationAmount
open Lib.Radix

/-- Any two delegations that differ in the amount only look the same. -/
theorem delegation_amount_hidden {st st' : Nat → Stale} {data data' : List UInt8} {tx tx' : tx_t}
    {ui ui' : ui_t} {flow flow' : List SignStep} (h : Shown st data tx ui flow)
    (h' : Shown st' data' tx' ui' flow') (hsame : SameButAmount data data')
    (htag : data.getD 170 0 = DELEGATION_TX) : SameScreens tx ui tx' ui' :=
  sameScreens_of_sameButAmount h h' hsame (.inr htag)

/-- Amount 0 and amount 1, with the same screens. -/
theorem sample_pair :
    ∃ flow tx ui tx' ui',
      handle_sign_tx sha256Table (fun _ => ⟨fun _ => 0⟩) (sampleRequest 0 DELEGATION_TX) 172
        (filledTx 0) (filledUi 0) = .ok (some flow, tx, ui) ∧
      handle_sign_tx sha256Table (fun _ => ⟨fun _ => 0⟩) (sampleRequest 1 DELEGATION_TX) 172
        (filledTx 0) (filledUi 0) = .ok (some flow, tx', ui') ∧
      (∀ s ∈ flow, s.lines ui = s.lines ui') ∧
      tx.tx.amount.toNat = 0 ∧ tx'.tx.amount.toNat = 1 := by
  obtain ⟨flow, tx, ui, h, hs⟩ := sampleRequest_shown 0 0 (.inr rfl : DELEGATION_TX = _ ∨ _)
  obtain ⟨flow', tx', ui', h', hs'⟩ := sampleRequest_shown 0 1 (.inr rfl : DELEGATION_TX = _ ∨ _)
  obtain ⟨hamount, -, htag, -⟩ := request_fields length_receiver length_receiver 0 DELEGATION_TX
  obtain ⟨hamount', -⟩ := request_fields length_receiver length_receiver 1 DELEGATION_TX
  have same := delegation_amount_hidden hs hs' (by constructor <;> rfl) htag
  obtain rfl : flow = flow' := hs.flow.trans (same.flow.trans hs'.flow.symm)
  exact ⟨flow, tx, ui, tx', ui', h, h', by rw [hs.flow]; exact same.lines,
    hs.parsed.amount.trans hamount, hs'.parsed.amount.trans hamount'⟩

/-! ## The exact condition -/

/-- The amount field of a request. -/
def amountBytes (data : List UInt8) : List UInt8 := (data.drop 114).take 8

/-- The exact condition, for all pairs of accepted requests with the same screens,
delegations in particular. -/
theorem delegation_review_iff (sha256 : List UInt8 → Vector UInt8 32) {st st' : Nat → Stale}
    {data data' : List UInt8} (hdata : 172 ≤ data.length) (hdata' : 172 ≤ data'.length)
    {dataLength dataLength' : UInt8} {tx₀ tx₀' tx tx' : tx_t} {ui₀ ui₀' ui ui' : ui_t}
    {flow : List SignStep}
    (h : handle_sign_tx sha256 st data dataLength tx₀ ui₀ = .ok (some flow, tx, ui))
    (h' : handle_sign_tx sha256 st' data' dataLength' tx₀' ui₀' = .ok (some flow, tx', ui'))
    (hfrom : Decodes 40 ((data.drop 4).take 55)) (hto : Decodes 40 ((data.drop 59).take 55))
    (hfrom' : Decodes 40 ((data'.drop 4).take 55)) (hto' : Decodes 40 ((data'.drop 59).take 55))
    (hlines : ∀ s ∈ flow, s.lines ui = s.lines ui') :
    tx.network_id = tx'.network_id ∧
    (SameInput tx.tx tx'.tx ↔ amountBytes data = amountBytes data') := by
  obtain ⟨hr, hflow⟩ := reviewed_of_handle hdata h hfrom hto
  obtain ⟨hr', hflow'⟩ := reviewed_of_handle hdata' h' hfrom' hto'
  have same : SameScreens tx ui tx' ui' := ⟨hflow.symm.trans hflow', by rw [← hflow]; exact hlines⟩
  obtain ⟨hnet, hiff⟩ := hr.sameScreens_iff hr' same
  have hlen : ∀ data : List UInt8, 172 ≤ data.length → (amountBytes data).length = 8 :=
    fun data hd => by rw [amountBytes, List.length_take, List.length_drop]; omega
  refine ⟨hnet, sameInput_iff.trans (hiff.trans ⟨fun he => ?_, fun he => ?_⟩)⟩
  · refine beVal_inj ((hlen _ hdata).trans (hlen _ hdata').symm) ?_
    rw [← UInt64.toNat_inj, hr.parsed.amount, hr'.parsed.amount] at he
    exact he
  · rw [← UInt64.toNat_inj, hr.parsed.amount, hr'.parsed.amount]
    exact congrArg beVal he

theorem delegation_review_iff_sample :
    ∃ flow tx ui tx' ui',
      handle_sign_tx sha256Table (fun _ => ⟨fun _ => 0⟩) (sampleRequest 0 DELEGATION_TX) 172
        (filledTx 0) (filledUi 0) = .ok (some flow, tx, ui) ∧
      handle_sign_tx sha256Table (fun _ => ⟨fun _ => 0⟩) (sampleRequest 1 DELEGATION_TX) 172
        (filledTx 0) (filledUi 0) = .ok (some flow, tx', ui') ∧
      tx.network_id = tx'.network_id ∧
      (SameInput tx.tx tx'.tx ↔ amountBytes (sampleRequest 0 DELEGATION_TX) =
        amountBytes (sampleRequest 1 DELEGATION_TX)) := by
  obtain ⟨flow, tx, ui, tx', ui', h, h', hlines, -, -⟩ := sample_pair
  have hlen : ∀ amount, 172 ≤ (sampleRequest amount DELEGATION_TX).length := fun amount =>
    le_of_eq (length_sampleRequest amount DELEGATION_TX).symm
  have hdec := fun amount => decodes_sampleRequest amount DELEGATION_TX
  exact ⟨flow, tx, ui, tx', ui', h, h', delegation_review_iff sha256Table (hlen 0) (hlen 1) h h'
    (hdec 0).1 (hdec 0).2 (hdec 1).1 (hdec 1).2 hlines⟩

/-- Two delegations with the same screens and different signed inputs. -/
theorem hidden_amount_is_signed :
    ∃ flow tx ui tx' ui',
      handle_sign_tx sha256Table (fun _ => ⟨fun _ => 0⟩) (sampleRequest 0 DELEGATION_TX) 172
        (filledTx 0) (filledUi 0) = .ok (some flow, tx, ui) ∧
      handle_sign_tx sha256Table (fun _ => ⟨fun _ => 0⟩) (sampleRequest 1 DELEGATION_TX) 172
        (filledTx 0) (filledUi 0) = .ok (some flow, tx', ui') ∧
      (∀ s ∈ flow, s.lines ui = s.lines ui') ∧ ¬SameInput tx.tx tx'.tx := by
  obtain ⟨flow, tx, ui, tx', ui', h, h', hlines, h0, h1⟩ := sample_pair
  refine ⟨flow, tx, ui, tx', ui', h, h', hlines, fun hsame => ?_⟩
  rw [sameInput_iff.mp hsame, h1] at h0
  exact absurd h0 (by decide)

end MinaLedger.Bugs.DelegationAmount
