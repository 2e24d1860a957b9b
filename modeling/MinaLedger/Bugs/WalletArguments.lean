import MinaLedger.L5Host.CommandLine

/-!
# Accepted arguments that cannot be sent

`valid_memo` and `valid_address` count characters and `ledger_sign_tx` counts
UTF-8 bytes; `valid_valid_until` has an upper bound only; the fee and the nonce of
`delegate` have no validator, while those of `send-payment` do
(src/utils/mina_ledger_wallet.py). The request then has another length than 172,
a minus sign in its hexadecimal text, or no text at all.

Counterexample: a payment with the memo "é".

The exact condition (`builds_iff`): ASCII addresses and memo, a `valid_until` that is
not negative, and the fee and the nonce of a delegation in the ranges of the
validators of a payment.
-/
namespace MinaLedger.Bugs.WalletArguments
open Lib.Text

/-- `ledger_sign_tx` is called, and builds a request of 172 bytes. -/
def Builds (py : Python) (args : Args) : Prop :=
  ∃ a msg, offline py args = .ok a ∧ a.apduMessage = some msg ∧ SignTxArgs.WellFormed msg

/-- What the validators leave out. -/
structure Encodable (py : Python) (cl : CommandLine) : Prop where
  sender : IsAscii cl.sender
  receiver : IsAscii cl.receiver
  memo : ∀ m, cl.memo = some m → IsAscii m
  valid_until : ∀ s v, cl.valid_until = some s → py.int s = some v → 0 ≤ v
  fee : cl.operation = .delegate → ∀ s, cl.fee = some s → InRange (py.from_currency s) MAX_AMOUNT
  nonce : cl.operation = .delegate → ∀ s, cl.nonce = some s → InRange (py.int s) MAX_NONCE

section Lines

variable {py : Python} {cl : CommandLine} {args : Args} (h : Admitted py cl args)
  {fee nonce : Str} (hfee : cl.fee = some fee) (hnonce : cl.nonce = some nonce)

include h

/-- The memo was checked, so padding it adds NULs only. -/
theorem isAscii_memo : IsAscii (padMemo (cl.memo.getD [])) ↔ ∀ m, cl.memo = some m → IsAscii m := by
  cases hmemo : cl.memo with
  | none => exact ⟨fun _ => nofun, fun _ => by decide +kernel⟩
  | some m =>
    rw [Option.getD_some, SignTxArgs.isAscii_padMemo (h.memo.2 m hmemo)]
    exact ⟨fun ha m' hm' => Option.some.inj hm' ▸ ha, fun ha => ha m rfl⟩

theorem valid_until_range :
    (0 ≤ args.valid_until.getD MAX_VALID_UNTIL ∧
      args.valid_until.getD MAX_VALID_UNTIL < 256 ^ 4) ↔
    ∀ s v, cl.valid_until = some s → py.int s = some v → 0 ≤ v := by
  rcases h.valid_until with ⟨hnone, hargs⟩ | ⟨s, v, hs, hv, hmax, hargs⟩
  · rw [hnone, hargs]
    exact ⟨fun _ => nofun, fun _ => by decide⟩
  · rw [hs, hargs, Option.getD_some]
    refine ⟨fun hrange s' v' hs' hv' => ?_, fun hall => ⟨hall s v rfl hv, ?_⟩⟩
    · obtain rfl := Option.some.inj hs'
      obtain rfl := Option.some.inj (hv.symm.trans hv')
      exact hrange.1
    · exact Int.le_sub_one_iff.mp hmax

include hfee hnonce

theorem encodable_of_builds (hb : Builds py args) : Encodable py cl := by
  obtain ⟨a, msg, hrun, hmsg, hwf⟩ := hb
  obtain ⟨amount, f, n, -, hf, hn, rfl⟩ := (offline_iff h hfee hnonce).mp hrun
  have hfits := SignTxArgs.fits_of_apduMessage h.sender.2 h.receiver.2 hmsg hwf
  exact {
    sender := hfits.sender_address
    receiver := hfits.receiver
    memo := (isAscii_memo h).mp hfits.memo
    valid_until := (valid_until_range h).mp hfits.valid_until
    fee := fun _ s hs => by
      obtain rfl := Option.some.inj (hfee.symm.trans hs)
      exact ⟨f, hf, hfits.fee.1, Int.le_sub_one_iff.mpr hfits.fee.2⟩
    nonce := fun _ s hs => by
      obtain rfl := Option.some.inj (hnonce.symm.trans hs)
      exact ⟨n, hn, hfits.nonce.1, Int.le_sub_one_iff.mpr hfits.nonce.2⟩ }

theorem builds_of_encodable (he : Encodable py cl) : Builds py args := by
  obtain ⟨f, hf, hf0, hfmax⟩ : InRange (py.from_currency fee) MAX_AMOUNT := by
    by_cases hop : cl.operation = .delegate
    · exact he.fee hop fee hfee
    · exact h.feeRange hop fee hfee
  obtain ⟨n, hn, hn0, hnmax⟩ : InRange (py.int nonce) MAX_NONCE := by
    by_cases hop : cl.operation = .delegate
    · exact he.nonce hop nonce hnonce
    · exact h.nonceRange hop nonce hnonce
  obtain ⟨amount, hamount, ha0, hamax⟩ : InRange (cl.operation.amount py) MAX_AMOUNT := by
    cases hop : cl.operation with
    | send_payment amount => exact h.amount amount hop
    | delegate => exact ⟨0, rfl, le_refl _, by decide⟩
  have hfits : (signTxArgs cl args amount f n).Fits := {
    sender_account := ⟨h.account.1, Int.le_sub_one_iff.mp h.account.2⟩
    sender_address := he.sender
    receiver := he.receiver
    amount := ⟨ha0, Int.le_sub_one_iff.mp hamax⟩
    fee := ⟨hf0, Int.le_sub_one_iff.mp hfmax⟩
    nonce := ⟨hn0, Int.le_sub_one_iff.mp hnmax⟩
    valid_until := (valid_until_range h).mpr he.valid_until
    memo := (isAscii_memo h).mpr he.memo
    tx_type := tx_type_byte _
    network_id := network_id_byte _ }
  obtain ⟨msg, hmsg, hwf⟩ := (SignTxArgs.apduMessage_iff h.sender.2 h.receiver.2).mpr hfits
  exact ⟨_, msg, (offline_iff h hfee hnonce).mpr ⟨amount, f, n, hamount, hf, hn, rfl⟩, hmsg, hwf⟩

end Lines

/-- The exact condition, for everything the command line admits: a request is built
exactly when the texts are ASCII and the numbers in range. -/
theorem builds_iff (py : Python) {cl : CommandLine} {args : Args}
    (h : parse_args py cl = .ok args) {fee nonce : Str} (hfee : cl.fee = some fee)
    (hnonce : cl.nonce = some nonce) : Builds py args ↔ Encodable py cl :=
  ⟨encodable_of_builds (admitted_of_parse_args h) hfee hnonce,
    builds_of_encodable (admitted_of_parse_args h) hfee hnonce⟩

/-! ## Two command lines -/

/-- `int` and `from_currency` on the texts of whole numbers. -/
def wholeNumbers : Python where
  int := wholeNumber
  from_currency s := (wholeNumber s).map (· * 1000000000)
where
  wholeNumber (s : Str) : Option Int :=
    if s ≠ [] ∧ s.all (fun c => 48 ≤ c.val ∧ c.val ≤ 57) then
      some (Nat.ofDigits 10 (s.reverse.map fun c => c.val - 48))
    else none

/-- A payment of 1 with a memo. -/
def paymentLine (memo : String) : CommandLine where
  operation := .send_payment (ofString "1")
  account := ofString "0"
  sender := ofString "B62qrcFstkpqXww1EkSGrqMCwCNho86kuqBd4FrAAUsPxNKdiPzAUsy"
  receiver := ofString "B62qrcFstkpqXww1EkSGrqMCwCNho86kuqBd4FrAAUsPxNKdiPzAUsy"
  network := none
  fee := some (ofString "2")
  nonce := some (ofString "5")
  valid_until := none
  memo := some (ofString memo)

theorem isOk_paymentLine : (parse_args wholeNumbers (paymentLine "hello")).isOk = true ∧
    (parse_args wholeNumbers (paymentLine "é")).isOk = true := by decide +kernel

theorem parse_args_of_isOk {py : Python} {cl : CommandLine} (h : (parse_args py cl).isOk = true) :
    ∃ args, parse_args py cl = .ok args := by
  cases hp : parse_args py cl with
  | error e => rw [hp] at h; cases h
  | ok args => exact ⟨args, rfl⟩

/-- With the memo "hello". -/
theorem builds_iff_hello :
    ∃ args, parse_args wholeNumbers (paymentLine "hello") = .ok args ∧ Builds wholeNumbers args := by
  obtain ⟨args, hargs⟩ := parse_args_of_isOk isOk_paymentLine.1
  refine ⟨args, hargs, (builds_iff wholeNumbers hargs rfl rfl).mpr ?_⟩
  exact {
    sender := by decide +kernel
    receiver := by decide +kernel
    memo := fun m hm => by
      obtain rfl := Option.some.inj hm
      decide +kernel
    valid_until := nofun
    fee := nofun
    nonce := nofun }

/-- The memo "é" is one character and is accepted; no request of 172 bytes comes out. -/
theorem accent_is_not_encodable :
    ∃ args, parse_args wholeNumbers (paymentLine "é") = .ok args ∧ args.fee.isSome ∧
      args.nonce.isSome ∧ ¬Builds wholeNumbers args := by
  obtain ⟨args, hargs⟩ := parse_args_of_isOk isOk_paymentLine.2
  have h := admitted_of_parse_args hargs
  obtain ⟨n, hn, -⟩ := h.nonce (ofString "5") rfl
  refine ⟨args, hargs, by rw [h.fee]; rfl, by rw [hn]; rfl, fun hb => ?_⟩
  have hmemo := (encodable_of_builds h rfl rfl hb).memo (ofString "é") rfl
  exact absurd hmemo (by decide +kernel)

end MinaLedger.Bugs.WalletArguments
