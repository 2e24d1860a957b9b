import MinaLedger.L4App.Run

/-!
# Nothing leaves the device unapproved

A request that arrives during a review overwrites `_tx`, `_ui` or `_account`, and
one that fails leaves them half overwritten. What keeps this safe is that every
request which may have written them also replaces the flow: `handleApdu` goes back
to the idle flow for 0x6802, and the handlers install their own.

Results:
* `inv_of_turn`: as long as a review is on screen, the static variables are those
  of the most recent request for it, and behind Approve there was an Approve.
* `nothing_leaves_unapproved`: so every reply is a status, the version, an approved
  address or an approved signature, in every run.
-/
namespace MinaLedger
open Lib.Trace Lib.Radix

section Definitions

variable (env : Env)

/-! ## What may be sent -/

/-- Generate was pressed on the flow of an address request. -/
def GeneratePressed (rest : List Entry) : Prop :=
  ∃ g ∈ rest, g.event = .validate .ux_get_address_flow_generate_step ∧
    g.before.flow = .ux_get_address_flow

/-- Approve was pressed on the flow of a sign request. -/
def ApprovePressed (rest : List Entry) (steps : List SignStep) : Prop :=
  ∃ a ∈ rest, a.event = .validate (.ux_sign_tx_flow_step .approve) ∧
    a.before.flow = .ux_sign_tx_flow steps

/-- The request passed `parse_tx`, wrote `_tx` and `_ui`, and started the flow `steps`. -/
def Accepted (req : Entry) (steps : List SignStep) : Prop :=
  ∃ data _ui, req.command = some (INS_SIGN_TX, data) ∧
    parse_tx env.sha256 req.st data (UInt8.ofNat data.length) req.before._tx req.before._ui =
      .ok (true, req.after._tx, _ui) ∧
    handle_sign_tx env.sha256 req.st data (UInt8.ofNat data.length) req.before._tx req.before._ui =
      .ok (some steps, req.after._tx, req.after._ui)

/-- `r` is the address of the account of the most recent accepted address request, and
the turn `e` is Approve on its flow. -/
def ApprovedAddress (t : List Entry) (e : Entry) (r : List UInt8) : Prop :=
  ∃ req rest data account kp, Last AddressRequest t req rest ∧
    req.command = some (INS_GET_ADDR, data) ∧ account.toNat = beVal data ∧
    GeneratePressed rest ∧
    e.event = .validate .ux_get_address_result_flow_approve_step ∧
    e.before.flow = .ux_get_address_result_flow ∧
    generate_keypair env.cx env.derive account = .ok kp ∧
    ∀ (st : Stale) (buf : Vector UInt8 MINA_ADDRESS_LEN), ∃ address,
      generate_address env.sha256 st buf MINA_ADDRESS_LEN kp.pub = .ok (true, address) ∧
      r = address.toList ++ [0x90, 0x00]

/-- `r` is what `sign_transaction` makes of the `_tx` and `_ui` the most recent request
that reached `handle_sign_tx` wrote; that request was accepted, and Approve was pressed
on its flow since. -/
def ApprovedSignature (t : List Entry) (e : Entry) (r : List UInt8) : Prop :=
  ∃ req rest steps, Last SignRequest t req rest ∧ Accepted env req steps ∧
    ApprovePressed rest steps ∧
    ∃ o sig, sign_transaction env e.st req.after = .ok o ∧ o.sent = [r] ∧
      r = Signature.bytes sig ++ [0x90, 0x00]

/-! ## The invariant -/

/-- The static variables of get_address.c are those of the request. -/
structure AddressReview (t : List Entry) (d : Device) (req : Entry) (rest : List Entry)
    (kp : Keypair) : Prop where
  last : Last AddressRequest t req rest
  account : ∃ data, req.command = some (INS_GET_ADDR, data) ∧ d._account.toNat = beVal data
  keypair : generate_keypair env.cx env.derive d._account = .ok kp
  address : d._generated = true → d._address.toList = env.addressOf kp

/-- The static variables of sign_tx.c are those of the request. -/
structure SignReview (t : List Entry) (d : Device) (req : Entry) (rest : List Entry)
    (steps : List SignStep) : Prop where
  last : Last SignRequest t req rest
  accepted : Accepted env req steps
  tx : SameTx d._tx req.after._tx
  ui : d._ui = req.after._ui

/-- What the current flow says about the history. -/
def Inv (t : List Entry) (d : Device) : Prop :=
  match d.flow with
  | .ux_idle_flow => True
  | .ux_get_address_flow => ∃ req rest kp, AddressReview env t d req rest kp
  | .ux_get_address_comfort_flow => ∃ req rest kp, AddressReview env t d req rest kp ∧
      GeneratePressed rest
  | .ux_get_address_result_flow => ∃ req rest kp, AddressReview env t d req rest kp ∧
      GeneratePressed rest ∧ d._generated = true
  | .ux_sign_tx_flow steps => ∃ req rest, SignReview env t d req rest steps
  | .ux_sign_tx_comfort_flow => ∃ req rest steps, SignReview env t d req rest steps ∧
      ApprovePressed rest steps
  | .ux_sign_tx_done_flow => ∃ req rest steps, SignReview env t d req rest steps ∧
      ApprovePressed rest steps

end Definitions

/-! ## Frames -/

section Frames

variable {env : Env} {t : List Entry} {d d' : Device} {e req : Entry} {rest : List Entry}
  {kp : Keypair} {steps : List SignStep}

theorem GeneratePressed.snoc (h : GeneratePressed rest) (e : Entry) : GeneratePressed (rest ++ [e]) := by
  obtain ⟨g, hg, hpress⟩ := h
  exact ⟨g, List.mem_append_left _ hg, hpress⟩

theorem ApprovePressed.snoc (h : ApprovePressed rest steps) (e : Entry) :
    ApprovePressed (rest ++ [e]) steps := by
  obtain ⟨a, ha, hpress⟩ := h
  exact ⟨a, List.mem_append_left _ ha, hpress⟩

/-- The two devices hold the same address request. -/
structure SameAddress (d d' : Device) : Prop where
  account : d'._account = d._account
  generated : d'._generated = d._generated
  address : d'._address = d._address

theorem AddressReview.snoc (h : AddressReview env t d req rest kp) (he : ¬AddressRequest e)
    (hsame : SameAddress d d') : AddressReview env (t ++ [e]) d' req (rest ++ [e]) kp where
  last := h.last.snoc he
  account := by rw [hsame.account]; exact h.account
  keypair := by rw [hsame.account]; exact h.keypair
  address := by rw [hsame.generated, hsame.address]; exact h.address

theorem SignReview.snoc (h : SignReview env t d req rest steps) (he : ¬SignRequest e)
    (htx : SameTx d'._tx d._tx) (hui : d'._ui = d._ui) :
    SignReview env (t ++ [e]) d' req (rest ++ [e]) steps where
  last := h.last.snoc he
  accepted := h.accepted
  tx := htx.trans h.tx
  ui := hui.trans h.ui

/-- A turn that leaves the flow and the reviewed data alone. -/
theorem Inv.snoc (h : Inv env t d) (he : OtherEvent e) (hflow : d'.flow = d.flow)
    (hsame : SameAddress d d') (htx : SameTx d'._tx d._tx) (hui : d'._ui = d._ui) :
    Inv env (t ++ [e]) d' := by
  unfold Inv at h ⊢
  rw [hflow]
  split at h
  · trivial
  · obtain ⟨req, rest, kp, hr⟩ := h
    exact ⟨req, _, kp, hr.snoc he.1 hsame⟩
  · obtain ⟨req, rest, kp, hr, hg⟩ := h
    exact ⟨req, _, kp, hr.snoc he.1 hsame, hg.snoc e⟩
  · obtain ⟨req, rest, kp, hr, hg, hgen⟩ := h
    exact ⟨req, _, kp, hr.snoc he.1 hsame, hg.snoc e, hsame.generated.trans hgen⟩
  · obtain ⟨req, rest, hr⟩ := h
    exact ⟨req, _, hr.snoc he.2 htx hui⟩
  · obtain ⟨req, rest, steps, hr, ha⟩ := h
    exact ⟨req, _, steps, hr.snoc he.2 htx hui, ha.snoc e⟩
  · obtain ⟨req, rest, steps, hr, ha⟩ := h
    exact ⟨req, _, steps, hr.snoc he.2 htx hui, ha.snoc e⟩

theorem Inv.idle (h : d.flow = .ux_idle_flow) : Inv env t d := by
  unfold Inv
  rw [h]
  trivial

end Frames

/-! ## One turn -/

theorem parse_of_handle_sign_tx {sha256 : List UInt8 → Vector UInt8 32} {st : Nat → Stale}
    {data : List UInt8} {dataLength : UInt8} {tx tx' : tx_t} {ui ui' : ui_t} {steps : List SignStep}
    (h : handle_sign_tx sha256 st data dataLength tx ui = .ok (some steps, tx', ui')) :
    ∃ ui₁, parse_tx sha256 st data dataLength tx ui = .ok (true, tx', ui₁) := by
  obtain ⟨⟨ok, tx₁, ui₁⟩, hparse, h⟩ := bind_ok h
  cases ok with
  | false => cases h
  | true =>
    -- only the titles are written after that, whichever they are
    suffices tx₁ = tx' by subst this; exact ⟨ui₁, hparse⟩
    have hlast : ∀ (w : ui_t) (flow : UInt8 → List SignStep),
        (do let b ← load w.memo.toList 0; return (some (flow b), tx₁, w)) =
          (.ok (some steps, tx', ui') : Exec (Option (List SignStep) × tx_t × ui_t)) → tx₁ = tx' := by
      intro w flow h
      obtain ⟨_, -, h⟩ := bind_ok h
      exact (Prod.mk.inj (Prod.mk.inj (Except.ok.inj h)).2).1
    simp only [Bool.not_true, Bool.false_eq_true, if_false] at h
    split at h
    · obtain ⟨_, -, h⟩ := bind_ok h
      obtain ⟨_, -, h⟩ := bind_ok h
      obtain ⟨_, -, h⟩ := bind_ok h
      obtain ⟨_, -, h⟩ := bind_ok h
      exact hlast _ _ h
    · split at h
      · obtain ⟨_, -, h⟩ := bind_ok h
        obtain ⟨_, -, h⟩ := bind_ok h
        obtain ⟨_, -, h⟩ := bind_ok h
        obtain ⟨_, -, h⟩ := bind_ok h
        exact hlast _ _ h
      · obtain ⟨_, -, h⟩ := bind_ok h
        exact hlast _ _ h

section Turns

variable {env : Env} {t : List Entry} {d d' : Device} {e : Entry}
  (hderive : ∀ account, ∃ kp, generate_keypair env.cx env.derive account = .ok kp)

include hderive

/-- The address step, when the key can be derived: the address is there, nothing is sent. -/
theorem gen_address_review {req : Entry} {rest : List Entry} {kp : Keypair} {o : Outcome}
    {st : Nat → Stale} (h : AddressReview env t d req rest kp)
    (hrun : gen_address env st { d with flow := .ux_get_address_result_flow } = .ok o) :
    ∃ address, address.toList = env.addressOf kp ∧ o = { device := { d with
      flow := .ux_get_address_result_flow, _address := address, _generated := true } } := by
  rcases gen_address_spec hrun with ⟨hgen, rfl⟩ | ⟨-, kp', address, hkp, haddr, rfl⟩ | ⟨-, e', he', -⟩
  · refine ⟨d._address, h.address hgen, ?_⟩
    rw [show d._generated = true from hgen]
  · obtain rfl : kp = kp' := Except.ok.inj (h.keypair.symm.trans hkp)
    exact ⟨address, haddr, rfl⟩
  · obtain ⟨kp', hkp⟩ := hderive d._account
    rw [show generate_keypair env.cx env.derive d._account = .error _ from he'] at hkp
    cases hkp

/-- The turn keeps the invariant. -/
theorem inv_of_turn (hinv : Inv env t d) (hbefore : e.before = d) (h : Turn env d e) :
    Inv env (t ++ [e]) e.after := by
  cases h with
  | answered _ cmd _ _ after =>
    rw [after]
    exact hinv.snoc cmd rfl ⟨rfl, rfl, rfl⟩ (.refl _) rfl
  | refused _ _ after => exact .idle after
  | @addressRequest data cmd four account path address haccount _ after =>
    obtain ⟨kp, hkp⟩ := hderive account
    rw [after]
    exact ⟨e, [], kp, Last.new t ⟨data, cmd, four⟩, ⟨data, cmd, haccount⟩, hkp, nofun⟩
  | @signRequest data cmd steps _tx _ui parsed _ after =>
    obtain ⟨ui₁, hparse⟩ := parse_of_handle_sign_tx parsed
    rw [← hbefore] at parsed hparse
    have hacc : Accepted env e steps := by
      refine ⟨data, ui₁, cmd, ?_, ?_⟩
      · rw [after]; exact hparse
      · rw [after]; exact parsed
    refine after ▸ ?_
    exact ⟨e, [], Last.new t ⟨data, cmd⟩, hacc, by rw [after]; exact .refl _, by rw [after]⟩
  | drawn hev _ after =>
    rw [after]
    exact hinv.snoc (otherEvent_of_callback hev) rfl ⟨rfl, rfl, rfl⟩ (.refl _) rfl
  | rejected _ _ after => exact .idle (by rw [after]; rfl)
  | generate hev flow _ after =>
    have hother := otherEvent_of_callback ⟨_, .inr hev⟩
    unfold Inv at hinv
    rw [flow] at hinv
    obtain ⟨req, rest, kp, hr⟩ := hinv
    rw [after]
    exact ⟨req, rest ++ [e], kp, hr.snoc hother.1 ⟨rfl, rfl, rfl⟩, e, by simp, hev,
      by rw [hbefore, flow]⟩
  | @address hev o run _ after =>
    have hother : OtherEvent e := by
      rcases hev with ⟨hev, -⟩ | ⟨hev, -⟩
      · exact otherEvent_of_callback ⟨_, .inr hev⟩
      · exact otherEvent_of_callback ⟨_, .inl hev⟩
    obtain ⟨req, rest, kp, hr, hg⟩ : ∃ req rest kp, AddressReview env t d req rest kp ∧
        GeneratePressed rest := by
      unfold Inv at hinv
      rcases hev with ⟨-, flow⟩ | ⟨-, flow⟩
      · rw [flow] at hinv; exact hinv
      · rw [flow] at hinv
        obtain ⟨req, rest, kp, hr, hg, -⟩ := hinv
        exact ⟨req, rest, kp, hr, hg⟩
    obtain ⟨address, haddr, rfl⟩ := gen_address_review hderive hr run
    rw [after]
    exact ⟨req, rest ++ [e], kp,
      ⟨hr.last.snoc hother.1, hr.account, hr.keypair, fun _ => haddr⟩, hg.snoc e, rfl⟩
  | addressApproved _ _ _ after => exact .idle (by rw [after]; rfl)
  | @approved hev steps flow _ after =>
    have hother := otherEvent_of_callback ⟨_, .inr hev⟩
    unfold Inv at hinv
    rw [flow] at hinv
    obtain ⟨req, rest, hr⟩ := hinv
    rw [after]
    exact ⟨req, rest ++ [e], steps, hr.snoc hother.2 (.refl _) rfl, e, by simp, hev,
      by rw [hbefore, flow]⟩
  | @sign hev o run _ after =>
    have hother : OtherEvent e := by
      rcases hev with ⟨hev, -⟩ | ⟨hev, -⟩
      · exact otherEvent_of_callback ⟨_, .inr hev⟩
      · exact otherEvent_of_callback ⟨_, .inl hev⟩
    obtain ⟨req, rest, steps, hr, ha⟩ : ∃ req rest steps, SignReview env t d req rest steps ∧
        ApprovePressed rest steps := by
      unfold Inv at hinv
      rcases hev with ⟨-, flow⟩ | ⟨-, flow⟩ <;> (rw [flow] at hinv; exact hinv)
    obtain ⟨_tx, hsame, ⟨sig, -, rfl⟩ | ⟨-, rfl⟩⟩ := sign_transaction_spec run
    · exact .idle (by rw [after]; rfl)
    · rw [after]
      exact ⟨req, rest ++ [e], steps, hr.snoc hother.2 hsame rfl, ha.snoc e⟩
  | reset _ _ after => exact .idle (by rw [after]; rfl)

/-- What the turn sends was approved. -/
theorem allowed_of_turn (hinv : Inv env t d) (hbefore : e.before = d) (h : Turn env d e)
    {r : List UInt8} (hr : r ∈ e.sent) :
    Plain env r ∨ ApprovedAddress env t e r ∨ ApprovedSignature env t e r := by
  cases h with
  | answered _ _ plain sent _ =>
    rw [sent] at hr
    exact .inl (List.mem_singleton.mp hr ▸ plain)
  | refused _ sent _ | rejected _ sent _ =>
    rw [sent] at hr
    exact .inl (.inl (by rw [List.mem_singleton.mp hr]; rfl))
  | addressRequest _ _ _ sent _ | signRequest _ _ sent _ | drawn _ sent _ | generate _ _ sent _
  | approved _ _ sent _ | reset _ sent _ => rw [sent] at hr; cases hr
  | @address hev o run sent _ =>
    obtain ⟨req, rest, kp, hrev⟩ : ∃ req rest kp, AddressReview env t d req rest kp := by
      unfold Inv at hinv
      rcases hev with ⟨-, flow⟩ | ⟨-, flow⟩
      · rw [flow] at hinv
        obtain ⟨req, rest, kp, hrev, -⟩ := hinv
        exact ⟨req, rest, kp, hrev⟩
      · rw [flow] at hinv
        obtain ⟨req, rest, kp, hrev, -⟩ := hinv
        exact ⟨req, rest, kp, hrev⟩
    obtain ⟨address, -, rfl⟩ := gen_address_review hderive hrev run
    rw [sent] at hr
    cases hr
  | addressApproved hev flow sent _ =>
    unfold Inv at hinv
    rw [flow] at hinv
    obtain ⟨req, rest, kp, hrev, hg, hgen⟩ := hinv
    obtain ⟨data, hcmd, haccount⟩ := hrev.account
    rw [sent] at hr
    refine .inr (.inl ⟨req, rest, data, d._account, kp, hrev.last, hcmd, haccount, hg, hev,
      by rw [hbefore, flow], hrev.keypair, fun st buf => ?_⟩)
    obtain ⟨address, hgenaddr, hlist⟩ := generate_address_of env st buf kp
    exact ⟨address, hgenaddr, by rw [List.mem_singleton.mp hr, hrev.address hgen, hlist]⟩
  | @sign hev o run sent _ =>
    obtain ⟨req, rest, steps, hrev, ha⟩ : ∃ req rest steps, SignReview env t d req rest steps ∧
        ApprovePressed rest steps := by
      unfold Inv at hinv
      rcases hev with ⟨-, flow⟩ | ⟨-, flow⟩ <;> (rw [flow] at hinv; exact hinv)
    rw [sent] at hr
    obtain ⟨_tx, -, ⟨sig, htry, rfl⟩ | ⟨-, rfl⟩⟩ := sign_transaction_spec run
    · -- the reviewed transaction is the one the request wrote, up to its arrays
      obtain ⟨_tx', htry'⟩ := trySign_congr e.st hrev.tx
        (show d._ui.from_ = req.after._ui.from_ by rw [hrev.ui]) htry
      refine .inr (.inr ⟨req, rest, steps, hrev.last, hrev.accepted, ha,
        sendResponse { req.after with _tx := _tx' } sig.bytes true, sig, ?_, ?_, ?_⟩)
      · rw [sign_transaction, htry', ok_bind]; rfl
      · rw [List.mem_singleton.mp hr]; rfl
      · rw [List.mem_singleton.mp hr]; rfl
    · -- the exception is answered with a status
      refine .inl (.inl ?_)
      change r ∈ [[0x68, 0x02]] at hr
      rw [List.mem_singleton.mp hr]; rfl

end Turns

/-! ## Every run -/

/-- No data leaves the device without approval of exactly that data: in every run of
requests with any bytes and of buttons and timers in any order, a reply is a status or the
version, or the address of the account of the most recent accepted address request on
Approve, or the signature of what the most recent sign request wrote, accepted by
`parse_tx` and approved on its own flow. -/
theorem nothing_leaves_unapproved {env : Env} (hcx : env.cx.Exact)
    (hderive : ∀ path, ∃ bytes, env.derive path = .ok bytes) {t : List Entry} {d d' : Device}
    (hrun : Run Start (Step env) t d) {e : Entry} (hstep : Step env d e d') {r : List UInt8}
    (hr : r ∈ e.sent) :
    Plain env r ∨ ApprovedAddress env t e r ∨ ApprovedSignature env t e r := by
  have hkeypair : ∀ account, ∃ kp, generate_keypair env.cx env.derive account = .ok kp :=
    fun account => by
      obtain ⟨bytes, hbytes⟩ := hderive (bip32_path account)
      exact ⟨_, generate_keypair_eq hcx hbytes⟩
  have hinv : Inv env t d := hrun.invariant (fun d h0 => .idle h0.1)
    fun t d e d' hinv h => by
      have hnext := inv_of_turn hkeypair hinv h.before (turn_of_step h)
      rwa [h.after] at hnext
  exact allowed_of_turn hkeypair hinv hstep.before (turn_of_step hstep) hr

/-- A request of the own account, Approve, and the timer of "Signing...": the third turn
sends 66 bytes, an approved signature. -/
theorem nothing_leaves_unapproved_unit :
    ∃ t d e d' r, Run Start (Step unitEnv) t d ∧ Step unitEnv d e d' ∧ r ∈ e.sent ∧ r.length = 66 ∧
      ApprovedSignature unitEnv t e r := by
  obtain ⟨e₁, d₁, e₂, d₂, h₁, h₂, -, -, hflow, -, hP⟩ := review_run unitEnv cleanStack .boot
    length_unitRequest_le length_unitRequest
    (acceptable_unitRequest cleanStack) 0
  obtain ⟨_tx, sig, hsig⟩ := unitRequest_signed hP cleanStack
  have hen : Enabled d₂ (.validate .ux_sign_tx_comfort_flow_signing_step) :=
    ⟨by rw [hflow]; exact List.mem_singleton.mpr rfl, nofun⟩
  have h₃ := step_of_app_main (app_main_signed hsig) hen
  have hrun := (Run.nil (show Start .boot from ⟨rfl, rfl⟩)).snoc h₁ |>.snoc h₂
  have hmem : sig.bytes ++ [0x90, 0x00] ∈ [sig.bytes ++ [0x90, 0x00]] := List.mem_singleton.mpr rfl
  have hlen : (sig.bytes ++ [0x90, 0x00]).length = 66 := by simp [Signature.bytes]
  refine ⟨_, _, _, _, sig.bytes ++ [0x90, 0x00], hrun, h₃, hmem, hlen, ?_⟩
  rcases nothing_leaves_unapproved Cx.reference_exact (fun _ => ⟨ofNum 1, rfl⟩) hrun h₃ hmem with
    (h | h) | h | h
  · omega
  · have hver := congrArg List.length h
    rw [hlen] at hver
    simp at hver
  · obtain ⟨_, _, _, _, _, -, -, -, -, hev, -⟩ := h
    cases hev
  · exact h

end MinaLedger
