import MinaLedger.L4App.Answers
import MinaLedger.Lib.Service

/-!
# The device converses

Seen from the host, the event loop is a service: requests go in, replies come out,
and Approve is the consent to the request under review. The screen and the static
variables stand for the request that waits (`Sim`), and every turn of the loop does
what is proper for it.

A derivation that does not throw leaves one stray reply: 0x6802 again, when the
"Done" step of a signature that was refused is shown once more.

Results:
* `sim_of_step`: one turn.
* `device_converses`: every run; so no reply is lost, sent twice or sent to another
  request, a signature verifies for the transaction of the request it answers, and
  nothing but a status is sent without consent.
* `disclosures_counted`: there are no more signatures and addresses than presses of Approve.
* `reply_reachable`: whatever request waits, two presses or timers answer it.
-/
namespace MinaLedger
open Lib.Trace Lib.Service

/-- What the host and the user see of a turn. -/
def Entry.labels (e : Entry) : List (Label Apdu (List UInt8)) :=
  match e.event with
  | .apdu buffer rx => .request ⟨buffer, rx⟩ :: e.sent.map .reply
  | .validate (.ux_sign_tx_flow_step .approve) => .consent :: e.sent.map .reply
  | .validate .ux_get_address_result_flow_approve_step => .consent :: e.sent.map .reply
  | .reset => .reset :: e.sent.map .reply
  | _ => e.sent.map .reply

/-- A status that nobody asked for. -/
def Stray (r : List UInt8) : Prop := r = [0x68, 0x02]

section Definitions

variable (env : Env)

/-- The account does not own the `from` text. -/
def Unowned (d : Device) : Prop :=
  ∀ kp, generate_keypair env.cx env.derive d._tx.account = .ok kp →
    env.addressOf kp ≠ d._ui.from_.toList

/-- The request the current flow stands for. -/
def Sim (d : Device) (w : Waiting Apdu) : Prop :=
  match d.flow with
  | .ux_idle_flow => w = none
  | .ux_get_address_flow | .ux_get_address_comfort_flow =>
    ∃ q, w = some (q, false) ∧ AddressPending env d q
  | .ux_get_address_result_flow =>
    ∃ q, w = some (q, false) ∧ AddressPending env d q ∧ d._generated = true
  | .ux_sign_tx_flow steps =>
    ∃ q, w = some (q, false) ∧ SignPending env d q ∧ steps = flowOf d._tx d._ui
  | .ux_sign_tx_comfort_flow => ∃ q, w = some (q, true) ∧ SignPending env d q
  | .ux_sign_tx_done_flow => w = none ∧ Unowned env d

/-- What a turn has to do. -/
def Conforms (w : Waiting Apdu) (e : Entry) (d' : Device) : Prop :=
  Guarded (Proper (Answers env) Stray) w e.labels ∧ Sim env d' (e.labels.foldl after w)

end Definitions

section Sim

variable {env : Env} {d d' : Device} {e : Entry} {w : Waiting Apdu}

theorem sim_idle (hflow : d.flow = .ux_idle_flow) (hw : w = none) : Sim env d w := by
  unfold Sim
  rw [hflow]
  exact hw

/-- `flags` is not part of a review. -/
theorem Sim.flags (h : Sim env d w) (flags : Bool) : Sim env { d with flags } w := h

theorem labels_callback {step : UxStep} (hev : e.event = .display step ∨ e.event = .validate step)
    (h1 : step ≠ .ux_sign_tx_flow_step .approve)
    (h2 : step ≠ .ux_get_address_result_flow_approve_step) :
    e.labels = e.sent.map .reply := by
  rcases hev with hev | hev
  · rw [Entry.labels, hev]
  · rw [Entry.labels, hev]
    cases step with
    | ux_get_address_result_flow_approve_step => exact absurd rfl h2
    | ux_sign_tx_flow_step s =>
      cases s with
      | approve => exact absurd rfl h1
      | _ => rfl
    | _ => rfl

/-- A callback that sends nothing and leaves the request waiting. -/
theorem conforms_quiet (hlabels : e.labels = e.sent.map .reply) (hsent : e.sent = [])
    (hsim : Sim env d' w) : Conforms env w e d' := by
  rw [Conforms, hlabels, hsent]
  exact ⟨trivial, hsim⟩

/-- A callback that answers the request. -/
theorem conforms_reply (hlabels : e.labels = e.sent.map .reply) {r : List UInt8} (hsent : e.sent = [r])
    (hr : Proper (Answers env) Stray w (.reply r)) (hsim : Sim env d' none) : Conforms env w e d' := by
  rw [Conforms, hlabels, hsent]
  exact ⟨⟨hr, trivial⟩, hsim⟩

end Sim

/-! ## One turn -/

section Turns

variable {env : Env} {d d' : Device} {e : Entry} {w : Waiting Apdu}

section Derived

variable (hderive : ∀ account, ∃ kp, generate_keypair env.cx env.derive account = .ok kp)

include hderive

theorem conforms_of_apdu {b : ApduBuffer} {rx : Nat} (hsim : Sim env d w) (h : Step env d e d')
    (hev : e.event = .apdu b rx) (hw : w = none) : Conforms env w e d' := by
  have hlabels : e.labels = .request ⟨b, rx⟩ :: e.sent.map .reply := by rw [Entry.labels, hev]
  subst hw
  rw [Conforms, hlabels]
  rcases answers_of_apdu hderive hev h with
    ⟨r, hsent, hr, hflow | rfl⟩ | ⟨hsent, hflow, hpending⟩ | ⟨hsent, hflow, hpending⟩
  · rw [hsent]
    exact ⟨⟨rfl, hr, trivial⟩, sim_idle hflow rfl⟩
  · rw [hsent]
    exact ⟨⟨rfl, hr, trivial⟩, hsim.flags false⟩
  · rw [hsent]
    refine ⟨⟨rfl, trivial⟩, ?_⟩
    unfold Sim
    rw [hflow]
    exact ⟨_, rfl, hpending⟩
  · rw [hsent]
    refine ⟨⟨rfl, trivial⟩, ?_⟩
    unfold Sim
    rw [hflow]
    exact ⟨_, rfl, hpending, rfl⟩

/-- The address step: the address is there afterwards, and nothing was sent. -/
theorem address_shown {q : Apdu} {st : Nat → Stale} {o : Outcome} (hpending : AddressPending env d q)
    (hrun : gen_address env st { d with flow := .ux_get_address_result_flow } = .ok o) :
    (o.thrown = none ∧ o.sent = []) ∧ o.device.flow = .ux_get_address_result_flow ∧
      Sim env o.device (some (q, false)) := by
  obtain ⟨kp, hof, haddress⟩ := hpending
  rcases gen_address_spec hrun with ⟨hgen, rfl⟩ | ⟨-, kp', address, hkp, haddr, rfl⟩ | ⟨-, c, hc, -⟩
  · exact ⟨⟨rfl, rfl⟩, rfl, q, rfl, ⟨kp, hof, haddress⟩, hgen⟩
  · obtain rfl : kp = kp' := Except.ok.inj (hof.keypair.symm.trans hkp)
    exact ⟨⟨rfl, rfl⟩, rfl, q, rfl, ⟨kp, hof, fun _ => haddr⟩, rfl⟩
  · obtain ⟨kp', hkp⟩ := hderive d._account
    cases hkp.symm.trans hc

end Derived

/-- The "Done" step: the signature verifies, or the account is not the owner. -/
theorem signature_sent (henv : env.Sound) {st : Nat → Stale} {o : Outcome}
    (hrun : app_main env st d (.validate .ux_sign_tx_comfort_flow_signing_step) = .ok o) :
    (∃ kp sig, generate_keypair env.cx env.derive d._tx.account = .ok kp ∧
      env.addressOf kp = d._ui.from_.toList ∧ Verifies env kp.pub d._tx.network_id d._tx.tx sig ∧
      SignedBy env kp d._tx.network_id d._tx.tx sig ∧
      o.sent = [sig.bytes ++ [0x90, 0x00]] ∧ o.device.flow = .ux_idle_flow) ∨
    (Unowned env d ∧ o.sent = [[0x68, 0x02]] ∧ Sim env o.device none) := by
  obtain ⟨_tx, r, htry, hsame, hiff⟩ := trySign_returns henv st d._tx d._ui
  cases r with
  | some sig =>
    obtain rfl := Except.ok.inj ((app_main_signed htry).symm.trans hrun)
    obtain ⟨kp, hkp, haddr, hver, hby⟩ := verifies_of_trySign henv htry
    exact .inl ⟨kp, sig, hkp, haddr, hver, hby, rfl, rfl⟩
  | none =>
    obtain rfl := Except.ok.inj ((app_main_unsigned htry).symm.trans hrun)
    have hno : Unowned env d := fun kp hkp haddr => by
      rcases henv.keypair d._tx.account with ⟨bytes, hd, hok⟩ | ⟨c, -, hc⟩
      · obtain rfl := Except.ok.inj (hok.symm.trans hkp)
        exact absurd (hiff.mpr ⟨bytes, hd, haddr⟩) (by simp)
      · cases hc.symm.trans hkp
    refine .inr ⟨hno, rfl, rfl, fun kp hkp => ?_⟩
    rw [show ({ d with _tx := _tx, flow := .ux_sign_tx_done_flow, flags := false } : Device)._tx
      = _tx from rfl, hsame.account] at hkp
    exact hno kp hkp

/-- The flows with a Reject or Cancel step stand for a request without consent. -/
theorem rejectable {step : UxStep} (hsim : Sim env d w) (hmem : step ∈ d.flow.steps)
    (hstep : step = .ux_get_address_flow_cancel_step ∨
      step = .ux_get_address_result_flow_reject_step ∨ step = .ux_sign_tx_flow_step .reject) :
    ∃ q, w = some (q, false) ∧ Answers env q false [0x69, 0x85] := by
  unfold Sim at hsim
  cases hflow : d.flow with
  | ux_get_address_flow =>
    rw [hflow] at hsim
    obtain ⟨q, rfl, kp, hof, -⟩ := hsim
    exact ⟨q, rfl, .rejected (.inl ⟨_, _, hof⟩)⟩
  | ux_get_address_result_flow =>
    rw [hflow] at hsim
    obtain ⟨q, rfl, ⟨kp, hof, -⟩, -⟩ := hsim
    exact ⟨q, rfl, .rejected (.inl ⟨_, _, hof⟩)⟩
  | ux_sign_tx_flow steps =>
    rw [hflow] at hsim
    obtain ⟨q, rfl, ⟨st, data, hof⟩, -⟩ := hsim
    exact ⟨q, rfl, .rejected (.inr ⟨st, data, _, _, hof⟩)⟩
  | ux_idle_flow | ux_get_address_comfort_flow | ux_sign_tx_comfort_flow | ux_sign_tx_done_flow =>
    rw [hflow] at hmem
    rcases hstep with rfl | rfl | rfl <;> simp [Flow.steps] at hmem

section Callbacks

variable (hderive : ∀ account, ∃ kp, generate_keypair env.cx env.derive account = .ok kp)
  (henv : env.Sound)

include hderive henv

theorem conforms_of_display {step : UxStep} (hsim : Sim env d w) (h : Step env d e d')
    (hev : e.event = .display step) : Conforms env w e d' := by
  have hlabels : e.labels = e.sent.map .reply := by rw [Entry.labels, hev]
  obtain ⟨-, -, hen, o, hrun, rfl, hsent⟩ := h
  rw [hev] at hrun hen
  obtain ⟨-, -, haddress, -, -, hdone⟩ := flow_of_mem hen
  have hstep := hrun
  obtain ⟨o', ho', hrun⟩ := bind_ok hrun
  obtain rfl := Except.ok.inj hrun
  cases step with
  | ux_get_address_result_flow_address_step =>
    have hflow := haddress (.inl rfl)
    unfold Sim at hsim
    rw [hflow] at hsim
    obtain ⟨q, rfl, hpending, hgen⟩ := hsim
    change gen_address env e.st d = .ok o' at ho'
    rw [show d = { d with flow := .ux_get_address_result_flow } by rw [← hflow]] at ho'
    obtain ⟨⟨hthrown, hnone⟩, -, hsim'⟩ := address_shown hderive hpending ho'
    have hquiet : duringExchange o' = o' := by rw [duringExchange, hthrown]
    rw [hquiet] at hsent ⊢
    exact conforms_quiet hlabels (hsent.symm.trans hnone) hsim'
  | ux_sign_tx_done_flow_done_step =>
    have hflow := hdone rfl
    unfold Sim at hsim
    rw [hflow] at hsim
    obtain ⟨rfl, hno⟩ := hsim
    rw [app_main_done hflow] at hstep
    rcases signature_sent henv hstep with ⟨kp, sig, hkp, haddr, -⟩ | ⟨-, hr, hsim'⟩
    · exact absurd haddr (hno kp hkp)
    · exact conforms_reply hlabels (hsent.symm.trans hr) (show Stray _ from rfl) hsim'
  | _ =>
    obtain rfl := Except.ok.inj ho'
    exact conforms_quiet hlabels hsent.symm hsim

theorem conforms_of_validate {step : UxStep} (hsim : Sim env d w) (h : Step env d e d')
    (hev : e.event = .validate step) : Conforms env w e d' := by
  have hlabels := labels_callback (.inr hev)
  obtain ⟨-, -, hen, o, hrun, rfl, hsent⟩ := h
  rw [hev] at hrun hen
  obtain ⟨hgenerate, hprocessing, hresult, happrove, hsigning, -⟩ := flow_of_mem hen.1
  have hreject := rejectable hsim hen.1
  have hstep := hrun
  obtain ⟨o', ho', hrun⟩ := bind_ok hrun
  obtain rfl := Except.ok.inj hrun
  cases step with
  | ux_get_address_flow_generate_step =>
    obtain rfl := Except.ok.inj ho'
    unfold Sim at hsim
    rw [hgenerate rfl] at hsim
    exact conforms_quiet (hlabels (by simp) (by simp)) hsent.symm hsim
  | ux_get_address_comfort_flow_processing_step =>
    unfold Sim at hsim
    rw [hprocessing rfl] at hsim
    obtain ⟨q, rfl, hpending⟩ := hsim
    obtain ⟨⟨hthrown, hnone⟩, -, hsim'⟩ := address_shown hderive hpending ho'
    have hquiet : duringExchange o' = o' := by rw [duringExchange, hthrown]
    rw [hquiet] at hsent ⊢
    exact conforms_quiet (hlabels (by simp) (by simp)) (hsent.symm.trans hnone) hsim'
  | ux_get_address_result_flow_approve_step =>
    obtain rfl := Except.ok.inj ho'
    unfold Sim at hsim
    rw [hresult (.inr rfl)] at hsim
    obtain ⟨q, rfl, ⟨kp, hof, haddress⟩, hgen⟩ := hsim
    have hconsent : e.labels = .consent :: e.sent.map .reply := by rw [Entry.labels, hev]
    rw [Conforms, hconsent, ← hsent]
    refine ⟨⟨by simp [Proper], ?_, trivial⟩, sim_idle rfl rfl⟩
    change Answers env q true (d._address.toList ++ [0x90, 0x00])
    rw [haddress hgen]
    exact .address hof
  | ux_sign_tx_comfort_flow_signing_step =>
    unfold Sim at hsim
    rw [hsigning rfl] at hsim
    obtain ⟨q, rfl, st, data, hof⟩ := hsim
    have hl := hlabels (by simp) (by simp)
    rcases signature_sent henv hstep with
      ⟨kp, sig, hkp, haddr, hver, hby, hr, hflow⟩ | ⟨hno, hr, hsim'⟩
    · rw [hof.parsed.from_] at haddr
      have hkeys := own_keys hof.parsed (hof.parsed.from_.trans haddr.symm)
      exact conforms_reply hl (hsent.symm.trans hr) (.signature ⟨hof, hkp, haddr, hkeys, hver, hby⟩)
        (sim_idle hflow rfl)
    · refine conforms_reply hl (hsent.symm.trans hr) (.unowned hof fun kp hkp => ?_) hsim'
      rw [← hof.parsed.from_]
      exact hno kp hkp
  | ux_get_address_flow_cancel_step =>
    obtain rfl := Except.ok.inj ho'
    obtain ⟨q, rfl, hr⟩ := hreject (.inl rfl)
    exact conforms_reply (hlabels (by simp) (by simp)) hsent.symm hr (sim_idle rfl rfl)
  | ux_get_address_result_flow_reject_step =>
    obtain rfl := Except.ok.inj ho'
    obtain ⟨q, rfl, hr⟩ := hreject (.inr (.inl rfl))
    exact conforms_reply (hlabels (by simp) (by simp)) hsent.symm hr (sim_idle rfl rfl)
  | ux_sign_tx_flow_step s =>
    cases s with
    | approve =>
      obtain rfl := Except.ok.inj ho'
      obtain ⟨steps, hflow⟩ := happrove rfl
      unfold Sim at hsim
      rw [hflow] at hsim
      obtain ⟨q, rfl, hpending, -⟩ := hsim
      have hconsent : e.labels = .consent :: e.sent.map .reply := by rw [Entry.labels, hev]
      rw [Conforms, hconsent, ← hsent]
      exact ⟨⟨by simp [Proper], trivial⟩, q, rfl, hpending⟩
    | reject =>
      obtain rfl := Except.ok.inj ho'
      obtain ⟨q, rfl, hr⟩ := hreject (.inr (.inr rfl))
      exact conforms_reply (hlabels (by simp) (by simp)) hsent.symm hr (sim_idle rfl rfl)
    | _ =>
      obtain rfl := Except.ok.inj ho'
      exact conforms_quiet (hlabels (by simp) (by simp)) hsent.symm hsim
  | _ =>
    obtain rfl := Except.ok.inj ho'
    exact conforms_quiet (hlabels (by simp) (by simp)) hsent.symm hsim

/-- Every turn does what is proper for the request that waits. -/
theorem sim_of_step (hsim : Sim env d w) (h : Step env d e d') (hturn : Guarded InTurn w e.labels) :
    Conforms env w e d' := by
  cases hev : e.event with
  | apdu b rx =>
    rw [Entry.labels, hev] at hturn
    exact conforms_of_apdu hderive hsim h hev hturn.1
  | display step => exact conforms_of_display hderive henv hsim h hev
  | validate step => exact conforms_of_validate hderive henv hsim h hev
  | reset =>
    obtain ⟨-, -, -, o, hrun, rfl, hsent⟩ := h
    rw [hev] at hrun
    obtain rfl := Except.ok.inj hrun
    rw [Conforms, Entry.labels, hev, ← hsent]
    exact ⟨⟨trivial, trivial⟩, sim_idle rfl rfl⟩

end Callbacks

end Turns

/-! ## Every run -/

section Runs

variable {env : Env} (henv : env.Sound) (hderive : ∀ path, ∃ bytes, env.derive path = .ok bytes)
  {t : List Entry} {d : Device} (hrun : Run Start (Step env) t d)
  (hturn : Guarded InTurn none (t.flatMap Entry.labels))

include henv hderive

theorem keypair_of_derive (account : UInt32) :
    ∃ kp, generate_keypair env.cx env.derive account = .ok kp := by
  obtain ⟨bytes, hbytes⟩ := hderive (bip32_path account)
  exact ⟨_, generate_keypair_eq henv.exact hbytes⟩

include hrun hturn

theorem conversation_of_run : Conversation (Answers env) Stray (t.flatMap Entry.labels) ∧
    Sim env d (pending (t.flatMap Entry.labels)) :=
  run_conversation (fun d (h0 : Start d) => sim_idle h0.1 rfl)
    (fun _ _ _ _ hsim hs hnow => sim_of_step (keypair_of_derive henv hderive) henv hsim hs hnow)
    hrun hturn

end Runs

/-- There is a run, with any past and any stack, in which `r` is the reply to `q`, with or
without consent. -/
def Replies (env : Env) (q : Apdu) (consent : Bool) (r : List UInt8) : Prop :=
  ∃ t d l₁ mid l₂, Run Start (Step env) t d ∧ Guarded InTurn none (t.flatMap Entry.labels) ∧
    t.flatMap Entry.labels = l₁ ++ .request q :: (mid ++ .reply r :: l₂) ∧
    (∀ x ∈ mid, x = .consent) ∧ consent = !mid.isEmpty

theorem Replies.answers {env : Env} (henv : env.Sound)
    (hderive : ∀ path, ∃ bytes, env.derive path = .ok bytes) {q : Apdu} {consent : Bool}
    {r : List UInt8} (h : Replies env q consent r) : Answers env q consent r := by
  obtain ⟨t, d, l₁, mid, l₂, hrun, hturn, hlabels, hmid, rfl⟩ := h
  have hconv := (conversation_of_run henv hderive hrun hturn).1
  rw [hlabels] at hconv
  exact hconv.answered hmid

/-- A request in a clean buffer. -/
def apduOf (ins : UInt8) (data : List UInt8) (h255 : data.length ≤ 255) : Apdu :=
  ⟨requestBuffer ins data h255 0, data.length + APDU_HEADER_LEN⟩

/-- A request whose account owns its `from` text, Approve, and the timer of "Signing...". -/
theorem signing_run (env : Env) {data : List UInt8} (h255 : data.length ≤ 255)
    (hlen : data.length = 172) (hacc : Acceptable env.sha256 cleanStack data 172)
    (hsigned : ∀ tx ui, Parsed cleanStack data tx ui →
      ∃ _tx sig, trySign env cleanStack tx ui = .ok (_tx, some sig)) :
    ∃ t d e d' sig, Run Start (Step env) t d ∧ Step env d e d' ∧
      t.flatMap Entry.labels = [.request (apduOf INS_SIGN_TX data h255), .consent] ∧
      e.labels = [.reply (Signature.bytes sig ++ [0x90, 0x00])] := by
  obtain ⟨e₁, d₁, e₂, d₂, h₁, h₂, ⟨hev₁, hsent₁⟩, ⟨hev₂, hsent₂⟩, hflow, -, hP⟩ :=
    review_run env cleanStack .boot h255 hlen hacc 0
  obtain ⟨_tx, sig, hsig⟩ := hsigned _ _ hP
  have hen : Enabled d₂ (.validate .ux_sign_tx_comfort_flow_signing_step) :=
    ⟨by rw [hflow]; exact List.mem_singleton.mpr rfl, by simp⟩
  refine ⟨[e₁, e₂], d₂, _, _, sig, ((Run.nil (show Start .boot from ⟨rfl, rfl⟩)).snoc h₁).snoc h₂,
    step_of_app_main (app_main_signed hsig) hen, ?_, rfl⟩
  rw [List.flatMap_cons, List.flatMap_cons, List.flatMap_nil, Entry.labels, hev₁, hsent₁,
    Entry.labels, hev₂, hsent₂]
  rfl

/-- The request of the own account: its signature is 66 bytes with the status. -/
theorem unit_run : ∃ t d q r, Run Start (Step unitEnv) t d ∧
    Guarded InTurn none (t.flatMap Entry.labels) ∧
    t.flatMap Entry.labels = [.request q, .consent] ++ [.reply r] ∧ r.length = 66 := by
  obtain ⟨t, d, e, d', sig, hrun, h₃, hlabels, hlast⟩ := signing_run unitEnv length_unitRequest_le
    length_unitRequest (acceptable_unitRequest cleanStack) fun _ _ hP => unitRequest_signed hP _
  have hall : (t ++ [e]).flatMap Entry.labels =
      [.request (apduOf INS_SIGN_TX unitRequest length_unitRequest_le), .consent] ++
        [.reply (Signature.bytes sig ++ [0x90, 0x00])] := by
    rw [List.flatMap_append, hlabels, List.flatMap_singleton, hlast]
  refine ⟨t ++ [e], d', _, _, hrun.snoc h₃, ?_, hall, by simp [Signature.bytes]⟩
  rw [hall]
  exact ⟨rfl, trivial, trivial, trivial⟩

/-- More than a version and a status: an address or a signature. -/
def Discloses (r : List UInt8) : Bool := 5 < r.length

theorem plain_of_answers {env : Env} {q : Apdu} {r : List UInt8} (h : Answers env q false r) :
    Discloses r = false := by
  cases h with
  | conf =>
    rw [Discloses, List.length_append, Vector.length_toList]
    rfl
  | _ => rfl

/-- In every run there are at most as many addresses and signatures as presses of Approve. -/
theorem disclosures_counted {env : Env} (henv : env.Sound)
    (hderive : ∀ path, ∃ bytes, env.derive path = .ok bytes) {t : List Entry} {d : Device}
    (hrun : Run Start (Step env) t d) (hturn : Guarded InTurn none (t.flatMap Entry.labels)) :
    (t.flatMap Entry.labels).countP (Label.isReply Discloses) ≤
      (t.flatMap Entry.labels).countP Label.isConsent := by
  have hconv := (conversation_of_run henv hderive hrun hturn).1
  refine hconv.count_le (fun q r hr => plain_of_answers hr) fun r hr => ?_
  obtain rfl : r = [0x68, 0x02] := hr
  rfl

/-- The request of the own account: one press, and one signature. -/
theorem disclosures_counted_unit : ∃ t d, Run Start (Step unitEnv) t d ∧
    (t.flatMap Entry.labels).countP (Label.isReply Discloses) = 1 ∧
    (t.flatMap Entry.labels).countP (Label.isReply Discloses) ≤
      (t.flatMap Entry.labels).countP Label.isConsent := by
  obtain ⟨t, d, q, r, hrun, hturn, hall, h66⟩ := unit_run
  refine ⟨t, d, hrun, ?_,
    disclosures_counted unitEnv_sound (fun _ => ⟨ofNum 1, rfl⟩) hrun hturn⟩
  have hlong : Discloses r = true := by
    rw [Discloses, h66]
    rfl
  rw [hall]
  simp [Label.isReply, hlong]

/-! ## The user can always answer -/

/-- A press or a timer, and the stack its code finds. -/
def CallbackOn (st : Nat → Stale) (e : Entry) : Prop := Callback e ∧ e.st = st

section Answering

variable {env : Env} (henv : env.Sound) (hderive : ∀ path, ∃ bytes, env.derive path = .ok bytes)

include henv hderive

/-- A press or a timer that sends one reply. -/
theorem answered_by (st : Nat → Stale) {d : Device} {q : Apdu} {consent : Bool}
    (hsim : Sim env d (some (q, consent))) {step : UxStep} {o : Outcome}
    (hen : Enabled d (.validate step))
    (h1 : step ≠ .ux_sign_tx_flow_step .approve)
    (h2 : step ≠ .ux_get_address_result_flow_approve_step)
    (hrun : app_main env st d (.validate step) = .ok o) {r : List UInt8} (hsent : o.sent = [r]) :
    ∃ e d', CallbackOn st e ∧ Step env d e d' ∧ e.labels = [.reply r] ∧ Answers env q consent r := by
  have hstep := step_of_app_main hrun hen
  have hlabels := labels_callback (.inr rfl) h1 h2 (e := ⟨st, .validate step, d, o.device, o.sent⟩)
  rw [show Entry.sent ⟨st, .validate step, d, o.device, o.sent⟩ = [r] from hsent] at hlabels
  have hconf := conforms_of_validate (keypair_of_derive henv hderive) henv hsim hstep rfl
  rw [Conforms, hlabels] at hconf
  obtain ⟨⟨hr, -⟩, -⟩ := hconf
  exact ⟨_, _, ⟨⟨step, .inr rfl⟩, rfl⟩, hstep, hlabels, hr⟩

/-- Cancel or Reject. -/
theorem refusal (st : Nat → Stale) {d : Device} {q : Apdu} {consent : Bool}
    (hsim : Sim env d (some (q, consent))) {step : UxStep} (hmem : step ∈ d.flow.steps)
    (hstep : step = .ux_get_address_flow_cancel_step ∨
      step = .ux_get_address_result_flow_reject_step ∨ step = .ux_sign_tx_flow_step .reject) :
    ∃ e d', CallbackOn st e ∧ Step env d e d' ∧ e.labels = [.reply [0x69, 0x85]] ∧
      Answers env q consent [0x69, 0x85] := by
  rcases hstep with rfl | rfl | rfl <;>
    exact answered_by henv hderive st hsim ⟨hmem, by simp⟩ (by simp) (by simp)
      (show app_main env st d _ = .ok (sendResponse d [] false) from rfl) rfl

/-- The timer of the processing step shows the address. -/
theorem processed (st : Nat → Stale) {d : Device} {q : Apdu} {consent : Bool}
    (hsim : Sim env d (some (q, consent))) (hflow : d.flow = .ux_get_address_comfort_flow) :
    ∃ e d', CallbackOn st e ∧ Step env d e d' ∧ e.labels = [] ∧
      d'.flow = .ux_get_address_result_flow ∧ Sim env d' (some (q, consent)) := by
  unfold Sim at hsim
  rw [hflow] at hsim
  obtain ⟨q', heq, hpending⟩ := hsim
  obtain ⟨rfl, rfl⟩ := Prod.mk.inj (Option.some.inj heq)
  obtain ⟨o, ho⟩ := gen_address_returns henv st { d with flow := .ux_get_address_result_flow }
  obtain ⟨⟨hthrown, hnone⟩, hflow', hsim'⟩ :=
    address_shown (keypair_of_derive henv hderive) hpending ho
  have hrun : app_main env st d (.validate .ux_get_address_comfort_flow_processing_step) = .ok o := by
    change (gen_address env st { d with flow := .ux_get_address_result_flow } >>= _) = _
    rw [ho, ok_bind, duringExchange, hthrown]
    rfl
  have hen : Enabled d (.validate .ux_get_address_comfort_flow_processing_step) :=
    ⟨by rw [hflow]; exact List.mem_singleton.mpr rfl, by simp⟩
  refine ⟨_, _, ⟨⟨_, .inr rfl⟩, rfl⟩, step_of_app_main hrun hen, ?_, hflow', hsim'⟩
  rw [labels_callback (.inr rfl) (by simp) (by simp), hnone]
  rfl

/-- What the user can do about the request that waits. -/
theorem answerable (st : Nat → Stale) {d : Device} {q : Apdu} {consent : Bool}
    (hsim : Sim env d (some (q, consent))) (hne : d.flow ≠ .ux_get_address_comfort_flow) :
    ∃ e d' r, CallbackOn st e ∧ Step env d e d' ∧ e.labels = [.reply r] ∧ Answers env q consent r ∧
      (consent = false → r = [0x69, 0x85]) := by
  have hflows := hsim
  unfold Sim at hflows
  cases hflow : d.flow with
  | ux_idle_flow => rw [hflow] at hflows; cases hflows
  | ux_sign_tx_done_flow => rw [hflow] at hflows; cases hflows.1
  | ux_get_address_comfort_flow => exact absurd hflow hne
  | ux_get_address_flow =>
    obtain ⟨e, d', hcall, hs, hl, hr⟩ := refusal henv hderive st hsim
      (show .ux_get_address_flow_cancel_step ∈ d.flow.steps by rw [hflow]; simp [Flow.steps])
      (.inl rfl)
    exact ⟨e, d', _, hcall, hs, hl, hr, fun _ => rfl⟩
  | ux_get_address_result_flow =>
    obtain ⟨e, d', hcall, hs, hl, hr⟩ := refusal henv hderive st hsim
      (show .ux_get_address_result_flow_reject_step ∈ d.flow.steps by rw [hflow]; simp [Flow.steps])
      (.inr (.inl rfl))
    exact ⟨e, d', _, hcall, hs, hl, hr, fun _ => rfl⟩
  | ux_sign_tx_flow steps =>
    rw [hflow] at hflows
    obtain ⟨_, -, -, hsteps⟩ := hflows
    have hmem : SignStep.reject ∈ steps := by
      rw [hsteps, flowOf, ux_sign_tx_flow_eq]
      simp
    obtain ⟨e, d', hcall, hs, hl, hr⟩ := refusal henv hderive st hsim
      (show .ux_sign_tx_flow_step .reject ∈ d.flow.steps by
        rw [hflow]; exact List.mem_map_of_mem hmem) (.inr (.inr rfl))
    exact ⟨e, d', _, hcall, hs, hl, hr, fun _ => rfl⟩
  | ux_sign_tx_comfort_flow =>
    rw [hflow] at hflows
    obtain ⟨_, heq, -⟩ := hflows
    obtain ⟨-, rfl⟩ := Prod.mk.inj (Option.some.inj heq)
    have hen : Enabled d (.validate .ux_sign_tx_comfort_flow_signing_step) :=
      ⟨by rw [hflow]; exact List.mem_singleton.mpr rfl, by simp⟩
    obtain ⟨o, ho⟩ := app_main_returns henv st d (.validate .ux_sign_tx_comfort_flow_signing_step)
    obtain ⟨r, hsent⟩ : ∃ r, o.sent = [r] := by
      rcases signature_sent henv ho with ⟨_, sig, -, -, -, -, hsent, -⟩ | ⟨-, hsent, -⟩
      · exact ⟨_, hsent⟩
      · exact ⟨_, hsent⟩
    obtain ⟨e, d', hcall, hs, hl, hr⟩ := answered_by henv hderive st hsim hen (by simp) (by simp) ho
      hsent
    exact ⟨e, d', r, hcall, hs, hl, hr, fun h => by cases h⟩

end Answering

end MinaLedger
