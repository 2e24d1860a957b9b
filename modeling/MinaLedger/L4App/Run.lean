import MinaLedger.L4App.Main
import MinaLedger.Lib.Trace

/-!
# Runs of the device

The event loop as a transition system: an event of the SDK, what `app_main` made
of it and what it sent. Requests arrive with any bytes and at any time, steps are
shown and pressed in any order the current flow allows.

Results:
* `turn_of_step`: the eleven things one turn of the loop can be (`Turn`), from
  which every invariant of the runs is derived.
* `step_exists`: every enabled event has its turn.
-/
namespace MinaLedger
open Lib.Trace

/-- One turn of the loop: the event, the stack it found, the states around it and
what was sent. -/
structure Entry where
  st : Nat → Stale
  event : Event
  before : Device
  after : Device
  sent : List (List UInt8)

/-- The instruction and the data, if the event is a request with a right header. -/
def Entry.command (e : Entry) : Option (UInt8 × List UInt8) :=
  match e.event with
  | .apdu buffer rx => MinaLedger.command buffer rx
  | _ => none

/-- `app_main` turns `d` into `d'` as the entry says. -/
structure Step (env : Env) (d : Device) (e : Entry) (d' : Device) : Prop where
  before : e.before = d
  after : e.after = d'
  enabled : Enabled d e.event
  turn : ∃ o, app_main env e.st d e.event = .ok o ∧ o.device = d' ∧ o.sent = e.sent

/-- The application starts with the idle flow; its static variables may hold anything. -/
def Start (d : Device) : Prop := d.flow = .ux_idle_flow ∧ d.flags = false

theorem step_exists {env : Env} (h : env.Sound) (st : Nat → Stale) {d : Device} {ev : Event}
    (hev : Enabled d ev) : ∃ e d', e.event = ev ∧ e.st = st ∧ Step env d e d' := by
  obtain ⟨o, ho⟩ := app_main_returns h st d ev
  exact ⟨⟨st, ev, d, o.device, o.sent⟩, o.device, rfl, rfl, rfl, rfl, hev, o, ho, rfl, rfl⟩

/-! ## What one turn can be -/

/-- A reply to a request that touches neither key: a status, or the version and 0x9000. -/
def Plain (env : Env) (r : List UInt8) : Prop :=
  r.length = 2 ∨ r = env.version.toList ++ [0x90, 0x00]

/-- An address request that `handle_get_address` accepts. -/
def AddressRequest (e : Entry) : Prop :=
  ∃ data, e.command = some (INS_GET_ADDR, data) ∧ data.length = 4

/-- A request that reaches `handle_sign_tx`. -/
def SignRequest (e : Entry) : Prop := ∃ data, e.command = some (INS_SIGN_TX, data)

/-- Neither of the two. -/
def OtherEvent (e : Entry) : Prop := ¬AddressRequest e ∧ ¬SignRequest e

/-- A step is shown or pressed. -/
def Callback (e : Entry) : Prop := ∃ step, e.event = .display step ∨ e.event = .validate step

/-- What an event can do to a device in state `d`. -/
inductive Turn (env : Env) (d : Device) (e : Entry) : Prop
  /-- a request answered at once, with the current flow left on screen -/
  | answered (hev : ∃ b rx, e.event = .apdu b rx) (cmd : OtherEvent e) {reply : List UInt8}
      (plain : Plain env reply) (sent : e.sent = [reply])
      (after : e.after = { d with flags := false })
  /-- a request refused with 0x6802: the idle flow is next -/
  | refused (hev : ∃ b rx, e.event = .apdu b rx) (sent : e.sent = [[0x68, 0x02]])
      (after : e.after.flow = .ux_idle_flow)
  | addressRequest {data : List UInt8} (cmd : e.command = some (INS_GET_ADDR, data))
      (four : data.length = 4) {account : UInt32} {path : Vector UInt8 27}
      {address : Vector UInt8 MINA_ADDRESS_LEN} (haccount : account.toNat = Lib.Radix.beVal data)
      (sent : e.sent = [])
      (after : e.after = { d with
        flow := .ux_get_address_flow, _generated := false, _account := account,
        _bip44_path := path, _address := address, flags := true })
  | signRequest {data : List UInt8} (cmd : e.command = some (INS_SIGN_TX, data))
      {steps : List SignStep} {_tx : tx_t} {_ui : ui_t}
      (parsed : handle_sign_tx env.sha256 e.st data (UInt8.ofNat data.length) d._tx d._ui =
        .ok (some steps, _tx, _ui))
      (sent : e.sent = [])
      (after : e.after = { d with
        _tx := _tx, _ui := _ui, flow := .ux_sign_tx_flow steps, flags := true })
  /-- a step without code -/
  | drawn (hev : Callback e) (sent : e.sent = []) (after : e.after = d)
  /-- Cancel or Reject -/
  | rejected (hev : Callback e) (sent : e.sent = [[0x69, 0x85]]) (after : e.after = ui_idle d)
  | generate (hev : e.event = .validate .ux_get_address_flow_generate_step)
      (flow : d.flow = .ux_get_address_flow) (sent : e.sent = [])
      (after : e.after = { d with flow := .ux_get_address_comfort_flow })
  /-- the address step comes on screen, for the first time or again -/
  | address (hev : e.event = .validate .ux_get_address_comfort_flow_processing_step ∧
        d.flow = .ux_get_address_comfort_flow ∨
      e.event = .display .ux_get_address_result_flow_address_step ∧
        d.flow = .ux_get_address_result_flow)
      {o : Outcome}
      (run : gen_address env e.st { d with flow := .ux_get_address_result_flow } = .ok o)
      (sent : e.sent = (duringExchange o).sent) (after : e.after = (duringExchange o).device)
  | addressApproved (hev : e.event = .validate .ux_get_address_result_flow_approve_step)
      (flow : d.flow = .ux_get_address_result_flow)
      (sent : e.sent = [d._address.toList ++ [0x90, 0x00]]) (after : e.after = ui_idle d)
  | approved (hev : e.event = .validate (.ux_sign_tx_flow_step .approve)) {steps : List SignStep}
      (flow : d.flow = .ux_sign_tx_flow steps) (sent : e.sent = [])
      (after : e.after = { d with flow := .ux_sign_tx_comfort_flow })
  /-- the "Done" step comes on screen, for the first time or again -/
  | sign (hev : e.event = .validate .ux_sign_tx_comfort_flow_signing_step ∧
        d.flow = .ux_sign_tx_comfort_flow ∨
      e.event = .display .ux_sign_tx_done_flow_done_step ∧ d.flow = .ux_sign_tx_done_flow)
      {o : Outcome}
      (run : sign_transaction env e.st { d with flow := .ux_sign_tx_done_flow } = .ok o)
      (sent : e.sent = (duringExchange o).sent) (after : e.after = (duringExchange o).device)
  | reset (hev : e.event = .reset) (sent : e.sent = []) (after : e.after = restart d)

/-- The steps with code belong to one flow each. -/
theorem flow_of_mem {f : Flow} {step : UxStep} (h : step ∈ f.steps) :
    (step = .ux_get_address_flow_generate_step → f = .ux_get_address_flow) ∧
    (step = .ux_get_address_comfort_flow_processing_step → f = .ux_get_address_comfort_flow) ∧
    (step = .ux_get_address_result_flow_address_step ∨
      step = .ux_get_address_result_flow_approve_step → f = .ux_get_address_result_flow) ∧
    (step = .ux_sign_tx_flow_step .approve → ∃ steps, f = .ux_sign_tx_flow steps) ∧
    (step = .ux_sign_tx_comfort_flow_signing_step → f = .ux_sign_tx_comfort_flow) ∧
    (step = .ux_sign_tx_done_flow_done_step → f = .ux_sign_tx_done_flow) := by
  cases f with
  | ux_sign_tx_flow steps =>
    obtain ⟨s, -, rfl⟩ := List.mem_map.mp h
    exact ⟨nofun, nofun, nofun, fun _ => ⟨steps, rfl⟩, nofun, nofun⟩
  | ux_idle_flow | ux_get_address_result_flow =>
    simp only [Flow.steps, List.mem_cons, List.not_mem_nil, or_false] at h
    rcases h with rfl | rfl | rfl <;> simp
  | ux_get_address_flow =>
    simp only [Flow.steps, List.mem_cons, List.not_mem_nil, or_false] at h
    rcases h with rfl | rfl | rfl | rfl <;> simp
  | ux_get_address_comfort_flow | ux_sign_tx_comfort_flow | ux_sign_tx_done_flow =>
    obtain rfl := List.mem_singleton.mp h
    simp

section Inversion

variable {env : Env} {d d' : Device} {e : Entry}

theorem otherEvent_of_none (h : e.command = none) : OtherEvent e := by
  constructor
  · rintro ⟨data, hdata, -⟩
    rw [h] at hdata; cases hdata
  · rintro ⟨data, hdata⟩
    rw [h] at hdata; cases hdata

theorem otherEvent_of_callback (h : Callback e) : OtherEvent e := by
  obtain ⟨step, hev | hev⟩ := h
  · exact otherEvent_of_none (by rw [Entry.command, hev])
  · exact otherEvent_of_none (by rw [Entry.command, hev])

/-- What `app_main` does with the outcome of `handleApdu`. -/
theorem sent_of_handleApdu {b : ApduBuffer} {rx : Nat} (hev : e.event = .apdu b rx)
    (h : Step env d e d') (h0 : rx ≠ 0) (h260 : ¬rx > 260) {o : Device} {reply : List UInt8}
    (hr : handleApdu env e.st { d with flags := false } b rx = .ok ({ device := o }, reply)) :
    e.after = o ∧ e.sent = if o.flags then [] else [reply] := by
  obtain ⟨-, hafter, -, r, hrun, rfl, hsent⟩ := h
  rw [hev, app_main, if_neg h0, if_neg h260, hr] at hrun
  obtain rfl := Except.ok.inj hrun
  exact ⟨hafter, hsent.symm⟩

theorem turn_of_apdu {b : ApduBuffer} {rx : Nat} (hev : e.event = .apdu b rx)
    (h : Step env d e d') : Turn env d e := by
  have hcmd : e.command = command b rx := by rw [Entry.command, hev]
  have hother : ∀ {ins data}, command b rx = some (ins, data) → ins ≠ INS_SIGN_TX →
      (ins ≠ INS_GET_ADDR ∨ data.length ≠ 4) → OtherEvent e := by
    intro ins data hc h3 h2
    rw [hc] at hcmd
    refine ⟨fun ⟨data', h', h4⟩ => ?_, fun ⟨data', h'⟩ => ?_⟩
    · obtain ⟨rfl, rfl⟩ := Prod.mk.inj (Option.some.inj (hcmd.symm.trans h'))
      exact h2.elim (fun h => h rfl) fun h => h h4
    · exact h3 (Prod.mk.inj (Option.some.inj (hcmd.symm.trans h'))).1
  have hnone : command b rx = none → OtherEvent e := fun hc => otherEvent_of_none (hcmd.trans hc)
  -- nothing received, or more than the buffer holds
  have hlc := b[4].toNat_lt
  by_cases h0 : rx = 0
  · have hc : command b rx = none := by rw [command, if_neg (by unfold APDU_HEADER_LEN; omega)]
    obtain ⟨-, hafter, -, o, hrun, rfl, hsent⟩ := h
    rw [hev, app_main, if_pos h0] at hrun
    obtain rfl := Except.ok.inj hrun
    exact .answered ⟨b, rx, hev⟩ (hnone hc) (.inl rfl) hsent.symm hafter
  by_cases h260 : rx > 260
  · have hc : command b rx = none := by rw [command, if_neg (by unfold APDU_HEADER_LEN; omega)]
    obtain ⟨-, hafter, -, o, hrun, rfl, hsent⟩ := h
    rw [hev, app_main, if_neg h0, if_pos h260] at hrun
    obtain rfl := Except.ok.inj hrun
    exact .answered ⟨b, rx, hev⟩ (hnone hc) (.inl rfl) hsent.symm hafter
  cases hc : command b rx with
  | none =>
    obtain ⟨hafter, hsent⟩ := sent_of_handleApdu hev h h0 h260 (handleApdu_none _ _ hc)
    exact .answered ⟨b, rx, hev⟩ (hnone hc) (.inl rfl) hsent hafter
  | some c =>
    obtain ⟨ins, data⟩ := c
    by_cases h3 : ins = INS_SIGN_TX
    · subst h3
      obtain ⟨r, _tx, _ui, hr⟩ := @handle_sign_tx_returns env e.st _ _ _ _ hc d._tx d._ui
      cases r with
      | none =>
        obtain ⟨hafter, hsent⟩ := sent_of_handleApdu hev h h0 h260 (handleApdu_sign_refused _ _ hc hr)
        exact .refused ⟨b, rx, hev⟩ hsent (by rw [hafter]; rfl)
      | some steps =>
        obtain ⟨hafter, hsent⟩ := sent_of_handleApdu hev h h0 h260 (handleApdu_sign _ _ hc hr)
        exact .signRequest (hcmd.trans hc) hr hsent hafter
    by_cases h2 : ins = INS_GET_ADDR
    · subst h2
      by_cases h4 : data.length = 4
      · obtain ⟨account, path, address, haccount, -, hr⟩ :=
          @handleApdu_addr env e.st { d with flags := false } _ _ _ hc h4
        obtain ⟨hafter, hsent⟩ := sent_of_handleApdu hev h h0 h260 hr
        exact .addressRequest (hcmd.trans hc) h4 haccount hsent hafter
      · obtain ⟨hafter, hsent⟩ :=
          sent_of_handleApdu hev h h0 h260 (handleApdu_addr_refused _ _ hc h4)
        exact .refused ⟨b, rx, hev⟩ hsent (by rw [hafter]; rfl)
    by_cases h1 : ins = INS_GET_CONF
    · subst h1
      obtain ⟨hafter, hsent⟩ := sent_of_handleApdu hev h h0 h260 (handleApdu_conf _ _ hc)
      exact .answered ⟨b, rx, hev⟩ (hother hc h3 (.inl h2)) (.inr rfl) hsent hafter
    · obtain ⟨hafter, hsent⟩ := sent_of_handleApdu hev h h0 h260 (handleApdu_unknown _ _ hc h1 h2 h3)
      exact .answered ⟨b, rx, hev⟩ (hother hc h3 (.inl h2)) (.inl rfl) hsent hafter

theorem turn_of_display {step : UxStep} (hev : e.event = .display step) (h : Step env d e d') :
    Turn env d e := by
  have hcall : Callback e := ⟨step, .inl hev⟩
  obtain ⟨-, hafter, hen, o, hrun, rfl, hsent⟩ := h
  rw [hev] at hrun hen
  obtain ⟨-, -, haddress, -, -, hdone⟩ := flow_of_mem hen
  obtain ⟨o', ho', hrun⟩ := bind_ok hrun
  obtain rfl := Except.ok.inj hrun
  cases step with
  | ux_get_address_result_flow_address_step =>
    have hflow := haddress (.inl rfl)
    exact .address (.inr ⟨hev, hflow⟩) (by rw [← hflow]; exact ho') hsent.symm hafter
  | ux_sign_tx_done_flow_done_step =>
    have hflow := hdone rfl
    exact .sign (.inr ⟨hev, hflow⟩) (by rw [← hflow]; exact ho') hsent.symm hafter
  | _ =>
    obtain rfl := Except.ok.inj ho'
    exact .drawn hcall hsent.symm hafter

theorem turn_of_validate {step : UxStep} (hev : e.event = .validate step) (h : Step env d e d') :
    Turn env d e := by
  have hcall : Callback e := ⟨step, .inr hev⟩
  obtain ⟨-, hafter, hen, o, hrun, rfl, hsent⟩ := h
  rw [hev] at hrun hen
  obtain ⟨hgenerate, hprocessing, hresult, happrove, hsigning, -⟩ := flow_of_mem hen.1
  obtain ⟨o', ho', hrun⟩ := bind_ok hrun
  obtain rfl := Except.ok.inj hrun
  cases step with
  | ux_get_address_flow_generate_step =>
    obtain rfl := Except.ok.inj ho'
    exact .generate hev (hgenerate rfl) hsent.symm hafter
  | ux_get_address_comfort_flow_processing_step =>
    exact .address (.inl ⟨hev, hprocessing rfl⟩) ho' hsent.symm hafter
  | ux_get_address_result_flow_approve_step =>
    obtain rfl := Except.ok.inj ho'
    exact .addressApproved hev (hresult (.inr rfl)) hsent.symm hafter
  | ux_sign_tx_comfort_flow_signing_step =>
    exact .sign (.inl ⟨hev, hsigning rfl⟩) ho' hsent.symm hafter
  | ux_get_address_flow_cancel_step | ux_get_address_result_flow_reject_step =>
    obtain rfl := Except.ok.inj ho'
    exact .rejected hcall hsent.symm hafter
  | ux_sign_tx_flow_step s =>
    cases s with
    | approve =>
      obtain rfl := Except.ok.inj ho'
      obtain ⟨steps, hflow⟩ := happrove rfl
      exact .approved hev hflow hsent.symm hafter
    | reject =>
      obtain rfl := Except.ok.inj ho'
      exact .rejected hcall hsent.symm hafter
    | _ =>
      obtain rfl := Except.ok.inj ho'
      exact .drawn hcall hsent.symm hafter
  | _ =>
    obtain rfl := Except.ok.inj ho'
    exact .drawn hcall hsent.symm hafter

theorem turn_of_step (h : Step env d e d') : Turn env d e := by
  cases hev : e.event with
  | apdu b rx => exact turn_of_apdu hev h
  | display step => exact turn_of_display hev h
  | validate step => exact turn_of_validate hev h
  | reset =>
    obtain ⟨-, hafter, -, o, ho, rfl, hsent⟩ := h
    rw [hev] at ho
    obtain rfl := Except.ok.inj ho
    exact .reset hev hsent.symm hafter

end Inversion

/-! ## A review from the request to Approve -/

theorem step_of_app_main {env : Env} {st : Nat → Stale} {d : Device} {ev : Event} {o : Outcome}
    (h : app_main env st d ev = .ok o) (hev : Enabled d ev) :
    Step env d ⟨st, ev, d, o.device, o.sent⟩ o.device :=
  ⟨rfl, rfl, hev, o, h, rfl, rfl⟩

/-- The timer of "Signing...": the signature goes out and the idle flow is back. -/
theorem app_main_signed {env : Env} {st : Nat → Stale} {d : Device} {_tx : tx_t} {sig : Signature}
    (h : trySign env st d._tx d._ui = .ok (_tx, some sig)) :
    app_main env st d (.validate .ux_sign_tx_comfort_flow_signing_step) =
      .ok (sendResponse { d with _tx := _tx, flow := .ux_sign_tx_done_flow } sig.bytes true) := by
  have hsign : sign_transaction env st { d with flow := .ux_sign_tx_done_flow } =
      .ok (sendResponse { d with _tx := _tx, flow := .ux_sign_tx_done_flow } sig.bytes true) := by
    rw [sign_transaction, h]; rfl
  change (sign_transaction env st { d with flow := .ux_sign_tx_done_flow } >>= _) = _
  rw [hsign]; rfl

/-- Or the exception is answered by `app_main`, which leaves the flow as it is. -/
theorem app_main_unsigned {env : Env} {st : Nat → Stale} {d : Device} {_tx : tx_t}
    (h : trySign env st d._tx d._ui = .ok (_tx, none)) :
    app_main env st d (.validate .ux_sign_tx_comfort_flow_signing_step) =
      .ok { device := { d with _tx := _tx, flow := .ux_sign_tx_done_flow, flags := false }
            sent := [[0x68, 0x02]] } := by
  have hsign : sign_transaction env st { d with flow := .ux_sign_tx_done_flow } =
      .ok { device := { d with _tx := _tx, flow := .ux_sign_tx_done_flow }
            thrown := some INVALID_PARAMETER } := by
    rw [sign_transaction, h]; rfl
  change (sign_transaction env st { d with flow := .ux_sign_tx_done_flow } >>= _) = _
  rw [hsign]; rfl

/-- The "Done" step comes up again, and runs the same code. -/
theorem app_main_done {env : Env} {st : Nat → Stale} {d : Device} (hflow : d.flow = .ux_sign_tx_done_flow) :
    app_main env st d (.display .ux_sign_tx_done_flow_done_step) =
      app_main env st d (.validate .ux_sign_tx_comfort_flow_signing_step) := by
  change (sign_transaction env st d >>= _) =
    (sign_transaction env st { d with flow := .ux_sign_tx_done_flow } >>= _)
  rw [← hflow]

theorem approve_mem (n t v m : Bool) : SignStep.approve ∈ ux_sign_tx_flow n t v m := by
  rw [ux_sign_tx_flow_eq]; simp

/-- An acceptable request starts its flow from every state, and Approve can be pressed on
it; nothing is sent by then, and `_tx` and `_ui` are those of the request. -/
theorem review_run (env : Env) (st : Nat → Stale) (d : Device) {data : List UInt8}
    (h255 : data.length ≤ 255) (hlen : data.length = 172) (hacc : Acceptable env.sha256 st data 172)
    (fill : UInt8) :
    ∃ e₁ d₁ e₂ d₂, Step env d e₁ d₁ ∧ Step env d₁ e₂ d₂ ∧
      (e₁.event = .apdu (requestBuffer INS_SIGN_TX data h255 fill) (data.length + APDU_HEADER_LEN) ∧
        e₁.sent = []) ∧
      (e₂.event = .validate (.ux_sign_tx_flow_step .approve) ∧ e₂.sent = []) ∧
      d₂.flow = .ux_sign_tx_comfort_flow ∧ d₂.flags = true ∧ Parsed st data d₂._tx d₂._ui := by
  have hcmd := command_requestBuffer INS_SIGN_TX h255 fill
  have h172 : UInt8.ofNat data.length = 172 := by rw [hlen]; rfl
  have hrx : ¬data.length + APDU_HEADER_LEN > 260 := by unfold APDU_HEADER_LEN; omega
  obtain ⟨r, _tx, _ui, hr, hnone, hshown⟩ := handle_sign_tx_spec env.sha256 st (le_of_eq hlen.symm) 172
    d._tx d._ui
  rw [← h172] at hr
  cases r with
  | none => exact absurd hacc (hnone.mp rfl)
  | some steps =>
    have hs := hshown steps rfl
    have hsign := handleApdu_sign st { d with flags := false } hcmd hr
    have happrove : UxStep.ux_sign_tx_flow_step .approve ∈ (Flow.ux_sign_tx_flow steps).steps :=
      List.mem_map_of_mem (by rw [hs.flow]; exact approve_mem _ _ _ _)
    have hrun₁ : app_main env st d
        (.apdu (requestBuffer INS_SIGN_TX data h255 fill) (data.length + APDU_HEADER_LEN)) =
        .ok { device := { d with
          _tx := _tx, _ui := _ui, flow := .ux_sign_tx_flow steps, flags := true } } := by
      rw [app_main, if_neg (by simp [APDU_HEADER_LEN]), if_neg hrx, hsign]
      rfl
    have hrun₂ : ∀ d₁ : Device, app_main env st d₁ (.validate (.ux_sign_tx_flow_step .approve)) =
        .ok { device := { d₁ with flow := .ux_sign_tx_comfort_flow } } := fun d₁ => rfl
    exact ⟨_, _, _, _, step_of_app_main hrun₁ trivial,
      step_of_app_main (hrun₂ _) ⟨happrove, fun h => by cases h⟩, ⟨rfl, rfl⟩, ⟨rfl, rfl⟩, rfl, rfl,
      hs.parsed⟩

end MinaLedger
