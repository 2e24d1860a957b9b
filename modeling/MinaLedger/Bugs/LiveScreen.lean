import MinaLedger.L4App.Review
import MinaLedger.L4App.Run

/-!
# A screen outlives its request

A reply is produced in three places. `sendResponse` goes back to the idle flow,
and so does `handleApdu` for 0x6802; `app_main` answers an exception that leaves a
callback and does not touch the screen. `sign_transaction` throws INVALID_PARAMETER
when the account does not own the `from` address, and `gen_address` lets an
exception of the derivation pass: 0x6802 goes out, and the flow of the answered
request stays.

Counterexample: account 0 owns another address than the `from` of the request.
Approve, and the timer of "Signing...".

The condition (`screen_in_step`): no callback throws. It is exact step by step
(`inStep_iff`).
-/
namespace MinaLedger.Bugs.LiveScreen
open Lib.Trace

/-- The device, and whether a request still awaits its reply. -/
structure Pending where
  device : Device
  awaiting : Bool

/-- A request awaits its reply until one is sent or the connection is reset. -/
def awaits (before : Bool) (e : Entry) : Bool :=
  match e.event with
  | .apdu _ _ => e.sent.isEmpty
  | .reset => false
  | _ => before && e.sent.isEmpty

/-- A turn of the loop. The SDK delivers one request at a time. -/
structure PStep (env : Env) (s : Pending) (e : Entry) (s' : Pending) : Prop where
  step : Step env s.device e s'.device
  one : (∃ b rx, e.event = .apdu b rx) → s.awaiting = false
  awaiting : s'.awaiting = awaits s.awaiting e

def PStart (s : Pending) : Prop := Start s.device ∧ s.awaiting = false

/-- A flow is on screen exactly when a request awaits its reply. -/
def InStep (s : Pending) : Prop := s.device.flow ≠ .ux_idle_flow ↔ s.awaiting = true

/-- The account has a key that owns the `from` address, and what is hashed has a digest. -/
def Signs (env : Env) (d : Device) : Prop :=
  ∃ bytes, env.derive (bip32_path d._tx.account) = .ok bytes ∧
    env.addressOf (keypairOf bytes) = d._ui.from_.toList ∧ Digests env (keypairOf bytes).pub d._tx

/-- The address is there, or the account has a key. -/
def HasAddress (env : Env) (d : Device) : Prop :=
  d._generated = true ∨ ∃ bytes, env.derive (bip32_path d._account) = .ok bytes

/-- The code of the step throws nothing. -/
def Quiet (env : Env) (d : Device) : Event → Prop
  | .validate .ux_sign_tx_comfort_flow_signing_step | .display .ux_sign_tx_done_flow_done_step =>
    Signs env d
  | .validate .ux_get_address_comfort_flow_processing_step
  | .display .ux_get_address_result_flow_address_step => HasAddress env d
  | _ => True

/-! ## One turn -/

section Turns

variable {env : Env} {s s' : Pending} {e : Entry}

theorem inStep_idle (hflow : s.device.flow = .ux_idle_flow) (haw : s.awaiting = false) :
    InStep s := by simp [InStep, hflow, haw]

theorem inStep_busy (hflow : s.device.flow ≠ .ux_idle_flow) (haw : s.awaiting = true) :
    InStep s := by simp [InStep, hflow, haw]

/-- A flow that waits for a callback has a request behind it. -/
theorem InStep.awaiting (h : InStep s) {f : Flow} (hflow : s.device.flow = f)
    (hf : f ≠ .ux_idle_flow) : s.awaiting = true := h.mp (by rw [hflow]; exact hf)

theorem awaits_apdu {b : Bool} (h : ∃ buf rx, e.event = .apdu buf rx) :
    awaits b e = e.sent.isEmpty := by
  obtain ⟨buf, rx, hev⟩ := h
  rw [awaits, hev]

theorem awaits_callback {b : Bool} (h : Callback e) : awaits b e = (b && e.sent.isEmpty) := by
  obtain ⟨step, hev | hev⟩ := h <;> rw [awaits, hev]

/-- A button or a timer, with what it leaves of the pending request. -/
theorem PStep.of_validate {d d' : Device} {b : Bool} {step : UxStep} (h : Step env d e d')
    (hev : e.event = .validate step) : PStep env ⟨d, b⟩ e ⟨d', b && e.sent.isEmpty⟩ where
  step := h
  one := fun ⟨buf, rx, hapdu⟩ => by rw [hev] at hapdu; cases hapdu
  awaiting := (awaits_callback ⟨step, .inr hev⟩).symm

/-- Only a request has a command. -/
theorem apdu_of_command {c : UInt8 × List UInt8} (h : e.command = some c) :
    ∃ b rx, e.event = .apdu b rx := by
  unfold Entry.command at h
  split at h
  · exact ⟨_, _, ‹_›⟩
  · cases h

/-- The address step comes up again with the flow it started. -/
theorem app_main_address {st : Nat → Stale} {d : Device}
    (hflow : d.flow = .ux_get_address_result_flow) :
    app_main env st d (.display .ux_get_address_result_flow_address_step) =
      app_main env st d (.validate .ux_get_address_comfort_flow_processing_step) := by
  change (gen_address env st d >>= _) =
    (gen_address env st { d with flow := .ux_get_address_result_flow } >>= _)
  rw [← hflow]

/-- The two pieces of code that can throw, and when. -/
theorem noisy_cases {st : Nat → Stale} {d : Device} {ev : Event} (hen : Enabled d ev)
    (hq : ¬Quiet env d ev) :
    (∃ step, ev = .display step ∨ ev = .validate step) ∧ d.flow ≠ .ux_idle_flow ∧
    ((app_main env st d ev = app_main env st d (.validate .ux_sign_tx_comfort_flow_signing_step) ∧
        ¬Signs env d) ∨
      app_main env st d ev =
          app_main env st d (.validate .ux_get_address_comfort_flow_processing_step) ∧
        ¬HasAddress env d) := by
  cases ev with
  | apdu b rx => exact absurd trivial hq
  | reset => exact absurd trivial hq
  | display step =>
    obtain ⟨-, -, haddress, -, -, hdone⟩ := flow_of_mem hen
    cases step with
    | ux_sign_tx_done_flow_done_step =>
      have hflow := hdone rfl
      exact ⟨⟨_, .inl rfl⟩, by rw [hflow]; nofun, .inl ⟨app_main_done hflow, hq⟩⟩
    | ux_get_address_result_flow_address_step =>
      have hflow := haddress (.inl rfl)
      exact ⟨⟨_, .inl rfl⟩, by rw [hflow]; nofun, .inr ⟨app_main_address hflow, hq⟩⟩
    | _ => exact absurd trivial hq
  | validate step =>
    obtain ⟨-, hprocessing, -, -, hsigning, -⟩ := flow_of_mem hen.1
    cases step with
    | ux_sign_tx_comfort_flow_signing_step =>
      exact ⟨⟨_, .inr rfl⟩, by rw [hsigning rfl]; nofun, .inl ⟨rfl, hq⟩⟩
    | ux_get_address_comfort_flow_processing_step =>
      exact ⟨⟨_, .inr rfl⟩, by rw [hprocessing rfl]; nofun, .inr ⟨rfl, hq⟩⟩
    | _ => exact absurd trivial hq

section Quiet

variable (hcx : env.cx.Exact)

include hcx

/-- The address is generated, or was before: nothing is sent. -/
theorem gen_address_quiet {st : Nat → Stale} {d : Device} {o : Outcome} (hq : HasAddress env d)
    (run : gen_address env st d = .ok o) :
    (duringExchange o).device.flow = d.flow ∧ (duringExchange o).sent = [] := by
  rcases gen_address_spec run with ⟨-, rfl⟩ | ⟨-, kp, address, -, -, rfl⟩ | ⟨hgen, c, he, rfl⟩
  · exact ⟨rfl, rfl⟩
  · exact ⟨rfl, rfl⟩
  · obtain ⟨bytes, hbytes⟩ := hq.resolve_left (by rw [hgen]; nofun)
    rw [generate_keypair_eq hcx hbytes] at he
    cases he

/-- The account owns the `from` address: the signature is sent. -/
theorem sign_transaction_quiet {st : Nat → Stale} {d : Device} {o : Outcome} (hq : Signs env d)
    (run : sign_transaction env st d = .ok o) :
    (duringExchange o).device.flow = .ux_idle_flow ∧ (duringExchange o).sent ≠ [] := by
  obtain ⟨bytes, hd, haddr, hdig⟩ := hq
  obtain ⟨_tx, sig, htry⟩ := trySign_signs hcx st hd haddr hdig
  obtain ⟨_tx', -, ⟨sig', -, rfl⟩ | ⟨hnone, -⟩⟩ := sign_transaction_spec run
  · exact ⟨rfl, List.cons_ne_nil _ _⟩
  · cases htry.symm.trans hnone

/-- A quiet turn keeps the screen in step with the request. -/
theorem inStep_of_turn (hin : InStep s) (hs : PStep env s e s') (hq : Quiet env s.device e.event)
    (hturn : Turn env s.device e) : InStep s' := by
  have hafter : s'.device = e.after := hs.step.after.symm
  have haw := hs.awaiting
  cases hturn with
  | answered hev _ _ sent after =>
    -- no request was waiting, so the idle flow was and is on screen
    have hidle : s.device.flow = .ux_idle_flow := by
      by_contra hflow
      exact absurd (hin.mp hflow) (by rw [hs.one hev]; nofun)
    rw [awaits_apdu hev, sent] at haw
    exact inStep_idle (by rw [hafter, after]; exact hidle) haw
  | refused hev sent after =>
    rw [awaits_apdu hev, sent] at haw
    exact inStep_idle (by rw [hafter, after]) haw
  | addressRequest cmd _ _ sent after | signRequest cmd _ sent after =>
    rw [awaits_apdu (apdu_of_command cmd), sent] at haw
    exact inStep_busy (by rw [hafter, after]; nofun) haw
  | drawn hev sent after =>
    rw [awaits_callback hev, sent] at haw
    rw [InStep, hafter, after, haw, List.isEmpty_nil, Bool.and_true]
    exact hin
  | rejected hev sent after =>
    rw [awaits_callback hev, sent] at haw
    exact inStep_idle (by rw [hafter, after]; rfl) (haw.trans (Bool.and_false _))
  | generate hev flow sent after | approved hev flow sent after =>
    rw [awaits_callback ⟨_, .inr hev⟩, sent, hin.awaiting flow nofun] at haw
    exact inStep_busy (by rw [hafter, after]; nofun) haw
  | addressApproved hev flow sent after =>
    rw [awaits_callback ⟨_, .inr hev⟩, sent] at haw
    exact inStep_idle (by rw [hafter, after]; rfl) (haw.trans (Bool.and_false _))
  | @address hev o run sent after =>
    obtain ⟨hcall, hbusy, hquiet⟩ : Callback e ∧ s.awaiting = true ∧ HasAddress env s.device := by
      rcases hev with ⟨hev, flow⟩ | ⟨hev, flow⟩
      · exact ⟨⟨_, .inr hev⟩, hin.awaiting flow nofun, by rw [hev] at hq; exact hq⟩
      · exact ⟨⟨_, .inl hev⟩, hin.awaiting flow nofun, by rw [hev] at hq; exact hq⟩
    obtain ⟨hflow, hsent⟩ := gen_address_quiet hcx
      (d := { s.device with flow := .ux_get_address_result_flow }) hquiet run
    rw [awaits_callback hcall, sent, hsent, hbusy] at haw
    exact inStep_busy (by rw [hafter, after, hflow]; nofun) haw
  | @sign hev o run sent after =>
    obtain ⟨hcall, hquiet⟩ : Callback e ∧ Signs env s.device := by
      rcases hev with ⟨hev, -⟩ | ⟨hev, -⟩
      · exact ⟨⟨_, .inr hev⟩, by rw [hev] at hq; exact hq⟩
      · exact ⟨⟨_, .inl hev⟩, by rw [hev] at hq; exact hq⟩
    obtain ⟨hflow, hsent⟩ := sign_transaction_quiet hcx
      (d := { s.device with flow := .ux_sign_tx_done_flow }) hquiet run
    rw [awaits_callback hcall, sent, List.isEmpty_eq_false_iff.mpr hsent, Bool.and_false] at haw
    exact inStep_idle (by rw [hafter, after, hflow]) haw
  | reset hev sent after =>
    rw [awaits, hev] at haw
    exact inStep_idle (by rw [hafter, after]; rfl) haw

end Quiet

/-! ## The condition is exact -/

section Exact

variable (h : env.Sound)

include h

/-- A signature that is refused is answered, and "Done" stays the flow on screen. -/
theorem sign_out_of_step {st : Nat → Stale} {d : Device} (hq : ¬Signs env d) {o : Outcome}
    (ho : app_main env st d (.validate .ux_sign_tx_comfort_flow_signing_step) = .ok o) :
    o.device.flow = .ux_sign_tx_done_flow ∧ o.sent = [[0x68, 0x02]] := by
  obtain ⟨_tx, sig, htry, -, hiff⟩ := trySign_returns h st d._tx d._ui
  cases sig with
  | some sig =>
    obtain ⟨bytes, hd, haddr⟩ := hiff.mp rfl
    exact absurd ⟨bytes, hd, haddr, fun rx _ => h.poseidon _ _⟩ hq
  | none =>
    obtain rfl := Except.ok.inj ((app_main_unsigned htry).symm.trans ho)
    exact ⟨rfl, rfl⟩

/-- An account without a key is answered, or the connection is reset by the exception. -/
theorem address_out_of_step (hno : ∀ path, env.derive path ≠ .error (.thrown 0x9000))
    {st : Nat → Stale} {d : Device} (hq : ¬HasAddress env d) {o : Outcome}
    (ho : app_main env st d (.validate .ux_get_address_comfort_flow_processing_step) = .ok o) :
    o.device.flow = .ux_idle_flow ↔ o.sent = [] := by
  rw [HasAddress, not_or, Bool.not_eq_true] at hq
  rcases h.keypair d._account with ⟨bytes, hd, -⟩ | ⟨c, hc, hkp⟩
  · exact absurd ⟨bytes, hd⟩ hq.2
  have hgen : gen_address env st { d with flow := .ux_get_address_result_flow } =
      .ok { device := { d with flow := .ux_get_address_result_flow }, thrown := some c } :=
    gen_address_thrown hq.1 hkp
  change (gen_address env st { d with flow := .ux_get_address_result_flow } >>= _) = _ at ho
  rw [hgen] at ho
  obtain rfl := Except.ok.inj ho
  have h9000 : c ≠ 0x9000 := fun heq => hno _ (heq ▸ hc)
  by_cases hreset : c = EXCEPTION_IO_RESET
  · simp [duringExchange, rethrown, hreset, restart, ui_idle]
  · simp [duringExchange, rethrown, hreset, catchMain, h9000, exchange]

/-- The condition is exact: a turn keeps the screen in step exactly when it is quiet. -/
theorem inStep_iff (hno : ∀ path, env.derive path ≠ .error (.thrown 0x9000)) (hin : InStep s)
    (hs : PStep env s e s') : InStep s' ↔ Quiet env s.device e.event := by
  refine ⟨fun hin' => by_contra fun hq => ?_, fun hq =>
    inStep_of_turn h.exact hin hs hq (turn_of_step hs.step)⟩
  have haw := hs.awaiting
  obtain ⟨-, -, hen, o, ho, hdevice, hsent⟩ := hs.step
  obtain ⟨hcall, hbusy, hrun⟩ := @noisy_cases env e.st _ _ hen hq
  rw [awaits_callback hcall, hin.mp hbusy, Bool.true_and, ← hsent] at haw
  rw [InStep, ← hdevice, haw, List.isEmpty_iff] at hin'
  rcases hrun with ⟨hrun, hq⟩ | ⟨hrun, hq⟩
  · obtain ⟨hflow, hsent⟩ := sign_out_of_step h hq (hrun ▸ ho)
    rw [hflow, hsent] at hin'
    simp at hin'
  · have hout := address_out_of_step h hno hq (hrun ▸ ho)
    by_cases hflow : o.device.flow = .ux_idle_flow
    · exact absurd hflow (hin'.mpr (hout.mp hflow))
    · exact hflow (hout.mpr (hin'.mp hflow))

end Exact

end Turns

/-! ## Every run -/

/-- An acceptable request and Approve: the timer of "Signing..." is running. -/
theorem approved_run (env : Env) {data : List UInt8} (hlen : data.length = 172)
    (hacc : Acceptable env.sha256 cleanStack data 172) :
    ∃ t d, Run PStart (PStep env) t ⟨d, true⟩ ∧ (∀ e ∈ t, Quiet env e.before e.event) ∧
      d.flow = .ux_sign_tx_comfort_flow ∧
      Enabled d (.validate .ux_sign_tx_comfort_flow_signing_step) ∧
      Parsed cleanStack data d._tx d._ui := by
  obtain ⟨e₁, d₁, e₂, d₂, h₁, h₂, ⟨hev₁, hsent₁⟩, ⟨hev₂, hsent₂⟩, hflow, -, hP⟩ :=
    review_run env cleanStack .boot (show data.length ≤ 255 by rw [hlen]; norm_num) hlen hacc 0
  have hp₁ : PStep env ⟨.boot, false⟩ e₁ ⟨d₁, true⟩ :=
    ⟨h₁, fun _ => rfl, by rw [awaits, hev₁, hsent₁]; rfl⟩
  have hp₂ : PStep env ⟨d₁, true⟩ e₂ ⟨d₂, true && e₂.sent.isEmpty⟩ := .of_validate h₂ hev₂
  rw [hsent₂] at hp₂
  refine ⟨[e₁, e₂], d₂, ((Run.nil ⟨⟨rfl, rfl⟩, rfl⟩).snoc hp₁).snoc hp₂, fun e he => ?_, hflow,
    ⟨by rw [hflow]; exact List.mem_singleton.mpr rfl, nofun⟩, hP⟩
  rcases List.mem_cons.mp he with rfl | he
  · rw [hev₁]; trivial
  · rw [List.mem_singleton.mp he, hev₂]; trivial

/-- In every run whose callbacks throw nothing, a flow is on screen exactly when a
request awaits its reply, in every state reached. -/
theorem screen_in_step {env : Env} (hcx : env.cx.Exact) {t : List Entry} {s : Pending}
    (hrun : Run PStart (PStep env) t s) (hq : ∀ e ∈ t, Quiet env e.before e.event) : InStep s := by
  have hinv : (∀ e ∈ t, Quiet env e.before e.event) → InStep s :=
    hrun.invariant (I := fun t s => (∀ e ∈ t, Quiet env e.before e.event) → InStep s)
      (fun s h0 _ => inStep_idle h0.1.1 h0.2) fun t s e s' ih hs hq => by
        have hlast := hq e (by simp)
        rw [hs.step.before] at hlast
        exact inStep_of_turn hcx (ih fun e' he' => hq e' (by simp [he'])) hs hlast
          (turn_of_step hs.step)
  exact hinv hq

/-- A request of the own account, Approve, and the timer of "Signing...". -/
theorem screen_in_step_unit :
    ∃ t e d, Run PStart (PStep unitEnv) (t ++ [e]) ⟨d, false⟩ ∧
      e.event = .validate .ux_sign_tx_comfort_flow_signing_step ∧ InStep ⟨d, false⟩ := by
  obtain ⟨t, d, hrun, hq, -, hen, hP⟩ := approved_run unitEnv length_unitRequest
    (acceptable_unitRequest cleanStack)
  obtain ⟨_tx, sig, hsig⟩ := unitRequest_signed hP cleanStack
  have hrun := hrun.snoc (.of_validate (step_of_app_main (app_main_signed hsig) hen) rfl)
  refine ⟨t, _, _, hrun, rfl, screen_in_step unitEnv_sound.exact hrun fun e he => ?_⟩
  rcases List.mem_append.mp he with he | he
  · exact hq e he
  · rw [List.mem_singleton.mp he]
    obtain ⟨_tx', o, htry, -, hiff⟩ := trySign_returns unitEnv_sound cleanStack d._tx d._ui
    obtain ⟨-, rfl⟩ := Prod.mk.inj (Except.ok.inj (htry.symm.trans hsig))
    obtain ⟨bytes, hd, haddr⟩ := hiff.mp rfl
    exact ⟨bytes, hd, haddr, fun rx _ => unitEnv_sound.poseidon _ _⟩

/-! ## The counterexample -/

/-- The addresses of the tests, and the private key 1. -/
def liveEnv : Env := { unitEnv with sha256 := sha256Table }

/-- The key of account 0 belongs to another address. -/
theorem addressOf_ne_receiver : liveEnv.addressOf unitKeypair ≠ receiver ++ [0] := by
  decide +kernel

/-- 42 from an account of somebody else, approved: the device answers 0x6802 and the
signing flow of the answered request stays on screen. -/
theorem screen_outlives_request :
    ∃ t e d, Run PStart (PStep liveEnv) (t ++ [e]) ⟨d, false⟩ ∧ e.sent = [[0x68, 0x02]] ∧
      d.flow = .ux_sign_tx_done_flow ∧ ¬InStep ⟨d, false⟩ := by
  obtain ⟨t, d, hrun, -, -, hen, hP⟩ := approved_run liveEnv
    (length_sampleRequest 42 PAYMENT_TX)
    (acceptable_request length_receiver length_receiver 42 PAYMENT_TX (accepted_receiver _)
      (accepted_receiver _) (.inl rfl))
  have hfrom : d._ui.from_.toList = receiver ++ [0] := by
    rw [hP.from_]; exact (request_addresses length_receiver length_receiver 42 PAYMENT_TX).1
  have hnone : trySign liveEnv cleanStack d._tx d._ui = .ok (d._tx, none) := by
    have hkp : generate_keypair liveEnv.cx liveEnv.derive d._tx.account = .ok unitKeypair :=
      unitEnv_keypair _
    rw [trySign_address hkp, hfrom, if_pos addressOf_ne_receiver]
  have hrun := hrun.snoc (.of_validate (step_of_app_main (app_main_unsigned hnone) hen) rfl)
  exact ⟨t, _, _, hrun, rfl, rfl, by simp [InStep]⟩

end MinaLedger.Bugs.LiveScreen
