import MinaLedger.L4App.SignTransaction

/-!
# Flows, steps and their callbacks

What the user sees and can press: the flows of src/src/menu.c,
src/src/get_address.c and src/src/sign_tx.c, the state they share with the
request handlers, and the code their steps run. The SDK draws the steps; here
`ux_flow_init` replaces the current flow and runs the init code of its first
step.

A callback returns an `Outcome`: the state, the replies it sent and the exception
that left it, if one did. The state stays as it was written up to there.

Results:
* `gen_address_spec`, `sign_transaction_spec`: what the two callbacks with init
  code do.
* `display_returns`, `validate_returns`: no callback is undefined.
-/
namespace MinaLedger

/-- Every step of the release build. -/
inductive UxStep where
  -- menu.c
  | ux_idle_flow_1_step
  | ux_idle_flow_2_step
  | ux_idle_flow_3_step
  -- get_address.c
  | ux_get_address_flow_topic_step
  | ux_get_address_flow_path_step
  | ux_get_address_flow_generate_step
  | ux_get_address_flow_cancel_step
  | ux_get_address_comfort_flow_processing_step
  | ux_get_address_result_flow_address_step
  | ux_get_address_result_flow_approve_step
  | ux_get_address_result_flow_reject_step
  -- sign_tx.c
  | ux_sign_tx_flow_step (step : SignStep)
  | ux_sign_tx_comfort_flow_signing_step
  | ux_sign_tx_done_flow_done_step
  deriving DecidableEq, Repr

/-- The flows; the sixteen reviews are one constructor. -/
inductive Flow where
  | ux_idle_flow
  | ux_get_address_flow
  | ux_get_address_comfort_flow
  | ux_get_address_result_flow
  | ux_sign_tx_flow (steps : List SignStep)
  | ux_sign_tx_comfort_flow
  | ux_sign_tx_done_flow
  deriving DecidableEq, Repr

/-- mirrors src/src/menu.c:38-43, src/src/get_address.c:104-172, src/src/sign_tx.c:74-110 -/
def Flow.steps : Flow → List UxStep
  | ux_idle_flow => [.ux_idle_flow_1_step, .ux_idle_flow_2_step, .ux_idle_flow_3_step]
  | ux_get_address_flow => [.ux_get_address_flow_topic_step, .ux_get_address_flow_path_step,
      .ux_get_address_flow_generate_step, .ux_get_address_flow_cancel_step]
  | ux_get_address_comfort_flow => [.ux_get_address_comfort_flow_processing_step]
  | ux_get_address_result_flow => [.ux_get_address_result_flow_address_step,
      .ux_get_address_result_flow_approve_step, .ux_get_address_result_flow_reject_step]
  | ux_sign_tx_flow steps => steps.map .ux_sign_tx_flow_step
  | ux_sign_tx_comfort_flow => [.ux_sign_tx_comfort_flow_signing_step]
  | ux_sign_tx_done_flow => [.ux_sign_tx_done_flow_done_step]

/-- The state: the current flow, the static variables of get_address.c and
sign_tx.c, and IO_ASYNCH_REPLY in the `flags` of `app_main`. -/
structure Device where
  flow : Flow
  _generated : Bool
  _account : UInt32
  _bip44_path : Vector UInt8 27
  _address : Vector UInt8 MINA_ADDRESS_LEN
  _tx : tx_t
  _ui : ui_t
  flags : Bool

/-- The state when `app_main` starts. -/
def Device.boot : Device where
  flow := .ux_idle_flow
  _generated := false
  _account := 0
  _bip44_path := Vector.replicate _ 0
  _address := Vector.replicate _ 0
  _tx := .boot
  _ui := .boot
  flags := false

/-- What a callback or a handler did. -/
structure Outcome where
  device : Device
  sent : List (List UInt8) := []
  thrown : Option Nat := none

/-- None of the idle flow's steps has init code. mirrors src/src/menu.c:45-51 -/
def ui_idle (d : Device) : Device := { d with flow := .ux_idle_flow }

/-- `data` is what the caller left in the first `tx` bytes of `G_io_apdu_buffer`.
mirrors src/src/globals.c:12-19 -/
def sendResponse (d : Device) (data : List UInt8) (approve : Bool) : Outcome :=
  ⟨ui_idle d, [data ++ if approve then [0x90, 0x00] else [0x69, 0x85]], none⟩

section Callbacks

variable (env : Env)

/-- Without a `CATCH`, an exception of the derivation leaves the function.
mirrors src/src/get_address.c:18-40 -/
def gen_address (st : Nat → Stale) (d : Device) : Exec Outcome := do
  if d._generated then
    return { device := d }
  match ← attempt (generate_keypair env.cx env.derive d._account) with
  | .error e => return { device := d, thrown := some e }
  | .ok kp =>
    let (ok, address) ← generate_address env.sha256 (st 0) d._address MINA_ADDRESS_LEN kp.pub
    let d := { d with _address := address }
    if !ok then
      return { device := d, thrown := some INVALID_PARAMETER }
    return { device := { d with _generated := true } }

/-- mirrors src/src/get_address.c:10-16 -/
def set_result_get_address (d : Device) : List UInt8 := d._address.toList

/-- The bytes of `sig`, `rx` and then `s`. -/
def Signature.bytes (sig : Signature) : List UInt8 := sig.rx.toList ++ sig.s.toList

/-- mirrors src/src/sign_tx.c:14-62 -/
def sign_transaction (st : Nat → Stale) (d : Device) : Exec Outcome := do
  let (_tx, sig) ← trySign env st d._tx d._ui
  let d := { d with _tx := _tx }
  match sig with
  | none => return { device := d, thrown := some INVALID_PARAMETER }
  | some sig => return sendResponse d sig.bytes true

/-- The init code of a step. -/
def display (st : Nat → Stale) (d : Device) : UxStep → Exec Outcome
  | .ux_get_address_result_flow_address_step => gen_address env st d
  | .ux_sign_tx_done_flow_done_step => sign_transaction env st d
  | _ => .ok { device := d }

/-- Replaces the current flow and shows its first step. -/
def ux_flow_init (st : Nat → Stale) (flow : Flow) (d : Device) : Exec Outcome :=
  match flow.steps with
  | [] => .ok { device := { d with flow } }
  | step :: _ => display env st { d with flow } step

/-- What both buttons, or the timer of a step with a timeout, start. -/
def validate (st : Nat → Stale) (d : Device) : UxStep → Exec Outcome
  | .ux_get_address_flow_generate_step => ux_flow_init env st .ux_get_address_comfort_flow d
  | .ux_get_address_flow_cancel_step => .ok (sendResponse d [] false)
  | .ux_get_address_comfort_flow_processing_step =>
    ux_flow_init env st .ux_get_address_result_flow d
  | .ux_get_address_result_flow_approve_step =>
    .ok (sendResponse d (set_result_get_address d) true)
  | .ux_get_address_result_flow_reject_step => .ok (sendResponse d [] false)
  | .ux_sign_tx_flow_step .approve => ux_flow_init env st .ux_sign_tx_comfort_flow d
  | .ux_sign_tx_flow_step .reject => .ok (sendResponse d [] false)
  | .ux_sign_tx_comfort_flow_signing_step => ux_flow_init env st .ux_sign_tx_done_flow d
  | _ => .ok { device := d }

end Callbacks

/-! ## The two callbacks with init code -/

section Specs

variable {env : Env} {st : Nat → Stale} {d : Device} {o : Outcome}

/-- A derived key has an address, so it is there from now on. -/
theorem gen_address_derived {kp : Keypair} (hgen : d._generated = false)
    (hkp : generate_keypair env.cx env.derive d._account = .ok kp) :
    ∃ address, address.toList = env.addressOf kp ∧
      gen_address env st d = .ok { device := { d with _address := address, _generated := true } } := by
  obtain ⟨address, haddr, hlist⟩ := generate_address_of env (st 0) d._address kp
  refine ⟨address, hlist, ?_⟩
  rw [gen_address, hgen, if_neg (by simp)]
  simp only [hkp, attempt, ok_bind, haddr]
  rfl

theorem gen_address_thrown {e : Nat} (hgen : d._generated = false)
    (hkp : generate_keypair env.cx env.derive d._account = .error (.thrown e)) :
    gen_address env st d = .ok { device := d, thrown := some e } := by
  rw [gen_address, hgen, if_neg (by simp)]
  simp only [hkp, attempt, ok_bind]
  rfl

/-- The address was there, is there now, or could not be derived. -/
theorem gen_address_spec (h : gen_address env st d = .ok o) :
    (d._generated = true ∧ o = { device := d }) ∨
    (d._generated = false ∧ ∃ kp address,
      generate_keypair env.cx env.derive d._account = .ok kp ∧ address.toList = env.addressOf kp ∧
      o = { device := { d with _address := address, _generated := true } }) ∨
    (d._generated = false ∧ ∃ e,
      generate_keypair env.cx env.derive d._account = .error (.thrown e) ∧
      o = { device := d, thrown := some e }) := by
  by_cases hgen : d._generated = true
  · rw [gen_address, hgen] at h
    exact .inl ⟨hgen, (Except.ok.inj h).symm⟩
  rw [Bool.not_eq_true] at hgen
  have hbody := h
  rw [gen_address, hgen, if_neg (by simp)] at hbody
  obtain ⟨r, hr, -⟩ := bind_ok hbody
  rcases attempt_ok hr with ⟨kp, hkp, -⟩ | ⟨e, he, -⟩
  · obtain ⟨address, hlist, hgenaddr⟩ := @gen_address_derived env st d kp hgen hkp
    exact .inr (.inl ⟨hgen, kp, address, hkp, hlist, Except.ok.inj (h.symm.trans hgenaddr)⟩)
  · exact .inr (.inr ⟨hgen, e, he, Except.ok.inj (h.symm.trans (gen_address_thrown hgen he))⟩)

/-- Either the signature was sent and the idle flow is back, or INVALID_PARAMETER was
thrown; the reviewed transaction is the same. -/
theorem sign_transaction_spec (h : sign_transaction env st d = .ok o) :
    ∃ _tx, SameTx _tx d._tx ∧
      ((∃ sig, trySign env st d._tx d._ui = .ok (_tx, some sig) ∧
        o = sendResponse { d with _tx := _tx } sig.bytes true) ∨
      (trySign env st d._tx d._ui = .ok (_tx, none) ∧
        o = { device := { d with _tx := _tx }, thrown := some INVALID_PARAMETER })) := by
  obtain ⟨⟨_tx, sig⟩, htry, h⟩ := bind_ok h
  refine ⟨_tx, (trySign_cases htry).1, ?_⟩
  cases sig with
  | none => exact .inr ⟨htry, (Except.ok.inj h).symm⟩
  | some sig => exact .inl ⟨sig, htry, (Except.ok.inj h).symm⟩

end Specs

/-! ## No callback is undefined -/

section Returns

variable {env : Env} (h : env.Sound) (st : Nat → Stale) (d : Device)

include h

theorem gen_address_returns : ∃ o, gen_address env st d = .ok o := by
  cases hgen : d._generated with
  | true => exact ⟨_, by rw [gen_address, hgen]; rfl⟩
  | false =>
    rcases h.keypair d._account with ⟨bytes, -, hkp⟩ | ⟨e, -, he⟩
    · obtain ⟨address, -, hgenaddr⟩ := @gen_address_derived env st d _ hgen hkp
      exact ⟨_, hgenaddr⟩
    · exact ⟨_, gen_address_thrown hgen he⟩

theorem sign_transaction_returns : ∃ o, sign_transaction env st d = .ok o := by
  obtain ⟨_tx, sig, htry, -⟩ := trySign_returns h st d._tx d._ui
  rw [sign_transaction, htry, ok_bind]
  cases sig with
  | none => exact ⟨_, rfl⟩
  | some sig => exact ⟨_, rfl⟩

theorem display_returns (step : UxStep) : ∃ o, display env st d step = .ok o := by
  cases step with
  | ux_get_address_result_flow_address_step => exact gen_address_returns h st d
  | ux_sign_tx_done_flow_done_step => exact sign_transaction_returns h st d
  | _ => exact ⟨_, rfl⟩

theorem ux_flow_init_returns (flow : Flow) : ∃ o, ux_flow_init env st flow d = .ok o := by
  unfold ux_flow_init
  split
  · exact ⟨_, rfl⟩
  · exact display_returns h st _ _

theorem validate_returns (step : UxStep) : ∃ o, validate env st d step = .ok o := by
  cases step with
  | ux_get_address_flow_generate_step => exact ux_flow_init_returns h st d .ux_get_address_comfort_flow
  | ux_get_address_comfort_flow_processing_step =>
    exact ux_flow_init_returns h st d .ux_get_address_result_flow
  | ux_sign_tx_comfort_flow_signing_step => exact ux_flow_init_returns h st d .ux_sign_tx_done_flow
  | ux_sign_tx_flow_step s =>
    cases s with
    | approve => exact ux_flow_init_returns h st d .ux_sign_tx_comfort_flow
    | _ => exact ⟨_, rfl⟩
  | _ => exact ⟨_, rfl⟩

end Returns

end MinaLedger
