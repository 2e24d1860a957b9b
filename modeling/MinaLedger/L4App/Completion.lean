import MinaLedger.L4App.Conversation

/-!
# Consent is enough

`reply_reachable` is about a user who refuses. A user who consents has the request done:
no state of a run keeps Generate, Approve and the timers from getting to the reply.

Results:
* `completes_of_sim`: from every state that stands for a request.
* `consent_completes`: in every run, for the request that waits and for every request that
  can be reviewed.
-/
namespace MinaLedger
open Lib.Trace Lib.Service

/-- At most `n` callbacks lead to a reply to the request, with consent before it. -/
def Completes (env : Env) (st : Nat → Stale) (d : Device) (q : Apdu) (consent : Bool) (n : Nat) :
    Prop :=
  ∃ es d' r, es.length ≤ n ∧ (∀ e ∈ es, CallbackOn st e) ∧ Run (· = d) (Step env) es d' ∧
    es.flatMap Entry.labels = (if consent then [] else [.consent]) ++ [.reply r] ∧
    Answers env q true r

/-- A request whose review starts: of an account whose key can be derived, or of an acceptable
transaction. -/
def Reviewable (env : Env) (st : Nat → Stale) (q : Apdu) : Prop :=
  (∃ account kp, AddressOf env q account kp) ∨
  ∃ data, q.command = some (INS_SIGN_TX, data) ∧ data.length = 172 ∧
    Acceptable env.sha256 st data 172

section Completes

variable {env : Env} {st : Nat → Stale} {d d' : Device} {q : Apdu} {consent : Bool} {n m : Nat}
  {e : Entry}

theorem Completes.mono (h : Completes env st d q consent n) (hle : n ≤ m) :
    Completes env st d q consent m := by
  obtain ⟨es, d', r, hlen, hrest⟩ := h
  exact ⟨es, d', r, hlen.trans hle, hrest⟩

/-- One callback more. -/
theorem Completes.cons {after : Bool} (hs : Step env d e d') (hcall : CallbackOn st e)
    (hlabels : e.labels ++ (if after then [] else [.consent]) = if consent then [] else [.consent])
    (h : Completes env st d' q after n) : Completes env st d q consent (n + 1) := by
  obtain ⟨es, d'', r, hlen, hall, hrun, hl, hr⟩ := h
  refine ⟨e :: es, d'', r, Nat.succ_le_succ hlen, ?_, .cons hs hrun, ?_, hr⟩
  · intro x hx
    rcases List.mem_cons.mp hx with rfl | hx
    · exact hcall
    · exact hall x hx
  · rw [List.flatMap_cons, hl, ← List.append_assoc, hlabels]

/-- The last callback. -/
theorem completes_of_reply {r : List UInt8} (hs : Step env d e d') (hcall : CallbackOn st e)
    (hlabels : e.labels = (if consent then [] else [.consent]) ++ [.reply r])
    (hr : Answers env q true r) : Completes env st d q consent 1 := by
  refine ⟨[e], d', r, le_refl 1, fun x hx => List.mem_singleton.mp hx ▸ hcall,
    .cons hs (.nil rfl), ?_, hr⟩
  rw [List.flatMap_singleton, hlabels]

end Completes

section Completing

variable {env : Env} (henv : env.Sound) (hderive : ∀ path, ∃ bytes, env.derive path = .ok bytes)
  (st : Nat → Stale) {d : Device} {q : Apdu} {consent : Bool}

include henv hderive

/-- Approve sends the address. -/
theorem completes_of_result (hsim : Sim env d (some (q, consent)))
    (hflow : d.flow = .ux_get_address_result_flow) : Completes env st d q consent 1 := by
  have hrun : app_main env st d (.validate .ux_get_address_result_flow_approve_step) =
      .ok (sendResponse d d._address.toList true) := rfl
  have hen : Enabled d (.validate .ux_get_address_result_flow_approve_step) :=
    ⟨by rw [hflow]; simp [Flow.steps], by simp⟩
  have hstep := step_of_app_main hrun hen
  obtain ⟨⟨-, hr, -⟩, -⟩ :=
    conforms_of_validate (keypair_of_derive henv hderive) henv hsim hstep rfl
  unfold Sim at hsim
  rw [hflow] at hsim
  obtain ⟨q', heq, -⟩ := hsim
  obtain ⟨rfl, rfl⟩ := Prod.mk.inj (Option.some.inj heq)
  exact completes_of_reply hstep ⟨⟨_, .inr rfl⟩, rfl⟩ rfl hr

/-- The timer of the processing step, and Approve. -/
theorem completes_of_comfort (hsim : Sim env d (some (q, consent)))
    (hflow : d.flow = .ux_get_address_comfort_flow) : Completes env st d q consent 2 := by
  obtain ⟨e, d', hcall, hs, hl, hflow', hsim'⟩ := processed henv hderive st hsim hflow
  exact (completes_of_result henv hderive st hsim' hflow').cons hs hcall (by rw [hl]; rfl)

/-- Whatever request a state stands for. -/
theorem completes_of_sim (hsim : Sim env d (some (q, consent))) :
    Completes env st d q consent 3 := by
  have hflows := hsim
  unfold Sim at hflows
  cases hflow : d.flow with
  | ux_idle_flow => rw [hflow] at hflows; cases hflows
  | ux_sign_tx_done_flow => rw [hflow] at hflows; cases hflows.1
  | ux_get_address_flow =>
    rw [hflow] at hflows
    obtain ⟨q', heq, hpending⟩ := hflows
    obtain ⟨rfl, rfl⟩ := Prod.mk.inj (Option.some.inj heq)
    have hrun : app_main env st d (.validate .ux_get_address_flow_generate_step) =
        .ok { device := { d with flow := .ux_get_address_comfort_flow } } := rfl
    have hen : Enabled d (.validate .ux_get_address_flow_generate_step) :=
      ⟨by rw [hflow]; simp [Flow.steps], by simp⟩
    have hsim' : Sim env { d with flow := .ux_get_address_comfort_flow } (some (q, false)) :=
      ⟨q, rfl, hpending⟩
    exact (completes_of_comfort henv hderive st hsim' rfl).cons (step_of_app_main hrun hen)
      ⟨⟨_, .inr rfl⟩, rfl⟩ rfl
  | ux_get_address_comfort_flow =>
    exact (completes_of_comfort henv hderive st hsim hflow).mono (by norm_num)
  | ux_get_address_result_flow =>
    exact (completes_of_result henv hderive st hsim hflow).mono (by norm_num)
  | ux_sign_tx_flow steps =>
    rw [hflow] at hflows
    obtain ⟨q', heq, hpending, hsteps⟩ := hflows
    obtain ⟨rfl, rfl⟩ := Prod.mk.inj (Option.some.inj heq)
    have hrun : app_main env st d (.validate (.ux_sign_tx_flow_step .approve)) =
        .ok { device := { d with flow := .ux_sign_tx_comfort_flow } } := rfl
    have hmem : SignStep.approve ∈ steps := by
      rw [hsteps]
      exact approve_mem _ _ _ _
    have hen : Enabled d (.validate (.ux_sign_tx_flow_step .approve)) :=
      ⟨by rw [hflow]; exact List.mem_map_of_mem hmem, by simp⟩
    have hsim' : Sim env { d with flow := .ux_sign_tx_comfort_flow } (some (q, true)) :=
      ⟨q, rfl, hpending⟩
    obtain ⟨e, d', r, hcall, hs, hl, hr, -⟩ := answerable henv hderive st hsim' (by simp)
    have hlast : Completes env st _ q true 1 := completes_of_reply hs hcall hl hr
    exact (hlast.cons (step_of_app_main hrun hen) ⟨⟨_, .inr rfl⟩, rfl⟩ rfl).mono (by norm_num)
  | ux_sign_tx_comfort_flow =>
    rw [hflow] at hflows
    obtain ⟨q', heq, -⟩ := hflows
    obtain ⟨rfl, rfl⟩ := Prod.mk.inj (Option.some.inj heq)
    obtain ⟨e, d', r, hcall, hs, hl, hr, -⟩ := answerable henv hderive st hsim (by rw [hflow]; simp)
    have hlast : Completes env st d q true 1 := completes_of_reply hs hcall hl hr
    exact hlast.mono (by norm_num)

end Completing

/-! ## From the request on -/

section Arriving

variable {env : Env} {st : Nat → Stale} {d : Device} {q : Apdu}

/-- A request whose handler starts a flow is not answered at once. -/
theorem started {ins : UInt8} {data : List UInt8} (hcmd : q.command = some (ins, data))
    {d' : Device} {reply : List UInt8}
    (hr : handleApdu env st { d with flags := false } q.buffer q.rx = .ok ({ device := d' }, reply))
    (hflags : d'.flags = true) : ∃ e d'', Step env d e d'' ∧ e.labels = [.request q] := by
  obtain ⟨hlen, hrx, -⟩ := command_data hcmd
  have hlt := q.buffer[4].toNat_lt
  unfold APDU_HEADER_LEN at hrx
  have hrun : app_main env st d (.apdu q.buffer q.rx) = .ok { device := d' } := by
    rw [app_main, if_neg (by omega), if_neg (by omega), hr]
    show Except.ok (exchange d' reply) = _
    rw [exchange, hflags]
    rfl
  exact ⟨_, _, step_of_app_main hrun trivial, rfl⟩

theorem starts_of_reviewable (hq : Reviewable env st q) :
    ∃ e d', Step env d e d' ∧ e.labels = [.request q] := by
  rcases hq with ⟨account, kp, ⟨data, hcmd, h4, -⟩, -⟩ | ⟨data, hcmd, h172, hacc⟩
  · obtain ⟨_, _, _, -, -, hr⟩ := @handleApdu_addr env st { d with flags := false } _ _ _ hcmd h4
    exact started hcmd hr rfl
  · obtain ⟨r, _tx, _ui, hr, hnone, -⟩ :=
      handle_sign_tx_spec env.sha256 st (le_of_eq h172.symm) 172 d._tx d._ui
    cases r with
    | none => exact absurd hacc (hnone.mp rfl)
    | some steps =>
      rw [show (172 : UInt8) = UInt8.ofNat data.length by rw [h172]; rfl] at hr
      exact started hcmd (handleApdu_sign st { d with flags := false } hcmd hr) rfl

end Arriving

/-- From every state without a request. -/
theorem reviewable_completes {env : Env} (henv : env.Sound)
    (hderive : ∀ path, ∃ bytes, env.derive path = .ok bytes) {st : Nat → Stale} {d : Device}
    (hsim : Sim env d none) {q : Apdu} (hq : Reviewable env st q) :
    ∃ es d' r, es.length ≤ 4 ∧ Run (· = d) (Step env) es d' ∧
      es.flatMap Entry.labels = [.request q, .consent, .reply r] ∧ Answers env q true r := by
  obtain ⟨e, d₁, hs, hlabels⟩ := starts_of_reviewable (d := d) hq
  have hconf := sim_of_step (keypair_of_derive henv hderive) henv hsim hs
    (by rw [hlabels]; exact ⟨rfl, trivial⟩)
  rw [Conforms, hlabels] at hconf
  obtain ⟨es, d', r, hlen, -, hrun, hl, hr⟩ := completes_of_sim henv hderive st hconf.2
  refine ⟨e :: es, d', r, Nat.succ_le_succ hlen, .cons hs hrun, ?_, hr⟩
  rw [List.flatMap_cons, hlabels, hl]
  rfl

/-- In a run from the start, a request that can be reviewed is answered as one with consent. -/
theorem replies_of_reviewable {env : Env} (henv : env.Sound)
    (hderive : ∀ path, ∃ bytes, env.derive path = .ok bytes) {st : Nat → Stale} {q : Apdu}
    (hq : Reviewable env st q) : ∃ r, Replies env q true r := by
  have hstart : Start .boot := ⟨rfl, rfl⟩
  obtain ⟨es, d', r, -, hrun, hl, -⟩ :=
    reviewable_completes henv hderive (sim_idle hstart.1 rfl) hq
  refine ⟨r, es, d', [], [.consent], [], (Run.nil hstart).trans hrun, ?_, hl, by simp, rfl⟩
  rw [hl]
  exact ⟨rfl, trivial, trivial, trivial⟩

end MinaLedger
