import MinaLedger.L2Crypto.Compressed
import MinaLedger.L4App.Run

/-!
# What the device may answer

The application as a service: for a request, and whether the user consented to it,
the replies that answer it. What a signature is worth is said from outside: a
verifier that knows the key, the network and the transaction accepts it (`Verifies`).

Results:
* `verifies_of_trySign`: what `sign_transaction` sends is accepted by a verifier,
  under the key that owns the text on screen.
* `answers_of_apdu`: a request is answered at once, or its review is next.
-/
namespace MinaLedger
open Pasta Lib.Radix Lib.Residue

/-! ## The verifier -/

/-- A verifier recomputes the challenge from the key, `rx` and the transaction, and
accepts if s*G - e*pub has the x-coordinate `rx` and an even y. -/
def Verifies (env : Env) (pub : Affine) (network_id : UInt8) (tx : Transaction)
    (sig : Signature) : Prop :=
  num sig.s < groupOrder ∧
  ∃ e, env.poseidon network_id (txHashFields pub sig.rx tx) = .ok e ∧
    (affineOf (num sig.s • generator - num e • pub.toPoint)).x = sig.rx ∧
    num (affineOf (num sig.s • generator - num e • pub.toPoint)).y % 2 = 0

/-- `sig` is what `sign` computes for the transaction, with some stack and some arrays. -/
def SignedBy (env : Env) (kp : Keypair) (network_id : UInt8) (tx : Transaction)
    (sig : Signature) : Prop :=
  ∃ st, ∃ input msg : ROInput 3 TX_BITSTRINGS_BYTES, transaction_to_roinput input tx = .ok msg ∧
    sign env.cx env.blake2b env.poseidon st kp msg network_id = .ok (some sig)

/-- The stack and the arrays do not matter. -/
theorem SignedBy.unique {env : Env} {kp : Keypair} {network_id : UInt8} {tx : Transaction}
    {sig sig' : Signature} (h : SignedBy env kp network_id tx sig)
    (h' : SignedBy env kp network_id tx sig') : sig = sig' := by
  obtain ⟨st, input, msg, hmsg, hsign⟩ := h
  obtain ⟨st', input', msg', hmsg', hsign'⟩ := h'
  rw [sign_roinput_congr env st st' kp network_id hmsg hmsg'] at hsign
  exact Option.some.inj (Except.ok.inj (hsign.symm.trans hsign'))

section Verifies

variable {env : Env} (h : env.Sound)

include h

/-- A signature of the input of a transaction verifies. -/
theorem verifies_of_sign {kp : Keypair} (hpriv : num kp.priv < groupOrder)
    (hpub : kp.pub = affineOf (num kp.priv • generator)) {st : Nat → Stale} {network_id : UInt8}
    {input msg : ROInput 3 TX_BITSTRINGS_BYTES} {tx : Transaction}
    (hmsg : transaction_to_roinput input tx = .ok msg) {sig : Signature}
    (hsign : sign env.cx env.blake2b env.poseidon st kp msg network_id = .ok (some sig)) :
    Verifies env kp.pub network_id tx sig := by
  obtain ⟨k, e, he, helt, hs, hrx, heven⟩ := sign_cases h.exact h.poseidon hpriv hsign
  -- the challenge is the digest of the nine elements
  rw [message_hash_of_fits (roinput_fits hmsg), hashFields_of_tx hmsg] at he
  obtain ⟨e', he', hok⟩ := bind_ok he
  obtain rfl := Option.some.inj (Except.ok.inj hok)
  -- and s*G - e*pub is the nonce point
  have hpoint : kp.pub.toPoint = (decode groupOrder kp.priv).val • generator := by
    rw [hpub, toPoint_affineOf, decode, ZMod.val_cast_of_lt hpriv]
  have heval : num e' = (decode groupOrder e').val := (ZMod.val_cast_of_lt helt).symm
  have hsval : num sig.s = (k + decode groupOrder e' * decode groupOrder kp.priv).val := by
    rw [hs, num_encode num_GROUP_ORDER]
  have hR : num sig.s • generator - num e' • kp.pub.toPoint = k.val • generator := by
    rw [hpoint, heval, hsval]
    exact response_verifies groupOrder_smul_generator k _ _
  exact ⟨by rw [hsval]; exact ZMod.val_lt _, e', he', by rw [hR]; exact hrx, by rw [hR]; exact heven⟩

/-- What the block signs verifies, under the key that owns the text on screen. -/
theorem verifies_of_trySign {st : Nat → Stale} {_tx _tx' : tx_t} {_ui : ui_t} {sig : Signature}
    (htry : trySign env st _tx _ui = .ok (_tx', some sig)) :
    ∃ kp, generate_keypair env.cx env.derive _tx.account = .ok kp ∧
      env.addressOf kp = _ui.from_.toList ∧ Verifies env kp.pub _tx.network_id _tx.tx sig ∧
      SignedBy env kp _tx.network_id _tx.tx sig := by
  obtain ⟨-, hcases⟩ := trySign_cases htry
  obtain ⟨kp, msg, hkp, haddr, hmsg, hsign⟩ := hcases sig rfl
  obtain ⟨hpriv, hpub⟩ := keypair_of_generate h.exact hkp
  exact ⟨kp, hkp, haddr, verifies_of_sign h hpriv hpub hmsg hsign, _, _, msg, hmsg, hsign⟩

end Verifies

/-! ## Answers -/

/-- A request as the SDK delivers it: `rx` bytes, and what is behind them. -/
structure Apdu where
  buffer : ApduBuffer
  rx : Nat

def Apdu.command (q : Apdu) : Option (UInt8 × List UInt8) := MinaLedger.command q.buffer q.rx

/-- The address request of an account. -/
structure AddressOf (env : Env) (q : Apdu) (account : UInt32) (kp : Keypair) : Prop where
  command : ∃ data, q.command = some (INS_GET_ADDR, data) ∧ data.length = 4 ∧
    account.toNat = beVal data
  keypair : generate_keypair env.cx env.derive account = .ok kp

/-- The sign request of a transaction, which `parse_tx` accepts. -/
structure TransactionOf (env : Env) (q : Apdu) (st : Nat → Stale) (data : List UInt8) (tx : tx_t)
    (ui : ui_t) : Prop where
  command : q.command = some (INS_SIGN_TX, data)
  length : data.length = 172
  acceptable : Acceptable env.sha256 st data 172
  parsed : Parsed st data tx ui

/-- The signature of that transaction, under the key of the account, which is the key of the
`from` text and the sender. -/
structure SignatureOf (env : Env) (q : Apdu) (st : Nat → Stale) (data : List UInt8) (tx : tx_t)
    (ui : ui_t) (kp : Keypair) (sig : Signature) : Prop where
  of : TransactionOf env q st data tx ui
  keypair : generate_keypair env.cx env.derive tx.account = .ok kp
  owned : env.addressOf kp = addressField data 4
  sender : tx.tx.source_pk = ⟨kp.pub.x, decide (num kp.pub.y % 2 = 1)⟩ ∧
    tx.tx.fee_payer_pk = ⟨kp.pub.x, decide (num kp.pub.y % 2 = 1)⟩
  verifies : Verifies env kp.pub tx.network_id tx.tx sig
  signed : SignedBy env kp tx.network_id tx.tx sig

/-- The replies that answer a request, without and with consent. -/
inductive Answers (env : Env) (q : Apdu) : Bool → List UInt8 → Prop
  /-- nothing was received -/
  | empty (rx : q.rx = 0) : Answers env q false [0x69, 0x82]
  /-- no request -/
  | header (rx : q.rx ≠ 0) (cmd : q.command = none) : Answers env q false [0x6E, 0x00]
  | conf {data : List UInt8} (cmd : q.command = some (INS_GET_CONF, data)) :
      Answers env q false (env.version.toList ++ [0x90, 0x00])
  | unknown {ins : UInt8} {data : List UInt8} (cmd : q.command = some (ins, data))
      (ins : ins ≠ INS_GET_CONF ∧ ins ≠ INS_GET_ADDR ∧ ins ≠ INS_SIGN_TX) :
      Answers env q false [0x6D, 0x00]
  /-- an account of another length, or a transaction that is not acceptable -/
  | refused {ins : UInt8} {data : List UInt8} (cmd : q.command = some (ins, data))
      (bad : ins = INS_GET_ADDR ∧ data.length ≠ 4 ∨
        ins = INS_SIGN_TX ∧ ∃ st, ¬Acceptable env.sha256 st data (UInt8.ofNat data.length)) :
      Answers env q false [0x68, 0x02]
  /-- by the user, who did not consent -/
  | rejected (review : (∃ account kp, AddressOf env q account kp) ∨
        ∃ st data tx ui, TransactionOf env q st data tx ui) :
      Answers env q false [0x69, 0x85]
  | address {account : UInt32} {kp : Keypair} (of : AddressOf env q account kp) :
      Answers env q true (env.addressOf kp ++ [0x90, 0x00])
  | signature {st : Nat → Stale} {data : List UInt8} {tx : tx_t} {ui : ui_t} {kp : Keypair}
      {sig : Signature} (of : SignatureOf env q st data tx ui kp sig) :
      Answers env q true (sig.bytes ++ [0x90, 0x00])
  /-- the key of the account is not the key of the `from` text -/
  | unowned {st : Nat → Stale} {data : List UInt8} {tx : tx_t} {ui : ui_t}
      (of : TransactionOf env q st data tx ui)
      (other : ∀ kp, generate_keypair env.cx env.derive tx.account = .ok kp →
        env.addressOf kp ≠ addressField data 4) :
      Answers env q true [0x68, 0x02]

section Status

variable {env : Env} {q : Apdu} {consent : Bool} {data : List UInt8}
  (h : Answers env q consent (data ++ [0x90, 0x00]))

include h

/-- Nothing else ends in 0x9000 for a sign request. -/
theorem signature_of_answers (hins : ∀ ins d, q.command = some (ins, d) → ins = INS_SIGN_TX) :
    ∃ st d tx ui kp sig, SignatureOf env q st d tx ui kp sig ∧ data = sig.bytes := by
  generalize hr : data ++ [0x90, 0x00] = r at h
  have hstatus : ∀ a b : UInt8, data ++ [0x90, 0x00] = [a, b] → [(0x90 : UInt8), 0x00] = [a, b] :=
    fun a b heq => (List.append_inj' (show data ++ [0x90, 0x00] = [] ++ [a, b] from heq) rfl).2
  cases h with
  | empty => exact absurd (hstatus _ _ hr) (by decide)
  | header => exact absurd (hstatus _ _ hr) (by decide)
  | conf cmd => exact absurd (hins _ _ cmd) (by decide)
  | unknown => exact absurd (hstatus _ _ hr) (by decide)
  | refused => exact absurd (hstatus _ _ hr) (by decide)
  | rejected => exact absurd (hstatus _ _ hr) (by decide)
  | address hof =>
    obtain ⟨d, hcmd, -⟩ := hof.command
    exact absurd (hins _ _ hcmd) (by decide)
  | signature hof => exact ⟨_, _, _, _, _, _, hof, (List.append_inj' hr rfl).1⟩
  | unowned => exact absurd (hstatus _ _ hr) (by decide)

/-- Nothing else ends in 0x9000 for an address request. -/
theorem address_of_answers (hins : ∀ ins d, q.command = some (ins, d) → ins = INS_GET_ADDR) :
    ∃ account kp, AddressOf env q account kp ∧ data = env.addressOf kp := by
  generalize hr : data ++ [0x90, 0x00] = r at h
  have hstatus : ∀ a b : UInt8, data ++ [0x90, 0x00] = [a, b] → [(0x90 : UInt8), 0x00] = [a, b] :=
    fun a b heq => (List.append_inj' (show data ++ [0x90, 0x00] = [] ++ [a, b] from heq) rfl).2
  cases h with
  | empty => exact absurd (hstatus _ _ hr) (by decide)
  | header => exact absurd (hstatus _ _ hr) (by decide)
  | conf cmd => exact absurd (hins _ _ cmd) (by decide)
  | unknown => exact absurd (hstatus _ _ hr) (by decide)
  | refused => exact absurd (hstatus _ _ hr) (by decide)
  | rejected => exact absurd (hstatus _ _ hr) (by decide)
  | address hof => exact ⟨_, _, hof, (List.append_inj' hr rfl).1⟩
  | signature hof => exact absurd (hins _ _ hof.of.command) (by decide)
  | unowned => exact absurd (hstatus _ _ hr) (by decide)

end Status

/-- An address request that has consent is answered with the address. -/
theorem address_of_consent {env : Env} {q : Apdu} {n : UInt32} {kp : Keypair} {reply : List UInt8}
    (hof : AddressOf env q n kp) (h : Answers env q true reply) :
    reply = env.addressOf kp ++ [0x90, 0x00] := by
  obtain ⟨data, hcmd, -, hn⟩ := hof.command
  have hins : ∀ {d}, q.command ≠ some (INS_SIGN_TX, d) := fun hc =>
    absurd (Prod.mk.inj (Option.some.inj (hcmd.symm.trans hc))).1 (by decide)
  cases h with
  | address hof' =>
    obtain ⟨data', hcmd', -, hn'⟩ := hof'.command
    obtain rfl := (Prod.mk.inj (Option.some.inj (hcmd.symm.trans hcmd'))).2
    obtain rfl := UInt32.toNat_inj.mp (hn.trans hn'.symm)
    obtain rfl := Except.ok.inj (hof.keypair.symm.trans hof'.keypair)
    rfl
  | signature hof' => exact absurd hof'.of.command hins
  | unowned hof' => exact absurd hof'.command hins

/-- A sign request of an account that owns its sender is signed, if the user consents. -/
theorem signature_of_owner {env : Env} {q : Apdu} {data reply : List UInt8} {kp : Keypair} {n : UInt32}
    (hcmd : q.command = some (INS_SIGN_TX, data)) (hn : n.toNat = numField data 0 4)
    (hkp : generate_keypair env.cx env.derive n = .ok kp)
    (howner : env.addressOf kp = addressField data 4) (h : Answers env q true reply) :
    ∃ st tx ui sig, TransactionOf env q st data tx ui ∧
      Verifies env kp.pub tx.network_id tx.tx sig ∧ reply = sig.bytes ++ [0x90, 0x00] := by
  have hdata : ∀ {d}, q.command = some (INS_SIGN_TX, d) → d = data := fun hc =>
    (Prod.mk.inj (Option.some.inj (hc.symm.trans hcmd))).2
  have haccount : ∀ {st tx ui}, TransactionOf env q st data tx ui → tx.account = n := fun hof =>
    UInt32.toNat_inj.mp (hof.parsed.account.trans hn.symm)
  cases h with
  | address hof =>
    obtain ⟨d, hc, -⟩ := hof.command
    exact absurd (Prod.mk.inj (Option.some.inj (hc.symm.trans hcmd))).1 (by decide)
  | signature hof =>
    obtain rfl := hdata hof.of.command
    have hkp' := hof.keypair
    rw [haccount hof.of, hkp] at hkp'
    obtain rfl := Except.ok.inj hkp'
    exact ⟨_, _, _, _, hof.of, hof.verifies, rfl⟩
  | unowned hof hother =>
    obtain rfl := hdata hof.command
    rw [haccount hof] at hother
    exact absurd howner (hother kp hkp)

/-! ## A request arrives -/

/-- What an address request leaves: the account, and no address yet. -/
def AddressPending (env : Env) (d : Device) (q : Apdu) : Prop :=
  ∃ kp, AddressOf env q d._account kp ∧
    (d._generated = true → d._address.toList = env.addressOf kp)

/-- What a sign request leaves: the transaction and the texts. -/
def SignPending (env : Env) (d : Device) (q : Apdu) : Prop :=
  ∃ st data, TransactionOf env q st data d._tx d._ui

/-- The length byte says how long the data is. -/
theorem length_of_byte {b : ApduBuffer} {rx : Nat} {ins : UInt8} {data : List UInt8}
    (hc : command b rx = some (ins, data)) (h : UInt8.ofNat data.length = 172) :
    data.length = 172 := by
  obtain ⟨hlen, -, -⟩ := command_data hc
  have hlt := b[4].toNat_lt
  have hval := congrArg UInt8.toNat h
  rw [UInt8.toNat_ofNat', Nat.mod_eq_of_lt (by omega)] at hval
  exact hval

theorem transactionOf_of_handle {env : Env} {q : Apdu} {data : List UInt8} {st : Nat → Stale}
    {_tx tx : tx_t} {_ui ui : ui_t} {steps : List SignStep}
    (hc : q.command = some (INS_SIGN_TX, data))
    (hr : handle_sign_tx env.sha256 st data (UInt8.ofNat data.length) _tx _ui =
      .ok (some steps, tx, ui)) : TransactionOf env q st data tx ui ∧ steps = flowOf tx ui := by
  have h172 : data.length = 172 := by
    by_contra hne
    rw [handle_sign_tx_length st fun h0 => hne (length_of_byte hc h0)] at hr
    cases Except.ok.inj hr
  obtain ⟨r, tx', ui', hr', hnone, hshown⟩ := handle_sign_tx_spec env.sha256 st
    (le_of_eq h172.symm) 172 _tx _ui
  rw [h172] at hr
  obtain ⟨rfl, rfl, rfl⟩ : r = some steps ∧ tx' = tx ∧ ui' = ui := by simpa using hr'.symm.trans hr
  have hs := hshown steps rfl
  exact ⟨⟨hc, h172, not_not.mp fun hacc => by simpa using hnone.mpr hacc, hs.parsed⟩, hs.flow⟩

section Arrives

variable {env : Env} {d d' : Device} {e : Entry} {b : ApduBuffer} {rx : Nat}

/-- A request is answered at once, and then the flow on screen is the one before or the
idle flow, or its review is next. -/
theorem answers_of_apdu (hderive : ∀ account, ∃ kp, generate_keypair env.cx env.derive account = .ok kp)
    (hev : e.event = .apdu b rx) (h : Step env d e d') :
    (∃ r, e.sent = [r] ∧ Answers env ⟨b, rx⟩ false r ∧
      (d'.flow = .ux_idle_flow ∨ d' = { d with flags := false })) ∨
    (e.sent = [] ∧ d'.flow = .ux_get_address_flow ∧ AddressPending env d' ⟨b, rx⟩) ∨
    (e.sent = [] ∧ d'.flow = .ux_sign_tx_flow (flowOf d'._tx d'._ui) ∧
      SignPending env d' ⟨b, rx⟩) := by
  have hafter := h.after
  by_cases h0 : rx = 0
  · obtain ⟨-, -, -, o, hrun, rfl, hsent⟩ := h
    rw [hev, app_main, if_pos h0] at hrun
    obtain rfl := Except.ok.inj hrun
    exact .inl ⟨_, hsent.symm, .empty h0, .inr rfl⟩
  by_cases h260 : rx > 260
  · have hlc := b[4].toNat_lt
    have hc : command b rx = none := by rw [command, if_neg (by unfold APDU_HEADER_LEN; omega)]
    obtain ⟨-, -, -, o, hrun, rfl, hsent⟩ := h
    rw [hev, app_main, if_neg h0, if_pos h260] at hrun
    obtain rfl := Except.ok.inj hrun
    exact .inl ⟨_, hsent.symm, .header h0 hc, .inr rfl⟩
  have hrun := fun {o reply} => @sent_of_handleApdu env d d' e b rx hev h h0 h260 o reply
  cases hc : command b rx with
  | none =>
    obtain ⟨hdev, hsent⟩ := hrun (handleApdu_none _ _ hc)
    exact .inl ⟨_, hsent, .header h0 hc, .inr (hafter.symm.trans hdev)⟩
  | some c =>
    obtain ⟨ins, data⟩ := c
    by_cases h1 : ins = INS_GET_CONF
    · subst h1
      obtain ⟨hdev, hsent⟩ := hrun (handleApdu_conf _ _ hc)
      exact .inl ⟨_, hsent, .conf hc, .inr (hafter.symm.trans hdev)⟩
    by_cases h2 : ins = INS_GET_ADDR
    · subst h2
      by_cases h4 : data.length = 4
      · obtain ⟨account, path, address, haccount, -, hr⟩ :=
          @handleApdu_addr env e.st { d with flags := false } _ _ _ hc h4
        obtain ⟨hdev, hsent⟩ := hrun hr
        obtain ⟨kp, hkp⟩ := hderive account
        obtain rfl := hafter.symm.trans hdev
        exact .inr (.inl ⟨hsent, rfl, kp, ⟨⟨data, hc, h4, haccount⟩, hkp⟩, fun h => by cases h⟩)
      · obtain ⟨hdev, hsent⟩ := hrun (handleApdu_addr_refused _ _ hc h4)
        obtain rfl := hafter.symm.trans hdev
        exact .inl ⟨_, hsent, .refused hc (.inl ⟨rfl, h4⟩), .inl rfl⟩
    by_cases h3 : ins = INS_SIGN_TX
    · subst h3
      obtain ⟨r, _tx, _ui, hr⟩ := @handle_sign_tx_returns env e.st _ _ _ _ hc d._tx d._ui
      cases r with
      | none =>
        obtain ⟨hdev, hsent⟩ := hrun (handleApdu_sign_refused _ _ hc hr)
        obtain rfl := hafter.symm.trans hdev
        refine .inl ⟨_, hsent, .refused hc (.inr ⟨rfl, e.st, fun hacc => ?_⟩), .inl rfl⟩
        have hdata := length_of_byte hc hacc.length
        obtain ⟨r, tx', ui', hr', hnone, -⟩ := handle_sign_tx_spec env.sha256 e.st
          (le_of_eq hdata.symm) (UInt8.ofNat data.length) d._tx d._ui
        obtain ⟨rfl, -⟩ : r = none ∧ _ := by simpa using hr'.symm.trans hr
        exact hnone.mp rfl hacc
      | some steps =>
        obtain ⟨hdev, hsent⟩ := hrun (handleApdu_sign _ _ hc hr)
        obtain rfl := hafter.symm.trans hdev
        obtain ⟨hof, rfl⟩ := transactionOf_of_handle (q := ⟨b, rx⟩) hc hr
        exact .inr (.inr ⟨hsent, rfl, e.st, data, hof⟩)
    · obtain ⟨hdev, hsent⟩ := hrun (handleApdu_unknown _ _ hc h1 h2 h3)
      exact .inl ⟨_, hsent, .unknown hc ⟨h1, h2, h3⟩, .inr (hafter.symm.trans hdev)⟩

end Arrives

end MinaLedger
