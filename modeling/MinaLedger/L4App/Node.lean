import MinaLedger.L4App.Answers
import MinaLedger.L4App.Approval

/-!
# What a node accepts

The digest was any function so far. Here it is the sponge of src/src/poseidon.c, and
whether a signature is accepted is decided over the field and the curve, without the
SDK's arithmetic and the arrays of the device. The x-coordinate of a receiver can be out
of range (`Bugs.UnreducedOperand`); then the sum in the sponge is not documented.

Results:
* `sign_total`: with a digest for everything the signature is the same, if the keys of the
  transaction are field elements.
* `node_accepts`: what the device sends is a status, the version, an approved address, or a
  signature that a node accepts for the transaction that was approved.
* `node_reached`: in every state an own request gets one by Approve.
-/
namespace MinaLedger
open Pasta Lib.Curve Lib.Trace

/-! ## A node -/

/-- The challenge, from the key, `rx` and the transaction. -/
def nodeChallenge (network_id : UInt8) (pub : Affine) (rx : Field) (tx : Transaction) : Fp :=
  sponge network_id ((txHashFields pub rx tx).map (decode fieldModulus))

/-- `s*G - e*pub` is a point with the x-coordinate `rx` and an even y. -/
def NodeAccepts (network_id : UInt8) (pub : Affine) (tx : Transaction) (sig : Signature) : Prop :=
  num sig.s < groupOrder ∧ ∃ (x y : Fp) (hxy : (curve (5 : Fp)).Nonsingular x y),
    num sig.s • generator - (nodeChallenge network_id pub sig.rx tx).val • pub.toPoint =
      .some x y hxy ∧ encode x = sig.rx ∧ y.val % 2 = 0

/-! ## The sponge as a digest -/

/-- What is hashed is reduced if the keys are. -/
theorem txHashFields_lt {pub : Affine} (hpub : pub.Valid) {rx : Field} (hrx : num rx < fieldModulus)
    {tx : Transaction} (htx : ∀ a ∈ txFields tx, num a < fieldModulus) :
    ∀ a ∈ txHashFields pub rx tx, num a < fieldModulus := by
  obtain ⟨msg, hmsg, -, hfields, -⟩ := transaction_to_roinput_spec tx_t.boot.input tx
  rw [← hfields] at htx
  rw [← hashFields_of_tx hmsg]
  exact (hashFields_lt_iff hpub hrx).mpr htx

/-- The digest where it is one, and zero elsewhere. -/
def Env.total (env : Env) : Env :=
  { env with poseidon := fun id l =>
      if (id = TESTNET_ID ∨ id = MAINNET_ID) ∧ ∀ a ∈ l, num a < fieldModulus then env.poseidon id l
      else .ok FIELD_ZERO }

section Sponge

variable {env : Env} (hcx : env.cx.Exact)

include hcx

/-- A message with reduced keys is signed in the same way. -/
theorem sign_total (st : Nat → Stale) {kp : Keypair} (hpub : kp.pub.Valid) {network_id : UInt8}
    (hid : network_id = TESTNET_ID ∨ network_id = MAINNET_ID)
    {input msg : ROInput 3 TX_BITSTRINGS_BYTES} {tx : Transaction}
    (hmsg : transaction_to_roinput input tx = .ok msg)
    (htx : ∀ a ∈ txFields tx, num a < fieldModulus) :
    sign env.total.cx env.total.blake2b env.total.poseidon st kp msg network_id =
      sign env.cx env.blake2b env.poseidon st kp msg network_id := by
  refine sign_digest_congr (roinput_fits hmsg) hcx _ st fun rx hrx => if_pos ⟨hid, ?_⟩
  rw [hashFields_of_tx hmsg]
  exact txHashFields_lt hpub hrx htx

variable {pos : State} (hpos : env.poseidon = poseidon_hash env.cx pos)

include hpos

theorem total_digest {id : UInt8} (hid : id = TESTNET_ID ∨ id = MAINNET_ID) {l : List Field}
    (hl : ∀ a ∈ l, num a < fieldModulus) :
    env.total.poseidon id l = .ok (encode (sponge id (l.map (decode fieldModulus)))) := by
  have hsame : env.total.poseidon id l = env.poseidon id l := if_pos ⟨hid, hl⟩
  rw [hsame, hpos]
  exact poseidon_hash_sponge hcx pos hid hl

theorem total_sound (hderive : ∀ path, ∃ bytes, env.derive path = .ok bytes) :
    env.total.Sound where
  exact := hcx
  derive path := .inl (hderive path)
  poseidon id l := by
    have hlt : ∀ x : Fp, num (encode x) < fieldModulus := fun x => by
      rw [num_encode num_FIELD_MODULUS]
      exact ZMod.val_lt x
    by_cases hok : (id = TESTNET_ID ∨ id = MAINNET_ID) ∧ ∀ a ∈ l, num a < fieldModulus
    · exact ⟨_, total_digest hcx hpos hok.1 hok.2, hlt _⟩
    · exact ⟨FIELD_ZERO, if_neg hok, FIELD_ZERO_eq ▸ hlt 0⟩

/-- What a verifier of this digest accepts a node accepts, if the nonce is not zero. -/
theorem nodeAccepts_of_verifies {network_id : UInt8}
    (hid : network_id = TESTNET_ID ∨ network_id = MAINNET_ID) {pub : Affine} {tx : Transaction}
    {sig : Signature} (hl : ∀ a ∈ txHashFields pub sig.rx tx, num a < fieldModulus)
    (h : Verifies env.total pub network_id tx sig) (hrx : sig.rx ≠ FIELD_ZERO) :
    NodeAccepts network_id pub tx sig := by
  obtain ⟨hs, e, he, hx, heven⟩ := h
  obtain rfl := Except.ok.inj (he.symm.trans (total_digest hcx hpos hid hl))
  rw [num_encode num_FIELD_MODULUS] at hx heven
  refine ⟨hs, ?_⟩
  unfold nodeChallenge
  cases hR : num sig.s • generator -
      (sponge network_id ((txHashFields pub sig.rx tx).map (decode fieldModulus))).val • pub.toPoint with
  | zero =>
    rw [hR] at hx
    exact absurd (hx.symm.trans FIELD_ZERO_eq.symm) hrx
  | some x y hxy =>
    rw [hR] at hx heven
    refine ⟨x, y, hxy, rfl, hx, ?_⟩
    rwa [affineOf, num_encode num_FIELD_MODULUS] at heven

end Sponge

/-! ## A signature -/

/-- The signature the block makes of the transaction of a request, by the key of its sender. -/
structure NodeSignature (env : Env) (req : Entry) (kp : Keypair) (sig : Signature) : Prop where
  request : ∃ q st data, req.event = .apdu q.buffer q.rx ∧
    TransactionOf env q st data req.after._tx req.after._ui
  keypair : generate_keypair env.cx env.derive req.after._tx.account = .ok kp
  owned : env.addressOf kp = req.after._ui.from_.toList
  signed : ∃ st _tx', trySign env st req.after._tx req.after._ui = .ok (_tx', some sig)
  accepted : num req.after._tx.tx.receiver_pk.x < fieldModulus → sig.rx ≠ FIELD_ZERO →
    NodeAccepts req.after._tx.network_id kp.pub req.after._tx.tx sig

theorem apdu_of_command {e : Entry} {c : UInt8 × List UInt8} (h : e.command = some c) :
    ∃ q : Apdu, e.event = .apdu q.buffer q.rx ∧ q.command = some c := by
  unfold Entry.command at h
  split at h
  · rename_i buffer rx hev
    exact ⟨⟨buffer, rx⟩, hev, h⟩
  · cases h

section Parsed

variable {env : Env} {st : Nat → Stale} {data : List UInt8} {tx : tx_t} {ui : ui_t}

theorem network_of_acceptable (hacc : Acceptable env.sha256 st data 172) (hP : Parsed st data tx ui) :
    tx.network_id = TESTNET_ID ∨ tx.network_id = MAINNET_ID := by
  rw [hP.network]
  exact hacc.network

/-- Two of the three keys are the signer's. -/
theorem txFields_lt (hP : Parsed st data tx ui) {kp : Keypair} (hvalid : kp.pub.Valid)
    (haddr : env.addressOf kp = ui.from_.toList) (hx : num tx.tx.receiver_pk.x < fieldModulus) :
    ∀ a ∈ txFields tx.tx, num a < fieldModulus := by
  obtain ⟨hsource, hpayer⟩ := own_keys hP haddr.symm
  intro a ha
  rw [txFields, hsource, hpayer] at ha
  simp only [List.mem_cons, List.not_mem_nil, or_false] at ha
  rcases ha with rfl | rfl | rfl
  · exact hvalid.x_lt
  · exact hvalid.x_lt
  · exact hx

end Parsed

section Runs

variable {env : Env} (hcx : env.cx.Exact) {pos : State}
  (hpos : env.poseidon = poseidon_hash env.cx pos)
  (hderive : ∀ path, ∃ bytes, env.derive path = .ok bytes)

include hcx hpos hderive

/-- What the block signs for a request. -/
theorem nodeSignature_of_trySign {req : Entry} {q : Apdu} {stp st : Nat → Stale}
    {data : List UInt8} (hev : req.event = .apdu q.buffer q.rx)
    (hof : TransactionOf env q stp data req.after._tx req.after._ui) {_tx' : tx_t} {sig : Signature}
    (htry : trySign env st req.after._tx req.after._ui = .ok (_tx', some sig)) :
    ∃ kp, NodeSignature env req kp sig := by
  obtain ⟨-, hcases⟩ := trySign_cases htry
  obtain ⟨kp, msg, hkp, haddr, hmsg, hsign⟩ := hcases sig rfl
  refine ⟨kp, ⟨q, stp, data, hev, hof⟩, hkp, haddr, ⟨st, _tx', htry⟩, fun hx hrx => ?_⟩
  obtain ⟨hpriv, hpub⟩ := keypair_of_generate hcx hkp
  have hvalid : kp.pub.Valid := hpub ▸ affineOf_valid _
  have hid := network_of_acceptable hof.acceptable hof.parsed
  have htx := txFields_lt hof.parsed hvalid haddr hx
  rw [← sign_total hcx _ hvalid hid hmsg htx] at hsign
  have hverifies := verifies_of_sign (total_sound hcx hpos hderive) hpriv hpub hmsg hsign
  have hrxlt : num sig.rx < fieldModulus := by
    obtain ⟨-, _, -, hpoint, -⟩ := hverifies
    rw [← hpoint]
    exact (affineOf_valid _).x_lt
  exact nodeAccepts_of_verifies hcx hpos hid (txHashFields_lt hvalid hrxlt htx) hverifies hrx

end Runs

/-! ## An own request -/

/-- An acceptable request from the address of the account to the address of a field element. -/
structure OwnRequest (env : Env) (st : Nat → Stale) (data : List UInt8) (n : UInt32) (kp : Keypair)
    (x : Field) (odd : UInt8) : Prop where
  length : data.length = 172
  acceptable : Acceptable env.sha256 st data 172
  account : n.toNat = numField data 0 4
  keypair : generate_keypair env.cx env.derive n = .ok kp
  owner : env.addressOf kp = addressField data 4
  receiver : addressField data 59 = addressText env.sha256 x odd ++ [0]
  reduced : num x < fieldModulus

section Own

variable {env : Env} (hcx : env.cx.Exact) {pos : State}
  (hpos : env.poseidon = poseidon_hash env.cx pos)
  (hderive : ∀ path, ∃ bytes, env.derive path = .ok bytes) {st : Nat → Stale} {data : List UInt8}
  (h255 : data.length ≤ 255) {n : UInt32} {kp : Keypair} {x : Field} {odd : UInt8}
  (h : OwnRequest env st data n kp x odd) (d : Device)

include hcx hpos hderive h

/-- The request, Approve, and the timer. -/
theorem own_request_steps : ∃ e₁ d₁ e₂ d₂ e₃ d₃ sig,
    (Step env d e₁ d₁ ∧ Step env d₁ e₂ d₂ ∧ Step env d₂ e₃ d₃) ∧
    (e₁.event = .apdu (requestBuffer INS_SIGN_TX data h255 0) (data.length + APDU_HEADER_LEN) ∧
      e₁.sent = []) ∧
    (e₂.event = .validate (.ux_sign_tx_flow_step .approve) ∧ e₂.sent = []) ∧
    (e₃.event = .validate .ux_sign_tx_comfort_flow_signing_step ∧
      e₃.sent = [sig.bytes ++ [0x90, 0x00]]) ∧
    NodeSignature env e₁ kp sig ∧ e₁.after._tx.tx.receiver_pk = ⟨x, decide (odd ≠ 0)⟩ := by
  have hkp := h.keypair
  obtain ⟨bytes, hd, -⟩ := bind_ok hkp
  obtain rfl : kp = keypairOf bytes := Except.ok.inj (hkp.symm.trans (generate_keypair_eq hcx hd))
  obtain ⟨e₁, d₁, e₂, d₂, h₁, h₂, hsent₁, hsent₂, hflow, -, hP⟩ :=
    review_run env st d h255 h.length h.acceptable 0
  -- Approve leaves the transaction and the texts alone
  have hd₂ : d₂ = { d₁ with flow := .ux_sign_tx_comfort_flow } := by
    obtain ⟨-, -, -, o, hrun, rfl, -⟩ := h₂
    rw [hsent₂.1] at hrun
    exact congrArg Outcome.device (Except.ok.inj hrun).symm
  have hsame : e₁.after._tx = d₂._tx ∧ e₁.after._ui = d₂._ui := by
    rw [h₁.after, hd₂]
    exact ⟨rfl, rfl⟩
  have haccount : d₂._tx.account = n := UInt32.toNat_inj.mp (hP.account.trans h.account.symm)
  have haddr : env.addressOf (keypairOf bytes) = d₂._ui.from_.toList := by rw [hP.from_, h.owner]
  obtain ⟨pk, hread⟩ := hP.receiver
  have hreceiver : d₂._tx.tx.receiver_pk = ⟨x, decide (odd ≠ 0)⟩ :=
    Except.ok.inj (hread.symm.trans (read_addressText env.sha256 x odd h.receiver _ _).2)
  have hxlt : num d₂._tx.tx.receiver_pk.x < fieldModulus := by rw [hreceiver]; exact h.reduced
  have hvalid : (keypairOf bytes).pub.Valid := affineOf_valid _
  -- so what is hashed has a digest, and the block signs
  obtain ⟨_tx', sig, htry⟩ := trySign_signs hcx st (haccount ▸ hd) haddr
    (digests_of_reduced hcx hpos hvalid (network_of_acceptable h.acceptable hP)
      (txFields_lt hP hvalid haddr hxlt))
  have h₃ := step_of_app_main (app_main_signed htry)
    (show Enabled d₂ _ from ⟨by rw [hflow]; exact List.mem_singleton.mpr rfl, nofun⟩)
  have hof : TransactionOf env ⟨requestBuffer INS_SIGN_TX data h255 0, data.length + APDU_HEADER_LEN⟩
      st data d₂._tx d₂._ui :=
    ⟨command_requestBuffer INS_SIGN_TX h255 0, h.length, h.acceptable, hP⟩
  rw [← hsame.1, ← hsame.2] at hof htry
  obtain ⟨kp', hnode⟩ := nodeSignature_of_trySign hcx hpos hderive hsent₁.1 hof htry
  obtain rfl : kp' = keypairOf bytes := by
    have hkp' := hnode.keypair
    rw [hsame.1, haccount, hkp] at hkp'
    exact (Except.ok.inj hkp').symm
  exact ⟨e₁, d₁, e₂, d₂, _, _, sig, ⟨h₁, h₂, h₃⟩, hsent₁, hsent₂, ⟨rfl, rfl⟩, hnode,
    by rw [hsame.1, hreceiver]⟩

/-- In every state, a request from the address of the account to the address of a field element is
reviewed, and Approve and the timer of "Signing..." send a signature that a node accepts, unless
the nonce is zero. -/
theorem node_reached : ∃ t d' req sig, Run (· = d) (Step env) t d' ∧
    t.map (fun e => (e.event, e.sent)) = [
      (.apdu (requestBuffer INS_SIGN_TX data h255 0) (data.length + APDU_HEADER_LEN), []),
      (.validate (.ux_sign_tx_flow_step .approve), []),
      (.validate .ux_sign_tx_comfort_flow_signing_step, [sig.bytes ++ [0x90, 0x00]])] ∧
    t.head? = some req ∧ NodeSignature env req kp sig ∧
    (sig.rx ≠ FIELD_ZERO → NodeAccepts req.after._tx.network_id kp.pub req.after._tx.tx sig) := by
  obtain ⟨e₁, d₁, e₂, d₂, e₃, d₃, sig, ⟨h₁, h₂, h₃⟩, hsent₁, hsent₂, hsent₃, hnode, hreceiver⟩ :=
    own_request_steps hcx hpos hderive h255 h d
  have hnil : Run (· = d) (Step env) [] d := .nil rfl
  refine ⟨_, d₃, e₁, sig, hnil.snoc h₁ |>.snoc h₂ |>.snoc h₃, ?_, rfl, hnode, ?_⟩
  · simp [hsent₁, hsent₂, hsent₃]
  · exact hnode.accepted (by rw [hreceiver]; exact h.reduced)

end Own

/-- The private keys and the nonces are 1, and Poseidon is the sponge. -/
def spongeEnv : Env := { unitEnv with poseidon := poseidon_hash Cx.reference TESTNET_IV }

/-- The nonce's point is the generator. -/
theorem spongeEnv_rx {req : Entry} {kp : Keypair} {sig : Signature}
    (h : NodeSignature spongeEnv req kp sig) : sig.rx = FIELD_ONE := by
  obtain ⟨st, _tx', htry⟩ := h.signed
  obtain ⟨kp', msg, -, -, -, hsign⟩ := (trySign_cases htry).2 sig rfl
  obtain ⟨k, hk, hrx⟩ := sign_rx Cx.reference_exact hsign
  obtain ⟨l, rfl⟩ := message_derive_cases hk
  have hnonce : scalar_from_bytes (spongeEnv.blake2b l).reverse = ofNum 1 := oneHash_nonce l
  rw [hrx, hnonce, num_ofNum (by norm_num), one_nsmul, ← AFFINE_ONE_eq]
  rfl

theorem spongeEnv_rx_ne {req : Entry} {kp : Keypair} {sig : Signature}
    (h : NodeSignature spongeEnv req kp sig) : sig.rx ≠ FIELD_ZERO := by
  rw [spongeEnv_rx h]
  decide +kernel

/-- From the own account to itself. -/
theorem ownRequest_unit : OwnRequest spongeEnv cleanStack unitRequest 0 unitKeypair AFFINE_ONE.x
    (oddByte (field_is_odd AFFINE_ONE.y)) where
  length := length_unitRequest
  acceptable := acceptable_unitRequest cleanStack
  account := by
    rw [numField, unitRequest, request, List.drop_zero, List.take_left' (show _ = 4 from rfl)]
    rfl
  keypair := unitEnv_keypair 0
  owner := (request_addresses length_unitAddress length_unitAddress 42 PAYMENT_TX).1.symm
  receiver := (request_addresses length_unitAddress length_unitAddress 42 PAYMENT_TX).2
  reduced := by
    rw [AFFINE_ONE_eq]
    exact (affineOf_valid _).x_lt

/-- At the nonce 1, so the node accepts. -/
theorem node_reached_unit : ∃ t d' req sig, Run (· = Device.boot) (Step spongeEnv) t d' ∧
    t.flatMap (·.sent) = [sig.bytes ++ [0x90, 0x00]] ∧ t.head? = some req ∧
    NodeAccepts req.after._tx.network_id unitKeypair.pub req.after._tx.tx sig := by
  obtain ⟨t, d', req, sig, hrun, hmap, hhead, hnode, haccepts⟩ :=
    node_reached (show spongeEnv.cx.Exact from Cx.reference_exact) rfl (fun _ => ⟨ofNum 1, rfl⟩)
      length_unitRequest_le ownRequest_unit .boot
  refine ⟨t, d', req, sig, hrun, ?_, hhead, haccepts (spongeEnv_rx_ne hnode)⟩
  have hflat : ∀ l : List Entry, l.flatMap (·.sent) =
      (l.map fun e => (e.event, e.sent)).flatMap (·.2) := fun l => by rw [List.flatMap_map]
  rw [hflat, hmap]
  rfl

/-! ## Every run -/

/-- In every run of the device with its own sponge, with any requests, presses and timers in
any order, a reply is a status or the version, an approved address, or the signature of the
transaction the most recent sign request wrote, approved on its own flow: by the key of the
sender, and accepted by a node if the receiver's x-coordinate is a field element and the nonce
is not zero. -/
theorem node_accepts {env : Env} (hcx : env.cx.Exact) {pos : State}
    (hpos : env.poseidon = poseidon_hash env.cx pos)
    (hderive : ∀ path, ∃ bytes, env.derive path = .ok bytes) {t : List Entry} {d d' : Device}
    (hrun : Run Start (Step env) t d) {e : Entry} (hstep : Step env d e d') {r : List UInt8}
    (hr : r ∈ e.sent) :
    Plain env r ∨ ApprovedAddress env t e r ∨ ∃ req rest steps kp sig,
      Last SignRequest t req rest ∧ Accepted env req steps ∧ ApprovePressed rest steps ∧
      NodeSignature env req kp sig ∧ r = sig.bytes ++ [0x90, 0x00] := by
  have hkeypair : ∀ account, ∃ kp, generate_keypair env.cx env.derive account = .ok kp :=
    fun account => by
      obtain ⟨bytes, hbytes⟩ := hderive (bip32_path account)
      exact ⟨_, generate_keypair_eq hcx hbytes⟩
  have hinv : Inv env t d := hrun.invariant (fun d h0 => .idle h0.1)
    fun t d e d' hinv h => by
      have hnext := inv_of_turn hkeypair hinv h.before (turn_of_step h)
      rwa [h.after] at hnext
  rcases allowed_of_turn hkeypair hinv hstep.before (turn_of_step hstep) hr with
    hplain | haddr | ⟨req, rest, steps, hlast, hacc, happrove, o, sig, hsign, hsent, rfl⟩
  · exact .inl hplain
  · exact .inr (.inl haddr)
  · obtain ⟨data, -, hcmd, -, hhandle⟩ := id hacc
    obtain ⟨q, hev, hqcmd⟩ := apdu_of_command hcmd
    have hof := (transactionOf_of_handle hqcmd hhandle).1
    obtain ⟨_tx', -, ⟨sig', htry, rfl⟩ | ⟨-, rfl⟩⟩ := sign_transaction_spec hsign
    · obtain ⟨kp, hnode⟩ := nodeSignature_of_trySign hcx hpos hderive hev hof htry
      exact .inr (.inr ⟨req, rest, steps, kp, sig', hlast, hacc, happrove, hnode,
        (List.singleton_inj.mp hsent).symm⟩)
    · cases hsent

/-- Account 0 sends to itself: the third turn sends a signature that a node accepts. -/
theorem node_accepts_unit : ∃ t d e d' req kp sig, Run Start (Step spongeEnv) t d ∧
    Step spongeEnv d e d' ∧ sig.bytes ++ [0x90, 0x00] ∈ e.sent ∧ NodeSignature spongeEnv req kp sig ∧
    NodeAccepts req.after._tx.network_id kp.pub req.after._tx.tx sig := by
  obtain ⟨e₁, d₁, e₂, d₂, e₃, d₃, sig, ⟨h₁, h₂, h₃⟩, -, ⟨hev₂, -⟩, ⟨hev₃, hsent⟩, -, hreceiver⟩ :=
    own_request_steps (show spongeEnv.cx.Exact from Cx.reference_exact) rfl
      (fun _ => ⟨ofNum 1, rfl⟩) length_unitRequest_le ownRequest_unit .boot
  have hrun := (Run.nil (show Start .boot from ⟨rfl, rfl⟩)).snoc h₁ |>.snoc h₂
  have hmem : sig.bytes ++ [0x90, 0x00] ∈ e₃.sent := by
    rw [hsent]
    exact List.mem_singleton.mpr rfl
  have hlen : (sig.bytes ++ [0x90, 0x00]).length = 66 := by simp [Signature.bytes]
  rcases node_accepts Cx.reference_exact rfl (fun _ => ⟨ofNum 1, rfl⟩) hrun h₃ hmem with
    (h | h) | h | ⟨req, rest, -, kp, sig', hlast, -, -, hnode, hr⟩
  · omega
  · have hver := congrArg List.length h
    rw [hlen] at hver
    simp at hver
  · obtain ⟨_, _, _, _, _, -, -, -, -, haddr, -⟩ := h
    rw [hev₃] at haddr
    cases haddr
  · -- the only request is the first turn
    obtain ⟨before, hsplit⟩ := hlast.split
    have hreq : req ∈ [] ++ [e₁] ++ [e₂] := by rw [hsplit]; simp
    obtain ⟨q, -, -, hapdu, -⟩ := hnode.request
    have hne : req ≠ e₂ := by
      rintro rfl
      rw [hev₂] at hapdu
      cases hapdu
    obtain rfl : req = e₁ := by simpa [hne] using hreq
    have hreduced : num req.after._tx.tx.receiver_pk.x < fieldModulus := by
      rw [hreceiver]
      exact ownRequest_unit.reduced
    exact ⟨_, d₂, e₃, d₃, req, kp, sig', hrun, h₃, hr ▸ hmem, hnode,
      hnode.accepted hreduced (spongeEnv_rx_ne hnode)⟩

end MinaLedger
