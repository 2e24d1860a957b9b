import MinaLedger.L4App.Completion
import MinaLedger.L4App.Review

/-!
# What replies depend on and what they give away

Two replies of the device compared, from one run or from two, whatever came before and
whatever the stack held.

Results:
* `replies_determined`: a request with the same bytes and the same consent has the same
  reply, if its address texts decode. (What does not decode is judged on the stack.)
* `shared_nonce`: two accepted signatures of one key with the same `rx` are equal, or
  their two challenges and responses give the private key away.
* `replies_reveal_key`: so do two replies of the device whose nonce messages agree.
-/
namespace MinaLedger
open Pasta Lib.Residue Lib.Trace Lib.Service

/-! ## The same request, the same reply -/

/-- The same bytes received; behind them the buffers may differ. -/
structure Apdu.Same (q q' : Apdu) : Prop where
  empty : q.rx = 0 ↔ q'.rx = 0
  command : q.command = q'.command

/-- The two address texts of a sign request decode. -/
def Apdu.Decoding (q : Apdu) : Prop :=
  ∀ data, q.command = some (INS_SIGN_TX, data) → data.length = 172 →
    Decodes 40 ((data.drop 4).take 55) ∧ Decodes 40 ((data.drop 59).take 55)

section Determined

variable {env : Env} {q q' : Apdu}

theorem Apdu.Same.decoding (h : q.Same q') (hq : q.Decoding) : q'.Decoding := by
  intro data hcmd hlen
  exact hq data (h.command.trans hcmd) hlen

/-- Then the verdict is about the texts. -/
theorem acceptable_congr {st st' : Nat → Stale} {data : List UInt8} (hlen : data.length = 172)
    (hfrom : Decodes 40 ((data.drop 4).take 55)) (hto : Decodes 40 ((data.drop 59).take 55))
    {dataLength : UInt8} (h : Acceptable env.sha256 st data dataLength) :
    Acceptable env.sha256 st' data dataLength := by
  have hdata := le_of_eq hlen.symm
  obtain ⟨hlen₁, hdec₁⟩ := strnlen_addressField hdata (by norm_num) hfrom
  obtain ⟨hlen₂, hdec₂⟩ := strnlen_addressField hdata (by norm_num) hto
  have hverdict₁ := h.from_
  have hverdict₂ := h.to_
  rw [validate_address_eq env.sha256 hlen₁ hdec₁] at hverdict₁
  rw [validate_address_eq env.sha256 hlen₂ hdec₂] at hverdict₂
  refine { h with from_ := ?_, to_ := ?_ }
  · rw [validate_address_eq env.sha256 hlen₁ hdec₁, hverdict₁]
  · rw [validate_address_eq env.sha256 hlen₂ hdec₂, hverdict₂]

/-- And the transaction is that of the request. -/
theorem Parsed.sameTx {st st' : Nat → Stale} {data : List UInt8} (hlen : data.length = 172)
    (hfrom : Decodes 40 ((data.drop 4).take 55)) (hto : Decodes 40 ((data.drop 59).take 55))
    {tx tx' : tx_t} {ui ui' : ui_t} (h : Parsed st data tx ui) (h' : Parsed st' data tx' ui') :
    SameTx tx tx' := by
  have hdata := le_of_eq hlen.symm
  have htag : tx.tag = tx'.tag := h.tag.trans h'.tag.symm
  have hmemo : tx.tx.memo = tx'.tx.memo := Vector.toList_inj.mp (h.memo.trans h'.memo.symm)
  have htoken : tx.tx.token_id = tx'.tx.token_id := h.token_id.trans h'.token_id.symm
  refine ⟨UInt32.toNat_inj.mp (h.account.trans h'.account.symm), h.network.trans h'.network.symm, ?_⟩
  apply Transaction.ext
  · exact UInt64.toNat_inj.mp (h.fee.trans h'.fee.symm)
  · exact h.fee_token.trans h'.fee_token.symm
  · exact key_eq (by norm_num) hdata hfrom h.payer h'.payer rfl
  · exact UInt32.toNat_inj.mp (h.nonce.trans h'.nonce.symm)
  · exact UInt32.toNat_inj.mp (h.valid_until.trans h'.valid_until.symm)
  · exact hmemo
  · rw [h.tagBits, h'.tagBits, htag]
  · exact key_eq (by norm_num) hdata hfrom h.source h'.source rfl
  · exact key_eq (by norm_num) hdata hto h.receiver h'.receiver rfl
  · exact htoken
  · exact UInt64.toNat_inj.mp (h.amount.trans h'.amount.symm)
  · exact h.token_locked.trans h'.token_locked.symm

/-- Some stack accepts the transaction. -/
def Apdu.Accepted (env : Env) (q : Apdu) : Prop :=
  ∃ st data, q.command = some (INS_SIGN_TX, data) ∧
    Acceptable env.sha256 st data (UInt8.ofNat data.length)

open Classical in
/-- The reply without consent. -/
noncomputable def plainReply (env : Env) (q : Apdu) : List UInt8 :=
  if q.rx = 0 then [0x69, 0x82]
  else match q.command with
    | none => [0x6E, 0x00]
    | some (ins, data) =>
      if ins = INS_GET_CONF then env.version.toList ++ [0x90, 0x00]
      else if ins = INS_GET_ADDR then (if data.length = 4 then [0x69, 0x85] else [0x68, 0x02])
      else if ins = INS_SIGN_TX then (if q.Accepted env then [0x69, 0x85] else [0x68, 0x02])
      else [0x6D, 0x00]

theorem plainReply_congr (h : q.Same q') : plainReply env q = plainReply env q' := by
  have haccepted : q.Accepted env = q'.Accepted env := by
    unfold Apdu.Accepted
    rw [h.command]
  rw [plainReply, plainReply, haccepted, h.command]
  simp only [h.empty]

theorem rx_of_command {ins : UInt8} {data : List UInt8} (h : q.command = some (ins, data)) :
    q.rx ≠ 0 := by
  obtain ⟨-, hrx, -⟩ := command_data h
  unfold APDU_HEADER_LEN at hrx
  omega

theorem plainReply_of_answers (hq : q.Decoding) {r : List UInt8} (h : Answers env q false r) :
    r = plainReply env q := by
  unfold plainReply
  cases h with
  | empty rx => rw [if_pos rx]
  | header rx cmd => rw [if_neg rx, cmd]
  | conf cmd =>
    rw [if_neg (rx_of_command cmd), cmd]
    rfl
  | unknown cmd ins =>
    obtain ⟨h1, h2, h3⟩ := ins
    simp only [if_neg (rx_of_command cmd), cmd, if_neg h1, if_neg h2, if_neg h3]
  | refused cmd bad =>
    rcases bad with ⟨rfl, h4⟩ | ⟨rfl, st, hno⟩
    · simp only [if_neg (rx_of_command cmd), cmd, if_neg h4]
      rfl
    · -- no stack accepts it
      have hnone : ¬q.Accepted env := by
        rintro ⟨st', data', cmd', hacc⟩
        obtain rfl := (Prod.mk.inj (Option.some.inj (cmd.symm.trans cmd'))).2
        have hlen := length_of_byte cmd hacc.length
        obtain ⟨hfrom, hto⟩ := hq _ cmd hlen
        exact hno (acceptable_congr hlen hfrom hto hacc)
      simp only [if_neg (rx_of_command cmd), cmd, if_neg hnone]
      rfl
  | rejected review =>
    rcases review with ⟨account, kp, hof⟩ | ⟨st, data, tx, ui, hof⟩
    · obtain ⟨data, cmd, h4, -⟩ := hof.command
      simp only [if_neg (rx_of_command cmd), cmd, if_pos h4]
      rfl
    · have hbyte : UInt8.ofNat data.length = 172 := by rw [hof.length]; rfl
      have hacc : q.Accepted env := ⟨st, data, hof.command, hbyte ▸ hof.acceptable⟩
      simp only [if_neg (rx_of_command hof.command), hof.command, if_pos hacc]
      rfl

/-- With consent there is the address, the signature, or the refusal to sign. -/
theorem consented_determined (hsame : q.Same q') (hq : q.Decoding) {r r' : List UInt8}
    (h : Answers env q true r) (h' : Answers env q' true r') : r = r' := by
  have hins : ∀ {ins ins' data data'}, q.command = some (ins, data) →
      q'.command = some (ins', data') → ins = ins' ∧ data = data' := by
    intro ins ins' data data' hc hc'
    exact Prod.mk.inj (Option.some.inj (hc.symm.trans (hsame.command.trans hc')))
  have htx : ∀ {st st' data data' tx tx' ui ui'}, TransactionOf env q st data tx ui →
      TransactionOf env q' st' data' tx' ui' → SameTx tx tx' ∧ data = data' := by
    intro st st' data data' tx tx' ui ui' hof hof'
    obtain ⟨-, rfl⟩ := hins hof.command hof'.command
    obtain ⟨hfrom, hto⟩ := hq _ hof.command hof.length
    exact ⟨hof.parsed.sameTx hof.length hfrom hto hof'.parsed, rfl⟩
  cases h with
  | address hof =>
    obtain ⟨data, cmd, -, haccount⟩ := hof.command
    cases h' with
    | address hof' =>
      obtain ⟨data', cmd', -, haccount'⟩ := hof'.command
      obtain ⟨-, rfl⟩ := hins cmd cmd'
      obtain rfl := UInt32.toNat_inj.mp (haccount.trans haccount'.symm)
      obtain rfl := Except.ok.inj (hof.keypair.symm.trans hof'.keypair)
      rfl
    | signature hof' => exact absurd (hins cmd hof'.of.command).1 (by decide)
    | unowned hof' => exact absurd (hins cmd hof'.command).1 (by decide)
  | signature hof =>
    have hkp := hof.keypair
    have hsigned := hof.signed
    cases h' with
    | address hof' =>
      obtain ⟨data', cmd', -⟩ := hof'.command
      exact absurd (hins hof.of.command cmd').1 (by decide)
    | signature hof' =>
      obtain ⟨hs, -⟩ := htx hof.of hof'.of
      rw [hs.account, hof'.keypair] at hkp
      obtain rfl := Except.ok.inj hkp
      rw [hs.network, hs.tx] at hsigned
      rw [hsigned.unique hof'.signed]
    | unowned hof' hother =>
      obtain ⟨hs, rfl⟩ := htx hof.of hof'
      rw [hs.account] at hkp
      exact absurd hof.owned (hother _ hkp)
  | unowned hof hother =>
    cases h' with
    | address hof' =>
      obtain ⟨data', cmd', -⟩ := hof'.command
      exact absurd (hins hof.command cmd').1 (by decide)
    | signature hof' =>
      obtain ⟨hs, rfl⟩ := htx hof hof'.of
      have hkp' := hof'.keypair
      rw [← hs.account] at hkp'
      exact absurd hof'.owned (hother _ hkp')
    | unowned => rfl

end Determined

/-- Two accepted signatures of one key with the same `rx`: with the same challenge they are
one signature, and with two challenges anyone can compute the private key. -/
theorem shared_nonce {env : Env} (henv : env.Sound) {priv : Scalar} (hpriv : num priv < groupOrder)
    {pub : Affine} (hpub : pub = affineOf (num priv • generator)) {network_id network_id' : UInt8}
    {tx tx' : Transaction} {sig sig' : Signature} (h : Verifies env pub network_id tx sig)
    (h' : Verifies env pub network_id' tx' sig') (hrx : sig.rx = sig'.rx) {e e' : Field}
    (he : env.poseidon network_id (txHashFields pub sig.rx tx) = .ok e)
    (he' : env.poseidon network_id' (txHashFields pub sig'.rx tx') = .ok e') :
    (e = e' → sig = sig') ∧
    (e ≠ e' → decode groupOrder priv =
      (decode groupOrder sig.s - decode groupOrder sig'.s) /
        (decode groupOrder e - decode groupOrder e')) := by
  obtain ⟨hs, e₁, he₁, hx, heven⟩ := h
  obtain ⟨hs', e₂, he₂, hx', heven'⟩ := h'
  obtain rfl := Except.ok.inj (he₁.symm.trans he)
  obtain rfl := Except.ok.inj (he₂.symm.trans he')
  have hdigest : ∀ {id l d}, env.poseidon id l = .ok d → num d < groupOrder := by
    intro id l d hd
    obtain ⟨d', hd', hlt⟩ := henv.poseidon id l
    obtain rfl := Except.ok.inj (hd.symm.trans hd')
    exact hlt.trans fieldModulus_lt_groupOrder
  have hval : ∀ {a : Field}, num a < groupOrder → (decode groupOrder a).val = num a :=
    fun ha => ZMod.val_cast_of_lt ha
  -- both commitments are the point of `rx` with the even y
  have hpoint : (decode groupOrder sig.s).val • generator -
      (decode groupOrder e₁).val • ((decode groupOrder priv).val • generator) =
      (decode groupOrder sig'.s).val • generator -
      (decode groupOrder e₂).val • ((decode groupOrder priv).val • generator) := by
    rw [hval hs, hval hs', hval (hdigest he), hval (hdigest he'), hval hpriv]
    rw [hpub, toPoint_affineOf] at hx heven hx' heven'
    exact affineOf_compressed_inj (hx.trans (hrx.trans hx'.symm)) (heven.trans heven'.symm)
  constructor
  · intro heq
    rw [heq] at hpoint
    have hresponse := response_unique groupOrder_smul_generator generator_ne_zero hpoint
    have hnum : num sig.s = num sig'.s := by rw [← hval hs, ← hval hs', hresponse]
    have hss : sig.s = sig'.s := num_inj hnum
    cases sig
    cases sig'
    simp_all
  · intro hne
    refine special_soundness groupOrder_smul_generator generator_ne_zero hpoint fun heq => hne ?_
    apply num_inj
    rw [← hval (hdigest he), ← hval (hdigest he'), heq]

/-! ## Nonces of the device -/

/-- Transactions with one nonce message have one `rx`. -/
theorem SignedBy.rx_congr {env : Env} (henv : env.Sound) {kp : Keypair}
    {network_id network_id' : UInt8} {tx tx' : Transaction} {sig sig' : Signature}
    (h : SignedBy env kp network_id tx sig)
    (h' : SignedBy env kp network_id' tx' sig')
    (hbits : txDeriveBits kp tx network_id = txDeriveBits kp tx' network_id') :
    sig.rx = sig'.rx := by
  obtain ⟨st, input, msg, hmsg, hsign⟩ := h
  obtain ⟨st', input', msg', hmsg', hsign'⟩ := h'
  obtain ⟨k, hk, hrx⟩ := sign_rx henv.exact hsign
  obtain ⟨k', hk', hrx'⟩ := sign_rx henv.exact hsign'
  have hderive : message_derive env.blake2b (st 0) kp msg network_id =
      message_derive env.blake2b (st' 0) kp msg' network_id' := by
    obtain ⟨m, r, hm, hr, -⟩ :=
      derive_message_of_tx (st 0) input tx (Vector.replicate 268 0) kp network_id
    obtain ⟨m', r', hm', hr', -⟩ :=
      derive_message_of_tx (st' 0) input' tx' (Vector.replicate 268 0) kp network_id'
    obtain rfl := Except.ok.inj (hm.symm.trans hmsg)
    obtain rfl := Except.ok.inj (hm'.symm.trans hmsg')
    obtain rfl : r = r' := (derive_message_eq_iff hm hm' hr hr').mpr (txDeriveBits_eq_iff.mp hbits)
    rw [message_derive, message_derive, hr, hr']
  rw [hderive] at hk
  obtain rfl := Option.some.inj (Except.ok.inj (hk.symm.trans hk'))
  rw [hrx, hrx']

theorem Signature.bytes_inj {sig sig' : Signature} (h : sig.bytes = sig'.bytes) : sig = sig' := by
  obtain ⟨hrx, hs⟩ := List.append_inj h (by simp)
  cases sig
  cases sig'
  simp_all [Vector.toList_inj]

/-- The challenge of a signature. -/
def Challenge (env : Env) (kp : Keypair) (tx : tx_t) (sig : Signature) (e : Field) : Prop :=
  env.poseidon tx.network_id (txHashFields kp.pub sig.rx tx.tx) = .ok e

/-- The reply to a sign request, taken apart. -/
theorem signatureOf_of_replies {env : Env} (henv : env.Sound)
    (hderive : ∀ path, ∃ bytes, env.derive path = .ok bytes) {q : Apdu} {data : List UInt8}
    (hcmd : q.command = some (INS_SIGN_TX, data)) {consent : Bool} {sig : Signature}
    (h : Replies env q consent (sig.bytes ++ [0x90, 0x00])) :
    ∃ st tx ui kp, SignatureOf env q st data tx ui kp sig := by
  have hins : ∀ ins d, q.command = some (ins, d) → ins = INS_SIGN_TX ∧ d = data := by
    intro ins d hc
    obtain ⟨rfl, rfl⟩ := Prod.mk.inj (Option.some.inj (hc.symm.trans hcmd))
    exact ⟨rfl, rfl⟩
  obtain ⟨st, d, tx, ui, kp, sig', hof, hbytes⟩ :=
    signature_of_answers (h.answers henv hderive) fun ins d hc => (hins ins d hc).1
  obtain rfl := (hins _ _ hof.of.command).2
  obtain rfl := Signature.bytes_inj hbytes
  exact ⟨st, tx, ui, kp, hof⟩

/-- The digest is bit 255 of the receiver. -/
def topDigest (_ : UInt8) (l : List Field) : Exec Field :=
  .ok (ofNum (num (l.getD 2 (ofNum 0)) / 2 ^ 255))

def topEnv : Env := { unitEnv with poseidon := topDigest }

theorem topDigest_lt (l : List Field) : num (l.getD 2 (ofNum 0)) / 2 ^ 255 < 2 :=
  Nat.div_lt_of_lt_mul (num_lt _)

theorem topEnv_sound : topEnv.Sound where
  exact := Cx.reference_exact
  derive _ := .inl ⟨_, rfl⟩
  poseidon _ l := by
    have hlt := topDigest_lt l
    refine ⟨_, rfl, ?_⟩
    rw [num_ofNum (hlt.trans (by norm_num))]
    exact hlt.trans (by decide)

/-- The address with the x-coordinate `x`, which nothing bounds. -/
def addressAt (x : Field) : List UInt8 := addressText zeroHash x 0

/-- 42 from the own account to it. -/
def topRequest (x : Field) : List UInt8 := request unitAddress (addressAt x) 42 PAYMENT_TX

theorem length_addressAt (x : Field) : (addressAt x).length = 55 := length_addressText zeroHash x 0

theorem length_topRequest (x : Field) : (topRequest x).length = 172 :=
  length_request length_unitAddress (length_addressAt x) 42 PAYMENT_TX

theorem length_topRequest_le (x : Field) : (topRequest x).length ≤ 255 := by
  rw [length_topRequest]
  norm_num

theorem command_top (x : Field) :
    (apduOf INS_SIGN_TX (topRequest x) (length_topRequest_le x)).command =
      some (INS_SIGN_TX, topRequest x) :=
  command_requestBuffer INS_SIGN_TX (length_topRequest_le x) 0

/-- The user approves it, and it is signed. -/
theorem replies_top (x : Field) : ∃ sig : Signature,
    Replies topEnv (apduOf INS_SIGN_TX (topRequest x) (length_topRequest_le x)) true
      (sig.bytes ++ [0x90, 0x00]) := by
  have hderive : ∀ path, ∃ bytes, topEnv.derive path = .ok bytes := fun _ => ⟨ofNum 1, rfl⟩
  have hfrom := (read_addressText zeroHash AFFINE_ONE.x (oddByte (field_is_odd AFFINE_ONE.y))
    (show unitAddress ++ [0] = _ from rfl) (cleanStack 0) ⟨ofNum 0, false⟩).1
  have hto := (read_addressText zeroHash x 0 (show addressAt x ++ [0] = _ from rfl) (cleanStack 3)
    ⟨ofNum 0, false⟩).1
  have hacc : Acceptable topEnv.sha256 cleanStack (topRequest x) 172 :=
    acceptable_request length_unitAddress (length_addressAt x) 42 PAYMENT_TX hfrom hto (.inl rfl)
  obtain ⟨r, hr⟩ := replies_of_reviewable topEnv_sound hderive
    (q := apduOf INS_SIGN_TX (topRequest x) (length_topRequest_le x))
    (.inr ⟨_, command_top x, length_topRequest x, hacc⟩)
  have howner : topEnv.addressOf unitKeypair = addressField (topRequest x) 4 :=
    (request_addresses length_unitAddress (length_addressAt x) 42 PAYMENT_TX).1.symm
  have haccount : (0 : UInt32).toNat = numField (topRequest x) 0 4 := by
    rw [numField, topRequest, request, List.drop_zero, List.take_left' (show _ = 4 from rfl)]
    rfl
  have hkp : generate_keypair topEnv.cx topEnv.derive 0 = .ok unitKeypair := unitEnv_keypair 0
  obtain ⟨-, -, -, sig, -, -, rfl⟩ := signature_of_owner (command_top x) haccount
    hkp howner (hr.answers topEnv_sound hderive)
  exact ⟨sig, hr⟩

section Pair

variable {x x' : Field} {q q' : Apdu} {st st' : Nat → Stale} {tx tx' : tx_t} {ui ui' : ui_t}
  {kp kp' : Keypair} {sig sig' : Signature} (h : SignatureOf topEnv q st (topRequest x) tx ui kp sig)
  (h' : SignatureOf topEnv q' st' (topRequest x') tx' ui' kp' sig')

include h

theorem receiver_top : tx.tx.receiver_pk = ⟨x, false⟩ := by
  obtain ⟨pk, hread⟩ := h.of.parsed.receiver
  have haddr : addressField (topRequest x) 59 = addressText zeroHash x 0 ++ [0] :=
    (request_addresses length_unitAddress (length_addressAt x) 42 PAYMENT_TX).2
  exact Except.ok.inj (hread.symm.trans (read_addressText zeroHash x 0 haddr _ _).2)

theorem challenge_top {e : Field} (he : Challenge topEnv kp tx sig e) :
    e = ofNum (num x / 2 ^ 255) := by
  rw [← Except.ok.inj he]
  show ofNum (num tx.tx.receiver_pk.x / 2 ^ 255) = _
  rw [receiver_top h]

include h'

/-- Below bit 255 the transactions are the same, so their nonce messages are. -/
theorem txDeriveBits_top (hkp : kp = kp') (hx : num x % 2 ^ 255 = num x' % 2 ^ 255) :
    txDeriveBits kp tx.tx tx.network_id = txDeriveBits kp tx'.tx tx'.network_id := by
  subst hkp
  -- behind the addresses the requests are the same bytes
  have hrest : ∀ {off : Nat}, 114 ≤ off → (topRequest x).drop off = (topRequest x').drop off := by
    intro off hoff
    rw [← Nat.add_sub_cancel' hoff, ← List.drop_drop, ← List.drop_drop, topRequest, topRequest,
      drop_request length_unitAddress (length_addressAt x),
      drop_request length_unitAddress (length_addressAt x')]
  have hnum : ∀ {off : Nat} (k : Nat), 114 ≤ off →
      numField (topRequest x) off k = numField (topRequest x') off k := by
    intro off k hoff
    rw [numField, numField, hrest hoff]
  obtain ⟨-, -, htag, hnet⟩ := request_fields length_unitAddress (length_addressAt x) 42 PAYMENT_TX
  obtain ⟨-, -, htag', hnet'⟩ :=
    request_fields length_unitAddress (length_addressAt x') 42 PAYMENT_TX
  have hp := h.of.parsed
  have hp' := h'.of.parsed
  have hfee : tx.tx.fee = tx'.tx.fee :=
    UInt64.toNat_inj.mp (hp.fee.trans ((hnum 8 (by norm_num)).trans hp'.fee.symm))
  have hamount : tx.tx.amount = tx'.tx.amount :=
    UInt64.toNat_inj.mp (hp.amount.trans ((hnum 8 le_rfl).trans hp'.amount.symm))
  have hnonce : tx.tx.nonce = tx'.tx.nonce :=
    UInt32.toNat_inj.mp (hp.nonce.trans ((hnum 4 (by norm_num)).trans hp'.nonce.symm))
  have hvalid : tx.tx.valid_until = tx'.tx.valid_until :=
    UInt32.toNat_inj.mp (hp.valid_until.trans ((hnum 4 (by norm_num)).trans hp'.valid_until.symm))
  have hmemo : tx.tx.memo = tx'.tx.memo := by
    apply Vector.toList_inj.mp
    rw [hp.memo, hp'.memo, memoField, memoField, hrest (by norm_num)]
  have htags : tx.tx.tag = tx'.tx.tag := by
    rw [hp.tagBits, hp'.tagBits, hp.tag, hp'.tag, topRequest, topRequest, htag, htag']
  rw [txDeriveBits_eq_iff]
  refine ⟨?_, ?_, ?_⟩
  · simp only [txFields, h.sender.1, h.sender.2, h'.sender.1, h'.sender.2, receiver_top h,
      receiver_top h', List.map_cons, List.map_nil, fieldBits_eq_iff.mpr hx]
  · simp only [txBits, h.sender.1, h.sender.2, h'.sender.1, h'.sender.2, receiver_top h,
      receiver_top h', hfee, hamount, hnonce, hvalid, hmemo, htags, hp.fee_token, hp'.fee_token,
      hp.token_id, hp'.token_id, hp.token_locked, hp'.token_locked]
  · rw [hp.network, hp'.network, topRequest, topRequest, hnet, hnet']

end Pair

end MinaLedger
