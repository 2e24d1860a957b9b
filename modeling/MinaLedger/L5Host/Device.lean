import MinaLedger.L4App.Completion
import MinaLedger.L5Host.Session

/-!
# The wallet and the device

What `DONGLE.exchange` answers when the device at the other end is the application
(`Served`): the data of the reply to the request, in a run of the event loop in which
the host waits for each reply.

Results:
* `served_answers`: such data answers the request.
* `served_address`, `served_transaction`: a user who consents has it.
* `signed_of_served`: the answer to `ledger_sign_tx` is a signature that verifies for its
  arguments.
-/
namespace MinaLedger
open Lib.Text Lib.Trace Lib.Service Lib.Radix Lib.Dialogue

/-! ## Requests as bytes -/

/-- The bytes of a request lie in the buffer. -/
def Apdu.Receives (q : Apdu) (apdu : List UInt8) : Prop :=
  q.rx = apdu.length ∧ q.buffer.toList.take q.rx = apdu

theorem receives_apduOf {ins : UInt8} {data : List UInt8} (h255 : data.length ≤ 255) :
    (apduOf ins data h255).Receives ([CLA, ins, 0, 0, UInt8.ofNat data.length] ++ data) := by
  refine ⟨?_, take_requestBuffer ins h255 0⟩
  rw [List.length_append]
  exact Nat.add_comm _ _

/-- A request is its header, its length and its data. -/
theorem Apdu.Receives.eq_of_command {q : Apdu} {apdu : List UInt8} (h : q.Receives apdu) {ins : UInt8}
    {data : List UInt8} (hc : q.command = some (ins, data)) :
    ∃ p1 p2 lc, apdu = [CLA, ins, p1, p2, lc] ++ data ∧ lc.toNat = data.length := by
  obtain ⟨hlen, hrx, hdata⟩ := command_data hc
  have hhead : q.buffer[0] = CLA ∧ q.buffer[1] = ins := by
    unfold Apdu.command MinaLedger.command at hc
    split at hc
    · rename_i hok
      exact ⟨hok.1, (Prod.mk.inj (Option.some.inj hc)).1⟩
    · cases hc
  have hfive : q.buffer.toList.take 5 =
      [q.buffer[0], q.buffer[1], q.buffer[2], q.buffer[3], q.buffer[4]] := by
    refine List.ext_getElem (by simp) fun i h _ => ?_
    have hi : i < 5 := by simpa using h
    interval_cases i <;> simp
  refine ⟨q.buffer[2], q.buffer[3], q.buffer[4], ?_, hlen.symm⟩
  rw [← h.2, hrx, hlen, Nat.add_comm, List.take_add, hdata, ← hhead.1, ← hhead.2]
  exact congrArg (· ++ _) hfive

/-! ## What is answered -/

/-- The data of the reply to the request, which has the status 0x9000; the host asked
nothing else before it had the reply. -/
def Served (env : Env) (apdu data : List UInt8) : Prop :=
  ∃ q consent, q.Receives apdu ∧ Replies env q consent (data ++ [0x90, 0x00])

theorem served_answers {env : Env} (henv : env.Sound)
    (hderive : ∀ path, ∃ bytes, env.derive path = .ok bytes) {apdu data : List UInt8}
    (h : Served env apdu data) :
    ∃ q consent, q.Receives apdu ∧ Answers env q consent (data ++ [0x90, 0x00]) := by
  obtain ⟨q, consent, hq, hreplies⟩ := h
  exact ⟨q, consent, hq, hreplies.answers henv hderive⟩

/-! ## What a user who consents has served -/

section Consenting

variable {env : Env} (henv : env.Sound) (hderive : ∀ path, ∃ bytes, env.derive path = .ok bytes)

include henv hderive

/-- A request that can be reviewed. -/
theorem served_of_reviewable {st : Nat → Stale} {q : Apdu} (hq : Reviewable env st q)
    {apdu : List UInt8} (hreceives : q.Receives apdu) :
    ∃ r, Answers env q true r ∧ ∀ data, r = data ++ [0x90, 0x00] → Served env apdu data := by
  obtain ⟨r, hr⟩ := replies_of_reviewable henv hderive hq
  refine ⟨r, hr.answers henv hderive, fun data hdata => ?_⟩
  rw [hdata] at hr
  exact ⟨q, true, hreceives, hr⟩

/-- The address of an account. -/
theorem served_address {n : UInt32} {kp : Keypair}
    (hkp : generate_keypair env.cx env.derive n = .ok kp) :
    Served env ([0xe0, 0x02, 0x00, 0x00, 4] ++ beBytes 4 n.toNat) (env.addressOf kp) := by
  have hlen : (beBytes 4 n.toNat).length = 4 := length_beBytes _ _
  have h255 : (beBytes 4 n.toNat).length ≤ 255 := by rw [hlen]; norm_num
  have hcmd := command_requestBuffer INS_GET_ADDR h255 0
  have hof : AddressOf env (apduOf INS_GET_ADDR _ h255) n kp :=
    ⟨⟨_, hcmd, hlen, (beVal_beBytes n.toNat_lt).symm⟩, hkp⟩
  have hreceives : (apduOf INS_GET_ADDR _ h255).Receives
      ([0xe0, 0x02, 0x00, 0x00, 4] ++ beBytes 4 n.toNat) := by
    have hapdu := @receives_apduOf INS_GET_ADDR _ h255
    rw [hlen] at hapdu
    exact hapdu
  have hq : Reviewable env cleanStack (apduOf INS_GET_ADDR _ h255) := .inl ⟨n, kp, hof⟩
  obtain ⟨r, hr, hserved⟩ := served_of_reviewable henv hderive hq hreceives
  exact hserved _ (address_of_consent hof hr)

/-- The signature of a transaction, if its account owns the sender. -/
theorem served_transaction {st : Nat → Stale} {data : List UInt8} (hlen : data.length = 172)
    (hacc : Acceptable env.sha256 st data 172) {n : UInt32} {kp : Keypair}
    (hn : n.toNat = numField data 0 4) (hkp : generate_keypair env.cx env.derive n = .ok kp)
    (howner : env.addressOf kp = addressField data 4) :
    ∃ sig : Signature, Served env ([0xe0, 0x03, 0x00, 0x00, 172] ++ data) sig.bytes := by
  have h255 : data.length ≤ 255 := by rw [hlen]; norm_num
  have hcmd : (apduOf INS_SIGN_TX data h255).command = some (INS_SIGN_TX, data) :=
    command_requestBuffer INS_SIGN_TX h255 0
  have hreceives : (apduOf INS_SIGN_TX data h255).Receives ([0xe0, 0x03, 0x00, 0x00, 172] ++ data) := by
    have hapdu := @receives_apduOf INS_SIGN_TX data h255
    rw [hlen] at hapdu
    exact hapdu
  have hq : Reviewable env st (apduOf INS_SIGN_TX data h255) := .inr ⟨data, hcmd, hlen, hacc⟩
  obtain ⟨r, hr, hserved⟩ := served_of_reviewable henv hderive hq hreceives
  obtain ⟨_, _, _, sig, -, -, hsig⟩ := signature_of_owner hcmd hn hkp howner hr
  exact ⟨sig, hserved _ hsig⟩

end Consenting

/-! ## The request of the wallet -/

namespace SignTxArgs

section Apdu

variable {a : SignTxArgs} {apdu : List UInt8} (h : a.ledger_sign_tx = some apdu)

include h

/-- The text of a request is the text of its bytes. -/
theorem apduMessage_of_ledger_sign_tx : a.apduMessage = some (hexText apdu) := by
  obtain ⟨msg, hmsg, hread⟩ := Option.bind_eq_some_iff.mp h
  rw [hmsg]
  congr 1
  refine hexText_of_fromHex (fun c hc => ?_) hread
  obtain ⟨fs, hfs, hmsg⟩ := Option.bind_eq_some_iff.mp hmsg
  obtain rfl := Option.some.inj hmsg
  obtain ⟨s, -, hfs⟩ := Option.bind_eq_some_iff.mp hfs
  obtain ⟨r, -, hfs⟩ := Option.bind_eq_some_iff.mp hfs
  obtain ⟨m, -, hfs⟩ := Option.bind_eq_some_iff.mp hfs
  obtain rfl := Option.some.inj hfs
  rcases List.mem_append.mp hc with hc | hc
  · rcases List.mem_append.mp hc with hc | hc
    · rw [show "e0030000".toList = hexText [0xe0, 0x03, 0x00, 0x00] by decide +kernel] at hc
      exact signOrDigit_hexText c hc
    · exact signOrDigit_formatHex c hc
  · obtain ⟨f, hf, hc⟩ := List.mem_flatten.mp hc
    simp only [List.mem_cons, List.not_mem_nil, or_false] at hf
    rcases hf with rfl | rfl | rfl | rfl | rfl | rfl | rfl | rfl | rfl | rfl <;>
      first
        | exact signOrDigit_formatHex c hc
        | exact signOrDigit_hexText c hc

/-- Its first four bytes. -/
theorem head_of_ledger_sign_tx : ∃ rest, apdu = [0xe0, 0x03, 0x00, 0x00] ++ rest := by
  obtain ⟨fs, -, hmsg⟩ := Option.bind_eq_some_iff.mp (apduMessage_of_ledger_sign_tx h)
  replace hmsg := Option.some.inj hmsg
  rw [show "e0030000".toList = hexText [0xe0, 0x03, 0x00, 0x00] by decide +kernel,
    List.append_assoc] at hmsg
  have hlen := congrArg List.length hmsg
  rw [List.length_append, length_hexText, length_hexText] at hlen
  have hsplit : hexText (apdu.take 4) ++ hexText (apdu.drop 4) = hexText apdu := by
    rw [← hexText_append, List.take_append_drop]
  have htake := (List.append_inj (hmsg.trans hsplit.symm) (by
    rw [length_hexText, length_hexText, List.length_take]
    simp only [List.length_cons, List.length_nil] at hlen ⊢
    omega)).1
  exact ⟨apdu.drop 4, by rw [hexText_injective htake, List.take_append_drop]⟩

end Apdu

/-- A memo of the command line has no NUL. -/
theorem Fits.ordinary {a : SignTxArgs} (h : a.Fits) (hs : a.sender_address.length = 55)
    (hr : a.receiver.length = 55) (hmemo : a.memo.length ≤ 32 ∧ 0 ∉ a.memo)
    (htype : a.tx_type = 0x00 ∨ a.tx_type = 0x04) (hnetwork : a.network_id = 0 ∨ a.network_id = 1) :
    a.Ordinary where
  sender_account := h.sender_account
  sender_address := ⟨h.sender_address, hs⟩
  receiver := ⟨h.receiver, hr⟩
  amount := h.amount
  fee := h.fee
  nonce := h.nonce
  valid_until := h.valid_until
  memo := ⟨(isAscii_padMemo hmemo.1).mp h.memo, hmemo⟩
  tx_type := htype
  network_id := hnetwork

/-- A signature of the arguments, by the key of the sender's address. -/
structure Signed (env : Env) (a : SignTxArgs) (kp : Keypair) (tx : tx_t) (sig : Signature) :
    Prop where
  stored : ∃ ui, a.Stored tx ui
  keypair : generate_keypair env.cx env.derive tx.account = .ok kp
  sender : env.addressOf kp = asciiBytes a.sender_address ++ [0]
  source : tx.tx.source_pk = ⟨kp.pub.x, decide (num kp.pub.y % 2 = 1)⟩ ∧
    tx.tx.fee_payer_pk = ⟨kp.pub.x, decide (num kp.pub.y % 2 = 1)⟩
  receiver : ∀ x odd, asciiBytes a.receiver = addressText env.sha256 x odd →
    tx.tx.receiver_pk = ⟨x, decide (odd ≠ 0)⟩
  verifies : Verifies env kp.pub tx.network_id tx.tx sig

/-- What the device answers to the wallet is a signature of what the wallet was given; a
request that does not fit is not answered. -/
theorem signed_of_served {env : Env} (henv : env.Sound)
    (hderive : ∀ path, ∃ bytes, env.derive path = .ok bytes) {a : SignTxArgs}
    (hs : a.sender_address.length = 55) (hr : a.receiver.length = 55)
    (hmemo : a.memo.length ≤ 32 ∧ 0 ∉ a.memo) (htype : a.tx_type = 0x00 ∨ a.tx_type = 0x04)
    (hnetwork : a.network_id = 0 ∨ a.network_id = 1) {apdu data : List UInt8}
    (hapdu : a.ledger_sign_tx = some apdu) (h : Served env apdu data) :
    ∃ kp tx sig, a.Signed env kp tx sig ∧ data = sig.bytes := by
  obtain ⟨q, consent, hq, hanswers⟩ := served_answers henv hderive h
  obtain ⟨rest, hrest⟩ := head_of_ledger_sign_tx hapdu
  have hins : ∀ ins d, q.command = some (ins, d) → ins = INS_SIGN_TX := by
    intro ins d hc
    obtain ⟨p1, p2, lc, heq, -⟩ := hq.eq_of_command hc
    have hhead := congrArg (List.take 2) (heq.symm.trans hrest)
    exact (List.cons.inj (List.cons.inj hhead).2).1
  obtain ⟨st, d, tx, ui, kp, sig, hsig, rfl⟩ := signature_of_answers hanswers hins
  have hof := hsig.of
  -- the data of the request is the data of the wallet
  obtain ⟨p1, p2, lc, heq, hlc⟩ := hq.eq_of_command hof.command
  rw [hof.length] at hlc
  obtain rfl : lc = 172 := UInt8.toNat_inj.mp hlc
  have hbytes : apdu = [0xe0, 0x03, 0x00, 0x00, 172] ++ d := by
    have hhead : [CLA, INS_SIGN_TX, p1, p2] = [0xe0, 0x03, 0x00, 0x00] :=
      congrArg (List.take 4) (heq.symm.trans hrest)
    rw [heq, show [CLA, INS_SIGN_TX, p1, p2, 172] = [CLA, INS_SIGN_TX, p1, p2] ++ [172] from rfl,
      hhead]
    rfl
  have hmsg := apduMessage_of_ledger_sign_tx hapdu
  have hfits := fits_of_apduMessage hs hr hmsg ⟨d, hof.length, by rw [hbytes]⟩
  have hd : d = a.data := by
    have heq := Option.some.inj (hmsg.symm.trans (apduMessage_eq hs hr hfits))
    exact (List.append_inj (hbytes.symm.trans (hexText_injective heq)) rfl).2
  subst hd
  have hord := hfits.ordinary hs hr hmemo htype hnetwork
  obtain ⟨hfrom, hto⟩ := addressField_data hs hr
  refine ⟨kp, tx, sig, ?_, rfl⟩
  exact {
    stored := ⟨ui, stored_of_parsed hord hof.parsed⟩
    keypair := hsig.keypair
    sender := hsig.owned.trans hfrom
    source := hsig.sender
    receiver := fun x odd hx => by
      obtain ⟨pk, hread⟩ := hof.parsed.receiver
      have haddr : addressField a.data 59 = addressText env.sha256 x odd ++ [0] := by rw [hto, hx]
      exact Except.ok.inj (hread.symm.trans (read_addressText env.sha256 x odd haddr _ _).2)
    verifies := hsig.verifies }

/-- A request that the device signs: the account owns the sender, the sum does not wrap and
the receiver is an address. -/
structure Owned (env : Env) (a : SignTxArgs) (n : UInt32) (kp : Keypair) : Prop where
  ordinary : a.Ordinary
  total : a.amount + a.fee < 2 ^ 64
  account : (n.toNat : Int) = a.sender_account
  keypair : generate_keypair env.cx env.derive n = .ok kp
  sender : env.addressOf kp = asciiBytes a.sender_address ++ [0]
  receiver : ∀ st, validate_address env.sha256 st (asciiBytes a.receiver ++ [0]) = .ok true

/-- A user who consents has a signature of it. -/
theorem Owned.served_data {env : Env} (henv : env.Sound)
    (hderive : ∀ path, ∃ bytes, env.derive path = .ok bytes) {a : SignTxArgs} {n : UInt32}
    {kp : Keypair} (h : a.Owned env n kp) :
    ∃ sig : Signature, Served env ([0xe0, 0x03, 0x00, 0x00, 172] ++ a.data) sig.bytes := by
  have hs := h.ordinary.sender_address.2
  have hr := h.ordinary.receiver.2
  have hfrom : ∀ st, validate_address env.sha256 st (asciiBytes a.sender_address ++ [0]) =
      .ok true := fun st =>
    (read_addressText env.sha256 _ _ h.sender.symm st (⟨ofNum 0, false⟩ : Compressed)).1
  have hacc : Acceptable env.sha256 cleanStack a.data 172 :=
    (acceptable_data_iff h.ordinary (hfrom _) (h.receiver _)).mpr h.total
  have hnum : n.toNat = numField a.data 0 4 := by
    have haccount :=
      numField_data hs hr (i := 0) (by norm_num) rfl rfl h.ordinary.sender_account rfl
    rw [← h.account] at haccount
    exact_mod_cast haccount.symm
  exact served_transaction henv hderive (length_data hs hr) hacc hnum h.keypair
    (h.sender.trans (addressField_data hs hr).1.symm)

end SignTxArgs

/-! ## Submissions -/

theorem shortMemo_eq (memo : Option Str) : shortMemo memo = (memo.getD []).take 32 := by
  rw [shortMemo]
  split
  · rfl
  · rename_i h
    exact (List.take_of_length_le (not_lt.mp h)).symm

theorem notMem_take {memo : Option Str} (h : ∀ m, memo = some m → 0 ∉ m) :
    0 ∉ (memo.getD []).take 32 := by
  intro hmem
  cases memo with
  | none => cases hmem
  | some m => exact h m rfl (List.mem_of_mem_take hmem)

theorem tx_type_from_op_cases (op : Operation) :
    tx_type_from_op op = 0x00 ∨ tx_type_from_op op = 0x04 := by
  cases op with
  | send_payment _ => exact .inl rfl
  | delegate => exact .inr rfl

theorem network_id_cases (s : Str) : network_id_from_string s = 0 ∨ network_id_from_string s = 1 := by
  unfold network_id_from_string
  split
  · exact .inr rfl
  · exact .inl rfl

/-- The command line gives the lengths, and its texts have no NUL. -/
theorem signed_of_signing {env : Env} (henv : env.Sound)
    (hderive : ∀ path, ∃ bytes, env.derive path = .ok bytes) {py : Runtime} {cl : CommandLine}
    {args : Args} (hargs : parse_args py.toPython cl = .ok args)
    (hnul : ∀ memo, cl.memo = some memo → 0 ∉ memo) (s : Signing py args) {data : List UInt8}
    (h : Served env s.apdu data) :
    ∃ kp tx sig, (s.p.request s.NETWORK).Signed env kp tx sig ∧ data = sig.bytes := by
  have hadm := admitted_of_parse_args hargs
  have hmemo : s.p.memo = (cl.memo.getD []).take 32 := by
    rw [s.supplied.memo, shortMemo_eq, hadm.memo.1]
  exact SignTxArgs.signed_of_served henv hderive
    (show s.p.sender.length = 55 by rw [s.supplied.sender, hadm.sender.1]; exact hadm.sender.2)
    (show s.p.receiver.length = 55 by
      rw [s.supplied.receiver, hadm.receiver.1]; exact hadm.receiver.2)
    (show s.p.memo.length ≤ 32 ∧ 0 ∉ s.p.memo by
      rw [hmemo]; exact ⟨List.length_take_le _ _, notMem_take hnul⟩)
    (tx_type_from_op_cases _) (network_id_cases _) s.built h

/-- Its command line. -/
def smallLine (sender : Str) : CommandLine where
  operation := .send_payment (ofString "0.000000042")
  account := ofString "0"
  sender := sender
  receiver := sender
  network := none
  fee := none
  nonce := none
  valid_until := none
  memo := none

theorem parse_smallLine {sender : Str} (hlen : sender.length = 55) (signature : Str) :
    parse_args (smallRuntime sender signature).toPython (smallLine sender) =
      .ok (smallPayment sender) := by
  have haddr : ∀ id, valid_address id sender = .ok sender := fun id => if_neg (by
    rw [hlen]; decide)
  have haccount : valid_account (smallRuntime sender signature).toPython (ofString "0") = .ok 0 := by
    rfl
  have hamount : valid_amount (smallRuntime sender signature).toPython (ofString "0.000000042") =
      .ok (ofString "0.000000042") := by rfl
  rw [parse_args, smallLine]
  simp only [haccount, haddr, hamount, raised_ok_bind]
  rfl

/-- The address of the device's key as a text. -/
def unitSender : Str := unitAddress.map fun b => Fin.ofNat _ b.toNat

theorem asciiBytes_unitSender : asciiBytes unitSender = unitAddress := asciiBytes_codes unitAddress

theorem unitSender_text : IsAscii unitSender ∧ unitSender.length = 55 := by
  refine ⟨by decide +kernel, ?_⟩
  rw [unitSender, List.length_map, length_unitAddress]

theorem unitSender_owned :
    unitEnv.addressOf unitKeypair = asciiBytes (smallRequest unitSender).sender_address ++ [0] := by
  rw [show (smallRequest unitSender).sender_address = unitSender from rfl, asciiBytes_unitSender]
  rfl

theorem owned_smallRequest : (smallRequest unitSender).Owned unitEnv 0 unitKeypair where
  ordinary := ordinary_smallRequest unitSender unitSender_text.1 unitSender_text.2
  total := show (42 : Int) + 3 < 2 ^ 64 by norm_num
  account := rfl
  keypair := unitEnv_keypair 0
  sender := unitSender_owned
  receiver st :=
    (read_addressText zeroHash _ _ unitSender_owned.symm st (⟨ofNum 0, false⟩ : Compressed)).1

theorem served_unit : ∃ sig : Signature,
    Served unitEnv ([0xe0, 0x03, 0x00, 0x00, 172] ++ (smallRequest unitSender).data) sig.bytes :=
  owned_smallRequest.served_data unitEnv_sound fun _ => ⟨ofNum 1, rfl⟩

end MinaLedger
