import MinaLedger.L5Host.Online

/-!
# Sessions over Rosetta

What a session can do whoever answers, and that it ends where everybody does their
part: a server that offers the transaction it was asked for (`Offered`), and a user
who says yes.

Results:
* `check_tx_of_members`: a transaction with the user's members passes the check.
* `online_returns`: with an honest server the session ends in a submission.
* `wallet_session`: the device is asked only for what the user was shown and supplied,
  and what is submitted is that transaction with the answer of the device as its
  signature, shown again before.
-/
namespace MinaLedger
open Lib.Text Lib.Dialogue

/-! ## Transactions that pass the check -/

theorem check_step_ok {x : Except Stop Json} {same : Json → Bool} {rest : Except Stop Bool} {v : Json}
    (hv : x = .ok v) (hs : same v = true) (hrest : rest = .ok true) :
    (do if !same (← x) then return false else rest) = Except.ok true := by
  subst hv hrest
  change (if (!same v) = true then _ else _) = _
  rw [hs]
  rfl

theorem isStr_step_ok {x : Except Stop Json} {s : Str} {rest : Except Stop Bool}
    (hx : x = .ok (.str s)) (hrest : rest = .ok true) :
    (do if !(← x).isStr s then return false else rest) = Except.ok true :=
  check_step_ok hx (Json.isStr_iff.mpr rfl) hrest

section Check

variable {py : Runtime} {op : Operation} {tx tx' : Json} {sender receiver memo : Str}
  {amount fee nonce : Int} {valid_until valid_until' : Json}

theorem common_tx_check_of_members (h : CommonMembers py tx fee valid_until nonce memo) :
    common_tx_check py tx fee valid_until nonce memo = .ok true := by
  refine isStr_step_ok h.fee ?_
  have hvalid : ∃ v, tx.item "valid_until" = .ok v ∧ sameValidUntil py valid_until v = true := by
    rcases h.valid_until with htext | ⟨hnull, hmax⟩
    · exact ⟨_, htext, Json.isStr_iff.mpr rfl⟩
    · exact ⟨_, hnull, hmax⟩
  have hmemo : ∃ v, tx.item "memo" = .ok v ∧ sameMemo memo v = true := by
    rcases h.memo with htext | ⟨hnull, hempty⟩
    · exact ⟨_, htext, Json.isStr_iff.mpr rfl⟩
    · exact ⟨_, hnull, decide_eq_true hempty⟩
  obtain ⟨v, hv, hsame⟩ := hvalid
  obtain ⟨m, hm, hsame'⟩ := hmemo
  refine check_step_ok hv hsame (isStr_step_ok h.nonce ?_)
  rw [hm]
  exact congrArg _ hsame'

/-- What the user supplied passes. -/
theorem check_tx_of_members
    (h : Members py op tx sender receiver amount fee valid_until nonce memo) :
    check_tx py op tx sender receiver amount fee valid_until nonce memo = .ok true := by
  have hcommon := common_tx_check_of_members h.common
  cases op with
  | send_payment text =>
    obtain ⟨hfrom, hto, hamount⟩ := h.payment (by simp)
    exact isStr_step_ok hfrom (isStr_step_ok hto (isStr_step_ok hamount hcommon))
  | delegate =>
    obtain ⟨hdelegator, hdelegate⟩ := h.delegation rfl
    exact isStr_step_ok hdelegator (isStr_step_ok hdelegate hcommon)

/-- With another `valid_until`. -/
theorem Members.override_valid_until
    (h : Members py op tx sender receiver amount fee valid_until nonce memo)
    (hset : tx'.item "valid_until" = .ok (.str (valid_until'.toStr py)))
    (hother : ∀ field, ofString field ≠ ofString "valid_until" → tx'.item field = tx.item field) :
    Members py op tx' sender receiver amount fee valid_until' nonce memo where
  payment hop := by
    rw [hother "from" (by decide +kernel), hother "to" (by decide +kernel),
      hother "amount" (by decide +kernel)]
    exact h.payment hop
  delegation hop := by
    rw [hother "delegator" (by decide +kernel), hother "new_delegate" (by decide +kernel)]
    exact h.delegation hop
  common := {
    fee := (hother "fee" (by decide +kernel)).trans h.common.fee
    valid_until := .inl hset
    nonce := (hother "nonce" (by decide +kernel)).trans h.common.nonce
    memo := by rw [hother "memo" (by decide +kernel)]; exact h.common.memo }

/-- With another memo. -/
theorem Members.override_memo {memo' : Str}
    (h : Members py op tx sender receiver amount fee valid_until nonce memo)
    (hset : tx'.item "memo" = .ok (.str memo'))
    (hother : ∀ field, ofString field ≠ ofString "memo" → tx'.item field = tx.item field) :
    Members py op tx' sender receiver amount fee valid_until nonce memo' where
  payment hop := by
    rw [hother "from" (by decide +kernel), hother "to" (by decide +kernel),
      hother "amount" (by decide +kernel)]
    exact h.payment hop
  delegation hop := by
    rw [hother "delegator" (by decide +kernel), hother "new_delegate" (by decide +kernel)]
    exact h.delegation hop
  common := {
    fee := (hother "fee" (by decide +kernel)).trans h.common.fee
    valid_until := by rw [hother "valid_until" (by decide +kernel)]; exact h.common.valid_until
    nonce := (hother "nonce" (by decide +kernel)).trans h.common.nonce
    memo := .inl hset }

end Check

/-! ## Overrides -/

/-- An override of a member of an object succeeds. -/
theorem overrideItem_returns {payload tx : Json} {key known : String} {u : Json}
    (htx : payload.item key = .ok tx) (hknown : tx.item known = .ok u) (field : String) (v : Json) :
    ∃ w tx', Parameters.overrideItem payload key field v = .ok w ∧ w.item key = .ok tx' ∧
      tx'.item field = .ok v ∧
      (∀ field', ofString field' ≠ ofString field → tx'.item field' = tx.item field') ∧
      ∀ key', ofString key' ≠ ofString key → w.item key' = payload.item key' := by
  obtain ⟨tx', htx'⟩ := Json.setItem_of_item hknown field v
  obtain ⟨w, hw⟩ := Json.setItem_of_item htx key tx'
  refine ⟨w, tx', ?_, Json.item_setItem hw, Json.item_setItem htx', fun field' hne =>
    Json.item_setItem_ne hne htx', fun key' hne => Json.item_setItem_ne hne hw⟩
  rw [Parameters.overrideItem, htx]
  change (Json.setItem tx field v >>= _) = _
  rw [htx']
  exact hw

/-- The transaction of a payload is the one the server was asked for; the server does not
know the memo. -/
structure Offered (py : Runtime) (p : Parameters) (key : String) (payload tx valid_until : Json)
    (memo : Str) : Prop where
  transaction : payload.item key = .ok tx
  members : Members py p.operation tx p.sender p.receiver p.amount p.fee valid_until p.nonce memo

section Offered

variable {py : Runtime} {p : Parameters} {key : String} {payload tx valid_until : Json} {memo : Str}

/-- The members that are not in the transaction stay. -/
def SameOthers (key : String) (payload payload' : Json) : Prop :=
  ∀ key', ofString key' ≠ ofString key → payload'.item key' = payload.item key'

theorem Offered.overrideItem_valid_until (h : Offered py p key payload tx valid_until memo) (v : Int) :
    ∃ payload' tx', Parameters.overrideItem payload key "valid_until" (.str (intText v)) = .ok payload' ∧
      Offered py p key payload' tx' (.int v) memo ∧ SameOthers key payload payload' := by
  obtain ⟨payload', tx', hrun, htx', hset, hother, hsame⟩ := overrideItem_returns
    h.transaction h.members.common.fee "valid_until" (.str (intText v))
  exact ⟨payload', tx', hrun, ⟨htx', h.members.override_valid_until hset hother⟩, hsame⟩

theorem Offered.overrideMemo (h : Offered py p key payload tx valid_until []) :
    ∃ payload' tx', Parameters.overrideMemo payload key p.memo = .ok payload' ∧
      Offered py p key payload' tx' valid_until p.memo ∧ SameOthers key payload payload' := by
  unfold Parameters.overrideMemo
  split
  · rename_i hempty
    exact ⟨payload, tx, rfl, hempty ▸ h, fun _ _ => rfl⟩
  · obtain ⟨payload', tx', hrun, htx', hset, hother, hsame⟩ := overrideItem_returns
      h.transaction h.members.common.fee "memo" (.str p.memo)
    exact ⟨payload', tx', hrun, ⟨htx', h.members.override_memo hset hother⟩, hsame⟩

theorem Offered.check (h : Offered py p key payload tx valid_until p.memo) :
    p.check py tx valid_until = .ok true := check_tx_of_members h.members

/-- The overrides of an unsigned payload that is valid forever. -/
theorem Offered.load (h : Offered py p key payload tx (.int MAX_VALID_UNTIL) [])
    (hnull : tx.item "valid_until" = .ok .null) :
    ∃ payload' tx', Parameters.loadValidUntil payload key p.valid_until =
        .ok (payload', .int p.valid) ∧
      Offered py p key payload' tx' (.int p.valid) [] := by
  unfold Parameters.valid
  cases p.valid_until with
  | none =>
    refine ⟨payload, tx, ?_, h⟩
    rw [Parameters.loadValidUntil, h.transaction]
    change (tx.item "valid_until" >>= _) = _
    rw [hnull]
    rfl
  | some v =>
    obtain ⟨payload', tx', hrun, hoffered, -⟩ := h.overrideItem_valid_until v
    refine ⟨payload', tx', ?_, hoffered⟩
    rw [Parameters.loadValidUntil, hrun]
    rfl

end Offered

/-! ## What can be printed -/

/-- The amounts have a floating-point number, and those of the server are read back. -/
structure Printable (py : Runtime) (p : Parameters) : Prop where
  NETWORK : ∃ s, p.NETWORK = .str s
  currency : ∀ n ∈ [p.amount, p.fee, p.amount + p.fee, p.balance], (py.to_currency n).isSome
  int : ∀ n ∈ [p.amount, p.fee], py.int (intText n) = some n

section Printable

variable {py : Runtime} {p : Parameters} (h : Printable py p)

include h

theorem Printable.to_currency {n : Int} (hn : n ∈ [p.amount, p.fee, p.amount + p.fee, p.balance]) :
    ∃ x, MinaLedger.to_currency py n = .ok x := by
  obtain ⟨x, hx⟩ := Option.isSome_iff_exists.mp (h.currency n hn)
  exact ⟨x, by rw [MinaLedger.to_currency, hx]⟩

theorem Printable.network_id : ∃ id, MinaLedger.network_id p.NETWORK = .ok id := by
  obtain ⟨s, hs⟩ := h.NETWORK
  exact ⟨_, by rw [hs]; rfl⟩

/-- The amount is printed for a payment. -/
theorem Printable.print_transaction (sender receiver nonce valid_until : Json) {amount : Int}
    (hamount : p.operation ≠ .delegate → amount = p.amount) :
    ∃ lines, print_transaction py p.operation p.NETWORK p.account (some (p.balance, p.locked_balance))
      sender receiver amount p.fee nonce valid_until p.memo = .ok lines := by
  obtain ⟨id, hid⟩ := h.network_id
  obtain ⟨balance, hbalance⟩ := h.to_currency (n := p.balance) (by simp)
  obtain ⟨fee, hfee⟩ := h.to_currency (n := p.fee) (by simp)
  obtain ⟨a, ha⟩ := h.to_currency (n := p.amount) (by simp)
  obtain ⟨total, htotal⟩ := h.to_currency (n := p.amount + p.fee) (by simp)
  unfold MinaLedger.print_transaction
  cases hop : p.operation with
  | send_payment text =>
    obtain rfl := hamount (by simp [hop])
    simp only [hid, hbalance, hfee, ha, htotal]
    exact ⟨_, rfl⟩
  | delegate =>
    simp only [hid, hbalance, hfee]
    exact ⟨_, rfl⟩

theorem Printable.signLines : ∃ lines, p.signLines py = .ok lines := by
  obtain ⟨lines, hlines⟩ := h.print_transaction (.str p.sender) (.str p.receiver) (.int p.nonce)
    (Parameters.shownValidUntil p.valid_until) fun _ => rfl
  exact ⟨_, stop_ok_bind hlines rfl⟩

theorem Printable.toInt {n : Int} (hn : n ∈ [p.amount, p.fee]) :
    (Json.str (intText n)).toInt py = .ok n := by
  rw [Json.toInt, h.int n hn]

theorem Printable.sendLines (signature : Str) {tx valid_until : Json}
    (hm : Members py p.operation tx p.sender p.receiver p.amount p.fee valid_until p.nonce p.memo) :
    ∃ lines, p.sendLines py tx valid_until signature = .ok lines := by
  have hfee := h.toInt (n := p.fee) (by simp)
  obtain ⟨amount, hpayment, hparties⟩ : ∃ amount, (p.operation ≠ .delegate → amount = p.amount) ∧
      Parameters.parties py p.operation tx = .ok (.str p.sender, .str p.receiver, amount) := by
    cases hop : p.operation with
    | send_payment text =>
      obtain ⟨hfrom, hto, hamount⟩ := hm.payment (by simp [hop])
      exact ⟨p.amount, fun _ => rfl, stop_ok_bind hfrom (stop_ok_bind hto (stop_ok_bind hamount
        (stop_ok_bind (h.toInt (by simp)) rfl)))⟩
    | delegate =>
      obtain ⟨hdelegator, hdelegate⟩ := hm.delegation hop
      exact ⟨0, fun hne => absurd rfl hne, stop_ok_bind hdelegator (stop_ok_bind hdelegate rfl)⟩
  obtain ⟨lines, hlines⟩ := h.print_transaction (.str p.sender) (.str p.receiver)
    (.str (intText p.nonce)) valid_until hpayment
  exact ⟨_, stop_ok_bind hparties (stop_ok_bind hm.common.fee (stop_ok_bind hfee
    (stop_ok_bind hm.common.nonce (stop_ok_bind hlines rfl))))⟩

end Printable

/-! ## Honest servers -/

/-- The answers of a server that offers the transaction it was asked for, valid forever and
without a memo, puts the signature in it and takes it. -/
structure Honest (py : Runtime) (p : Parameters) (signature : Str) where
  payloads : Json
  unsigned : Json
  unsignedTx : Json
  loaded : payloads_response py p.operation.payloadKey payloads = .ok unsigned
  offered : Offered py p p.operation.payloadKey unsigned unsignedTx (.int MAX_VALID_UNTIL) []
  forever : unsignedTx.item "valid_until" = .ok .null
  parse : Json
  parsed : parse_response py parse = .ok ()
  combine : Json
  signed : Json
  signedTx : Json
  combined : combine_response py p.operation combine = .ok signed
  offeredAgain : Offered py p p.operation.signedKey signed signedTx (.int MAX_VALID_UNTIL) []
  signature : signed.item "signature" = .ok (.str signature)
  submit : Json
  hash : Json
  submitted : submit_response py submit = .ok hash

section Honest

variable {py : Runtime} {p : Parameters} {signature : Str} (s : Honest py p signature)

theorem Honest.asks_payloads : ∃ body, Asks (p.payloads py)
    [⟨.post "/construction/payloads" body, some s.payloads⟩] (.done (.ok s.unsigned)) := by
  have hloaded := s.loaded
  unfold Parameters.payloads
  cases hop : p.operation with
  | send_payment _ =>
    rw [hop] at hloaded
    exact ⟨_, asks_rosetta_request _ hloaded⟩
  | delegate =>
    rw [hop] at hloaded
    exact ⟨_, asks_rosetta_request _ hloaded⟩

theorem Honest.asks_unsigned : ∃ body body' payload, Asks (p.unsigned py)
    [⟨.post "/construction/payloads" body, some s.payloads⟩,
      ⟨.post "/construction/parse" body', some s.parse⟩]
    (.done (.ok (payload, .int p.valid))) := by
  obtain ⟨body, hpayloads⟩ := s.asks_payloads
  obtain ⟨payload₁, tx₁, hload, hoffered₁⟩ := s.offered.load s.forever
  obtain ⟨payload₂, tx₂, hmemo, hoffered₂, -⟩ := hoffered₁.overrideMemo
  have hcheck := hoffered₂.check
  refine ⟨body, _, payload₂, asks_seq hpayloads (asks_call hload (asks_call hmemo
    (asks_seq (asks_rosetta_request _ s.parsed)
      (asks_call (stop_ok_bind hoffered₂.transaction hcheck) (.nil _)))))⟩

theorem signedKey_ne (op : Operation) : ofString "signature" ≠ ofString op.signedKey := by
  cases op with
  | send_payment _ => exact show ofString "signature" ≠ ofString "payment" by decide +kernel
  | delegate => decide +kernel

theorem Honest.asks_signed (payload : Json) : ∃ body body' payload' tx,
    Asks (p.signed py payload (.int p.valid) signature)
      [⟨.post "/construction/combine" body, some s.combine⟩,
        ⟨.post "/construction/parse" body', some s.parse⟩] (.done (.ok (payload', tx))) ∧
    Members py p.operation tx p.sender p.receiver p.amount p.fee
      (.int p.valid) p.nonce p.memo := by
  obtain ⟨payload₁, tx₁, hvalid, hoffered₁, hsame₁⟩ := s.offeredAgain.overrideItem_valid_until
    (p.valid)
  obtain ⟨payload₂, tx₂, hmemo, hoffered₂, hsame₂⟩ := hoffered₁.overrideMemo
  have hsignature : payload₂.item "signature" = .ok (.str signature) := by
    rw [hsame₂ _ (signedKey_ne _), hsame₁ _ (signedKey_ne _), s.signature]
  refine ⟨_, _, payload₂, tx₂, asks_seq (asks_rosetta_request _ s.combined) (asks_call hvalid
    (asks_call hmemo (asks_seq (asks_rosetta_request _ s.parsed) (asks_call hoffered₂.transaction
      (asks_call hoffered₂.check (asks_call hsignature ?_)))))), hoffered₂.members⟩
  change Asks (if (Json.str signature).isStr signature = true then _ else _) _ _
  rw [if_pos (Json.isStr_iff.mpr rfl)]
  exact .nil _

end Honest

/-- The device is asked, and answers. -/
theorem asks_exchange {a : SignTxArgs} {apdu : List UInt8} (h : a.ledger_sign_tx = some apdu)
    (resp : List UInt8) : Asks a.exchange [⟨.exchange apdu, some resp⟩] (.done (.ok resp)) := by
  rw [SignTxArgs.exchange, h]
  exact asks_seq (asks_ask _ _) (.nil _)

/-- The transcript of everybody doing their part. -/
theorem asks_online {py : Runtime} {args : Args} {p : Parameters} {t : Transcript}
    (hp : Asks (parameters py args) t (.done (.ok p))) (hprint : Printable py p)
    {NETWORK : Str} (hnetwork : p.NETWORK = .str NETWORK) {apdu : List UInt8}
    (hapdu : (p.request NETWORK).ledger_sign_tx = some apdu)
    {yes : Str} (hyes : py.lower_strip yes = ofString "y") (resp : List UInt8)
    (s : Honest py p (hexStr resp)) :
    ∃ t', Asks (online py args) t' (.done (.ok s.hash)) ∧ ⟨.exchange apdu, some resp⟩ ∈ t' := by
  obtain ⟨lines, hlines⟩ := hprint.signLines
  obtain ⟨body, body', payload, hunsigned⟩ := s.asks_unsigned
  obtain ⟨body₁, body₁', payload', tx, hsigned, hmembers⟩ := s.asks_signed payload
  obtain ⟨again, hagain⟩ := hprint.sendLines (hexStr resp) hmembers
  have hsign : Asks (p.sign (.int p.valid))
      [⟨.exchange apdu, some resp⟩] (.done (.ok resp)) :=
    asks_call (by rw [hnetwork]; rfl) (asks_call rfl (asks_exchange hapdu resp))
  refine ⟨_, asks_seq hp (asks_call hlines (asks_seq (asks_confirm hyes) (asks_seq hunsigned
    (asks_seq hsign (asks_seq hsigned (asks_call hagain (asks_seq (asks_confirm hyes)
      (asks_rosetta_request _ s.submitted)))))))), ?_⟩
  simp

/-- A session that ends asked the device once. -/
theorem exchange_of_acts {py : Runtime} {args : Args} {s : Sending py args} {t : Transcript}
    {r : Option Json} (ht : acts t = s.acts ++ [⟨s.submission, r⟩]) {apdu : List UInt8}
    {resp : Option (List UInt8)} (hmem : ⟨.exchange apdu, resp⟩ ∈ t) :
    apdu = s.apdu ∧ resp = some s.resp := by
  have hacts : (⟨.exchange apdu, resp⟩ : Exchange Question Question.Answer) ∈ acts t :=
    List.mem_filter.mpr ⟨hmem, rfl⟩
  rw [ht] at hacts
  simpa [Sending.acts, Signing.acts, Sending.submission] using hacts

/-- Once the parameters are settled, and if they fit a request, a user who says yes, a
device that answers and an honest server lead to the hash of the transaction; the answer
of the device, whatever it is, is submitted as its signature. -/
theorem online_returns {py : Runtime} {args : Args} {p : Parameters} {t : Transcript}
    (hp : Asks (parameters py args) t (.done (.ok p))) (hprint : Printable py p)
    {NETWORK : Str} (hnetwork : p.NETWORK = .str NETWORK) {apdu : List UInt8}
    (hapdu : (p.request NETWORK).ledger_sign_tx = some apdu)
    {yes : Str} (hyes : py.lower_strip yes = ofString "y") (resp : List UInt8)
    (s : Honest py p (hexStr resp)) :
    ∃ t' r, Asks (online py args) t' (.done (.ok s.hash)) ∧ ∃ sending : Sending py args,
      acts t' = sending.acts ++ [⟨sending.submission, r⟩] ∧ sending.apdu = apdu ∧
      sending.resp = resp := by
  obtain ⟨t', ht', hmem⟩ := asks_online hp hprint hnetwork hapdu hyes resp s
  obtain ⟨sending, r, hacts⟩ := post_of_asks online_spec ht'
  obtain ⟨rfl, hresp⟩ := exchange_of_acts hacts hmem
  exact ⟨t', r, ht', sending, hacts, rfl, (Option.some.inj hresp).symm⟩

/-! ## What holds of every session -/

/-- Whatever the server, the user and the device answer, in this order: a question to the
user, the request, a question to the user, and a submission. -/
theorem wallet_session {py : Runtime} {args : Args} {t : Transcript} {rest : Session Json}
    (h : Asks (online py args) t rest) :
    (∀ q k, rest = .ask q k → Safe py args t q) ∧
    ∀ hash, rest = .done (.ok hash) → ∃ (s : Sending py args) (resp : Option Json),
      acts t = s.acts ++ [⟨s.submission, resp⟩] := by
  refine ⟨fun q k hrest => ?_, fun hash hrest => ?_⟩
  · subst hrest
    exact safe_of_asks online_spec h
  · subst hrest
    exact post_of_asks online_spec h

/-! ## A session on the testnet -/

section Sample

/-- A payment of 42 units to oneself. -/
def smallPayment (sender : Str) : Args where
  operation := .send_payment (ofString "0.000000042")
  account := 0
  sender := sender
  receiver := sender
  network := none
  fee := none
  nonce := none
  valid_until := none
  memo := none

/-- The transaction as the server offers it. -/
def smallTx (sender : Str) : Json :=
  object [("to", .str sender), ("from", .str sender), ("fee", text "3"), ("token", text "1"),
    ("nonce", text "5"), ("memo", .null), ("amount", text "42"), ("valid_until", .null)]

def smallUnsigned (sender : Str) : Json :=
  object [("payment", smallTx sender), ("stakeDelegation", .null)]

def smallSigned (sender signature : Str) : Json :=
  object [("signature", .str signature), ("payment", smallTx sender), ("stake_delegation", .null)]

mutual

/-- JSON without floats, for texts that need no escape. -/
def writeJson : Json → Str
  | .null => ofString "null"
  | .bool b => ofString (if b then "true" else "false")
  | .int n => intText n
  | .float _ => []
  | .str s => ofString "\"" ++ s ++ ofString "\""
  | .arr l => ofString "[" ++ writeItems l ++ ofString "]"
  | .obj l => ofString "\x7b" ++ writeMembers l ++ ofString "\x7d"

def writeItems : List Json → Str
  | [] => []
  | v :: l => writeJson v ++ (if l.isEmpty then [] else ofString ", ") ++ writeItems l

def writeMember : Str × Json → Str
  | (key, v) => ofString "\"" ++ key ++ ofString "\": " ++ writeJson v

def writeMembers : List (Str × Json) → Str
  | [] => []
  | p :: l => writeMember p ++ (if l.isEmpty then [] else ofString ", ") ++ writeMembers l

end

/-- Python on the texts and numbers of the session. -/
def smallRuntime (sender signature : Str) : Runtime where
  int s := [("0", 0), ("3", 3), ("5", 5), ("42", 42), ("1000", 1000)].findSome? fun p =>
    if s = ofString p.1 then some p.2 else none
  from_currency s := [("0.000000003", 3), ("0.000000042", 42)].findSome? fun p =>
    if s = ofString p.1 then some p.2 else none
  VERBOSE := false
  loads s := [smallSigned sender signature, smallUnsigned sender].find? fun v => s = writeJson v
  dumps := writeJson
  repr _ := []
  int_of_float _ := none
  float_eq _ _ := false
  to_currency n := [(42, 0x3e668c6fa0b2f9a3), (3, 0x3e29c511dc3a41df), (45, 0x3e6828c0be769dc1),
    (1000, 0x3eb0c6f7a0b5ed8d)].lookup n
  format x := if x = 0x3eb0c6f7a0b5ed8d then ofString "1e-06" else []
  format_9f x := (([(0x3e668c6fa0b2f9a3, "0.000000042"), (0x3e29c511dc3a41df, "0.000000003"),
    (0x3e6828c0be769dc1, "0.000000045")].lookup x).map ofString).getD []
  lower_strip s := s

variable (sender : Str) (resp : List UInt8)

/-- What is settled after the first three answers. -/
def smallParameters : Parameters where
  operation := .send_payment (ofString "0.000000042")
  NETWORK := text "devnet"
  account := 0
  sender := sender
  receiver := sender
  amount := 42
  fee := 3
  nonce := 5
  balance := 1000
  locked_balance := -1
  valid_until := none
  memo := []

/-- An entry in the currency of the network. -/
def inCurrency (value : String) : Json :=
  object [("value", text value), ("currency", object [("symbol", text "CODA")])]

theorem asks_smallParameters : ∃ t, Asks
    (parameters (smallRuntime sender (hexStr resp)) (smallPayment sender)) t
    (.done (.ok (smallParameters sender))) := by
  refine ⟨_, asks_call (a := 42) rfl (asks_seq (asks_rosetta_request
    (object [("network_identifiers", .arr [object [("blockchain", text "coda"),
      ("network", text "devnet")]])]) rfl) (asks_seq (asks_rosetta_request
    (object [("metadata", object [("nonce", text "5")]),
      ("suggested_fee", .arr [inCurrency "3"])]) rfl) (asks_call rfl (asks_call rfl (asks_seq
    (asks_rosetta_request (object [("balances", .arr [inCurrency "1000"])]) rfl)
      (.nil _))))))⟩

theorem intText_small : intText 42 = ofString "42" ∧ intText 3 = ofString "3" ∧
    intText 5 = ofString "5" := by decide +kernel

theorem printable_smallParameters :
    Printable (smallRuntime sender (hexStr resp)) (smallParameters sender) where
  NETWORK := ⟨_, rfl⟩
  currency n hn := by
    simp only [List.mem_cons, List.not_mem_nil, or_false] at hn
    rcases hn with rfl | rfl | rfl | rfl <;> rfl
  int n hn := by
    simp only [List.mem_cons, List.not_mem_nil, or_false] at hn
    rcases hn with rfl | rfl
    · show List.findSome? _ _ = _
      simp [smallParameters, intText_small, ofString_inj]
    · show List.findSome? _ _ = _
      simp [smallParameters, intText_small, ofString_inj]

theorem offered_smallTx {payload : Json} (h : payload.item "payment" = .ok (smallTx sender)) :
    Offered (smallRuntime sender (hexStr resp)) (smallParameters sender) "payment" payload
      (smallTx sender) (.int MAX_VALID_UNTIL) [] where
  transaction := h
  members := {
    payment := fun _ => by simp [smallTx, Json.item_object, smallParameters, text, intText_small]
    delegation := fun hop => by cases hop
    common := {
      fee := by simp [smallTx, Json.item_object, smallParameters, text, intText_small]
      valid_until := .inr (by simp [smallTx, Json.item_object, Json.isInt])
      nonce := by simp [smallTx, Json.item_object, smallParameters, text, intText_small]
      memo := .inr (by simp [smallTx, Json.item_object]) } }

/-- The two payloads have different texts. -/
theorem writeJson_ne (signature : Str) :
    writeJson (smallUnsigned sender) ≠ writeJson (smallSigned sender signature) := by
  simp [writeJson, writeMembers, writeMember, smallUnsigned, smallSigned, object, ofString]

theorem loads_smallSigned (signature : Str) :
    (smallRuntime sender signature).loads (writeJson (smallSigned sender signature)) =
      some (smallSigned sender signature) := by
  change List.find? _ _ = _
  rw [List.find?_cons_of_pos (by simp)]

theorem loads_smallUnsigned (signature : Str) :
    (smallRuntime sender signature).loads (writeJson (smallUnsigned sender)) =
      some (smallUnsigned sender) := by
  change List.find? _ _ = _
  rw [List.find?_cons_of_neg (by simpa using writeJson_ne sender signature),
    List.find?_cons_of_pos (by simp)]

theorem item_smallUnsigned : (smallUnsigned sender).item "payment" = .ok (smallTx sender) := by
  simp [smallUnsigned, Json.item_object]

theorem item_smallSigned (signature : Str) :
    (smallSigned sender signature).item "payment" = .ok (smallTx sender) := by
  simp [smallSigned, Json.item_object]

/-- An honest server for it. -/
theorem smallServer : ∃ s : Honest (smallRuntime sender (hexStr resp)) (smallParameters sender)
    (hexStr resp), s.hash = text "CkpY" := by
  have hunsigned := offered_smallTx sender resp (item_smallUnsigned sender)
  have hsigned := offered_smallTx sender resp (item_smallSigned sender (hexStr resp))
  exact ⟨{
    payloads := object [("unsigned_transaction", .str (writeJson (smallUnsigned sender)))]
    unsigned := smallUnsigned sender
    unsignedTx := smallTx sender
    loaded := payloads_response_ok (by simp [Json.item_object]) (loads_smallUnsigned sender _)
      (item_smallUnsigned sender) hunsigned.members.common.fee
    offered := hunsigned
    forever := by simp [smallTx, Json.item_object]
    parse := object [("operations", .arr [])]
    parsed := rfl
    combine := object [("signed_transaction", .str (writeJson (smallSigned sender (hexStr resp))))]
    signed := smallSigned sender (hexStr resp)
    signedTx := smallTx sender
    combined := combine_response_ok (by simp [Json.item_object]) (loads_smallSigned sender _)
      (item_smallSigned sender (hexStr resp)) hsigned.members.common.fee
    offeredAgain := hsigned
    signature := by simp [smallSigned, Json.item_object]
    submit := object [("transaction_identifier", object [("hash", text "CkpY")])]
    hash := text "CkpY"
    submitted := rfl }, rfl⟩

/-- What the device is asked to sign. -/
def smallRequest : SignTxArgs where
  tx_type := 0x00
  sender_account := 0
  sender_address := sender
  receiver := sender
  amount := 42
  fee := 3
  nonce := 5
  valid_until := 4294967295
  memo := []
  network_id := 0

theorem smallRequest_eq : (smallParameters sender).request (ofString "devnet") =
    smallRequest sender := by
  have hid : network_id_from_string (ofString "devnet") = 0 := by decide +kernel
  rw [Parameters.request, hid]
  rfl

theorem ordinary_smallRequest (hascii : IsAscii sender) (hlen : sender.length = 55) :
    (smallRequest sender).Ordinary where
  sender_account := by show 0 ≤ (0 : Int) ∧ (0 : Int) < 2 ^ 32; decide
  sender_address := ⟨hascii, hlen⟩
  receiver := ⟨hascii, hlen⟩
  amount := by show 0 ≤ (42 : Int) ∧ (42 : Int) < 2 ^ 64; decide
  fee := by show 0 ≤ (3 : Int) ∧ (3 : Int) < 2 ^ 64; decide
  nonce := by show 0 ≤ (5 : Int) ∧ (5 : Int) < 2 ^ 32; decide
  valid_until := by show 0 ≤ (4294967295 : Int) ∧ (4294967295 : Int) < 2 ^ 32; decide
  memo := ⟨List.forall_mem_nil _, Nat.zero_le _, List.not_mem_nil⟩
  tx_type := .inl rfl
  network_id := .inl rfl

theorem asks_small (hascii : IsAscii sender) (hlen : sender.length = 55) :
    ∃ t, Asks (online (smallRuntime sender (hexStr resp)) (smallPayment sender)) t
        (.done (.ok (text "CkpY"))) ∧
      ⟨.exchange ([0xe0, 0x03, 0x00, 0x00, 172] ++ (smallRequest sender).data), some resp⟩ ∈ t := by
  obtain ⟨t, ht⟩ := asks_smallParameters sender resp
  have hapdu := SignTxArgs.ledger_sign_tx_eq hlen hlen (ordinary_smallRequest sender hascii hlen).fits
  rw [← smallRequest_eq] at hapdu ⊢
  obtain ⟨s, hs⟩ := smallServer sender resp
  rw [← hs]
  exact asks_online ht (printable_smallParameters sender resp) rfl hapdu rfl resp s

end Sample

/-- A sender with 55 characters. -/
def smallSender : Str := ofString "B62qrcFstkpqXww1EkSGrqMCwCNho86kuqBd4FrAAUsPxNKdiPzAUsy"

theorem smallSender_text : IsAscii smallSender ∧ smallSender.length = 55 := by decide +kernel

/-- Two questions to the user, one to the device, and a submission. -/
theorem wallet_session_small : ∃ t hash, Asks
      (online (smallRuntime smallSender (hexStr [0xab])) (smallPayment smallSender)) t
      (.done (.ok hash)) ∧
    ∃ (s : Sending (smallRuntime smallSender (hexStr [0xab])) (smallPayment smallSender)) (r : Option Json),
      acts t = s.acts ++ [⟨s.submission, r⟩] := by
  obtain ⟨t, ht, -⟩ := asks_small smallSender [0xab] smallSender_text.1 smallSender_text.2
  exact ⟨t, _, ht, (wallet_session ht).2 _ rfl⟩

/-- The byte that the device answers is submitted. -/
theorem online_returns_small : ∃ t r, Asks
      (online (smallRuntime smallSender (hexStr [0xab])) (smallPayment smallSender)) t
      (.done (.ok (text "CkpY"))) ∧
    ∃ sending : Sending (smallRuntime smallSender (hexStr [0xab])) (smallPayment smallSender),
      acts t = sending.acts ++ [⟨sending.submission, r⟩] ∧ sending.resp = [0xab] := by
  obtain ⟨t, ht⟩ := asks_smallParameters smallSender [0xab]
  have hapdu := SignTxArgs.ledger_sign_tx_eq smallSender_text.2 smallSender_text.2
    (ordinary_smallRequest smallSender smallSender_text.1 smallSender_text.2).fits
  rw [← smallRequest_eq] at hapdu
  obtain ⟨s, hs⟩ := smallServer smallSender [0xab]
  obtain ⟨t', r, ht', sending, hacts, -, hresp⟩ := online_returns ht
    (printable_smallParameters smallSender [0xab]) rfl hapdu rfl [0xab] s
  rw [hs] at ht'
  exact ⟨t', r, ht', sending, hacts, hresp⟩

end MinaLedger
