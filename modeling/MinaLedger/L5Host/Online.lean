import MinaLedger.L5Host.Rosetta

/-!
# A payment or delegation over Rosetta

`send-payment` and `delegate` of src/utils/mina_ledger_wallet.py with a server: it is
asked for the network, the nonce, the fee and the balance, the user confirms, the
device signs, and the server is given the signed transaction after the user confirms
again. The server, the user and the device may answer anything.

Results:
* `valid_until_checked`: a server cannot choose `valid_until`.
* `parameters_spec`, `unsigned_spec`, `sign_spec`, `signed_spec`: the parts of a session.
* `online_spec`: the device is asked only for what the user was shown and supplied, and
  what is submitted is that transaction with the answer of the device as its signature,
  shown again before.
-/
namespace MinaLedger
open Lib.Text Lib.Dialogue

/-! ## The parameters -/

/-- What the user is asked about. -/
structure Parameters where
  operation : Operation
  NETWORK : Json
  account : Int
  sender : Str
  receiver : Str
  amount : Int
  fee : Int
  nonce : Int
  balance : Int
  locked_balance : Int
  /-- `none` stands for "". -/
  valid_until : Option Int
  memo : Str

/-- An exception of the command line. -/
def raised {α : Type} : Except Raised α → Except Stop α
  | .ok a => .ok a
  | .error e => .error (.raised e)

/-- mirrors src/utils/mina_ledger_wallet.py:949-950 -/
def shortMemo (memo : Option Str) : Str :=
  let memo := memo.getD []
  if memo.length > MAX_MEMO_LEN then memo.take MAX_MEMO_LEN else memo

/-- mirrors src/utils/mina_ledger_wallet.py:915-918, 965-968 -/
def overrideNetwork (network : Option Str) (NETWORK : Json) : Json :=
  match network with
  | none => NETWORK
  | some network => .str network

/-- mirrors src/utils/mina_ledger_wallet.py:974-978 -/
def overrideFee (py : Runtime) (fee : Option Str) (suggested_fee minimum_fee : Int) :
    Except Stop Int :=
  match fee with
  | none => .ok suggested_fee
  | some text => do
    let fee ← raised (converted (py.from_currency text))
    if fee < minimum_fee then
      let minimum ← to_currency py minimum_fee
      .error (.Exception (ofString "Supplied fee " ++ text ++ ofString " is below minimum fee " ++
        py.format minimum))
    else return fee

/-- mirrors src/utils/mina_ledger_wallet.py:979-981 -/
def overrideNonce (py : Runtime) (nonce : Option (Int ⊕ Str)) (current : Int) : Except Stop Int :=
  match nonce with
  | none => .ok current
  | some nonce => raised (py.int_of nonce)

/-- The two amounts that are printed may raise before the exit.
mirrors src/utils/mina_ledger_wallet.py:985-990 -/
def exceedsBalance (py : Runtime) (total balance : Int) : Except Stop Parameters := do
  let _ ← to_currency py total
  let _ ← to_currency py balance
  .error (.exit 211)

/-- mirrors src/utils/mina_ledger_wallet.py:937-990 -/
def parameters (py : Runtime) (args : Args) : Session Parameters := do
  let amount ← call (raised (converted (args.operation.amount py.toPython)))
  let memo := shortMemo args.memo
  let network ← rosetta_network_request
  let NETWORK := overrideNetwork args.network network
  let (current, suggested_fee, minimum_fee) ← rosetta_metadata_request py NETWORK args.sender
  let fee ← call (overrideFee py args.fee suggested_fee minimum_fee)
  let nonce ← call (overrideNonce py args.nonce current)
  let (balance, locked_balance, _) ← rosetta_balance_request py NETWORK args.sender
  if amount + fee > balance then
    call (exceedsBalance py (amount + fee) balance)
  else
    return { operation := args.operation, NETWORK, account := args.account, sender := args.sender,
             receiver := args.receiver, amount, fee, nonce, balance, locked_balance,
             valid_until := args.valid_until, memo }

namespace Parameters

/-- mirrors src/utils/mina_ledger_wallet.py:998-1000, 1110-1112 -/
def delegated : Operation → List Str
  | .send_payment _ => []
  | .delegate => [ofString "    The entire balance will be delegated."]

/-- mirrors src/utils/mina_ledger_wallet.py:952-955 -/
def shownValidUntil : Option Int → Json
  | none => text ""
  | some v => .int v

/-- mirrors src/utils/mina_ledger_wallet.py:992-1000 -/
def signLines (py : Runtime) (p : Parameters) : Except Stop (List Str) := do
  let lines ← print_transaction py p.operation p.NETWORK p.account (some (p.balance, p.locked_balance))
    (.str p.sender) (.str p.receiver) p.amount p.fee (.int p.nonce) (shownValidUntil p.valid_until)
    p.memo
  return ofString "Sign transaction:" :: lines ++ delegated p.operation

/-! ## The unsigned transaction -/

/-- `payload[key][field] = v`, where the transaction is part of the payload. -/
def overrideItem (payload : Json) (key field : String) (v : Json) : Except Stop Json := do
  let tx ← payload.item key
  let tx ← Json.setItem tx field v
  Json.setItem payload key tx

/-- A memo that is given replaces the one of the server. -/
def overrideMemo (payload : Json) (key : String) (memo : Str) : Except Stop Json :=
  if memo = [] then .ok payload else overrideItem payload key "memo" (.str memo)

/-- The payload and `valid_until`, which is the server's if the user gave none.
mirrors src/utils/mina_ledger_wallet.py:1014-1026 -/
def loadValidUntil (payload : Json) (key : String) : Option Int → Except Stop (Json × Json)
  | some v => do return (← overrideItem payload key "valid_until" (.str (intText v)), .int v)
  | none => do
    let valid_until ← (← payload.item key).item "valid_until"
    return (payload, if valid_until.isNone then .int MAX_VALID_UNTIL else valid_until)

def check (py : Runtime) (p : Parameters) (tx valid_until : Json) : Except Stop Bool :=
  check_tx py p.operation tx p.sender p.receiver p.amount p.fee valid_until p.nonce p.memo

/-- mirrors src/utils/mina_ledger_wallet.py:1009-1012 -/
def payloads (py : Runtime) (p : Parameters) : Session Json :=
  match p.operation with
  | .send_payment _ =>
    rosetta_send_payment_payloads_request py p.NETWORK p.sender p.receiver p.amount p.fee p.nonce
  | .delegate =>
    rosetta_delegation_payloads_request py p.NETWORK p.sender p.receiver p.fee p.nonce

/-- mirrors src/utils/mina_ledger_wallet.py:1009-1044 -/
def unsigned (py : Runtime) (p : Parameters) : Session (Json × Json) := do
  let payload ← p.payloads py
  let key := p.operation.payloadKey
  let (payload, valid_until) ← call (loadValidUntil payload key p.valid_until)
  let payload ← call (overrideMemo payload key p.memo)
  rosetta_parse_request py p.NETWORK payload false
  let same ← call (do p.check py (← payload.item key) valid_until)
  if same then return (payload, valid_until)
  else call (fail "Rosetta unsigned tx diverges from user supplied parameters")

/-! ## The device -/

/-- The arguments of `ledger_sign_tx`, in the order of the call. -/
def signTxArgs (p : Parameters) (network_id valid_until : Int) : SignTxArgs :=
  ⟨tx_type_from_op p.operation, p.account, p.sender, p.receiver, p.amount, p.fee, p.nonce,
    valid_until, p.memo, network_id⟩

end Parameters

/-- `data.hex()` -/
def hexStr (data : List UInt8) : Str := (hexText data).map fun c => Fin.ofNat _ c.toNat

/-- The request, and the answer in hexadecimal.
mirrors src/utils/mina_ledger_wallet.py:756-800 -/
def SignTxArgs.exchange (a : SignTxArgs) : Session (List UInt8) :=
  match a.ledger_sign_tx with
  | none => raise .builtin
  | some apdu => do
    let resp ← ask (.exchange apdu)
    call (received resp)

namespace Parameters

/-- mirrors src/utils/mina_ledger_wallet.py:1046-1058 -/
def sign (p : Parameters) (valid_until : Json) : Session (List UInt8) := do
  let network_id ← call (network_id p.NETWORK)
  let valid_until ← call valid_until.hexArg
  (p.signTxArgs network_id valid_until).exchange

/-! ## The signed transaction -/

/-- mirrors src/utils/mina_ledger_wallet.py:1067-1069 -/
def overrideValidUntil (py : Runtime) (payload : Json) (key : String) (valid_until : Json) :
    Except Stop Json :=
  if valid_until.is "" then .ok payload
  else overrideItem payload key "valid_until" (.str (valid_until.toStr py))

/-- The payload and the transaction in it.
mirrors src/utils/mina_ledger_wallet.py:1063-1093 -/
def signed (py : Runtime) (p : Parameters) (payload valid_until : Json) (signature : Str) :
    Session (Json × Json) := do
  let payload ← rosetta_combine_request py p.NETWORK payload signature p.operation
  let key := p.operation.signedKey
  let payload ← call (overrideValidUntil py payload key valid_until)
  let payload ← call (overrideMemo payload key p.memo)
  rosetta_parse_request py p.NETWORK payload true
  let tx ← call (payload.item key)
  let same ← call (p.check py tx valid_until)
  if same then
    let resigned ← call (payload.item "signature")
    if resigned.isStr signature then return (payload, tx)
    else call (fail "Rosetta tx signature diverges")
  else call (fail "Rosetta signed tx diverges from user supplied parameters")

/-- The parties and the amount. mirrors src/utils/mina_ledger_wallet.py:1099-1101 -/
def parties (py : Runtime) (op : Operation) (tx : Json) : Except Stop (Json × Json × Int) :=
  match op with
  | .send_payment _ => do
    return (← tx.item "from", ← tx.item "to", ← (← tx.item "amount").toInt py)
  | .delegate => do return (← tx.item "delegator", ← tx.item "new_delegate", 0)

/-- The signature of the payload is `signature` here.
mirrors src/utils/mina_ledger_wallet.py:1095-1112 -/
def sendLines (py : Runtime) (p : Parameters) (tx valid_until : Json) (signature : Str) :
    Except Stop (List Str) := do
  let (sender, receiver, amount) ← parties py p.operation tx
  let fee ← (← tx.item "fee").toInt py
  let lines ← print_transaction py p.operation p.NETWORK p.account (some (p.balance, p.locked_balance))
    sender receiver amount fee (← tx.item "nonce") valid_until p.memo
  return ofString "Send transaction:" :: lines ++
    [ofString "    Signature:   " ++ signature.take 74 ++ ofString "..."] ++ delegated p.operation

end Parameters

/-- The hash of the transaction. mirrors src/utils/mina_ledger_wallet.py:933-1122 -/
def online (py : Runtime) (args : Args) : Session Json := do
  let p ← parameters py args
  confirm py (← call (p.signLines py))
  let (payload, valid_until) ← p.unsigned py
  let resp ← p.sign valid_until
  let (payload, tx) ← p.signed py payload valid_until (hexStr resp)
  confirm py (← call (p.sendLines py tx valid_until (hexStr resp)))
  rosetta_submit_request py p.NETWORK payload

/-! ## What a session does -/

/-- Only a submission changes anything at the server. -/
def Question.asksServer : Question → Bool
  | .post path _ => path != "/construction/submit"
  | _ => false

/-- All a session did but ask the server. -/
def acts (t : Transcript) : Transcript := t.filter fun x => !x.1.asksServer

section Acts

variable {t : Transcript}

theorem acts_asked {x : Exchange Question Question.Answer} (h : x.1.asksServer = true) :
    acts (t ++ [x]) = acts t := by
  rw [acts, List.filter_append, List.filter_cons_of_neg (by simp [h]), List.filter_nil,
    List.append_nil, acts]

theorem acts_post {path : String} {body : Json} {resp : Option Json}
    (h : path ≠ "/construction/submit") : acts (t ++ [⟨.post path body, resp⟩]) = acts t :=
  acts_asked (bne_iff_ne.mpr h)

theorem acts_done {x : Exchange Question Question.Answer} (h : x.1.asksServer = false) :
    acts (t ++ [x]) = acts t ++ [x] := by
  rw [acts, List.filter_append, List.filter_cons_of_pos (by simp [h]), List.filter_nil, acts]

end Acts

/-- The user's arguments, and enough money. -/
structure Parameters.Supplied (py : Runtime) (args : Args) (p : Parameters) : Prop where
  operation : p.operation = args.operation
  account : p.account = args.account
  sender : p.sender = args.sender
  receiver : p.receiver = args.receiver
  amount : args.operation.amount py.toPython = some p.amount
  valid_until : p.valid_until = args.valid_until
  memo : p.memo = shortMemo args.memo
  network : ∀ s, args.network = some s → p.NETWORK = .str s
  fee : ∀ s, args.fee = some s → py.from_currency s = some p.fee
  nonce : ∀ n, args.nonce = some n → py.int_of n = .ok p.nonce
  covered : p.amount + p.fee ≤ p.balance

/-- What the user left open is the answer of the server, and the fee is not below the
minimum it told. -/
structure Parameters.Quoted (py : Runtime) (args : Args) (p : Parameters) (t : Transcript) :
    Prop where
  fees : ∃ resp nonce suggested_fee minimum_fee,
    ⟨.post "/construction/metadata" (construction_metadata_request p.NETWORK p.sender),
      some resp⟩ ∈ t ∧
    metadata_response py resp = .ok (nonce, suggested_fee, minimum_fee) ∧ minimum_fee ≤ p.fee ∧
    (args.fee = none → p.fee = suggested_fee) ∧ (args.nonce = none → p.nonce = nonce)
  balance : ∃ resp total,
    ⟨.post "/account/balance" (account_balance_request p.NETWORK p.sender), some resp⟩ ∈ t ∧
    balance_response py resp = .ok (p.balance, p.locked_balance, total)

/-- Valid forever, unless the user said otherwise. -/
def Parameters.valid (p : Parameters) : Int := p.valid_until.getD MAX_VALID_UNTIL

/-- What the device has to sign. -/
def Parameters.request (p : Parameters) (NETWORK : Str) : SignTxArgs :=
  p.signTxArgs (network_id_from_string NETWORK) p.valid

/-- A session in which the user said yes to the parameters, and its request. -/
structure Signing (py : Runtime) (args : Args) where
  p : Parameters
  supplied : p.Supplied py args
  lines : List Str
  shown : p.signLines py = .ok lines
  answer : Str
  yes : py.lower_strip answer = ofString "y"
  NETWORK : Str
  network : p.NETWORK = .str NETWORK
  apdu : List UInt8
  built : (p.request NETWORK).ledger_sign_tx = some apdu

def Signing.acts {py : Runtime} {args : Args} (s : Signing py args) : Transcript :=
  [⟨.input s.lines, s.answer⟩]

/-- A session that has the signature, and in which the user said yes to the transaction. -/
structure Sending (py : Runtime) (args : Args) extends Signing py args where
  resp : List UInt8
  payload : Json
  tx : Json
  transaction : payload.item p.operation.signedKey = .ok tx
  signature : payload.item "signature" = .ok (.str (hexStr resp))
  members : Members py p.operation tx p.sender p.receiver p.amount p.fee
    (.int p.valid) p.nonce p.memo
  again : List Str
  shownAgain : p.sendLines py tx (.int p.valid) (hexStr resp) = .ok again
  answerAgain : Str
  yesAgain : py.lower_strip answerAgain = ofString "y"

def Sending.acts {py : Runtime} {args : Args} (s : Sending py args) : Transcript :=
  s.toSigning.acts ++ [⟨.exchange s.apdu, some s.resp⟩, ⟨.input s.again, s.answerAgain⟩]

def Sending.submission {py : Runtime} {args : Args} (s : Sending py args) : Question :=
  .post "/construction/submit" (MinaLedger.submission py s.p.NETWORK s.payload)

/-- What may be asked when. -/
def Safe (py : Runtime) (args : Args) (t : Transcript) (q : Question) : Prop :=
  match q with
  | .input _ => acts t = [] ∨
    ∃ (s : Signing py args) (resp : List UInt8), acts t = s.acts ++ [⟨.exchange s.apdu, some resp⟩]
  | .exchange apdu => ∃ s : Signing py args, s.apdu = apdu ∧ acts t = s.acts ∧ s.p.Quoted py args t
  | .post path _ => path = "/construction/submit" →
    ∃ s : Sending py args, q = s.submission ∧ acts t = s.acts ∧ s.p.Quoted py args t

/-! ## Specifications -/

theorem Parameters.Quoted.mono {py : Runtime} {args : Args} {p : Parameters} {t t' : Transcript}
    (h : p.Quoted py args t) (ht : t <+: t') : p.Quoted py args t' where
  fees := by
    obtain ⟨resp, nonce, suggested_fee, minimum_fee, hmem, hrest⟩ := h.fees
    exact ⟨resp, nonce, suggested_fee, minimum_fee, ht.subset hmem, hrest⟩
  balance := by
    obtain ⟨resp, total, hmem, hrest⟩ := h.balance
    exact ⟨resp, total, ht.subset hmem, hrest⟩

theorem raised_ok {α : Type} {x : Except Raised α} {a : α} (h : raised x = .ok a) : x = .ok a := by
  cases x with
  | error e => cases h
  | ok b => exact congrArg _ (Except.ok.inj h)

theorem overrideFee_ok {py : Runtime} {text : Option Str} {suggested_fee minimum_fee fee : Int}
    (hmin : minimum_fee ≤ suggested_fee)
    (h : overrideFee py text suggested_fee minimum_fee = .ok fee) :
    minimum_fee ≤ fee ∧ (∀ s, text = some s → py.from_currency s = some fee) ∧
      (text = none → fee = suggested_fee) := by
  cases text with
  | none =>
    obtain rfl := Except.ok.inj h
    exact ⟨hmin, fun s hs => (by cases hs), fun _ => rfl⟩
  | some s =>
    obtain ⟨v, hv, h⟩ := stop_bind_ok h
    split at h
    · obtain ⟨_, -, h⟩ := stop_bind_ok h
      cases h
    · rename_i hlt
      obtain rfl := Except.ok.inj h
      refine ⟨not_lt.mp hlt, fun s' hs => ?_, fun hs => (by cases hs)⟩
      rw [← Option.some.inj hs]
      exact converted_ok.mp (raised_ok hv)

theorem overrideNonce_ok {py : Runtime} {n : Option (Int ⊕ Str)} {current nonce : Int}
    (h : overrideNonce py n current = .ok nonce) :
    (∀ m, n = some m → py.int_of m = .ok nonce) ∧ (n = none → nonce = current) := by
  cases n with
  | none => exact ⟨fun m hm => (by cases hm), fun _ => (Except.ok.inj h).symm⟩
  | some m =>
    refine ⟨fun m' hm => ?_, fun hm => (by cases hm)⟩
    rw [← Option.some.inj hm]
    exact raised_ok h

theorem exceedsBalance_ne_ok {py : Runtime} {total balance : Int} {p : Parameters} :
    exceedsBalance py total balance ≠ .ok p := by
  intro h
  obtain ⟨_, -, h⟩ := stop_bind_ok h
  obtain ⟨_, -, h⟩ := stop_bind_ok h
  cases h

section Session

variable {py : Runtime} {args : Args} {t : Transcript}

theorem safe_post {path : String} {body : Json} (h : path ≠ "/construction/submit") :
    Safe py args t (.post path body) := fun heq => absurd heq h

theorem parameters_spec : wp (Safe py args)
    (fun t' p => acts t' = acts t ∧ p.Supplied py args ∧ p.Quoted py args t')
    (parameters py args) t := by
  refine wp_bind.mpr (wp_call.mpr fun amount hamount => ?_)
  refine wp_bind.mpr (wp_rosetta_request (safe_post (by decide)) fun resp network _ => ?_)
  refine wp_bind.mpr (wp_rosetta_request (safe_post (by decide)) ?_)
  rintro resp ⟨current, suggested_fee, minimum_fee⟩ hmetadata
  refine wp_bind.mpr (wp_call.mpr fun fee hfee => ?_)
  refine wp_bind.mpr (wp_call.mpr fun nonce hnonce => ?_)
  refine wp_bind.mpr (wp_rosetta_request (safe_post (by decide)) ?_)
  rintro resp' ⟨balance, locked_balance, total⟩ hbalance
  obtain ⟨hmin, hfeeText, hfeeNone⟩ := overrideFee_ok (metadata_response_fee hmetadata).2 hfee
  obtain ⟨hnonceText, hnonceNone⟩ := overrideNonce_ok hnonce
  refine wp_ite (fun _ => wp_call.mpr fun p hp => absurd hp exceedsBalance_ne_ok) fun hcovered => ?_
  refine wp_pure ⟨?_, ?_, ?_⟩
  · rw [acts_post (by decide), acts_post (by decide), acts_post (by decide)]
  · exact {
      operation := rfl
      account := rfl
      sender := rfl
      receiver := rfl
      amount := converted_ok.mp (raised_ok hamount)
      valid_until := rfl
      memo := rfl
      network := fun s hs => by rw [hs]; rfl
      fee := hfeeText
      nonce := hnonceText
      covered := not_lt.mp hcovered }
  · exact {
      fees := ⟨resp, current, suggested_fee, minimum_fee, by simp, hmetadata, hmin, hfeeNone,
        hnonceNone⟩
      balance := ⟨resp', total, by simp, hbalance⟩ }

/-! ### The unsigned transaction -/

/-- What an override leaves. -/
theorem overrideItem_ok {payload w v : Json} {key field : String}
    (h : Parameters.overrideItem payload key field v = .ok w) :
    ∃ tx tx', payload.item key = .ok tx ∧ w.item key = .ok tx' ∧ tx'.item field = .ok v ∧
      ∀ field', ofString field' ≠ ofString field → tx'.item field' = tx.item field' := by
  obtain ⟨tx, htx, h⟩ := stop_bind_ok h
  obtain ⟨tx', htx', h⟩ := stop_bind_ok h
  exact ⟨tx, tx', htx, Json.item_setItem h, Json.item_setItem htx', fun field' hne =>
    Json.item_setItem_ne hne htx'⟩

/-- The memo is not `valid_until`. -/
theorem overrideMemo_ok {payload w : Json} {key : String} {memo : Str}
    (h : Parameters.overrideMemo payload key memo = .ok w) {tx : Json}
    (htx : payload.item key = .ok tx) :
    ∃ tx', w.item key = .ok tx' ∧ tx'.item "valid_until" = tx.item "valid_until" := by
  unfold Parameters.overrideMemo at h
  split at h
  · obtain rfl := Except.ok.inj h
    exact ⟨tx, htx, rfl⟩
  · obtain ⟨tx₀, tx', htx₀, htx', -, hother⟩ := overrideItem_ok h
    obtain rfl := Except.ok.inj (htx₀.symm.trans htx)
    exact ⟨tx', htx', hother "valid_until" (by decide +kernel)⟩

/-- A `valid_until` that passes the check is the user's or the one for ever, or a text,
which the request cannot hold. -/
theorem valid_until_checked {p : Parameters} {payload payload' payload'' tx valid_until : Json}
    {key : String} (hload : Parameters.loadValidUntil payload key p.valid_until =
      .ok (payload', valid_until))
    (hmemo : Parameters.overrideMemo payload' key p.memo = .ok payload'')
    (htx : payload''.item key = .ok tx) (hcheck : p.check py tx valid_until = .ok true) :
    valid_until = .int p.valid ∨ ∃ s, valid_until = .str s := by
  unfold Parameters.loadValidUntil at hload
  cases hv : p.valid_until with
  | some v =>
    rw [hv] at hload
    obtain ⟨_, -, hload⟩ := stop_bind_ok hload
    cases Except.ok.inj hload
    exact .inl (by rw [Parameters.valid, hv]; rfl)
  | none =>
    rw [hv] at hload
    obtain ⟨tx₀, htx₀, hload⟩ := stop_bind_ok hload
    obtain ⟨v, hitem, hload⟩ := stop_bind_ok hload
    cases Except.ok.inj hload
    split
    · exact .inl (by rw [Parameters.valid, hv]; rfl)
    · rename_i hsome
      obtain ⟨tx', htx', hsame⟩ := overrideMemo_ok hmemo htx₀
      obtain rfl := Except.ok.inj (htx'.symm.trans htx)
      rcases (check_tx_true hcheck).common.valid_until with htext | ⟨hnull, -⟩
      · exact .inr ⟨_, Except.ok.inj (hitem.symm.trans (hsame.symm.trans htext))⟩
      · obtain rfl := Except.ok.inj (hitem.symm.trans (hsame.symm.trans hnull))
        exact absurd rfl hsome

theorem payloads_spec (p : Parameters) :
    wp (Safe py args) (fun t' _ => acts t' = acts t) (p.payloads py) t := by
  unfold Parameters.payloads
  cases p.operation with
  | send_payment _ =>
    exact wp_rosetta_request (safe_post (by decide)) fun _ _ _ => acts_post (by decide)
  | delegate => exact wp_rosetta_request (safe_post (by decide)) fun _ _ _ => acts_post (by decide)

theorem unsigned_spec (p : Parameters) : wp (Safe py args)
    (fun t' r => acts t' = acts t ∧
      (r.2 = .int p.valid ∨ ∃ s, r.2 = .str s)) (p.unsigned py) t := by
  refine wp_seq (payloads_spec p) fun t₁ payload h₁ => ?_
  refine wp_bind.mpr (wp_call.mpr ?_)
  rintro ⟨payload', valid_until⟩ hload
  refine wp_bind.mpr (wp_call.mpr fun payload'' hmemo => ?_)
  refine wp_bind.mpr (wp_rosetta_request (safe_post (by decide)) fun _ _ _ => ?_)
  refine wp_bind.mpr (wp_call.mpr fun same hsame => ?_)
  refine wp_ite (fun htrue => wp_pure ⟨?_, ?_⟩) fun _ => wp_call.mpr fun _ h => by cases h
  · rw [acts_post (by decide), h₁]
  · obtain ⟨tx, htx, hcheck⟩ := stop_bind_ok hsame
    rw [htrue] at hcheck
    exact valid_until_checked hload hmemo htx hcheck

/-! ### The device -/

/-- Only a number is put in a request. -/
theorem sign_spec {p : Parameters} {valid_until : Json}
    (hvalid : valid_until = .int p.valid ∨ ∃ s, valid_until = .str s)
    (hsafe : ∀ NETWORK apdu, p.NETWORK = .str NETWORK →
      (p.request NETWORK).ledger_sign_tx = some apdu →
      Safe py args t (.exchange apdu)) :
    wp (Safe py args) (fun t' resp => ∃ NETWORK apdu, p.NETWORK = .str NETWORK ∧
      (p.request NETWORK).ledger_sign_tx = some apdu ∧
      valid_until = .int p.valid ∧
      acts t' = acts t ++ [⟨.exchange apdu, some resp⟩]) (p.sign valid_until) t := by
  refine wp_bind.mpr (wp_call.mpr fun id hid => ?_)
  obtain ⟨NETWORK, hnetwork, rfl⟩ : ∃ s, p.NETWORK = .str s ∧ id = network_id_from_string s := by
    unfold network_id at hid
    split at hid
    · exact ⟨_, ‹_›, (Except.ok.inj hid).symm⟩
    · cases hid
  refine wp_bind.mpr (wp_call.mpr fun v hv => ?_)
  rcases hvalid with rfl | ⟨s, rfl⟩
  · obtain rfl := Except.ok.inj hv
    unfold SignTxArgs.exchange
    split
    · exact wp_raise
    · rename_i apdu hapdu
      refine wp_bind.mpr (wp_ask (hsafe NETWORK apdu hnetwork hapdu) fun resp =>
        wp_call.mpr fun bytes hbytes => ⟨NETWORK, apdu, hnetwork, hapdu, rfl, ?_⟩)
      cases resp with
      | none => cases hbytes
      | some resp =>
        obtain rfl := Except.ok.inj hbytes
        exact acts_done rfl
  · cases hv

/-! ### The signed transaction -/

theorem signed_spec (p : Parameters) (payload valid_until : Json) (signature : Str) :
    wp (Safe py args) (fun t' r => acts t' = acts t ∧ r.1.item p.operation.signedKey = .ok r.2 ∧
      r.1.item "signature" = .ok (.str signature) ∧
      Members py p.operation r.2 p.sender p.receiver p.amount p.fee valid_until p.nonce p.memo)
      (p.signed py payload valid_until signature) t := by
  refine wp_bind.mpr (wp_rosetta_request (safe_post (by decide)) fun _ payload₁ _ => ?_)
  refine wp_bind.mpr (wp_call.mpr fun payload₂ _ => ?_)
  refine wp_bind.mpr (wp_call.mpr fun payload₃ _ => ?_)
  refine wp_bind.mpr (wp_rosetta_request (safe_post (by decide)) fun _ _ _ => ?_)
  refine wp_bind.mpr (wp_call.mpr fun tx htx => ?_)
  refine wp_bind.mpr (wp_call.mpr fun same hsame => ?_)
  refine wp_ite (fun htrue => ?_) fun _ => wp_call.mpr fun _ h => by cases h
  refine wp_bind.mpr (wp_call.mpr fun resigned hresigned => ?_)
  refine wp_ite (fun heq => wp_pure ⟨?_, htx, ?_, ?_⟩) fun _ => wp_call.mpr fun _ h => by cases h
  · rw [acts_post (by decide), acts_post (by decide)]
  · rw [hresigned, Json.isStr_iff.mp heq]
  · rw [htrue] at hsame
    exact check_tx_true hsame

/-! ### The session -/

theorem online_spec : wp (Safe py args)
    (fun t _ => ∃ (s : Sending py args) (resp : Option Json),
      acts t = s.acts ++ [⟨s.submission, resp⟩])
    (online py args) [] := by
  refine wp_seq parameters_spec fun t₁ p ⟨h₁, hsupplied, hquoted⟩ => ?_
  refine wp_bind.mpr (wp_call.mpr fun lines hlines => ?_)
  refine wp_bind.mpr (wp_confirm (.inl h₁) fun answer hyes => ?_)
  refine wp_seq (wp_grow (unsigned_spec p)) ?_
  rintro t₂ ⟨payload, valid_until⟩ ⟨⟨h₂, hvalid⟩, hgrow₂⟩
  rw [acts_done rfl, h₁] at h₂
  have hquoted₂ := hquoted.mono ((List.prefix_append _ _).trans hgrow₂)
  refine wp_seq (wp_grow (sign_spec hvalid fun NETWORK apdu hnetwork hapdu => ?_)) ?_
  · exact ⟨⟨p, hsupplied, lines, hlines, answer, hyes, NETWORK, hnetwork, apdu, hapdu⟩, rfl, h₂,
      hquoted₂⟩
  rintro t₃ resp ⟨⟨NETWORK, apdu, hnetwork, hapdu, rfl, h₃⟩, hgrow₃⟩
  refine wp_seq (wp_grow (signed_spec p payload _ (hexStr resp))) ?_
  rintro t₄ ⟨payload', tx⟩ ⟨⟨h₄, htx, hsignature, hmembers⟩, hgrow₄⟩
  refine wp_bind.mpr (wp_call.mpr fun again hagain => ?_)
  let s₀ : Signing py args := ⟨p, hsupplied, lines, hlines, answer, hyes, NETWORK, hnetwork, apdu, hapdu⟩
  refine wp_bind.mpr (wp_confirm (.inr ⟨s₀, resp, by rw [h₄, h₃, h₂]; rfl⟩) fun answer' hyes' => ?_)
  have hquoted₄ := hquoted₂.mono (hgrow₃.trans (hgrow₄.trans
    (List.prefix_append t₄ [⟨.input again, answer'⟩])))
  let s : Sending py args := ⟨s₀, resp, payload', tx, htx, hsignature, hmembers, again, hagain, answer',
    hyes'⟩
  have hacts : acts (t₄ ++ [⟨.input again, answer'⟩]) = s.acts := by
    rw [acts_done rfl, h₄, h₃, h₂]
    rfl
  refine wp_rosetta_request (fun _ => ⟨s, rfl, hacts, hquoted₄⟩) fun resp' _ _ => ⟨s, some resp', ?_⟩
  rw [acts_done rfl, hacts]
  rfl

end Session

end MinaLedger
