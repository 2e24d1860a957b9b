import MinaLedger.L5Host.Device

/-!
# Payments and delegations without a server

`send-payment` and `delegate` of src/utils/mina_ledger_wallet.py in offline mode: the
user confirms, the device signs, and the transaction is printed with its signature in
the byte order of the GraphQL server.

Results:
* `re_encode_hexStr`: each half is written backwards.
* `offline_spec`: a session is one question to the user and one request.
* `offline_signed`: what is printed has in it a signature that verifies, and passes the
  check of the online mode.
-/
namespace MinaLedger
open Lib.Text Lib.Dialogue

/-! ## The signature -/

/-- `[hex[i:i+2] for i in range(0, len(hex), 2)]` -/
def bytePairs : Str → List Str
  | [] => []
  | [c] => [[c]]
  | a :: b :: hex => [a, b] :: bytePairs hex

def shuffle_bytes (hex : Str) : Str := (bytePairs hex).reverse.flatten

/-- mirrors src/utils/mina_ledger_wallet.py:727-738 -/
def re_encode_raw_signature (signature : Str) : Except Stop Str :=
  if signature.length ≠ 128 then fail "Invalid raw signature input"
  else
    let field := signature.take 64
    let scalar := signature.drop 64
    .ok (shuffle_bytes field ++ shuffle_bytes scalar)

/-! ## The session -/

/-- A transaction and its signature, as they are printed. mirrors
src/utils/mina_ledger_wallet.py:1186-1217 -/
def transaction_data (op : Operation) (a : SignTxArgs) : Json :=
  let memo := if a.memo = [] then .null else .str a.memo
  match op with
  | .send_payment _ => object [("to", .str a.receiver), ("from", .str a.sender_address),
      ("fee", .str (intText a.fee)), ("token", text "1"), ("nonce", .str (intText a.nonce)),
      ("memo", memo), ("amount", .str (intText a.amount)),
      ("valid_until", .str (intText a.valid_until))]
  | .delegate => object [("delegator", .str a.sender_address), ("new_delegate", .str a.receiver),
      ("fee", .str (intText a.fee)), ("nonce", .str (intText a.nonce)), ("memo", memo),
      ("valid_until", .str (intText a.valid_until))]

def transaction_json (op : Operation) (a : SignTxArgs) (signature : Str) : Json :=
  let (payment, stake_delegation) := match op with
    | .send_payment _ => (transaction_data op a, .null)
    | .delegate => (.null, transaction_data op a)
  object [("signature", .str signature), ("payment", payment),
    ("stake_delegation", stake_delegation), ("create_token", .null),
    ("create_token_account", .null), ("mint_tokens", .null)]

/-- The balance is not known. mirrors src/utils/mina_ledger_wallet.py:1155-1158 -/
def offlineLines (py : Runtime) (args : Args) (a : SignTxArgs) : Except Stop (List Str) := do
  let lines ← print_transaction py args.operation (.str (args.network.getD (ofString "mainnet")))
    a.sender_account none (.str a.sender_address) (.str a.receiver) a.amount a.fee (.int a.nonce)
    (Parameters.shownValidUntil args.valid_until) a.memo
  return ofString "Sign transaction:" :: lines

/-- What is printed at the end. mirrors src/utils/mina_ledger_wallet.py:1124-1235 -/
def offline_session (py : Runtime) (args : Args) : Session Json := do
  let a ← call (raised (offline py.toPython args))
  confirm py (← call (offlineLines py args a))
  let resp ← a.exchange
  let signature ← call (re_encode_raw_signature (hexStr resp))
  return transaction_json args.operation a signature

/-! ## The byte order -/

theorem hexStr_append (l m : List UInt8) : hexStr (l ++ m) = hexStr l ++ hexStr m := by
  rw [hexStr, hexText_append, List.map_append]
  rfl

theorem length_hexStr (l : List UInt8) : (hexStr l).length = 2 * l.length := by
  rw [hexStr, List.length_map, length_hexText]

theorem bytePairs_hexStr (l : List UInt8) : bytePairs (hexStr l) = l.map fun b => hexStr [b] := by
  induction l with
  | nil => rfl
  | cons b l ih => exact congrArg (hexStr [b] :: ·) ih

/-- The bytes of a text, last first. -/
theorem shuffle_hexStr (l : List UInt8) : shuffle_bytes (hexStr l) = hexStr l.reverse := by
  rw [shuffle_bytes, bytePairs_hexStr, ← List.map_reverse]
  induction l.reverse with
  | nil => rfl
  | cons b m ih =>
    rw [List.map_cons, List.flatten_cons, ih, ← hexStr_append]
    rfl

/-- Both halves of a signature are written in little-endian order. -/
theorem re_encode_hexStr {rx s : List UInt8} (hrx : rx.length = 32) (hs : s.length = 32) :
    re_encode_raw_signature (hexStr (rx ++ s)) = .ok (hexStr (rx.reverse ++ s.reverse)) := by
  have hlen : (hexStr rx).length = 64 := by rw [length_hexStr, hrx]
  rw [re_encode_raw_signature, if_neg (by rw [length_hexStr, List.length_append, hrx, hs]; decide),
    hexStr_append, List.take_left' hlen, List.drop_left' hlen]
  exact congrArg _ (by rw [shuffle_hexStr, shuffle_hexStr, ← hexStr_append])

/-! ## What a session does -/

/-- Nothing is sent to a server, and the device is asked for what was shown. -/
def OfflineSafe (py : Runtime) (args : Args) (t : Transcript) : Question → Prop
  | .post _ _ => False
  | .input _ => t = []
  | .exchange apdu => ∃ a lines answer, offline py.toPython args = .ok a ∧
    offlineLines py args a = .ok lines ∧ py.lower_strip answer = ofString "y" ∧
    a.ledger_sign_tx = some apdu ∧ t = [⟨.input lines, answer⟩]

section Session

variable {py : Runtime} {args : Args}

theorem offline_spec : wp (OfflineSafe py args)
    (fun t v => ∃ a lines answer apdu resp signature, offline py.toPython args = .ok a ∧
      offlineLines py args a = .ok lines ∧ py.lower_strip answer = ofString "y" ∧
      a.ledger_sign_tx = some apdu ∧
      t = [⟨.input lines, answer⟩, ⟨.exchange apdu, some resp⟩] ∧
      re_encode_raw_signature (hexStr resp) = .ok signature ∧
      v = transaction_json args.operation a signature)
    (offline_session py args) [] := by
  refine wp_bind.mpr (wp_call.mpr fun a ha => ?_)
  replace ha := raised_ok ha
  refine wp_bind.mpr (wp_call.mpr fun lines hlines => ?_)
  refine wp_bind.mpr (wp_confirm rfl fun answer hyes => ?_)
  unfold SignTxArgs.exchange
  split
  · exact wp_raise
  · rename_i apdu hapdu
    refine wp_bind.mpr (wp_bind.mpr (wp_ask ⟨a, lines, answer, ha, hlines, hyes, hapdu, rfl⟩
      fun resp => wp_call.mpr fun bytes hbytes => ?_))
    cases resp with
    | none => cases hbytes
    | some resp =>
      obtain rfl := Except.ok.inj hbytes
      exact wp_bind.mpr (wp_call.mpr fun signature hsignature => wp_pure
        ⟨a, lines, answer, apdu, resp, signature, ha, hlines, hyes, hapdu, rfl, hsignature, rfl⟩)

/-- The arguments are those of the command line. -/
theorem offline_ok {py : Python} {a : SignTxArgs} (h : offline py args = .ok a) :
    a.tx_type = tx_type_from_op args.operation ∧ a.sender_address = args.sender ∧
    a.receiver = args.receiver ∧ a.memo = (args.memo.getD []).take 32 ∧
    ∃ network, a.network_id = network_id_from_string network := by
  obtain ⟨amount, -, h⟩ := raised_bind_ok h
  obtain ⟨feeText, -, h⟩ := raised_bind_ok h
  obtain ⟨fee, -, h⟩ := raised_bind_ok h
  obtain ⟨nonceText, -, h⟩ := raised_bind_ok h
  obtain ⟨nonce, -, h⟩ := raised_bind_ok h
  obtain rfl := Except.ok.inj h
  exact ⟨rfl, rfl, rfl, shortMemo_eq args.memo, _, rfl⟩

/-- What is printed passes the check of the online mode. -/
theorem members_transaction_data (op : Operation) (a : SignTxArgs) :
    Members py op (transaction_data op a) a.sender_address a.receiver a.amount a.fee
      (.int a.valid_until) a.nonce a.memo := by
  have hmemo : ∀ {v : Except Stop Json}, v = .ok (if a.memo = [] then .null else .str a.memo) →
      v = .ok (.str a.memo) ∨ (v = .ok .null ∧ a.memo = []) := by
    rintro v rfl
    split
    · rename_i hempty
      exact .inr ⟨rfl, hempty⟩
    · exact .inl rfl
  cases op with
  | send_payment amount =>
    exact {
      payment := fun _ => by simp [transaction_data, Json.item_object]
      delegation := fun hop => by cases hop
      common := {
        fee := by simp [transaction_data, Json.item_object]
        valid_until := .inl (by simp [transaction_data, Json.item_object, Json.toStr])
        nonce := by simp [transaction_data, Json.item_object]
        memo := hmemo (by simp [transaction_data, Json.item_object]) } }
  | delegate =>
    exact {
      payment := fun hop => absurd rfl hop
      delegation := fun _ => by simp [transaction_data, Json.item_object]
      common := {
        fee := by simp [transaction_data, Json.item_object]
        valid_until := .inl (by simp [transaction_data, Json.item_object, Json.toStr])
        nonce := by simp [transaction_data, Json.item_object]
        memo := hmemo (by simp [transaction_data, Json.item_object]) } }

theorem item_transaction_json (op : Operation) (a : SignTxArgs) (signature : Str) :
    (transaction_json op a signature).item "signature" = .ok (.str signature) ∧
    (transaction_json op a signature).item op.signedKey = .ok (transaction_data op a) := by
  cases op <;> simp [transaction_json, Json.item_object, Operation.signedKey]

end Session

/-- A session in which the user says yes and the device answers with a signature. -/
theorem asks_offline {py : Runtime} {args : Args} {a : SignTxArgs} {lines : List Str} {yes : Str}
    {apdu : List UInt8} (ha : offline py.toPython args = .ok a)
    (hlines : offlineLines py args a = .ok lines) (hyes : py.lower_strip yes = ofString "y")
    (hapdu : a.ledger_sign_tx = some apdu) (sig : Signature) :
    Asks (offline_session py args) [⟨.input lines, yes⟩, ⟨.exchange apdu, some sig.bytes⟩]
      (.done (.ok (transaction_json args.operation a
        (hexStr (sig.rx.toList.reverse ++ sig.s.toList.reverse))))) := by
  have hre := re_encode_hexStr (show sig.rx.toList.length = 32 by simp)
    (show sig.s.toList.length = 32 by simp)
  exact asks_call (congrArg raised ha) (asks_call hlines (asks_seq (asks_confirm hyes)
    (asks_seq (asks_exchange hapdu sig.bytes) (asks_call hre (.nil _)))))

/-- The command line of the small payment, complete. -/
def offlineLine (sender : Str) : CommandLine :=
  { smallLine sender with
    network := some (ofString "devnet"), fee := some (ofString "0.000000003"),
    nonce := some (ofString "5") }

def offlinePayment (sender : Str) : Args :=
  { smallPayment sender with
    network := some (ofString "devnet"), fee := some (ofString "0.000000003"),
    nonce := some (.inl 5) }

theorem parse_offlineLine {sender : Str} (hlen : sender.length = 55) (signature : Str) :
    parse_args (smallRuntime sender signature).toPython (offlineLine sender) =
      .ok (offlinePayment sender) := by
  have haddr : ∀ id, valid_address id sender = .ok sender := fun id => if_neg (by
    rw [hlen]; decide)
  have haccount : valid_account (smallRuntime sender signature).toPython (ofString "0") = .ok 0 := by
    rfl
  have hamount : valid_amount (smallRuntime sender signature).toPython (ofString "0.000000042") =
      .ok (ofString "0.000000042") := by rfl
  rw [parse_args, offlineLine, smallLine]
  simp only [haccount, haddr, hamount, raised_ok_bind]
  rfl

theorem offline_offlinePayment (sender signature : Str) :
    offline (smallRuntime sender signature).toPython (offlinePayment sender) =
      .ok (smallRequest sender) := by
  rfl

theorem offlineLines_small (sender signature : Str) : ∃ lines,
    offlineLines (smallRuntime sender signature) (offlinePayment sender) (smallRequest sender) =
      .ok lines := ⟨_, rfl⟩

/-- Whatever the device answers with 64 bytes. -/
theorem asks_offline_small {sender : Str} (hascii : IsAscii sender) (hlen : sender.length = 55)
    (sig : Signature) : ∃ v lines, Asks
      (offline_session (smallRuntime sender (hexStr sig.bytes)) (offlinePayment sender))
      [⟨.input lines, ofString "y"⟩,
        ⟨.exchange ([0xe0, 0x03, 0x00, 0x00, 172] ++ (smallRequest sender).data), some sig.bytes⟩]
      (.done (.ok v)) := by
  have hapdu := SignTxArgs.ledger_sign_tx_eq hlen hlen (ordinary_smallRequest sender hascii hlen).fits
  obtain ⟨lines, hlines⟩ := offlineLines_small sender (hexStr sig.bytes)
  exact ⟨_, lines, asks_offline (offline_offlinePayment sender _) hlines rfl hapdu sig⟩

end MinaLedger
