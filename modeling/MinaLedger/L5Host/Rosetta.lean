import MinaLedger.L5Host.Json
import MinaLedger.Lib.Dialogue

/-!
# The Rosetta requests of the wallet

The functions of src/utils/mina_ledger_wallet.py that ask a Rosetta server, each a
body, a question and a reader of the answer. The wallet also asks the user and the
device. What is printed counts where the user is asked; progress messages are left
out.

Results:
* `metadata_response_fee`: a suggested fee that is accepted is not below the minimum.
* `balance_response_total`: the balances that are accepted add up.
* `check_tx_true`: what is known of a transaction that passes the check.
* `wp_rosetta_request`, `wp_confirm`: the rules for the questions.
-/
namespace MinaLedger
open Lib.Text Lib.Dialogue

/-! ## Questions -/

inductive Question where
  /-- `requests.post(MINA_URL + path, data=json.dumps(body)).json()` -/
  | post (path : String) (body : Json)
  /-- `input("Continue? (y/N) ")` below the lines -/
  | input (shown : List Str)
  /-- `DONGLE.exchange(apdu)` -/
  | exchange (apdu : List UInt8)

/-- `none` is an exception of the library. -/
abbrev Question.Answer : Question → Type
  | .post _ _ => Option Json
  | .input _ => Str
  | .exchange _ => Option (List UInt8)

abbrev Session := Program Question Question.Answer Stop

abbrev Transcript := List (Exchange Question Question.Answer)

def fail {α : Type} (msg : String) : Except Stop α := .error (.Exception (ofString msg))

/-- `if not c: raise Exception(msg)` -/
def demand (c : Prop) [Decidable c] (msg : String) : Except Stop Unit :=
  if c then .ok () else fail msg

/-- An answer of the library, or its exception. -/
def received {α : Type} : Option α → Except Stop α
  | some a => .ok a
  | none => .error .library

/-- A request, and the reader of its answer. -/
def rosetta_request {α : Type} (path : String) (body : Json) (response : Json → Except Stop α) :
    Session α := do
  let resp ← ask (.post path body)
  call (do response (← received resp))

/-- `answer != 'y'` exits. mirrors src/utils/mina_ledger_wallet.py:1002-1004 -/
def confirm (py : Runtime) (shown : List Str) : Session Unit := do
  let answer ← ask (.input shown)
  if py.lower_strip answer ≠ ofString "y" then raise (.exit 211) else return ()

/-! ## The network -/

/-- The `NETWORK` part of every request. -/
def network_identifier (NETWORK : Json) : Json :=
  object [("blockchain", text "coda"), ("network", NETWORK)]

/-- Another blockchain than "coda" is a `NameError`: the name in the second comparison is
misspelt. mirrors src/utils/mina_ledger_wallet.py:148-181 -/
def network_response (network_resp : Json) : Except Stop Json := do
  demand (← network_resp.contains "network_identifiers") "Failed to get network identifiers"
  let network_identifiers ← network_resp.item "network_identifiers"
  demand (1 ≤ (← network_identifiers.len)) "Empty network identifiers"
  let identifier ← network_identifiers.index 0
  demand (← identifier.contains "blockchain") "Failed to get blockchain"
  if !(← identifier.item "blockchain").is "coda" then
    .error .builtin
  demand (← identifier.contains "network") "Failed to get network"
  identifier.item "network"

/-- mirrors src/utils/mina_ledger_wallet.py:135-181 -/
def rosetta_network_request : Session Json :=
  rosetta_request "/network/list" (object [("metadata", object [])]) network_response

/-- mirrors src/utils/mina_ledger_wallet.py:859-863 -/
def network_id (NETWORK : Json) : Except Stop Int :=
  match NETWORK with
  | .str s => .ok (network_id_from_string s)
  | _ => .error .builtin

/-! ## Nonce, fees and balance -/

/-- The first entry of the two symbols, which both loops look for.
mirrors src/utils/mina_ledger_wallet.py:223-233, 306-315 -/
def ofCurrency : List Json → Except Stop (Option Json)
  | [] => .ok none
  | token :: rest => do
    if !(← token.contains "value") then
      return ← ofCurrency rest
    if !(← token.contains "currency") then
      return ← ofCurrency rest
    let currency ← token.item "currency"
    if !(← currency.contains "symbol") then
      return ← ofCurrency rest
    let symbol ← currency.item "symbol"
    if !symbol.is "CODA" && !symbol.is "MINA" then
      return ← ofCurrency rest
    return some token

/-- mirrors src/utils/mina_ledger_wallet.py:237-240 -/
def minimumFee (py : Runtime) (token : Json) : Except Stop Int := do
  if !(← token.contains "metadata") then
    return 0
  let metadata ← token.item "metadata"
  if !(← metadata.contains "minimum_fee") then
    return 0
  let minimum_fee ← metadata.item "minimum_fee"
  if !(← minimum_fee.contains "value") then
    return 0
  (← minimum_fee.item "value").toInt py

/-- `to_currency(amount)`. mirrors src/utils/mina_ledger_wallet.py:34-35 -/
def to_currency (py : Runtime) (amount : Int) : Except Stop UInt64 :=
  match py.to_currency amount with
  | some x => .ok x
  | none => .error .builtin

/-- mirrors src/utils/mina_ledger_wallet.py:206-260 -/
def metadata_response (py : Runtime) (metadata_resp : Json) : Except Stop (Int × Int × Int) := do
  demand (← metadata_resp.contains "metadata") "Failed to get metadata"
  demand (← metadata_resp.contains "suggested_fee") "Failed to get suggested fee"
  let metadata ← metadata_resp.item "metadata"
  demand (← metadata.contains "nonce") "Failed to get nonce"
  let nonce ← (← metadata.item "nonce").toInt py
  let token ← ofCurrency (← (← metadata_resp.item "suggested_fee").elements)
  let (suggested_fee, minimum_fee) ← fees token
  demand (suggested_fee ≠ -1) "Failed to get suggested fee"
  if suggested_fee < minimum_fee then
    let suggested ← to_currency py suggested_fee
    let minimum ← to_currency py minimum_fee
    .error (.Exception (ofString "Suggested fee " ++ py.format suggested ++
      ofString " is less than minimum fee " ++ py.format minimum))
  else return (nonce, suggested_fee, minimum_fee)
where
  /-- -1 stands for none. -/
  fees : Option Json → Except Stop (Int × Int)
    | none => return (-1, -1)
    | some token => do return (← (← token.item "value").toInt py, ← minimumFee py token)

def construction_metadata_request (NETWORK : Json) (sender_address : Str) : Json :=
  object [("network_identifier", network_identifier NETWORK),
    ("options", object [("sender", .str sender_address), ("token_id", text "1")]),
    ("public_keys", .arr [])]

/-- mirrors src/utils/mina_ledger_wallet.py:183-260 -/
def rosetta_metadata_request (py : Runtime) (NETWORK : Json) (sender_address : Str) :
    Session (Int × Int × Int) :=
  rosetta_request "/construction/metadata" (construction_metadata_request NETWORK sender_address)
    (metadata_response py)

/-- In verbose mode an empty list is a `NameError`.
mirrors src/utils/mina_ledger_wallet.py:290-343 -/
def balance_response (py : Runtime) (balance_resp : Json) : Except Stop (Int × Int × Int) := do
  demand (← balance_resp.contains "balances") "Failed to get balance"
  let balances ← balance_resp.item "balances"
  if (← balances.len) < 1 then
    if py.VERBOSE then .error .builtin else fail "Empty balances"
  else
    let balance ← ofCurrency (← balances.elements)
    let (spendable_balance, locked_balance, total_balance) ← amounts balance
    demand (spendable_balance ≠ -1) "Failed to get spendable balance"
    demand (total_balance = -1 ∨ total_balance = spendable_balance + locked_balance)
      "Invalid balances"
    return (spendable_balance, locked_balance, total_balance)
where
  /-- Spendable, locked and total; -1 stands for none. -/
  amounts : Option Json → Except Stop (Int × Int × Int)
    | none => return (-1, -1, -1)
    | some balance => do
      let spendable_balance ← (← balance.item "value").toInt py
      if !(← balance.contains "metadata") then
        return (spendable_balance, -1, -1)
      let metadata ← balance.item "metadata"
      if !(← metadata.contains "locked_balance") then
        return (spendable_balance, -1, -1)
      if !(← metadata.contains "total_balance") then
        return (spendable_balance, -1, -1)
      return (spendable_balance, ← (← metadata.item "locked_balance").toInt py,
        ← (← metadata.item "total_balance").toInt py)

def account_balance_request (NETWORK : Json) (address : Str) : Json :=
  object [("network_identifier", network_identifier NETWORK),
    ("account_identifier", object [("address", .str address)]),
    ("currencies", .arr [object [("symbol", text "CODA"), ("decimals", .int 9),
      ("metadata", object [])]])]

/-- mirrors src/utils/mina_ledger_wallet.py:262-343 -/
def rosetta_balance_request (py : Runtime) (NETWORK : Json) (address : Str) :
    Session (Int × Int × Int) :=
  rosetta_request "/account/balance" (account_balance_request NETWORK address) (balance_response py)

/-! ## Payloads -/

/-- `{"value": value, "currency": ...}` -/
def codaAmount (value : Str) : Json :=
  object [("value", .str value), ("currency", object [("symbol", text "CODA"), ("decimals", .int 9)])]

/-- The address of an operation that moves tokens. -/
def tokenAccount (address : Str) : Json :=
  object [("address", .str address), ("metadata", object [("token_id", text "1")])]

/-- The fields all operations share, and the others. -/
def operation (index : Int) (related : List Json) (type : String) (rest : List (String × Json)) : Json :=
  object ([("operation_identifier", object [("index", .int index)]),
    ("related_operations", .arr related), ("type", text type), ("status", text "Pending")] ++ rest)

/-- The member of a payload that is the transaction. -/
def Operation.payloadKey : Operation → String
  | .send_payment _ => "payment"
  | .delegate => "stakeDelegation"

/-- The same in the answer of `/construction/combine`. -/
def Operation.signedKey : Operation → String
  | .send_payment _ => "payment"
  | .delegate => "stake_delegation"

/-- What the wallet says when that member is missing. -/
def Operation.signedMissing : Operation → String
  | .send_payment _ => "Failed to get payment info"
  | .delegate => "Failed to get stakeDelegation info"

/-- mirrors src/utils/mina_ledger_wallet.py:452-468, 544-560 -/
def payloads_response (py : Runtime) (key : String) (payloads_resp : Json) : Except Stop Json := do
  demand (← payloads_resp.contains "unsigned_transaction") "Failed to get unsigned transaction"
  let payload ← loads py (← payloads_resp.item "unsigned_transaction")
  demand (← payload.contains key) "Failed to get payment info"
  if (← payload.item key).isNone then
    fail "Failed to get payment info"
  return payload
where
  /-- `json.loads(v)` takes a text. -/
  loads (py : Runtime) : Json → Except Stop Json
    | .str s => received (py.loads s)
    | _ => .error .builtin

/-- The sender is not filled in here. mirrors src/utils/mina_ledger_wallet.py:345-468 -/
def rosetta_send_payment_payloads_request (py : Runtime) (NETWORK : Json) (sender receiver : Str)
    (amount fee nonce : Int) : Session Json :=
  rosetta_request "/construction/payloads" (object [
    ("network_identifier", network_identifier NETWORK),
    ("operations", .arr [
      operation 0 [] "fee_payer_dec" [("account", tokenAccount sender),
        ("amount", codaAmount (ofString "-" ++ intText fee))],
      operation 1 [] "payment_source_dec" [("account", tokenAccount sender),
        ("amount", codaAmount (ofString "-" ++ intText amount))],
      operation 2 [object [("index", .int 1)]] "payment_receiver_inc"
        [("account", tokenAccount receiver), ("amount", codaAmount (intText amount))]]),
    ("metadata", object [("sender", text ""), ("nonce", .str (intText nonce)),
      ("token_id", text "1")]),
    ("public_keys", .arr [])]) (payloads_response py "payment")

/-- mirrors src/utils/mina_ledger_wallet.py:470-560 -/
def rosetta_delegation_payloads_request (py : Runtime) (NETWORK : Json) (delegator delegate : Str)
    (fee nonce : Int) : Session Json :=
  rosetta_request "/construction/payloads" (object [
    ("network_identifier", network_identifier NETWORK),
    ("operations", .arr [
      operation 0 [] "fee_payer_dec" [("account", tokenAccount delegator),
        ("amount", codaAmount (ofString "-" ++ intText fee))],
      operation 1 [] "delegate_change" [("account", object [("address", .str delegator)]),
        ("metadata", object [("delegate_change_target", .str delegate)])]]),
    ("metadata", object [("sender", .str delegator), ("nonce", .str (intText nonce)),
      ("token_id", text "1")]),
    ("public_keys", .arr [])]) (payloads_response py "stakeDelegation")

/-! ## Parse, combine and submit -/

/-- The exception of a server that says why. -/
def serverError (py : Runtime) (resp : Json) (msg : String) : Except Stop Unit := do
  if ← resp.contains "code" then
    if ← resp.contains "details" then
      let reason ← (← (← resp.item "details").item "body").index 1
      .error (.Exception (reason.toStr py))
  fail msg

def parse_response (py : Runtime) (parse_resp : Json) : Except Stop Unit := do
  if !(← parse_resp.contains "operations") then
    serverError py parse_resp "Failed to parse transaction"

/-- mirrors src/utils/mina_ledger_wallet.py:665-697 -/
def rosetta_parse_request (py : Runtime) (NETWORK : Json) (tx : Json) (signed : Bool) : Session Unit :=
  rosetta_request "/construction/parse" (object [
    ("network_identifier", network_identifier NETWORK),
    ("signed", .bool signed),
    ("transaction", .str (py.dumps tx))]) (parse_response py)

/-- The missing member raises in verbose mode only; the next line then raises otherwise,
or the first assignment to a null. mirrors src/utils/mina_ledger_wallet.py:603-629 -/
def combine_response (py : Runtime) (op : Operation) (combine_resp : Json) : Except Stop Json := do
  demand (← combine_resp.contains "signed_transaction") "Failed to construct signed transaction"
  let payload ← payloads_response.loads py (← combine_resp.item "signed_transaction")
  if !(← payload.contains op.signedKey) then
    if py.VERBOSE then
      fail op.signedMissing
  else if (← payload.item op.signedKey).isNone then
    if py.VERBOSE then
      fail op.signedMissing
  let _ ← payload.item op.signedKey
  return payload

/-- mirrors src/utils/mina_ledger_wallet.py:562-629 -/
def rosetta_combine_request (py : Runtime) (NETWORK : Json) (payload : Json) (signature : Str)
    (op : Operation) : Session Json :=
  rosetta_request "/construction/combine" (object [
    ("network_identifier", network_identifier NETWORK),
    ("unsigned_transaction", .str (py.dumps payload)),
    ("signatures", .arr [object [
      ("signing_payload", object [("address", text ""), ("account_identifer", text ""),
        ("hex_bytes", text ""), ("signature_type", text "")]),
      ("signature_type", text "schnorr_poseidon"),
      ("public_key", object [("hex_bytes", text ""), ("curve_type", text "")]),
      ("hex_bytes", .str signature)]])]) (combine_response py op)

/-- The body of a submission. -/
def submission (py : Runtime) (NETWORK : Json) (signed_tx : Json) : Json :=
  object [("network_identifier", network_identifier NETWORK),
    ("signed_transaction", .str (py.dumps signed_tx))]

def submit_response (py : Runtime) (submit_resp : Json) : Except Stop Json := do
  if !(← submit_resp.contains "transaction_identifier") then
    serverError py submit_resp "Failed to submit transaction"
  (← submit_resp.item "transaction_identifier").item "hash"

/-- mirrors src/utils/mina_ledger_wallet.py:631-663 -/
def rosetta_submit_request (py : Runtime) (NETWORK : Json) (signed_tx : Json) : Session Json :=
  rosetta_request "/construction/submit" (submission py NETWORK signed_tx) (submit_response py)

/-! ## What is printed and checked -/

/-- mirrors src/utils/mina_ledger_wallet.py:845-851 -/
def tx_type_name : Operation → Str
  | .send_payment _ => ofString "Payment"
  | .delegate => ofString "Delegation"

/-- The account, with the account number underlined and bold in its path. -/
def accountLine (account : Int) : Str :=
  ofString "    Account:     " ++ intText account ++ ofString " (path 44'/12586'/\x1b[4m\x1b[1m" ++
    intText account ++ ofString "\x1b[0m'/0/0)"

/-- Balance and locked balance are `None` offline.
mirrors src/utils/mina_ledger_wallet.py:802-832 -/
def print_transaction (py : Runtime) (op : Operation) (NETWORK : Json) (account : Int)
    (balance : Option (Int × Int)) (sender receiver : Json) (amount fee : Int) (nonce : Json)
    (valid_until : Json) (memo : Str) : Except Stop (List Str) := do
  let network := if (← network_id NETWORK) = 0 then [ofString "    Network:     testnet"] else []
  let head := network ++ [ofString "    Type:        " ++ tx_type_name op, accountLine account]
  let parties ← match op, balance with
    | .send_payment _, some (balance, locked_balance) => do
      let balance_text := if locked_balance = -1 ∨ locked_balance = 0 then "balance" else "spendable"
      pure [ofString "    Sender:      " ++ sender.toStr py ++ ofString " (" ++
        ofString balance_text ++ ofString " " ++ py.format (← to_currency py balance) ++ ofString ")",
        ofString "    Receiver:    " ++ receiver.toStr py]
    | .send_payment _, none =>
      pure [ofString "    Sender:      " ++ sender.toStr py,
        ofString "    Receiver:    " ++ receiver.toStr py]
    | .delegate, some (balance, _) => do
      pure [ofString "    Delegator:   " ++ sender.toStr py ++ ofString " (balance " ++
        py.format (← to_currency py balance) ++ ofString ")",
        ofString "    Delegate:    " ++ receiver.toStr py]
    | .delegate, none =>
      pure [ofString "    Delegator:   " ++ sender.toStr py,
        ofString "    Delegate:    " ++ receiver.toStr py]
  let feeLine := ofString "    Fee:         " ++ py.format_9f (← to_currency py fee)
  let amounts ← match op with
    | .send_payment _ => do
      pure [ofString "    Amount:      " ++ py.format_9f (← to_currency py amount), feeLine,
        ofString "    Total:       " ++ py.format_9f (← to_currency py (amount + fee))]
    | .delegate => pure [feeLine]
  let validLine := if valid_until.is "" then []
    else [ofString "    Valid until: " ++ valid_until.toStr py]
  let memoLine := if memo = [] then [] else [ofString "    Memo:        " ++ memo]
  return head ++ parties ++ amounts ++ [ofString "    Nonce:       " ++ nonce.toStr py] ++
    validLine ++ memoLine

/-- A null says that it is valid forever. -/
def sameValidUntil (py : Runtime) (valid_until v : Json) : Bool :=
  if v.isNone then valid_until.isInt py MAX_VALID_UNTIL else v.isStr (valid_until.toStr py)

/-- A null is the empty memo. -/
def sameMemo (memo : Str) (v : Json) : Bool :=
  if v.isNone then memo = [] else v.isStr memo

/-- mirrors src/utils/mina_ledger_wallet.py:866-873 -/
def common_tx_check (py : Runtime) (tx : Json) (fee : Int) (valid_until : Json) (nonce : Int)
    (memo : Str) : Except Stop Bool := do
  if !(← tx.item "fee").isStr (intText fee) then
    return false
  if !sameValidUntil py valid_until (← tx.item "valid_until") then
    return false
  if !(← tx.item "nonce").isStr (intText nonce) then
    return false
  return sameMemo memo (← tx.item "memo")

/-- mirrors src/utils/mina_ledger_wallet.py:865-885 -/
def check_tx (py : Runtime) (op : Operation) (tx : Json) (sender receiver : Str) (amount fee : Int)
    (valid_until : Json) (nonce : Int) (memo : Str) : Except Stop Bool := do
  match op with
  | .send_payment _ =>
    if !(← tx.item "from").isStr sender then
      return false
    if !(← tx.item "to").isStr receiver then
      return false
    if !(← tx.item "amount").isStr (intText amount) then
      return false
    common_tx_check py tx fee valid_until nonce memo
  | .delegate =>
    if !(← tx.item "delegator").isStr sender then
      return false
    if !(← tx.item "new_delegate").isStr receiver then
      return false
    common_tx_check py tx fee valid_until nonce memo

/-! ## What is known of an answer that is accepted -/

theorem stop_bind_ok {α β : Type} {x : Except Stop α} {f : α → Except Stop β} {r : β}
    (h : (x >>= f) = .ok r) : ∃ a, x = .ok a ∧ f a = .ok r := by
  cases x with
  | error e => cases h
  | ok a => exact ⟨a, rfl, h⟩

theorem stop_ok_bind {α β : Type} {x : Except Stop α} {f : α → Except Stop β} {a : α} {r : β}
    (hx : x = .ok a) (hf : f a = .ok r) : (x >>= f) = .ok r := by
  subst hx
  exact hf

theorem demand_ok {c : Prop} [Decidable c] {msg : String} {u : Unit} (h : demand c msg = .ok u) :
    c := by
  unfold demand at h
  split at h
  · assumption
  · cases h

/-- A suggested fee that is accepted is not below the minimum. -/
theorem metadata_response_fee {py : Runtime} {resp : Json} {nonce fee minimum : Int}
    (h : metadata_response py resp = .ok (nonce, fee, minimum)) : fee ≠ -1 ∧ minimum ≤ fee := by
  unfold metadata_response at h
  iterate 12 obtain ⟨_, -, h⟩ := stop_bind_ok h
  obtain ⟨⟨suggested_fee, minimum_fee⟩, -, h⟩ := stop_bind_ok h
  obtain ⟨_, hfee, h⟩ := stop_bind_ok h
  split at h
  · obtain ⟨_, -, h⟩ := stop_bind_ok h
    obtain ⟨_, -, h⟩ := stop_bind_ok h
    cases h
  · rename_i hlt
    cases Except.ok.inj h
    exact ⟨demand_ok hfee, not_lt.mp hlt⟩

/-- The balances that are accepted add up. -/
theorem balance_response_total {py : Runtime} {resp : Json} {spendable locked total : Int}
    (h : balance_response py resp = .ok (spendable, locked, total)) :
    spendable ≠ -1 ∧ (total = -1 ∨ total = spendable + locked) := by
  unfold balance_response at h
  iterate 4 obtain ⟨_, -, h⟩ := stop_bind_ok h
  split at h
  · split at h <;> cases h
  · iterate 2 obtain ⟨_, -, h⟩ := stop_bind_ok h
    obtain ⟨⟨spendable_balance, locked_balance, total_balance⟩, -, h⟩ := stop_bind_ok h
    obtain ⟨_, hspendable, h⟩ := stop_bind_ok h
    obtain ⟨_, htotal, h⟩ := stop_bind_ok h
    cases Except.ok.inj h
    exact ⟨demand_ok hspendable, demand_ok htotal⟩

/-- The members that both transactions have are what the user supplied. -/
structure CommonMembers (py : Runtime) (tx : Json) (fee : Int) (valid_until : Json) (nonce : Int)
    (memo : Str) : Prop where
  fee : tx.item "fee" = .ok (.str (intText fee))
  valid_until : tx.item "valid_until" = .ok (.str (valid_until.toStr py)) ∨
    (tx.item "valid_until" = .ok .null ∧ valid_until.isInt py MAX_VALID_UNTIL)
  nonce : tx.item "nonce" = .ok (.str (intText nonce))
  memo : tx.item "memo" = .ok (.str memo) ∨ (tx.item "memo" = .ok .null ∧ memo = [])

/-- The members of a transaction, by operation. -/
structure Members (py : Runtime) (op : Operation) (tx : Json) (sender receiver : Str)
    (amount fee : Int) (valid_until : Json) (nonce : Int) (memo : Str) : Prop where
  payment : op ≠ .delegate → tx.item "from" = .ok (.str sender) ∧
    tx.item "to" = .ok (.str receiver) ∧ tx.item "amount" = .ok (.str (intText amount))
  delegation : op = .delegate → tx.item "delegator" = .ok (.str sender) ∧
    tx.item "new_delegate" = .ok (.str receiver)
  common : CommonMembers py tx fee valid_until nonce memo

/-- One comparison of a check. -/
theorem check_step {x : Except Stop Json} {same : Json → Bool} {rest : Except Stop Bool}
    (h : (do if !same (← x) then return false else rest) = Except.ok true) :
    ∃ v, x = .ok v ∧ same v = true ∧ rest = .ok true := by
  obtain ⟨v, hv, h⟩ := stop_bind_ok h
  split at h
  · cases h
  · rename_i hs
    exact ⟨v, hv, by rwa [Bool.not_eq_true, Bool.not_eq_false'] at hs, h⟩

theorem isStr_step {x : Except Stop Json} {s : Str} {rest : Except Stop Bool}
    (h : (do if !(← x).isStr s then return false else rest) = Except.ok true) :
    x = .ok (.str s) ∧ rest = .ok true := by
  obtain ⟨v, hv, hs, h⟩ := check_step h
  exact ⟨hv.trans (by rw [Json.isStr_iff.mp hs]), h⟩

theorem common_tx_check_true {py : Runtime} {tx : Json} {fee : Int} {valid_until : Json}
    {nonce : Int} {memo : Str} (h : common_tx_check py tx fee valid_until nonce memo = .ok true) :
    CommonMembers py tx fee valid_until nonce memo := by
  unfold common_tx_check at h
  obtain ⟨hfee, h⟩ := isStr_step h
  obtain ⟨valid, hvalid, hsame, h⟩ := check_step h
  obtain ⟨hnonce, h⟩ := isStr_step h
  obtain ⟨txMemo, hmemo, h⟩ := stop_bind_ok h
  refine ⟨hfee, ?_, hnonce, ?_⟩
  · unfold sameValidUntil at hsame
    split at hsame
    · rename_i hnull
      exact .inr ⟨hvalid.trans (by rw [Json.isNone_iff.mp hnull]), hsame⟩
    · exact .inl (hvalid.trans (by rw [Json.isStr_iff.mp hsame]))
  · replace h := Except.ok.inj h
    unfold sameMemo at h
    split at h
    · rename_i hnull
      exact .inr ⟨hmemo.trans (by rw [Json.isNone_iff.mp hnull]), of_decide_eq_true h⟩
    · exact .inl (hmemo.trans (by rw [Json.isStr_iff.mp h]))

/-- A transaction that passes has what the user supplied in it. -/
theorem check_tx_true {py : Runtime} {op : Operation} {tx : Json} {sender receiver : Str}
    {amount fee : Int} {valid_until : Json} {nonce : Int} {memo : Str}
    (h : check_tx py op tx sender receiver amount fee valid_until nonce memo = .ok true) :
    Members py op tx sender receiver amount fee valid_until nonce memo := by
  cases op with
  | send_payment text =>
    obtain ⟨hfrom, h⟩ := isStr_step h
    obtain ⟨hto, h⟩ := isStr_step h
    obtain ⟨hamount, h⟩ := isStr_step h
    exact ⟨fun _ => ⟨hfrom, hto, hamount⟩, fun hop => (by cases hop), common_tx_check_true h⟩
  | delegate =>
    obtain ⟨hdelegator, h⟩ := isStr_step h
    obtain ⟨hdelegate, h⟩ := isStr_step h
    exact ⟨fun hop => absurd rfl hop, fun _ => ⟨hdelegator, hdelegate⟩, common_tx_check_true h⟩

/-! ## Answers that are accepted -/

theorem demand_of {c : Prop} [Decidable c] {msg : String} (h : c) : demand c msg = .ok () :=
  if_pos h

theorem isNone_of_item {v x tx : Json} {key : String} (htx : tx.item key = .ok x)
    (h : v = tx) : v.isNone = false := by
  subst h
  cases v with
  | null => cases htx
  | _ => rfl

section Accepted

variable {py : Runtime} {key known : String} {resp payload tx x : Json} {s : Str}

/-- A text that is loaded to a payload with the transaction. -/
theorem payloads_response_ok (htext : resp.item "unsigned_transaction" = .ok (.str s))
    (hload : py.loads s = some payload) (htx : payload.item key = .ok tx)
    (hknown : tx.item known = .ok x) : payloads_response py key resp = .ok payload := by
  refine stop_ok_bind (Json.contains_of_item htext) (stop_ok_bind (demand_of rfl) (stop_ok_bind htext
    (stop_ok_bind (a := payload) ?_ (stop_ok_bind (Json.contains_of_item htx)
      (stop_ok_bind (demand_of rfl) (stop_ok_bind htx ?_))))))
  · rw [payloads_response.loads, hload]
    rfl
  · rw [isNone_of_item hknown rfl]
    rfl

theorem combine_response_ok {op : Operation} (htext : resp.item "signed_transaction" = .ok (.str s))
    (hload : py.loads s = some payload) (htx : payload.item op.signedKey = .ok tx)
    (hknown : tx.item known = .ok x) : combine_response py op resp = .ok payload := by
  refine stop_ok_bind (Json.contains_of_item htext) (stop_ok_bind (demand_of rfl) (stop_ok_bind htext
    (stop_ok_bind (a := payload) ?_ (stop_ok_bind (Json.contains_of_item htx) ?_))))
  · rw [payloads_response.loads, hload]
    rfl
  · refine stop_ok_bind htx ?_
    rw [isNone_of_item hknown rfl]
    exact stop_ok_bind htx rfl

end Accepted

/-! ## Rules -/

section Rules

variable {α : Type} {safe : Transcript → Question → Prop} {t : Transcript}

theorem asks_rosetta_request {path : String} {body : Json} {response : Json → Except Stop α} {a : α}
    (resp : Json) (h : response resp = .ok a) :
    Asks (rosetta_request path body response) [⟨.post path body, some resp⟩] (.done (.ok a)) := by
  rw [← h]
  exact .cons (.nil _)

theorem asks_confirm {py : Runtime} {shown : List Str} {answer : Str}
    (h : py.lower_strip answer = ofString "y") :
    Asks (confirm py shown) [⟨.input shown, answer⟩] (.done (.ok ())) := by
  refine .cons ?_
  change Asks (if py.lower_strip answer ≠ ofString "y" then raise (Stop.exit 211) else pure ()) _ _
  rw [if_neg (not_not.mpr h)]
  exact .nil _

/-- Whatever the server answers. -/
theorem wp_rosetta_request {path : String} {body : Json} {response : Json → Except Stop α}
    {post : Transcript → α → Prop} (hsafe : safe t (.post path body))
    (h : ∀ resp a, response resp = .ok a → post (t ++ [⟨.post path body, some resp⟩]) a) :
    wp safe post (rosetta_request path body response) t := by
  refine wp_bind.mpr (wp_ask hsafe fun resp => wp_call.mpr fun a ha => ?_)
  cases resp with
  | none => cases ha
  | some resp => exact h resp a ha

/-- Whatever the user answers, "y" is needed to go on. -/
theorem wp_confirm {py : Runtime} {shown : List Str}
    {post : Transcript → Unit → Prop} (hsafe : safe t (.input shown))
    (h : ∀ answer, py.lower_strip answer = ofString "y" → post (t ++ [⟨.input shown, answer⟩]) ()) :
    wp safe post (confirm py shown) t :=
  wp_bind.mpr (wp_ask hsafe fun answer => wp_ite (fun _ => wp_raise) fun hy =>
    wp_pure (h answer (not_not.mp hy)))

end Rules

end MinaLedger
