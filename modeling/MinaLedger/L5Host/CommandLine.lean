import MinaLedger.L5Host.Wallet

/-!
# The command line of the wallet

`send-payment` and `delegate` of src/utils/mina_ledger_wallet.py in offline mode:
what the argument parser checks, and the arguments `ledger_sign_tx` is then
called with. Python's integers are unbounded; `int` of a text and `from_currency`
are parameters.

Results:
* `admitted_of_parse_args`: what is known of the arguments once they are parsed.
* `offline_iff`: the arguments of `ledger_sign_tx`.
-/
namespace MinaLedger
open Lib.Text

/-- `int(s)` and `from_currency(s)`; `none` is an exception. -/
structure Python where
  int : Str → Option Int
  from_currency : Str → Option Int

/-- What ends the program before a request is built. -/
inductive Raised where
  | ArgumentTypeError (msg : String)
  | Exception (msg : String)
  /-- by `int` or `float` -/
  | builtin
  deriving Repr, DecidableEq

/-! ## Arguments -/

/-- mirrors src/utils/mina_ledger_wallet.py:23-27 -/
def MAX_ACCOUNT_NUM : Int := 2 ^ 32 - 1
def MAX_AMOUNT : Int := 2 ^ 64 - 1
def MAX_VALID_UNTIL : Int := 2 ^ 32 - 1
def MAX_NONCE : Int := 2 ^ 32 - 1

/-- A `try` around a conversion and a range check; whatever fails, the text is `msg`. -/
def checked (msg : String) (bad : Int → Bool) (value : Option Int) : Except Raised Int :=
  match value with
  | none => .error (.ArgumentTypeError msg)
  | some v => if bad v then .error (.ArgumentTypeError msg) else .ok v

section Validators

variable (py : Python)

/-- mirrors src/utils/mina_ledger_wallet.py:40-47 -/
def valid_account (num : Str) : Except Raised Int :=
  checked ("Must be in [0," ++ toString MAX_ACCOUNT_NUM ++ "]")
    (fun v => v < 0 ∨ v > MAX_ACCOUNT_NUM) (py.int num)

/-- The text is kept. mirrors src/utils/mina_ledger_wallet.py:49-56 -/
def valid_amount (amount : Str) : Except Raised Str := do
  let _ ← checked ("Must be in [0," ++ toString MAX_AMOUNT ++ "]")
    (fun v => v < 0 ∨ v > MAX_AMOUNT) (py.from_currency amount)
  return amount

/-- mirrors src/utils/mina_ledger_wallet.py:58-65 -/
def valid_nonce (nonce : Str) : Except Raised Int :=
  checked ("Must be in [0," ++ toString MAX_NONCE ++ "]")
    (fun v => v < 0 ∨ v > MAX_NONCE) (py.int nonce)

/-- Nothing is said about negative numbers. mirrors src/utils/mina_ledger_wallet.py:81-88 -/
def valid_valid_until (valid_until : Str) : Except Raised Int :=
  checked ("Must be at most " ++ toString MAX_VALID_UNTIL)
    (fun v => v > MAX_VALID_UNTIL) (py.int valid_until)

end Validators

/-- mirrors src/utils/mina_ledger_wallet.py:67-73 -/
def valid_address (id : String) (address : Str) : Except Raised Str :=
  if address.length ≠ ADDRESS_LEN then
    .error (.ArgumentTypeError (id ++ " address length must be " ++ toString ADDRESS_LEN))
  else .ok address

/-- mirrors src/utils/mina_ledger_wallet.py:75-79 -/
def valid_memo (memo : Str) : Except Raised Str :=
  if memo.length > MAX_MEMO_LEN then
    .error (.ArgumentTypeError ("Length must be at most " ++ toString MAX_MEMO_LEN))
  else .ok memo

/-- The two operations; only a payment has an amount. -/
inductive Operation where
  | send_payment (amount : Str)
  | delegate
  deriving DecidableEq

/-- The texts on the command line. -/
structure CommandLine where
  operation : Operation
  account : Str
  sender : Str
  receiver : Str
  network : Option Str
  fee : Option Str
  nonce : Option Str
  valid_until : Option Str
  memo : Option Str

/-- `args`. The nonce of a delegation is still a text. -/
structure Args where
  operation : Operation
  account : Int
  sender : Str
  receiver : Str
  network : Option Str
  fee : Option Str
  nonce : Option (Int ⊕ Str)
  valid_until : Option Int
  memo : Option Str

/-- An option that is not given is not checked. -/
def optional {α : Type} (check : Str → Except Raised α) : Option Str → Except Raised (Option α)
  | none => .ok none
  | some s => do return some (← check s)

/-- mirrors src/utils/mina_ledger_wallet.py:102-125 -/
def parse_args (py : Python) (cl : CommandLine) : Except Raised Args := do
  match cl.operation with
  | .send_payment amount =>
    let account ← valid_account py cl.account
    let sender ← valid_address "Sender" cl.sender
    let receiver ← valid_address "Receiver" cl.receiver
    let amount ← valid_amount py amount
    let fee ← optional (valid_amount py) cl.fee
    let nonce ← optional (valid_nonce py) cl.nonce
    let valid_until ← optional (valid_valid_until py) cl.valid_until
    let memo ← optional valid_memo cl.memo
    return ⟨.send_payment amount, account, sender, receiver, cl.network, fee, nonce.map .inl,
      valid_until, memo⟩
  | .delegate =>
    let account ← valid_account py cl.account
    let sender ← valid_address "Delegator" cl.sender
    let receiver ← valid_address "Delegate" cl.receiver
    let valid_until ← optional (valid_valid_until py) cl.valid_until
    let memo ← optional valid_memo cl.memo
    -- the fee and the nonce have no type here
    return ⟨.delegate, account, sender, receiver, cl.network, cl.fee, cl.nonce.map .inr, valid_until,
      memo⟩

/-! ## The arguments of `ledger_sign_tx` -/

/-- mirrors src/utils/mina_ledger_wallet.py:853-857 -/
def tx_type_from_op : Operation → Int
  | .send_payment _ => 0x00
  | .delegate => 0x04

/-- mirrors src/utils/mina_ledger_wallet.py:859-863 -/
def network_id_from_string (network_str : Str) : Int :=
  if network_str = ofString "mainnet" ∨ ofString "mainnet-" <+: network_str then 0x01 else 0x00

theorem tx_type_byte (op : Operation) : 0 ≤ tx_type_from_op op ∧ tx_type_from_op op < 256 ^ 1 := by
  cases op <;> simp [tx_type_from_op]

theorem network_id_byte (s : Str) :
    0 ≤ network_id_from_string s ∧ network_id_from_string s < 256 ^ 1 := by
  unfold network_id_from_string
  split <;> decide

/-- The exception of a conversion. -/
def converted (value : Option Int) : Except Raised Int :=
  match value with
  | none => .error .builtin
  | some v => .ok v

/-- `int(args.nonce)`, of a number or a text. -/
def Python.int_of (py : Python) : Int ⊕ Str → Except Raised Int
  | .inl n => .ok n
  | .inr s => converted (py.int s)

/-- The amount of a payment; 0 of a delegation. -/
def Operation.amount (py : Python) : Operation → Option Int
  | .send_payment amount => py.from_currency amount
  | .delegate => some 0

def required {α : Type} (msg : String) : Option α → Except Raised α
  | none => .error (.Exception msg)
  | some a => .ok a

/-- mirrors src/utils/mina_ledger_wallet.py:1124-1180 -/
def offline (py : Python) (args : Args) : Except Raised SignTxArgs := do
  let amount ← converted (args.operation.amount py)
  let memo := args.memo.getD []
  let memo := if memo.length > MAX_MEMO_LEN then memo.take MAX_MEMO_LEN else memo
  let network := args.network.getD (ofString "mainnet")
  let fee ← converted (py.from_currency (← required "Offline mode requires --fee" args.fee))
  let nonce ← py.int_of (← required "Offline mode requires --nonce" args.nonce)
  -- none means valid forever
  let valid_until := args.valid_until.getD MAX_VALID_UNTIL
  return ⟨tx_type_from_op args.operation, args.account, args.sender, args.receiver, amount, fee,
    nonce, valid_until, memo, network_id_from_string network⟩

/-! ## What parsed arguments are -/

/-- A conversion that succeeds, between zero and a bound. -/
def InRange (value : Option Int) (max : Int) : Prop := ∃ v, value = some v ∧ 0 ≤ v ∧ v ≤ max

theorem checked_ok {msg : String} {bad : Int → Bool} {value : Option Int} {v : Int}
    (h : checked msg bad value = .ok v) : value = some v ∧ bad v = false := by
  unfold checked at h
  split at h
  · cases h
  · split at h
    · cases h
    · rename_i hbad
      obtain rfl := Except.ok.inj h
      exact ⟨rfl, Bool.not_eq_true _ ▸ hbad⟩

/-- The two-sided check. -/
theorem inRange_of_checked {msg : String} {max : Int} {value : Option Int} {v : Int}
    (h : checked msg (fun v => v < 0 ∨ v > max) value = .ok v) :
    value = some v ∧ 0 ≤ v ∧ v ≤ max := by
  obtain ⟨hv, hbad⟩ := checked_ok h
  rw [decide_eq_false_iff_not, not_or, not_lt, not_lt] at hbad
  exact ⟨hv, hbad.1, hbad.2⟩

theorem raised_bind_ok {α β : Type} {x : Except Raised α} {f : α → Except Raised β} {r : β}
    (h : (x >>= f) = .ok r) : ∃ a, x = .ok a ∧ f a = .ok r := by
  cases x with
  | error e => cases h
  | ok a => exact ⟨a, rfl, h⟩

theorem raised_ok_bind {α β : Type} (a : α) (f : α → Except Raised β) :
    ((Except.ok a : Except Raised α) >>= f) = f a := rfl

theorem optional_ok {α : Type} {check : Str → Except Raised α} {o : Option Str} {r : Option α}
    (h : optional check o = .ok r) :
    (o = none ∧ r = none) ∨ ∃ s v, o = some s ∧ check s = .ok v ∧ r = some v := by
  cases o with
  | none => exact .inl ⟨rfl, (Except.ok.inj h).symm⟩
  | some s =>
    obtain ⟨v, hv, h⟩ := raised_bind_ok h
    exact .inr ⟨s, v, rfl, hv, (Except.ok.inj h).symm⟩

/-- The arguments are those of the command line, and these checks were made. -/
structure Admitted (py : Python) (cl : CommandLine) (args : Args) : Prop where
  operation : args.operation = cl.operation
  account : 0 ≤ args.account ∧ args.account ≤ MAX_ACCOUNT_NUM
  sender : args.sender = cl.sender ∧ cl.sender.length = 55
  receiver : args.receiver = cl.receiver ∧ cl.receiver.length = 55
  network : args.network = cl.network
  amount : ∀ amount, cl.operation = .send_payment amount →
    InRange (py.from_currency amount) MAX_AMOUNT
  fee : args.fee = cl.fee
  feeRange : cl.operation ≠ .delegate → ∀ s, cl.fee = some s →
    InRange (py.from_currency s) MAX_AMOUNT
  nonce : ∀ s, cl.nonce = some s → ∃ n, args.nonce = some n ∧ py.int_of n = converted (py.int s)
  nonceRange : cl.operation ≠ .delegate → ∀ s, cl.nonce = some s → InRange (py.int s) MAX_NONCE
  valid_until : (cl.valid_until = none ∧ args.valid_until = none) ∨
    ∃ s v, cl.valid_until = some s ∧ py.int s = some v ∧ v ≤ MAX_VALID_UNTIL ∧
      args.valid_until = some v
  memo : args.memo = cl.memo ∧ ∀ m, cl.memo = some m → m.length ≤ 32

section Parsed

variable {py : Python} {cl : CommandLine} {args : Args}

theorem valid_address_ok {id : String} {address r : Str} (h : valid_address id address = .ok r) :
    r = address ∧ address.length = 55 := by
  unfold valid_address at h
  split at h
  · cases h
  · rename_i hlen
    exact ⟨(Except.ok.inj h).symm, not_not.mp hlen⟩

theorem valid_amount_ok {amount r : Str} (h : valid_amount py amount = .ok r) :
    r = amount ∧ InRange (py.from_currency amount) MAX_AMOUNT := by
  obtain ⟨v, hv, h⟩ := raised_bind_ok h
  exact ⟨(Except.ok.inj h).symm, v, inRange_of_checked hv⟩

theorem valid_memo_ok {memo r : Str} (h : valid_memo memo = .ok r) :
    r = memo ∧ memo.length ≤ 32 := by
  unfold valid_memo at h
  split at h
  · cases h
  · rename_i hlen
    exact ⟨(Except.ok.inj h).symm, not_lt.mp hlen⟩

theorem optional_memo_ok {o r : Option Str} (h : optional valid_memo o = .ok r) :
    r = o ∧ ∀ m, o = some m → m.length ≤ 32 := by
  rcases optional_ok h with ⟨rfl, rfl⟩ | ⟨m, m', rfl, hm, rfl⟩
  · exact ⟨rfl, nofun⟩
  · obtain ⟨rfl, hlen⟩ := valid_memo_ok hm
    exact ⟨rfl, fun m' hm' => Option.some.inj hm' ▸ hlen⟩

theorem optional_valid_until_ok {o : Option Str} {r : Option Int}
    (h : optional (valid_valid_until py) o = .ok r) :
    (o = none ∧ r = none) ∨
    ∃ s v, o = some s ∧ py.int s = some v ∧ v ≤ MAX_VALID_UNTIL ∧ r = some v := by
  rcases optional_ok h with h | ⟨s, v, rfl, hv, rfl⟩
  · exact .inl h
  · obtain ⟨hint, hbad⟩ := checked_ok hv
    exact .inr ⟨s, v, rfl, hint, not_lt.mp (of_decide_eq_false hbad), rfl⟩

theorem admitted_of_parse_args (h : parse_args py cl = .ok args) : Admitted py cl args := by
  unfold parse_args at h
  split at h
  · rename_i amount hop
    obtain ⟨account, haccount, h⟩ := raised_bind_ok h
    obtain ⟨sender, hsender, h⟩ := raised_bind_ok h
    obtain ⟨receiver, hreceiver, h⟩ := raised_bind_ok h
    obtain ⟨amount', hamount, h⟩ := raised_bind_ok h
    obtain ⟨fee, hfee, h⟩ := raised_bind_ok h
    obtain ⟨nonce, hnonce, h⟩ := raised_bind_ok h
    obtain ⟨valid_until, hvalid, h⟩ := raised_bind_ok h
    obtain ⟨memo, hmemo, h⟩ := raised_bind_ok h
    obtain rfl := Except.ok.inj h
    obtain ⟨rfl, hamount⟩ := valid_amount_ok hamount
    have hfee : fee = cl.fee ∧ ∀ s, cl.fee = some s → InRange (py.from_currency s) MAX_AMOUNT := by
      rcases optional_ok hfee with ⟨hnone, rfl⟩ | ⟨s, s', hs, hs', rfl⟩
      · exact ⟨hnone.symm, fun s hs => by rw [hnone] at hs; cases hs⟩
      · obtain ⟨rfl, hrange⟩ := valid_amount_ok hs'
        refine ⟨hs.symm, fun s hs'' => ?_⟩
        obtain rfl := Option.some.inj (hs.symm.trans hs'')
        exact hrange
    have hnonce : ∀ s, cl.nonce = some s → ∃ n, nonce = some n ∧ py.int s = some n ∧
        0 ≤ n ∧ n ≤ MAX_NONCE := by
      intro s hs
      rcases optional_ok hnonce with ⟨hnone, -⟩ | ⟨s', n, hs', hn, rfl⟩
      · rw [hnone] at hs; cases hs
      · obtain rfl := Option.some.inj (hs.symm.trans hs')
        exact ⟨n, rfl, inRange_of_checked hn⟩
    exact {
      operation := hop.symm
      account := (inRange_of_checked haccount).2
      sender := valid_address_ok hsender
      receiver := valid_address_ok hreceiver
      network := rfl
      amount := fun a ha => by
        obtain rfl : amount' = a := Operation.send_payment.inj (hop.symm.trans ha)
        exact hamount
      fee := hfee.1
      feeRange := fun _ => hfee.2
      nonce := fun s hs => by
        obtain ⟨n, rfl, hn, -⟩ := hnonce s hs
        exact ⟨.inl n, rfl, by rw [hn]; rfl⟩
      nonceRange := fun _ s hs => by
        obtain ⟨n, -, hn⟩ := hnonce s hs
        exact ⟨n, hn⟩
      valid_until := optional_valid_until_ok hvalid
      memo := optional_memo_ok hmemo }
  · rename_i hop
    obtain ⟨account, haccount, h⟩ := raised_bind_ok h
    obtain ⟨sender, hsender, h⟩ := raised_bind_ok h
    obtain ⟨receiver, hreceiver, h⟩ := raised_bind_ok h
    obtain ⟨valid_until, hvalid, h⟩ := raised_bind_ok h
    obtain ⟨memo, hmemo, h⟩ := raised_bind_ok h
    obtain rfl := Except.ok.inj h
    exact {
      operation := hop.symm
      account := (inRange_of_checked haccount).2
      sender := valid_address_ok hsender
      receiver := valid_address_ok hreceiver
      network := rfl
      amount := fun a ha => by rw [hop] at ha; cases ha
      fee := rfl
      feeRange := fun hne => absurd hop hne
      nonce := fun s hs => ⟨.inr s, by rw [hs]; rfl, rfl⟩
      nonceRange := fun hne => absurd hop hne
      valid_until := optional_valid_until_ok hvalid
      memo := optional_memo_ok hmemo }

/-- The arguments of `ledger_sign_tx` once everything is converted. -/
def signTxArgs (cl : CommandLine) (args : Args) (amount fee nonce : Int) : SignTxArgs :=
  ⟨tx_type_from_op cl.operation, args.account, cl.sender, cl.receiver, amount, fee, nonce,
    args.valid_until.getD MAX_VALID_UNTIL, cl.memo.getD [],
    network_id_from_string (cl.network.getD (ofString "mainnet"))⟩

theorem converted_ok {value : Option Int} {v : Int} : converted value = .ok v ↔ value = some v := by
  cases value with
  | none => exact ⟨nofun, nofun⟩
  | some w => exact ⟨fun h => congrArg some (Except.ok.inj h), fun h => by rw [h]; rfl⟩

/-- With a fee and a nonce, what is left is three conversions. -/
theorem offline_iff (h : Admitted py cl args) {fee nonce : Str} (hfee : cl.fee = some fee)
    (hnonce : cl.nonce = some nonce) {a : SignTxArgs} :
    offline py args = .ok a ↔ ∃ amount f n, cl.operation.amount py = some amount ∧
      py.from_currency fee = some f ∧ py.int nonce = some n ∧ a = signTxArgs cl args amount f n := by
  obtain ⟨m, hm, hint⟩ := h.nonce nonce hnonce
  have hmemo : (if (cl.memo.getD []).length > MAX_MEMO_LEN then
      (cl.memo.getD []).take MAX_MEMO_LEN else cl.memo.getD []) = cl.memo.getD [] := by
    refine if_neg (not_lt.mpr ?_)
    cases hcl : cl.memo with
    | none => exact Nat.zero_le _
    | some memo => exact h.memo.2 memo hcl
  rw [offline, h.operation, h.memo.1, h.network, h.fee, hfee, hm, h.sender.1, h.receiver.1]
  simp only [hmemo, required, raised_ok_bind, hint]
  constructor
  · intro hrun
    obtain ⟨amount, h1, hrun⟩ := raised_bind_ok hrun
    obtain ⟨f, h2, hrun⟩ := raised_bind_ok hrun
    obtain ⟨n, h3, hrun⟩ := raised_bind_ok hrun
    exact ⟨amount, f, n, converted_ok.mp h1, converted_ok.mp h2, converted_ok.mp h3,
      (Except.ok.inj hrun).symm⟩
  · rintro ⟨amount, f, n, h1, h2, h3, rfl⟩
    rw [h1, h2, h3]
    rfl

end Parsed

end MinaLedger
