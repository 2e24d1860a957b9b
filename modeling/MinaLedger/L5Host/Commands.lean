import MinaLedger.L5Host.Address
import MinaLedger.L5Host.Offline

/-!
# All commands of the wallet

The main block of src/utils/mina_ledger_wallet.py: the command line is parsed and one of
five commands runs. `get-balance` only asks the server, and `test-transaction` has the
device sign a payment of nothing.

Results:
* `get_balance_spec`: the balances that are printed add up.
* `test_transaction_signed`: the signature of a test transaction verifies.
* `main_follows_script`: what a run does besides asking the server is the script of its
  command, up to where it ended, and it went on only where the user said yes.
-/
namespace MinaLedger
open Lib.Text Lib.Dialogue

/-! ## The balance -/

/-- mirrors src/utils/mina_ledger_wallet.py:923-930 -/
def balanceLines (py : Runtime) (address : Str) (balance locked_balance total_balance : Int) :
    Except Stop (List Str) := do
  if locked_balance ≠ -1 ∧ locked_balance ≠ 0 then
    return [ofString "Address:       " ++ address,
      ofString "Total balance: " ++ py.format (← to_currency py total_balance),
      ofString "Locked:        " ++ py.format (← to_currency py locked_balance),
      ofString "Spendable:     " ++ py.format (← to_currency py balance)]
  else
    return [ofString "Address: " ++ address,
      ofString "Balance: " ++ py.format (← to_currency py balance)]

/-- mirrors src/utils/mina_ledger_wallet.py:906-931 -/
def get_balance (py : Runtime) (address : Str) (network : Option Str) : Session (List Str) := do
  let NETWORK := overrideNetwork network (← rosetta_network_request)
  let (balance, locked_balance, total_balance) ← rosetta_balance_request py NETWORK address
  call (balanceLines py address balance locked_balance total_balance)

/-! ## The test transaction -/

/-- A payment of nothing to oneself; it has the type of a payment.
mirrors src/utils/mina_ledger_wallet.py:1266-1275 -/
def testArgs (account : Int) (address memo NETWORK : Str) : SignTxArgs where
  tx_type := 0x00
  sender_account := account
  sender_address := address
  receiver := address
  amount := 0
  fee := 0
  nonce := 0
  valid_until := 0
  memo := memo
  network_id := network_id_from_string NETWORK

/-- mirrors src/utils/mina_ledger_wallet.py:1251-1256 -/
def testLines (account : Int) (address NETWORK : Str) : List Str :=
  let network := if network_id_from_string NETWORK = 0 then [ofString "    Network:     testnet"]
    else []
  ofString "Generate test transaction:" :: network ++
    [accountLine account, ofString "    Address:     " ++ address]

/-- mirrors src/utils/mina_ledger_wallet.py:1279-1300 -/
def test_transaction_json (address memo signature : Str) : Json :=
  object [("signature", .str signature),
    ("payment", object [("to", .str address), ("from", .str address), ("fee", text "0"),
      ("token", text "1"), ("nonce", text "0"), ("memo", .str memo), ("amount", text "0"),
      ("valid_until", text "0")]),
    ("stake_delegation", .null), ("create_token", .null), ("create_token_account", .null),
    ("mint_tokens", .null)]

/-- Only in interactive mode. -/
def confirmIf (py : Runtime) (interactive : Bool) (shown : List Str) : Session Unit :=
  if interactive then confirm py shown else return ()

/-- `entropy` is `os.urandom(16)`. mirrors src/utils/mina_ledger_wallet.py:1237-1305 -/
def test_transaction (py : Runtime) (entropy : List UInt8) (account : Int) (address : Str)
    (interactive : Bool) (network : Option Str) : Session Json := do
  let memo := hexStr entropy
  let NETWORK := network.getD (ofString "debug")
  call (demand (memo.length = 32) "Failed to get memo entropy")
  confirmIf py interactive (testLines account address NETWORK)
  let resp ← (testArgs account address memo NETWORK).exchange
  return test_transaction_json address memo (hexStr resp)

/-! ## The command line -/

/-- The texts of a command. -/
inductive Command where
  | get_address (account_number : Str)
  | get_balance (address : Str) (network : Option Str)
  | transaction (cl : CommandLine) (offline : Bool)
  | test_transaction (account_number account_address : Str) (interactive : Bool)
      (network : Option Str)

/-- What a command prints at its end. -/
inductive Output where
  | address (address : Str)
  | balance (lines : List Str)
  | hash (hash : Json)
  | transaction (transaction : Json)

/-- mirrors src/utils/mina_ledger_wallet.py:90-131, 886-1305 -/
def main (py : Runtime) (entropy : List UInt8) : Command → Session Output
  | .get_address account_number => do
    let account ← call (raised (valid_account py.toPython account_number))
    return .address (← get_address py account)
  | .get_balance address network => do
    let address ← call (raised (valid_address "Address" address))
    return .balance (← get_balance py address network)
  | .transaction cl false => do
    let args ← call (raised (parse_args py.toPython cl))
    return .hash (← online py args)
  | .transaction cl true => do
    let args ← call (raised (parse_args py.toPython cl))
    return .transaction (← offline_session py args)
  | .test_transaction account_number account_address interactive network => do
    let account ← call (raised (valid_account py.toPython account_number))
    let address ← call (raised (valid_address "Account" account_address))
    return .transaction (← test_transaction py entropy account address interactive network)

/-! ## What the two commands do -/

section Specs

variable {py : Runtime} {t : Transcript}

/-- Only the server is asked, and what is printed adds up. -/
theorem get_balance_spec {address : Str} {network : Option Str} :
    wp (fun _ q => q.asksServer = true) (fun _ lines => ∃ balance locked_balance total_balance,
      balanceLines py address balance locked_balance total_balance = .ok lines ∧
      (total_balance = -1 ∨ total_balance = balance + locked_balance))
      (get_balance py address network) t := by
  refine wp_bind.mpr (wp_rosetta_request rfl fun _ NETWORK _ => ?_)
  refine wp_bind.mpr (wp_rosetta_request rfl fun _ balances hbalances => ?_)
  obtain ⟨balance, locked_balance, total_balance⟩ := balances
  exact wp_call.mpr fun lines hlines =>
    ⟨balance, locked_balance, total_balance, hlines, (balance_response_total hbalances).2⟩

/-- The device is asked once, in interactive mode after the user said yes. -/
def TestSafe (py : Runtime) (interactive : Bool) (lines : List Str) (a : SignTxArgs)
    (t : Transcript) : Question → Prop
  | .post _ _ => False
  | .input shown => interactive = true ∧ t = [] ∧ shown = lines
  | .exchange apdu => a.ledger_sign_tx = some apdu ∧
    ((interactive = false ∧ t = []) ∨ (interactive = true ∧ ∃ answer,
      py.lower_strip answer = ofString "y" ∧ t = [⟨.input lines, answer⟩]))

theorem test_transaction_spec {entropy : List UInt8} {account : Int} {address : Str}
    {interactive : Bool} {network : Option Str} :
    let NETWORK := network.getD (ofString "debug")
    let a := testArgs account address (hexStr entropy) NETWORK
    wp (TestSafe py interactive (testLines account address NETWORK) a)
      (fun t v => ∃ apdu resp, a.memo.length = 32 ∧ a.ledger_sign_tx = some apdu ∧
        ⟨.exchange apdu, some resp⟩ ∈ t ∧
        v = test_transaction_json address (hexStr entropy) (hexStr resp))
      (test_transaction py entropy account address interactive network) [] := by
  intro NETWORK a
  refine wp_bind.mpr (wp_call.mpr fun _ hmemo => ?_)
  have hsafe : wp (TestSafe py interactive (testLines account address NETWORK) a)
      (fun t _ => (interactive = false ∧ t = []) ∨ (interactive = true ∧ ∃ answer,
        py.lower_strip answer = ofString "y" ∧
        t = [⟨.input (testLines account address NETWORK), answer⟩]))
      (confirmIf py interactive (testLines account address NETWORK)) [] := by
    cases interactive with
    | false => exact wp_pure (.inl ⟨rfl, rfl⟩)
    | true => exact wp_confirm ⟨rfl, rfl, rfl⟩ fun answer hyes => .inr ⟨rfl, answer, hyes, rfl⟩
  refine wp_seq hsafe fun t _ ht => wp_bind.mpr ?_
  unfold SignTxArgs.exchange
  split
  · exact wp_raise
  · rename_i apdu hapdu
    refine wp_bind.mpr (wp_ask ⟨hapdu, ht⟩ fun resp => wp_call.mpr fun bytes hbytes => ?_)
    cases resp with
    | none => cases hbytes
    | some resp =>
      obtain rfl := Except.ok.inj hbytes
      exact wp_pure ⟨apdu, resp, demand_ok hmemo, hapdu, by simp, rfl⟩

end Specs

/-! ## What a run does -/

/-- What a run does besides asking the server. -/
inductive Act where
  | user
  | device
  | submission
  deriving DecidableEq

def Question.act : Question → Act
  | .post _ _ => .submission
  | .input _ => .user
  | .exchange _ => .device

/-- All a command may do, in this order. -/
def Command.script : Command → List Act
  | .get_address _ => [.user, .device]
  | .get_balance _ _ => []
  | .transaction _ false => [.user, .device, .user, .submission]
  | .transaction _ true => [.user, .device]
  | .test_transaction _ _ true _ => [.user, .device]
  | .test_transaction _ _ false _ => [.device]

/-- The user said yes wherever asked. -/
def Consented (py : Runtime) (t : Transcript) : Prop :=
  ∀ shown answer, ⟨.input shown, answer⟩ ∈ t → py.lower_strip answer = ofString "y"

/-- The transcript follows a script, up to where it ends. -/
structure Follows (py : Runtime) (script : List Act) (t : Transcript) : Prop where
  script : (acts t).map (fun x => x.1.act) <+: script
  consented : Consented py (acts t).dropLast

/-- The question is one to the server, or the next act after consent. -/
def InScript (py : Runtime) (script : List Act) (t : Transcript) (q : Question) : Prop :=
  q.asksServer = true ∨
    (Consented py (acts t) ∧ (acts t).map (fun x => x.1.act) ++ [q.act] <+: script)

section Follows

variable {py : Runtime} {script : List Act} {t : Transcript} {q : Question}

theorem follows_nil : Follows py script [] := ⟨List.nil_prefix, fun _ _ h => by cases h⟩

/-- One question more. -/
theorem Follows.snoc (h : Follows py script t) (hq : InScript py script t q) (a : q.Answer) :
    Follows py script (t ++ [⟨q, a⟩]) := by
  cases hserver : q.asksServer with
  | true =>
    have hacts : acts (t ++ [⟨q, a⟩]) = acts t := acts_asked hserver
    exact ⟨by rw [hacts]; exact h.script, by rw [hacts]; exact h.consented⟩
  | false =>
    have hacts : acts (t ++ [⟨q, a⟩]) = acts t ++ [⟨q, a⟩] := acts_done hserver
    rcases hq with hread | ⟨hyes, hnext⟩
    · rw [hserver] at hread
      cases hread
    · refine ⟨?_, ?_⟩
      · rw [hacts, List.map_append]
        exact hnext
      · rw [hacts, List.dropLast_concat]
        exact hyes

theorem consented_nil : Consented py [] := fun _ _ h => by cases h

theorem consented_input {shown : List Str} {answer : Str}
    (hyes : py.lower_strip answer = ofString "y") : Consented py [⟨.input shown, answer⟩] := by
  intro shown' answer' hmem
  obtain ⟨-, hans⟩ := Sigma.mk.inj (List.mem_singleton.mp hmem)
  rw [eq_of_heq hans]
  exact hyes

theorem consented_append {t t' : Transcript} (h : Consented py t) (h' : Consented py t') :
    Consented py (t ++ t') := by
  intro shown answer hmem
  rcases List.mem_append.mp hmem with hmem | hmem
  · exact h shown answer hmem
  · exact h' shown answer hmem

theorem consented_exchange (apdu : List UInt8) (resp : Option (List UInt8)) :
    Consented py [⟨.exchange apdu, resp⟩] := by
  intro shown answer hmem
  cases List.mem_singleton.mp hmem

/-- The questions of `online`. -/
theorem inScript_of_safe {args : Args} (h : Safe py args t q) :
    InScript py [.user, .device, .user, .submission] t q := by
  cases q with
  | post path body =>
    by_cases hpath : path = "/construction/submit"
    · obtain ⟨s, -, hacts, -⟩ := h hpath
      refine .inr ⟨?_, ?_⟩
      · rw [hacts]
        exact consented_append (consented_input s.yes)
          (consented_append (consented_exchange _ _) (consented_input s.yesAgain))
      · rw [hacts]
        exact List.prefix_refl _
    · exact .inl (bne_iff_ne.mpr hpath)
  | input shown =>
    rcases h with hacts | ⟨s, resp, hacts⟩
    · rw [InScript, hacts]
      exact .inr ⟨consented_nil, by show [Act.user] <+: _; decide⟩
    · rw [InScript, hacts]
      exact .inr ⟨consented_append (consented_input s.yes) (consented_exchange _ _), by
        show [Act.user, .device, .user] <+: _
        decide⟩
  | exchange apdu =>
    obtain ⟨s, -, hacts, -⟩ := h
    rw [InScript, hacts]
    exact .inr ⟨consented_input s.yes, by show [Act.user, .device] <+: _; decide⟩

/-- The only question before was the user's, who said yes. -/
theorem inScript_of_yes {shown : List Str} {answer : Str} {apdu : List UInt8}
    (hyes : py.lower_strip answer = ofString "y") (ht : t = [⟨.input shown, answer⟩]) :
    InScript py [.user, .device] t (.exchange apdu) := by
  subst ht
  exact .inr ⟨consented_input hyes, List.prefix_refl _⟩

theorem inScript_of_first {act : Act} {rest : List Act} (ht : t = []) (hq : q.act = act) :
    InScript py (act :: rest) t q := by
  subst ht hq
  exact .inr ⟨consented_nil, List.prefix_append [q.act] rest⟩

theorem inScript_of_addressSafe {account : Int} (h : AddressSafe py account t q) :
    InScript py [.user, .device] t q := by
  cases q with
  | post path body => exact h.elim
  | input shown => exact inScript_of_first h.1 rfl
  | exchange apdu =>
    obtain ⟨-, answer, hyes, ht⟩ := h
    exact inScript_of_yes hyes ht

theorem inScript_of_offlineSafe {args : Args} (h : OfflineSafe py args t q) :
    InScript py [.user, .device] t q := by
  cases q with
  | post path body => exact h.elim
  | input shown => exact inScript_of_first h rfl
  | exchange apdu =>
    obtain ⟨a, lines, answer, -, -, hyes, -, ht⟩ := h
    exact inScript_of_yes hyes ht

theorem inScript_of_testSafe {interactive : Bool} {lines : List Str} {a : SignTxArgs}
    {number address : Str} {network : Option Str} (h : TestSafe py interactive lines a t q) :
    InScript py (Command.test_transaction number address interactive network).script t q := by
  cases q with
  | post path body => exact h.elim
  | input shown =>
    obtain ⟨rfl, ht, -⟩ := h
    exact inScript_of_first ht rfl
  | exchange apdu =>
    rcases h with ⟨-, ⟨rfl, ht⟩ | ⟨rfl, answer, hyes, ht⟩⟩
    · exact inScript_of_first ht rfl
    · exact inScript_of_yes hyes ht

end Follows

/-! ## The program -/

section Main

variable {py : Runtime} {entropy : List UInt8} {c : Command}

theorem main_spec :
    wp (InScript py c.script) (fun _ _ => True) (main py entropy c) [] := by
  cases c with
  | get_address number =>
    exact wp_bind.mpr (wp_call.mpr fun account _ => wp_seq
      (wp_safe_mono (fun _ _ => inScript_of_addressSafe) get_address_spec) fun _ _ _ => trivial)
  | get_balance address network =>
    exact wp_bind.mpr (wp_call.mpr fun address _ => wp_seq
      (wp_safe_mono (fun _ _ => .inl) get_balance_spec) fun _ _ _ => trivial)
  | transaction cl offline =>
    cases offline with
    | false => exact wp_bind.mpr (wp_call.mpr fun args _ => wp_seq
        (wp_safe_mono (fun _ _ => inScript_of_safe) online_spec) fun _ _ _ => trivial)
    | true => exact wp_bind.mpr (wp_call.mpr fun args _ => wp_seq
        (wp_safe_mono (fun _ _ => inScript_of_offlineSafe) offline_spec) fun _ _ _ => trivial)
  | test_transaction number address interactive network =>
    exact wp_bind.mpr (wp_call.mpr fun account _ => wp_bind.mpr (wp_call.mpr fun address' _ =>
      wp_seq (wp_safe_mono (fun _ _ => inScript_of_testSafe) test_transaction_spec)
        fun _ _ _ => trivial))

end Main

/-- Whatever the server, the user and the device answer, and wherever a run ends: besides
asking the server it did what the script of its command says, from the beginning on and
nothing twice, and it went on after a question only where the user said yes. So
`get-balance` asks neither the user nor the device, only a session with a server submits,
and at most once and after two consents, and no command asks the device twice. -/
theorem main_follows_script {py : Runtime} {entropy : List UInt8} {c : Command} {t : Transcript}
    {rest : Session Output} (h : Asks (main py entropy c) t rest) :
    (acts t).map (fun x => x.1.act) <+: c.script ∧ Consented py (acts t).dropLast := by
  have hfollows : Follows py c.script t := invariant_of_asks main_spec follows_nil
    (fun t q a hf hq => hf.snoc hq a) h
  exact ⟨hfollows.script, hfollows.consented⟩

theorem zero_notMem_hexStr (l : List UInt8) : 0 ∉ hexStr l := by
  intro hmem
  obtain ⟨c, hc, hzero⟩ := List.mem_map.mp hmem
  have hval : c.toNat % 0x110000 = 0 := congrArg Fin.val hzero
  have hdigit : ∀ d < 16, (Nat.digitChar d).toNat % 0x110000 ≠ 0 := by decide
  rcases signOrDigit_hexText c hc with rfl | ⟨d, hd, rfl⟩
  · exact absurd hval (by decide)
  · exact hdigit d hd hval

theorem isAscii_hexStr (l : List UInt8) : IsAscii (hexStr l) := by
  intro code hmem
  obtain ⟨c, hc, rfl⟩ := List.mem_map.mp hmem
  have hdigit : ∀ d < 16, (Nat.digitChar d).toNat % 0x110000 < 128 := by decide
  show c.toNat % 0x110000 < 128
  rcases signOrDigit_hexText c hc with rfl | ⟨d, hd, rfl⟩
  · decide
  · exact hdigit d hd

theorem length_of_valid_address {id : String} {text address : Str}
    (h : valid_address id text = .ok address) : address.length = 55 := by
  unfold valid_address at h
  split at h
  · cases h
  · rename_i hlen
    obtain rfl := Except.ok.inj h
    exact not_not.mp hlen

/-- What `test-transaction` prints with a genuine device: a payment of nothing and a signature
that verifies for it. -/
theorem test_transaction_signed {env : Env} (henv : env.Sound)
    (hderive : ∀ path, ∃ bytes, env.derive path = .ok bytes) {py : Runtime} {entropy : List UInt8}
    {account : Int} {account_address address : Str}
    (haddress : valid_address "Account" account_address = .ok address) {interactive : Bool}
    {network : Option Str} {t : Transcript} {v : Json}
    (h : Asks (test_transaction py entropy account address interactive network) t (.done (.ok v)))
    (hdevice : ∀ apdu data, ⟨.exchange apdu, some data⟩ ∈ t → Served env apdu data) :
    ∃ kp tx sig,
      (testArgs account address (hexStr entropy) (network.getD (ofString "debug"))).Signed env kp tx
        sig ∧
      v = test_transaction_json address (hexStr entropy) (hexStr sig.bytes) := by
  have hlen := length_of_valid_address haddress
  obtain ⟨apdu, resp, hmemo, hapdu, hmem, rfl⟩ := post_of_asks test_transaction_spec h
  obtain ⟨kp, tx, sig, hsigned, rfl⟩ := SignTxArgs.signed_of_served henv hderive hlen hlen
    ⟨le_of_eq hmemo, zero_notMem_hexStr entropy⟩ (.inl rfl) (network_id_cases _) hapdu
    (hdevice _ _ hmem)
  exact ⟨kp, tx, sig, hsigned, rfl⟩

/-- A run without questions. -/
theorem asks_test_transaction {py : Runtime} {entropy : List UInt8} (hentropy : entropy.length = 16)
    {account : Int} {address : Str} {network : Option Str} {apdu : List UInt8}
    (hapdu : (testArgs account address (hexStr entropy)
      (network.getD (ofString "debug"))).ledger_sign_tx = some apdu) (resp : List UInt8) :
    Asks (test_transaction py entropy account address false network) [⟨.exchange apdu, some resp⟩]
      (.done (.ok (test_transaction_json address (hexStr entropy) (hexStr resp)))) := by
  have hmemo : (hexStr entropy).length = 32 := by rw [length_hexStr, hentropy]
  exact asks_call (demand_of hmemo) (asks_seq (asks_exchange hapdu resp) (.nil _))

/-- A test transaction from the address of the device's key. -/
theorem owned_testArgs {entropy : List UInt8} (hentropy : entropy.length = 16) (NETWORK : Str) :
    (testArgs 0 unitSender (hexStr entropy) NETWORK).Owned unitEnv 0 unitKeypair where
  ordinary := {
    sender_account := by show 0 ≤ (0 : Int) ∧ (0 : Int) < 2 ^ 32; decide
    sender_address := unitSender_text
    receiver := unitSender_text
    amount := by show 0 ≤ (0 : Int) ∧ (0 : Int) < 2 ^ 64; decide
    fee := by show 0 ≤ (0 : Int) ∧ (0 : Int) < 2 ^ 64; decide
    nonce := by show 0 ≤ (0 : Int) ∧ (0 : Int) < 2 ^ 32; decide
    valid_until := by show 0 ≤ (0 : Int) ∧ (0 : Int) < 2 ^ 32; decide
    memo := ⟨isAscii_hexStr entropy, by show (hexStr entropy).length ≤ 32; rw [length_hexStr]; omega,
      zero_notMem_hexStr entropy⟩
    tx_type := .inl rfl
    network_id := network_id_cases NETWORK }
  total := show (0 : Int) + 0 < 2 ^ 64 by norm_num
  account := rfl
  keypair := unitEnv_keypair 0
  sender := unitSender_owned
  receiver st :=
    (read_addressText zeroHash _ _ unitSender_owned.symm st (⟨ofNum 0, false⟩ : Compressed)).1

/-- Sixteen zeros, and no questions. -/
theorem test_transaction_signed_unit : ∃ (py : Runtime) (entropy : List UInt8) (t : Transcript)
    (v : Json) (kp : Keypair) (tx : tx_t) (sig : Signature),
    Asks (test_transaction py entropy 0 unitSender false none) t (.done (.ok v)) ∧
    (testArgs 0 unitSender (hexStr entropy) (Option.getD none (ofString "debug"))).Signed unitEnv
      kp tx sig ∧
    v = test_transaction_json unitSender (hexStr entropy) (hexStr sig.bytes) := by
  obtain ⟨entropy, hentropy⟩ : ∃ l : List UInt8, l.length = 16 :=
    ⟨List.replicate 16 0, List.length_replicate⟩
  have howned := owned_testArgs hentropy (Option.getD none (ofString "debug"))
  obtain ⟨sig, hserved⟩ := howned.served_data unitEnv_sound fun _ => ⟨ofNum 1, rfl⟩
  have hlen := unitSender_text.2
  have haddress : valid_address "Account" unitSender = .ok unitSender := if_neg (by
    rw [hlen]; decide)
  have hapdu := SignTxArgs.ledger_sign_tx_eq hlen hlen howned.ordinary.fits
  have hrun : Asks (test_transaction (smallRuntime unitSender []) entropy 0 unitSender false none)
      _ _ := asks_test_transaction hentropy hapdu sig.bytes
  obtain ⟨kp, tx, sig', hsigned, hv⟩ := test_transaction_signed unitEnv_sound
    (fun _ => ⟨ofNum 1, rfl⟩) haddress hrun fun apdu data hmem => by
      obtain ⟨hq, hdata⟩ := Sigma.mk.inj (List.mem_singleton.mp hmem)
      obtain rfl := Question.exchange.inj hq
      obtain rfl := Option.some.inj (eq_of_heq hdata)
      exact hserved
  exact ⟨_, _, _, _, kp, tx, sig', hrun, hsigned, hv⟩

/-- A question, the device and no more: the small payment offline. -/
theorem main_follows_script_small : ∃ py t v,
    Asks (main py [] (.transaction (offlineLine smallSender) true)) t (.done (.ok v)) ∧
    (acts t).map (fun x => x.1.act) <+: [.user, .device] ∧ Consented py (acts t).dropLast := by
  let sig : Signature := ⟨ofNum 0, ofNum 0⟩
  obtain ⟨v, lines, hrun⟩ := asks_offline_small smallSender_text.1 smallSender_text.2 sig
  have hmain : Asks (main (smallRuntime smallSender (hexStr sig.bytes)) []
      (.transaction (offlineLine smallSender) true)) _ (.done (.ok (.transaction v))) :=
    asks_call (congrArg raised (parse_offlineLine smallSender_text.2 _)) (asks_seq hrun (.nil _))
  exact ⟨_, _, _, hmain, main_follows_script hmain⟩

end MinaLedger
