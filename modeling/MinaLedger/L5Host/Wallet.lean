import MinaLedger.Lib.Text
import MinaLedger.L4App.SignTransaction
import Mathlib.Algebra.BigOperators.Group.List.Lemmas

/-!
# The sign request of the wallet

`ledger_sign_tx` of src/utils/mina_ledger_wallet.py writes ten fields in
hexadecimal and puts `e0030000` and the number of bytes in front. Python's
integers have no width and its formats only a minimum one.

Results:
* `apduMessage_eq`, `apduMessage_iff`: the text is a request of 172 bytes exactly
  when every number fits its field and every text is ASCII (`Fits`).
* `wallet_device_agree`: `parse_tx` reads back what the wallet wrote.
-/
namespace MinaLedger
open Lib.Radix Lib.Text

/-- mirrors src/utils/mina_ledger_wallet.py:19-29 -/
def MAX_MEMO_LEN : Nat := 32
def ADDRESS_LEN : Nat := 55

/-- The arguments of `ledger_sign_tx`. -/
structure SignTxArgs where
  tx_type : Int
  sender_account : Int
  sender_address : Str
  receiver : Str
  amount : Int
  fee : Int
  nonce : Int
  valid_until : Int
  memo : Str
  network_id : Int

/-- `memo.ljust(MAX_MEMO_LEN, '\x00')[:MAX_MEMO_LEN]` -/
def padMemo (memo : Str) : Str :=
  (memo ++ List.replicate (MAX_MEMO_LEN - memo.length) 0).take MAX_MEMO_LEN

namespace SignTxArgs

/-- The ten texts, in the order of the request; `none` is an exception of `encode()`.
mirrors src/utils/mina_ledger_wallet.py:757-766 -/
def fields (a : SignTxArgs) : Option (List (List Char)) := do
  let sender_bip44_account := formatHex 8 a.sender_account
  let sender_address := hexText (← utf8 a.sender_address)
  let receiver := hexText (← utf8 a.receiver)
  let amount := formatHex 16 a.amount
  let fee := formatHex 16 a.fee
  let nonce := formatHex 8 a.nonce
  let valid_until := formatHex 8 a.valid_until
  let memo := hexText (← utf8 (padMemo a.memo))
  let tag := formatHex 2 a.tx_type
  let network_id := formatHex 2 a.network_id
  return [sender_bip44_account, sender_address, receiver, amount, fee, nonce, valid_until, memo,
    tag, network_id]

/-- mirrors src/utils/mina_ledger_wallet.py:768-794 -/
def apduMessage (a : SignTxArgs) : Option (List Char) := do
  let fields ← a.fields
  let total_len := (fields.map List.length).sum
  return "e0030000".toList ++ formatHex 2 ((total_len / 2 : Nat) : Int) ++ fields.flatten

/-- The request that goes to the device. mirrors src/utils/mina_ledger_wallet.py:756-800 -/
def ledger_sign_tx (a : SignTxArgs) : Option (List UInt8) := do fromHex (← a.apduMessage)

/-! ## When it is a request -/

/-- The text of a request: two digits a byte, and a length byte that is the number of
data bytes, 172. -/
def WellFormed (msg : List Char) : Prop :=
  ∃ data : List UInt8, data.length = 172 ∧ msg = hexText ([0xe0, 0x03, 0x00, 0x00, 172] ++ data)

/-- Every number fits its field and every character is one byte. -/
structure Fits (a : SignTxArgs) : Prop where
  sender_account : 0 ≤ a.sender_account ∧ a.sender_account < 256 ^ 4
  sender_address : IsAscii a.sender_address
  receiver : IsAscii a.receiver
  amount : 0 ≤ a.amount ∧ a.amount < 256 ^ 8
  fee : 0 ≤ a.fee ∧ a.fee < 256 ^ 8
  nonce : 0 ≤ a.nonce ∧ a.nonce < 256 ^ 4
  valid_until : 0 ≤ a.valid_until ∧ a.valid_until < 256 ^ 4
  memo : IsAscii (padMemo a.memo)
  tx_type : 0 ≤ a.tx_type ∧ a.tx_type < 256 ^ 1
  network_id : 0 ≤ a.network_id ∧ a.network_id < 256 ^ 1

/-- The bytes of the ten fields. -/
def dataFields (a : SignTxArgs) : List (List UInt8) :=
  [beBytes 4 a.sender_account.toNat, asciiBytes a.sender_address, asciiBytes a.receiver,
    beBytes 8 a.amount.toNat, beBytes 8 a.fee.toNat, beBytes 4 a.nonce.toNat,
    beBytes 4 a.valid_until.toNat, asciiBytes (padMemo a.memo), beBytes 1 a.tx_type.toNat,
    beBytes 1 a.network_id.toNat]

def data (a : SignTxArgs) : List UInt8 := a.dataFields.flatten

theorem length_padMemo (memo : Str) : (padMemo memo).length = 32 := by
  rw [padMemo, List.length_take, List.length_append, List.length_replicate]
  unfold MAX_MEMO_LEN
  omega

/-- A memo that fits is padded. -/
theorem padMemo_eq {memo : Str} (h : memo.length ≤ 32) :
    padMemo memo = memo ++ List.replicate (32 - memo.length) 0 :=
  List.take_of_length_le (by
    rw [List.length_append, List.length_replicate]; unfold MAX_MEMO_LEN; omega)

theorem isAscii_padMemo {memo : Str} (h : memo.length ≤ 32) :
    IsAscii (padMemo memo) ↔ IsAscii memo := by
  rw [padMemo_eq h]
  refine ⟨fun ha c hc => ha c (List.mem_append_left _ hc), fun ha c hc => ?_⟩
  rcases List.mem_append.mp hc with hc | hc
  · exact ha c hc
  · rw [List.eq_of_mem_replicate hc]; decide

section Message

variable {a : SignTxArgs} (hs : a.sender_address.length = 55) (hr : a.receiver.length = 55)

theorem fields_eq (h : a.Fits) : a.fields = some (a.dataFields.map hexText) := by
  simp only [fields, utf8_ascii h.sender_address, utf8_ascii h.receiver, utf8_ascii h.memo,
    formatHex_eq rfl (by norm_num) h.sender_account,
    formatHex_eq rfl (by norm_num) h.amount,
    formatHex_eq rfl (by norm_num) h.fee,
    formatHex_eq rfl (by norm_num) h.nonce,
    formatHex_eq rfl (by norm_num) h.valid_until,
    formatHex_eq rfl (by norm_num) h.tx_type,
    formatHex_eq rfl (by norm_num) h.network_id]
  rfl

include hs hr

theorem length_data : a.data.length = 172 := by
  simp [data, dataFields, hs, hr, length_padMemo]

theorem apduMessage_eq (h : a.Fits) :
    a.apduMessage = some (hexText ([0xe0, 0x03, 0x00, 0x00, 172] ++ a.data)) := by
  have htotal : ((a.dataFields.map hexText).map List.length).sum = 344 := by
    simp [dataFields, hs, hr, length_padMemo]
  have hheader : "e0030000".toList ++ formatHex 2 ((344 / 2 : Nat) : Int) =
      hexText [0xe0, 0x03, 0x00, 0x00, 172] := by decide +kernel
  rw [apduMessage, fields_eq h]
  simp only [Option.pure_def, Option.bind_eq_bind, Option.bind_some, htotal]
  rw [hheader, hexText_append, data, hexText_flatten]

/-- Anything that does not fit makes the text longer or puts a sign in it. -/
theorem fits_of_apduMessage {msg : List Char} (h : a.apduMessage = some msg)
    (hmsg : WellFormed msg) : a.Fits := by
  obtain ⟨data, hdata, rfl⟩ := hmsg
  obtain ⟨fs, hfs, h⟩ := Option.bind_eq_some_iff.mp h
  replace h := Option.some.inj h
  -- the length of the fields is the number of data digits, and no field has a sign
  have hwidth := le_length_formatHex two_pos (((fs.map List.length).sum / 2 : Nat) : Int)
  have hlen := congrArg List.length h
  have hhead : "e0030000".toList.length = 8 := by decide +kernel
  rw [List.length_append, List.length_append, List.length_flatten, length_hexText, hhead,
    List.length_append, hdata, show [0xe0, 0x03, 0x00, 0x00, (172 : UInt8)].length = 5 from rfl]
    at hlen
  generalize (formatHex 2 (((fs.map List.length).sum / 2 : Nat) : Int)).length = width at hlen hwidth
  have hsign : ∀ f ∈ fs, '-' ∉ f := fun f hf hm => by
    refine minus_notMem_hexText ([0xe0, 0x03, 0x00, 0x00, 172] ++ data) ?_
    rw [← h]
    exact List.mem_append_right _ (List.mem_flatten.mpr ⟨f, hf, hm⟩)
  obtain ⟨s, hutf, hfs⟩ := Option.bind_eq_some_iff.mp hfs
  obtain ⟨r, hutf', hfs⟩ := Option.bind_eq_some_iff.mp hfs
  obtain ⟨m, hutf'', hfs⟩ := Option.bind_eq_some_iff.mp hfs
  obtain rfl := Option.some.inj hfs
  obtain ⟨hls, hsender⟩ := length_utf8 hutf
  obtain ⟨hlr, hreceiver⟩ := length_utf8 hutf'
  obtain ⟨hlm, hmemo⟩ := length_utf8 hutf''
  simp only [List.map_cons, List.map_nil, List.sum_cons, List.sum_nil, length_hexText] at hlen
  simp only [List.forall_mem_cons] at hsign
  obtain ⟨n1, -, -, n2, n3, n4, n5, -, n6, n7, -⟩ := hsign
  rw [length_padMemo] at hlm hmemo
  -- so each field has its width
  have w1 := le_length_formatHex (w := 8) (by norm_num) a.sender_account
  have w2 := le_length_formatHex (w := 16) (by norm_num) a.amount
  have w3 := le_length_formatHex (w := 16) (by norm_num) a.fee
  have w4 := le_length_formatHex (w := 8) (by norm_num) a.nonce
  have w5 := le_length_formatHex (w := 8) (by norm_num) a.valid_until
  have w6 := le_length_formatHex (w := 2) (by norm_num) a.tx_type
  have w7 := le_length_formatHex (w := 2) (by norm_num) a.network_id
  exact {
    sender_account := (formatHex_fits (w := 8) (k := 4) rfl (by norm_num)).mp ⟨by omega, n1⟩
    sender_address := hsender (by omega)
    receiver := hreceiver (by omega)
    amount := (formatHex_fits (w := 16) (k := 8) rfl (by norm_num)).mp ⟨by omega, n2⟩
    fee := (formatHex_fits (w := 16) (k := 8) rfl (by norm_num)).mp ⟨by omega, n3⟩
    nonce := (formatHex_fits (w := 8) (k := 4) rfl (by norm_num)).mp ⟨by omega, n4⟩
    valid_until := (formatHex_fits (w := 8) (k := 4) rfl (by norm_num)).mp ⟨by omega, n5⟩
    memo := hmemo (by omega)
    tx_type := (formatHex_fits (w := 2) (k := 1) rfl (by norm_num)).mp ⟨by omega, n6⟩
    network_id := (formatHex_fits (w := 2) (k := 1) rfl (by norm_num)).mp ⟨by omega, n7⟩ }

/-- A request exactly when everything fits. -/
theorem apduMessage_iff : (∃ msg, a.apduMessage = some msg ∧ WellFormed msg) ↔ a.Fits :=
  ⟨fun ⟨_, h, hmsg⟩ => fits_of_apduMessage hs hr h hmsg, fun h =>
    ⟨_, apduMessage_eq hs hr h, a.data, length_data hs hr, rfl⟩⟩

/-- Then it goes to the device. -/
theorem ledger_sign_tx_eq (h : a.Fits) :
    a.ledger_sign_tx = some ([0xe0, 0x03, 0x00, 0x00, 172] ++ a.data) := by
  rw [ledger_sign_tx, apduMessage_eq hs hr h]
  exact fromHex_hexText _

end Message

/-! ## What the device reads -/

/-- The arguments of a wallet that sends what fits, with 55 characters an address. -/
structure Ordinary (a : SignTxArgs) : Prop where
  sender_account : 0 ≤ a.sender_account ∧ a.sender_account < 2 ^ 32
  sender_address : IsAscii a.sender_address ∧ a.sender_address.length = 55
  receiver : IsAscii a.receiver ∧ a.receiver.length = 55
  amount : 0 ≤ a.amount ∧ a.amount < 2 ^ 64
  fee : 0 ≤ a.fee ∧ a.fee < 2 ^ 64
  nonce : 0 ≤ a.nonce ∧ a.nonce < 2 ^ 32
  valid_until : 0 ≤ a.valid_until ∧ a.valid_until < 2 ^ 32
  memo : IsAscii a.memo ∧ a.memo.length ≤ 32 ∧ 0 ∉ a.memo
  tx_type : a.tx_type = 0x00 ∨ a.tx_type = 0x04
  network_id : a.network_id = 0 ∨ a.network_id = 1

theorem Ordinary.fits {a : SignTxArgs} (h : a.Ordinary) : a.Fits where
  sender_account := h.sender_account
  sender_address := h.sender_address.1
  receiver := h.receiver.1
  amount := h.amount
  fee := h.fee
  nonce := h.nonce
  valid_until := h.valid_until
  memo := (isAscii_padMemo h.memo.2.1).mpr h.memo.1
  tx_type := by rcases h.tx_type with ht | ht <;> rw [ht] <;> norm_num
  network_id := by rcases h.network_id with hn | hn <;> rw [hn] <;> norm_num

/-- The transaction and the texts are those the wallet was given. -/
structure Stored (a : SignTxArgs) (tx : tx_t) (ui : ui_t) : Prop where
  account : (tx.account.toNat : Int) = a.sender_account
  from_ : ui.from_.toList = asciiBytes a.sender_address ++ [0]
  to_ : ui.to_.toList = asciiBytes a.receiver ++ [0]
  amount : (tx.tx.amount.toNat : Int) = a.amount
  fee : (tx.tx.fee.toNat : Int) = a.fee
  nonce : (tx.tx.nonce.toNat : Int) = a.nonce
  valid_until : (tx.tx.valid_until.toNat : Int) = a.valid_until
  network_id : (tx.network_id.toNat : Int) = a.network_id
  memo : tx.tx.memo.toList = [1, UInt8.ofNat a.memo.length] ++ asciiBytes a.memo ++
    List.replicate (32 - a.memo.length) 0
  tag : tx.tx.tag = #v[a.tx_type.toNat.testBit 0, a.tx_type.toNat.testBit 1,
    a.tx_type.toNat.testBit 2]
  total : cstr ui.total.toList = amountText (a.amount + a.fee).toNat

section Read

variable {a : SignTxArgs} (hs : a.sender_address.length = 55) (hr : a.receiver.length = 55)

include hs hr

theorem lengths_dataFields : a.dataFields.map List.length = [4, 55, 55, 8, 8, 4, 4, 32, 1, 1] := by
  simp [dataFields, hs, hr, length_padMemo]

/-- A field stands where the fields before it end. -/
theorem data_field {i off k : Nat} (hi : i < 10)
    (hoff : ([4, 55, 55, 8, 8, 4, 4, 32, 1, 1].take i).sum = off)
    (hend : ([4, 55, 55, 8, 8, 4, 4, 32, 1, 1].take (i + 1)).sum = off + k) :
    (a.data.drop off).take k = a.dataFields.get ⟨i, hi⟩ := by
  have h := List.drop_take_succ_flatten_eq_getElem a.dataFields i hi
  rw [lengths_dataFields hs hr, hoff, hend, List.drop_take, Nat.add_sub_cancel_left] at h
  exact h

/-- A number is read back. -/
theorem numField_data {i off k : Nat} {v : Int} (hi : i < 10)
    (hoff : ([4, 55, 55, 8, 8, 4, 4, 32, 1, 1].take i).sum = off)
    (hend : ([4, 55, 55, 8, 8, 4, 4, 32, 1, 1].take (i + 1)).sum = off + k)
    (hv : 0 ≤ v ∧ v < 256 ^ k) (hfield : a.dataFields.get ⟨i, hi⟩ = beBytes k v.toNat) :
    (numField a.data off k : Int) = v := by
  have hlt : v.toNat < 256 ^ k := by
    have hcast : (v.toNat : Int) < ((256 ^ k : Nat) : Int) := by
      rw [Int.toNat_of_nonneg hv.1]; exact_mod_cast hv.2
    exact_mod_cast hcast
  rw [numField, data_field hs hr hi hoff hend, hfield, beVal_beBytes hlt, Int.toNat_of_nonneg hv.1]

theorem addressField_data :
    addressField a.data 4 = asciiBytes a.sender_address ++ [0] ∧
    addressField a.data 59 = asciiBytes a.receiver ++ [0] := by
  have hfrom : (a.data.drop 4).take 55 = asciiBytes a.sender_address :=
    data_field hs hr (i := 1) (by norm_num) rfl rfl
  have hto : (a.data.drop 59).take 55 = asciiBytes a.receiver :=
    data_field hs hr (i := 2) (by norm_num) rfl rfl
  rw [addressField, addressField, hfrom, hto]
  exact ⟨rfl, rfl⟩

theorem memo_data : (a.data.drop 138).take 32 = asciiBytes (padMemo a.memo) :=
  data_field hs hr (i := 7) (by norm_num) rfl rfl

/-- A byte is read back. -/
theorem byteField_data {i off : Nat} {v : Int} (hi : i < 10)
    (hoff : ([4, 55, 55, 8, 8, 4, 4, 32, 1, 1].take i).sum = off)
    (hend : ([4, 55, 55, 8, 8, 4, 4, 32, 1, 1].take (i + 1)).sum = off + 1)
    (hfield : a.dataFields.get ⟨i, hi⟩ = [UInt8.ofNat v.toNat]) :
    a.data.getD off 0 = UInt8.ofNat v.toNat := by
  have h := congrArg (·.getD 0 0) ((data_field hs hr hi hoff hend).trans hfield)
  simpa [List.getD_eq_getElem?_getD] using h

theorem tag_data : a.data.getD 170 0 = UInt8.ofNat a.tx_type.toNat :=
  byteField_data hs hr (i := 8) (by norm_num) rfl rfl rfl

theorem network_data : a.data.getD 171 0 = UInt8.ofNat a.network_id.toNat :=
  byteField_data hs hr (i := 9) (by norm_num) rfl rfl rfl

end Read

section Device

variable {a : SignTxArgs} (h : a.Ordinary)

include h

/-- A memo without NUL ends where its padding begins. -/
theorem cstr_memoField : cstr (memoField a.data) = asciiBytes a.memo := by
  have h0 : (0 : UInt8) ∉ asciiBytes a.memo := by
    intro hmem
    obtain ⟨c, hc, hval⟩ := List.mem_map.mp hmem
    have hlt := h.memo.1 c hc
    have hzero := congrArg UInt8.toNat hval
    rw [UInt8.toNat_ofNat'] at hzero
    have hc0 : c = 0 := Fin.ext (by simp at hzero ⊢; omega)
    exact h.memo.2.2 (hc0 ▸ hc)
  have hpad : asciiBytes (padMemo a.memo) ++ [0] =
      asciiBytes a.memo ++ [0] ++ List.replicate (32 - a.memo.length) 0 := by
    rw [padMemo_eq h.memo.2.1, asciiBytes, List.map_append, List.map_replicate, List.append_assoc,
      List.append_assoc]
    congr 1
    exact List.replicate_succ'.symm
  rw [memoField, memo_data h.sender_address.2 h.receiver.2, hpad, cstr_append_zero h0]

theorem acceptable_data_iff {sha256 : List UInt8 → Vector UInt8 32} {st : Nat → Stale}
    (hfrom : validate_address sha256 (st 0) (asciiBytes a.sender_address ++ [0]) = .ok true)
    (hto : validate_address sha256 (st 3) (asciiBytes a.receiver ++ [0]) = .ok true) :
    Acceptable sha256 st a.data 172 ↔ a.amount + a.fee < 2 ^ 64 := by
  have hs := h.sender_address.2
  have hr := h.receiver.2
  obtain ⟨haddr, haddr'⟩ := addressField_data hs hr
  have hamount : (numField a.data 114 8 : Int) = a.amount :=
    numField_data hs hr (i := 3) (by norm_num) rfl rfl h.amount rfl
  have hfee : (numField a.data 122 8 : Int) = a.fee :=
    numField_data hs hr (i := 4) (by norm_num) rfl rfl h.fee rfl
  have htotal : numField a.data 114 8 + numField a.data 122 8 < 2 ^ 64 ↔
      a.amount + a.fee < 2 ^ 64 := by
    rw [← hamount, ← hfee]; norm_cast
  refine ⟨fun hacc => htotal.mp hacc.total, fun hlt => ?_⟩
  exact {
    length := rfl
    from_ := by rw [haddr]; exact hfrom
    to_ := by rw [haddr']; exact hto
    total := htotal.mpr hlt
    tag := by
      rw [tag_data hs hr]
      rcases h.tx_type with ht | ht <;> rw [ht]
      · exact .inl rfl
      · exact .inr rfl
    network := by
      rw [network_data hs hr]
      rcases h.network_id with hn | hn <;> rw [hn]
      · exact .inl rfl
      · exact .inr rfl }

theorem stored_of_parsed {st : Nat → Stale} {tx : tx_t} {ui : ui_t} (hP : Parsed st a.data tx ui) :
    a.Stored tx ui := by
  have hs := h.sender_address.2
  have hr := h.receiver.2
  obtain ⟨haddr, haddr'⟩ := addressField_data hs hr
  have hamount : (numField a.data 114 8 : Int) = a.amount :=
    numField_data hs hr (i := 3) (by norm_num) rfl rfl h.amount rfl
  have hfee : (numField a.data 122 8 : Int) = a.fee :=
    numField_data hs hr (i := 4) (by norm_num) rfl rfl h.fee rfl
  have htag := hP.tag.trans (tag_data hs hr)
  exact {
    account := by
      rw [hP.account]; exact numField_data hs hr (i := 0) (by norm_num) rfl rfl h.sender_account rfl
    from_ := hP.from_.trans haddr
    to_ := hP.to_.trans haddr'
    amount := by rw [hP.amount, hamount]
    fee := by rw [hP.fee, hfee]
    nonce := by
      rw [hP.nonce]; exact numField_data hs hr (i := 5) (by norm_num) rfl rfl h.nonce rfl
    valid_until := by
      rw [hP.valid_until]
      exact numField_data hs hr (i := 6) (by norm_num) rfl rfl h.valid_until rfl
    network_id := by
      rw [hP.network, network_data hs hr]
      rcases h.network_id with hn | hn <;> rw [hn] <;> rfl
    memo := by
      have hcstr := cstr_memoField h
      rw [memoField] at hcstr
      rw [hP.memo, memoField, memoBytes_eq (by rw [memo_data hs hr]; simp [length_padMemo]), hcstr,
        length_asciiBytes]
      rfl
    tag := by
      rw [hP.tagBits, htag]
      rcases h.tx_type with ht | ht <;> rw [ht] <;> decide
    total := by
      rw [hP.totalText, ← hamount, ← hfee]; norm_cast }

end Device

/-- The wallet's encoder and the device's parser agree: the request has as many data
bytes as its length byte says, the device accepts it exactly when the sum does not
wrap, and then holds what the wallet was given. -/
theorem wallet_device_agree (sha256 : List UInt8 → Vector UInt8 32) (st : Nat → Stale)
    {a : SignTxArgs} (h : a.Ordinary) :
    ∃ data, a.ledger_sign_tx = some ([0xe0, 0x03, 0x00, 0x00, 172] ++ data) ∧ data.length = 172 ∧
      (validate_address sha256 (st 0) (asciiBytes a.sender_address ++ [0]) = .ok true →
        validate_address sha256 (st 3) (asciiBytes a.receiver ++ [0]) = .ok true → ∀ tx ui,
        ∃ ok tx' ui', parse_tx sha256 st data 172 tx ui = .ok (ok, tx', ui') ∧
          (ok = true ↔ a.amount + a.fee < 2 ^ 64) ∧ (ok = true → a.Stored tx' ui')) := by
  have hlen := length_data h.sender_address.2 h.receiver.2
  refine ⟨a.data, ledger_sign_tx_eq h.sender_address.2 h.receiver.2 h.fits, hlen,
    fun hfrom hto tx ui => ?_⟩
  obtain ⟨ok, tx', ui', hparse, hok, hparsed⟩ :=
    parse_tx_spec sha256 (le_of_eq hlen.symm) st 172 tx ui
  exact ⟨ok, tx', ui', hparse, hok.trans (acceptable_data_iff h hfrom hto), fun hok =>
    stored_of_parsed h (hparsed hok)⟩

/-- 42 with the memo "hello", from `receiver` to itself. -/
def sampleArgs : SignTxArgs where
  tx_type := 0x00
  sender_account := 0
  sender_address := ofString "B62qrcFstkpqXww1EkSGrqMCwCNho86kuqBd4FrAAUsPxNKdiPzAUsy"
  receiver := ofString "B62qrcFstkpqXww1EkSGrqMCwCNho86kuqBd4FrAAUsPxNKdiPzAUsy"
  amount := 42
  fee := 3
  nonce := 5
  valid_until := 4294967295
  memo := ofString "hello"
  network_id := 1

theorem sampleArgs_ordinary : sampleArgs.Ordinary where
  sender_account := by decide
  sender_address := by decide +kernel
  receiver := by decide +kernel
  amount := by decide
  fee := by decide
  nonce := by decide
  valid_until := by decide
  memo := by decide +kernel
  tx_type := .inl rfl
  network_id := .inr rfl

theorem wallet_device_agree_sample :
    ∃ data tx ui, sampleArgs.ledger_sign_tx = some ([0xe0, 0x03, 0x00, 0x00, 172] ++ data) ∧
      parse_tx sha256Table cleanStack data 172 .boot .boot = .ok (true, tx, ui) ∧
      sampleArgs.Stored tx ui := by
  have haddr : asciiBytes sampleArgs.sender_address = MinaLedger.receiver := by decide +kernel
  have haddr' : asciiBytes sampleArgs.receiver = MinaLedger.receiver := by decide +kernel
  obtain ⟨data, hapdu, -, hdevice⟩ :=
    wallet_device_agree sha256Table cleanStack sampleArgs_ordinary
  rw [haddr, haddr'] at hdevice
  obtain ⟨ok, tx, ui, hparse, hok, hstored⟩ :=
    hdevice (accepted_receiver _) (accepted_receiver _) .boot .boot
  obtain rfl := hok.mpr (by decide)
  exact ⟨data, tx, ui, hapdu, hparse, hstored rfl⟩

end SignTxArgs

end MinaLedger
