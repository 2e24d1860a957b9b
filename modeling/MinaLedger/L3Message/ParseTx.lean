import MinaLedger.L1Encoding.AmountText
import MinaLedger.L1Encoding.Wire
import MinaLedger.L2Crypto.Address
import MinaLedger.L3Message.Transaction

/-!
# Parsing a sign request

src/src/parse_tx.c: 172 bytes into the transaction that is signed and the
texts that are shown. Both are written while they are read, so a request that
fails leaves the parts read before the failure behind.

Results:
* `parse_tx_spec`: on a buffer that holds the request, `parse_tx` returns; it
  returns true exactly when the request is acceptable (`Acceptable`), and then
  every part of the transaction and every text is the one in the request
  (`Parsed`), whatever was there before.
-/
namespace MinaLedger
open Lib.Radix

/-- mirrors src/src/parse_tx.h:5-17 -/
structure tx_t where
  -- blockchain instance
  network_id : UInt8
  account : UInt32
  -- transaction related
  tx : Transaction
  input_fields : Vector Field 3
  input_bits : Vector UInt8 TX_BITSTRINGS_BYTES
  tag : UInt8

/-- mirrors src/src/parse_tx.h:19-31 -/
structure ui_t where
  from_ : Vector UInt8 MINA_ADDRESS_LEN
  to_ : Vector UInt8 MINA_ADDRESS_LEN
  amount : Vector UInt8 32
  fee : Vector UInt8 32
  total : Vector UInt8 32
  nonce : Vector UInt8 32
  valid_until : Vector UInt8 32
  memo : Vector UInt8 (MEMO_BYTES - 1)
  type : Vector UInt8 11
  from_title : Vector UInt8 10
  to_title : Vector UInt8 9

variable (sha256 : List UInt8 → Vector UInt8 32)

/-- The `i`-th call finds `st i` in its arrays. mirrors src/src/parse_tx.c:6-87 -/
def parse_tx (st : Nat → Stale) (dataBuffer : List UInt8) (dataLength : UInt8) (tx : tx_t)
    (ui : ui_t) : Exec (Bool × tx_t × ui_t) := do
  if dataLength ≠ 172 then
    return (false, tx, ui)
  -- 0-3: from_bip44_account
  let account ← read_uint32_be dataBuffer 0
  let tx := { tx with account := account }
  -- 4-58: from_address
  let from_ ← writeBytes ui.from_ 0 (← readBytes dataBuffer 4 (MINA_ADDRESS_LEN - 1))
  let from_ ← store from_ (MINA_ADDRESS_LEN - 1) 0
  let ui := { ui with from_ := from_ }
  if !(← validate_address sha256 (st 0) ui.from_.toList) then
    return (false, tx, ui)
  let source_pk ← read_public_key_compressed (st 1) tx.tx.source_pk ui.from_.toList
  let tx := { tx with tx.source_pk := source_pk }
  -- always the same as from for sent-payment and delegate txs
  let fee_payer_pk ← read_public_key_compressed (st 2) tx.tx.fee_payer_pk ui.from_.toList
  let tx := { tx with tx.fee_payer_pk := fee_payer_pk }
  -- 59-113: to
  let to_ ← writeBytes ui.to_ 0 (← readBytes dataBuffer 59 (MINA_ADDRESS_LEN - 1))
  let to_ ← store to_ (MINA_ADDRESS_LEN - 1) 0
  let ui := { ui with to_ := to_ }
  if !(← validate_address sha256 (st 3) ui.to_.toList) then
    return (false, tx, ui)
  let receiver_pk ← read_public_key_compressed (st 4) tx.tx.receiver_pk ui.to_.toList
  let tx := { tx with tx.receiver_pk := receiver_pk }
  -- 114-121: amount
  let amount ← read_uint64_be dataBuffer 114
  let tx := { tx with tx.amount := amount }
  let amountText ← amount_to_string ui.amount 32 tx.tx.amount
  let ui := { ui with amount := amountText }
  -- set to 1 until token support is released
  let tx := { tx with tx.token_id := 1 }
  -- 122-129: fee
  let fee ← read_uint64_be dataBuffer 122
  let tx := { tx with tx.fee := fee }
  let feeText ← amount_to_string ui.fee 32 tx.tx.fee
  let ui := { ui with fee := feeText }
  -- the addition wraps
  if tx.tx.amount + tx.tx.fee < tx.tx.amount then
    return (false, tx, ui)
  let total ← amount_to_string ui.total 32 (tx.tx.amount + tx.tx.fee)
  let ui := { ui with total := total }
  let tx := { tx with tx.fee_token := 1 }
  -- 130-133: nonce
  let nonce ← read_uint32_be dataBuffer 130
  let tx := { tx with tx.nonce := nonce }
  let (_, nonceText) ← value_to_string ui.nonce 32 tx.tx.nonce.toUInt64
  let ui := { ui with nonce := nonceText }
  -- 134-137: valid_until
  let valid_until ← read_uint32_be dataBuffer 134
  let tx := { tx with tx.valid_until := valid_until }
  let (_, validText) ← value_to_string ui.valid_until 32 tx.tx.valid_until.toUInt64
  let ui := { ui with valid_until := validText }
  -- fixed until token support is released
  let tx := { tx with tx.token_locked := false }
  -- 138-169: memo
  let memo ← writeBytes ui.memo 0 (← readBytes dataBuffer 138 (MEMO_BYTES - 1 - 1))
  let memo ← store memo (MEMO_BYTES - 1 - 1) 0
  let ui := { ui with memo := memo }
  let txMemo ← transaction_prepare_memo tx.tx.memo ui.memo.toList
  let tx := { tx with tx.memo := txMemo }
  -- 170: tag
  let tag ← load dataBuffer 170
  let tx := { tx with tag := tag }
  if tx.tag ≠ PAYMENT_TX ∧ tx.tag ≠ DELEGATION_TX then
    return (false, tx, ui)
  let tx := { tx with
    tx.tag := #v[tx.tag &&& 0x01 != 0, tx.tag &&& 0x02 != 0, tx.tag &&& 0x04 != 0] }
  -- 171: network_id
  let network_id ← load dataBuffer 171
  let tx := { tx with network_id := network_id }
  if tx.network_id ≠ TESTNET_ID ∧ tx.network_id ≠ MAINNET_ID then
    return (false, tx, ui)
  return (true, tx, ui)

/-! ## What a request says -/

/-- The text at an offset, with the NUL `parse_tx` puts behind it. -/
def addressField (data : List UInt8) (off : Nat) : List UInt8 := (data.drop off).take 55 ++ [0]

def memoField (data : List UInt8) : List UInt8 := (data.drop 138).take 32 ++ [0]

/-- The big-endian number of `k` bytes at an offset. -/
def numField (data : List UInt8) (off k : Nat) : Nat := beVal ((data.drop off).take k)

/-- The conditions `parse_tx` checks. -/
structure Acceptable (st : Nat → Stale) (data : List UInt8) (dataLength : UInt8) : Prop where
  length : dataLength = 172
  from_ : validate_address sha256 (st 0) (addressField data 4) = .ok true
  to_ : validate_address sha256 (st 3) (addressField data 59) = .ok true
  total : numField data 114 8 + numField data 122 8 < 2 ^ 64
  tag : data.getD 170 0 = PAYMENT_TX ∨ data.getD 170 0 = DELEGATION_TX
  network : data.getD 171 0 = TESTNET_ID ∨ data.getD 171 0 = MAINNET_ID

/-- The transaction and the texts are those of the request. -/
structure Parsed (st : Nat → Stale) (data : List UInt8) (tx : tx_t) (ui : ui_t) : Prop where
  account : tx.account.toNat = numField data 0 4
  from_ : ui.from_.toList = addressField data 4
  source : ∃ pk, read_public_key_compressed (st 1) pk (addressField data 4) = .ok tx.tx.source_pk
  payer : ∃ pk, read_public_key_compressed (st 2) pk (addressField data 4) = .ok tx.tx.fee_payer_pk
  to_ : ui.to_.toList = addressField data 59
  receiver : ∃ pk,
    read_public_key_compressed (st 4) pk (addressField data 59) = .ok tx.tx.receiver_pk
  amount : tx.tx.amount.toNat = numField data 114 8
  amountText : cstr ui.amount.toList = amountText (numField data 114 8)
  token_id : tx.tx.token_id = 1
  fee : tx.tx.fee.toNat = numField data 122 8
  feeText : cstr ui.fee.toList = MinaLedger.amountText (numField data 122 8)
  totalText : cstr ui.total.toList =
    MinaLedger.amountText (numField data 114 8 + numField data 122 8)
  fee_token : tx.tx.fee_token = 1
  nonce : tx.tx.nonce.toNat = numField data 130 4
  nonceText : cstr ui.nonce.toList = decimal (numField data 130 4)
  valid_until : tx.tx.valid_until.toNat = numField data 134 4
  validText : cstr ui.valid_until.toList = decimal (numField data 134 4)
  token_locked : tx.tx.token_locked = false
  memoText : ui.memo.toList = memoField data
  memo : tx.tx.memo.toList = memoBytes (memoField data)
  tag : tx.tag = data.getD 170 0
  tagBits : tx.tx.tag =
    #v[tx.tag &&& 0x01 != 0, tx.tag &&& 0x02 != 0, tx.tag &&& 0x04 != 0]
  network : tx.network_id = data.getD 171 0

/-! ## The parser returns -/

/-- The wrapped sum is smaller than the amount exactly when it wraps. -/
theorem add_lt_iff (a b : UInt64) : a + b < a ↔ ¬a.toNat + b.toNat < 2 ^ 64 := by
  have ha := a.toNat_lt
  have hb := b.toNat_lt
  rw [UInt64.lt_iff_toNat_lt, UInt64.toNat_add]
  omega

section Returns

variable {data : List UInt8} (hdata : 172 ≤ data.length)

include hdata

/-- A text of `k` bytes and its NUL. -/
theorem copy_text {m : Nat} (v : Vector UInt8 m) (k : Nat) (hm : m = k + 1) {off : Nat}
    (h : off + k ≤ 172) :
    ∃ b w, readBytes data off k = .ok b ∧ ∃ w', writeBytes v 0 b = .ok w' ∧
      store w' k 0 = .ok w ∧ w.toList = (data.drop off).take k ++ [0] := by
  have hread := readBytes_eq data off k (by omega)
  have hlen : ((data.drop off).take k).length = k := by
    rw [List.length_take, List.length_drop]; omega
  obtain ⟨w', hw', hl'⟩ := writeBytes_toList v 0 ((data.drop off).take k) (by omega)
  obtain ⟨w, hw, hl⟩ := store_toList w' k 0 (by omega)
  refine ⟨_, w, hread, w', hw', hw, ?_⟩
  obtain ⟨c, hc⟩ : ∃ c, v.toList.drop k = [c] := List.length_eq_one_iff.mp (by simp [hm])
  rw [hl, hl', hlen, List.take_zero, List.nil_append, Nat.zero_add, hc,
    List.set_append_right _ _ (by omega), hlen, Nat.sub_self]
  rfl

theorem load_getD {i : Nat} (h : i < 172) : load data i = .ok (data.getD i 0) := by
  rw [load_eq _ _ (by omega), List.getD_eq_getElem _ _ (by omega)]

theorem parse_tx_spec (st : Nat → Stale) (dataLength : UInt8) (tx : tx_t) (ui : ui_t) :
    ∃ ok tx' ui', parse_tx sha256 st data dataLength tx ui = .ok (ok, tx', ui') ∧
      (ok = true ↔ Acceptable sha256 st data dataLength) ∧
      (ok = true → Parsed st data tx' ui') := by
  obtain ⟨account, haccount, vaccount⟩ := read_uint32_be_eq (show 0 + 4 ≤ data.length by omega)
  obtain ⟨b1, from_, hb1, w1, hw1, hfrom, lfrom⟩ :=
    copy_text hdata ui.from_ 55 rfl (show 4 + 55 ≤ 172 by norm_num)
  obtain ⟨v1, hv1⟩ := validate_address_returns sha256 (st 0) from_.toList
  obtain ⟨source, hsource⟩ := read_public_key_compressed_returns (st 1) tx.tx.source_pk from_.toList
  obtain ⟨payer, hpayer⟩ :=
    read_public_key_compressed_returns (st 2) tx.tx.fee_payer_pk from_.toList
  obtain ⟨b2, to_, hb2, w2, hw2, hto, lto⟩ :=
    copy_text hdata ui.to_ 55 rfl (show 59 + 55 ≤ 172 by norm_num)
  obtain ⟨v2, hv2⟩ := validate_address_returns sha256 (st 3) to_.toList
  obtain ⟨receiver, hreceiver⟩ :=
    read_public_key_compressed_returns (st 4) tx.tx.receiver_pk to_.toList
  obtain ⟨amount, hamount, vamount⟩ := read_uint64_be_eq (show 114 + 8 ≤ data.length by omega)
  obtain ⟨amountT, hamountT, tamount⟩ := amount_to_string_text ui.amount amount
  obtain ⟨fee, hfee, vfee⟩ := read_uint64_be_eq (show 122 + 8 ≤ data.length by omega)
  obtain ⟨feeT, hfeeT, tfee⟩ := amount_to_string_text ui.fee fee
  obtain ⟨totalT, htotalT, ttotal⟩ := amount_to_string_text ui.total (amount + fee)
  obtain ⟨nonce, hnonce, vnonce⟩ := read_uint32_be_eq (show 130 + 4 ≤ data.length by omega)
  obtain ⟨nonceT, hnonceT, tnonce⟩ := value_to_string_text ui.nonce nonce.toUInt64
  obtain ⟨valid, hvalid, vvalid⟩ := read_uint32_be_eq (show 134 + 4 ≤ data.length by omega)
  obtain ⟨validT, hvalidT, tvalid⟩ := value_to_string_text ui.valid_until valid.toUInt64
  obtain ⟨b3, memo, hb3, w3, hw3, hmemo, lmemo⟩ :=
    copy_text hdata ui.memo 32 rfl (show 138 + 32 ≤ 172 by norm_num)
  obtain ⟨txMemo, htxMemo, ltxMemo⟩ := transaction_prepare_memo_spec tx.tx.memo memo.toList
  have htag := load_getD hdata (show 170 < 172 by norm_num)
  have hnet := load_getD hdata (show 171 < 172 by norm_num)
  simp only [parse_tx, show MINA_ADDRESS_LEN - 1 = 55 from rfl,
    show MEMO_BYTES - 1 - 1 = 32 from rfl, haccount, hb1, hw1, hfrom, hv1, hsource, hpayer, hb2,
    hw2, hto, hv2, hreceiver, hamount, hamountT, hfee, hfeeT, htotalT, hnonce, hnonceT, hvalid,
    hvalidT, hb3, hw3, hmemo, htxMemo, htag, hnet, ok_bind, pure_eq_ok, add_lt_iff]
  rw [lfrom] at hv1 hsource hpayer
  rw [lto] at hv2 hreceiver
  have hu1 : nonce.toUInt64.toNat = nonce.toNat := UInt32.toNat_toUInt64 nonce
  have hu2 : valid.toUInt64.toNat = valid.toNat := UInt32.toNat_toUInt64 valid
  have htotal : amount.toNat + fee.toNat < 2 ^ 64 → (amount + fee).toNat = _ := fun h => by
    rw [UInt64.toNat_add, Nat.mod_eq_of_lt h, vamount, vfee]
  -- one case for each of the exits, in the order of the checks
  split
  · rename_i h
    exact ⟨false, _, _, rfl, ⟨nofun, fun ha => absurd ha.length h⟩, nofun⟩
  rename_i hlen
  split
  · rename_i h
    refine ⟨false, _, _, rfl, ⟨nofun, fun ha => ?_⟩, nofun⟩
    obtain rfl : v1 = true := Except.ok.inj (hv1.symm.trans ha.from_)
    simp at h
  rename_i h1
  split
  · rename_i h
    refine ⟨false, _, _, rfl, ⟨nofun, fun ha => ?_⟩, nofun⟩
    obtain rfl : v2 = true := Except.ok.inj (hv2.symm.trans ha.to_)
    simp at h
  rename_i h2
  split
  · rename_i h
    refine ⟨false, _, _, rfl, ⟨nofun, fun ha => ?_⟩, nofun⟩
    rw [vamount, vfee] at h
    exact absurd ha.total h
  rename_i h3
  rw [not_not] at h3
  split
  · rename_i h
    exact ⟨false, _, _, rfl, ⟨nofun, fun ha => absurd ha.tag (not_or.mpr h)⟩, nofun⟩
  rename_i h4
  split
  · rename_i h
    exact ⟨false, _, _, rfl, ⟨nofun, fun ha => absurd ha.network (not_or.mpr h)⟩, nofun⟩
  rename_i h5
  refine ⟨true, _, _, rfl, ⟨fun _ => ?_, fun _ => rfl⟩, fun _ => ?_⟩
  · exact {
      length := by simpa using hlen
      from_ := by rw [show v1 = true by simpa using h1] at hv1; exact hv1
      to_ := by rw [show v2 = true by simpa using h2] at hv2; exact hv2
      total := by rw [vamount, vfee] at h3; exact h3
      tag := by by_contra h; exact h4 (not_or.mp h)
      network := by by_contra h; exact h5 (not_or.mp h) }
  · exact {
      account := vaccount
      from_ := lfrom
      source := ⟨_, hsource⟩
      payer := ⟨_, hpayer⟩
      to_ := lto
      receiver := ⟨_, hreceiver⟩
      amount := vamount
      amountText := by rw [tamount, vamount]; rfl
      token_id := rfl
      fee := vfee
      feeText := by rw [tfee, vfee]; rfl
      totalText := by rw [ttotal, htotal h3]; rfl
      fee_token := rfl
      nonce := vnonce
      nonceText := by rw [tnonce, hu1, vnonce]; rfl
      valid_until := vvalid
      validText := by rw [tvalid, hu2, vvalid]; rfl
      token_locked := rfl
      memoText := lmemo
      memo := by rw [ltxMemo, lmemo]; rfl
      tag := rfl
      tagBits := rfl
      network := rfl }

/-- A request `parse_tx` returned true on. -/
theorem parse_tx_true {st : Nat → Stale} {dataLength : UInt8} {tx tx' : tx_t} {ui ui' : ui_t}
    (h : parse_tx sha256 st data dataLength tx ui = .ok (true, tx', ui')) :
    Acceptable sha256 st data dataLength ∧ Parsed st data tx' ui' := by
  obtain ⟨ok, tx₁, ui₁, hr, hok, hparsed⟩ := parse_tx_spec sha256 hdata st dataLength tx ui
  obtain ⟨rfl, rfl, rfl⟩ : ok = true ∧ tx₁ = tx' ∧ ui₁ = ui' := by simpa using hr.symm.trans h
  exact ⟨hok.mp rfl, hparsed rfl⟩

theorem Acceptable.parse_tx {st : Nat → Stale} {dataLength : UInt8}
    (hA : Acceptable sha256 st data dataLength) (tx : tx_t) (ui : ui_t) :
    ∃ tx' ui', MinaLedger.parse_tx sha256 st data dataLength tx ui = .ok (true, tx', ui') ∧
      Parsed st data tx' ui' := by
  obtain ⟨ok, tx', ui', hr, hok, hparsed⟩ := parse_tx_spec sha256 hdata st dataLength tx ui
  obtain rfl : ok = true := hok.mpr hA
  exact ⟨tx', ui', hr, hparsed rfl⟩

end Returns

/-- The three keys of an accepted request, each by the bytes its reading sees. -/
theorem parsed_keys {st : Nat → Stale} {data : List UInt8} {dataLength : UInt8} {tx : tx_t}
    {ui : ui_t} (hA : Acceptable sha256 st data dataLength) (hP : Parsed st data tx ui) :
    tx.tx.source_pk = keyOf (seenBytes (st 1) (addressField data 4)) ∧
    tx.tx.fee_payer_pk = keyOf (seenBytes (st 2) (addressField data 4)) ∧
    tx.tx.receiver_pk = keyOf (seenBytes (st 4) (addressField data 59)) :=
  ⟨read_of_valid sha256 hA.from_ hP.source, read_of_valid sha256 hA.from_ hP.payer,
    read_of_valid sha256 hA.to_ hP.receiver⟩

/-! ## Requests with known addresses -/

/-- Everything behind the addresses: fee 3, nonce 5, no expiry, no memo, on the testnet. -/
def requestRest (amount tag : UInt8) : List UInt8 :=
  [0, 0, 0, 0, 0, 0, 0, amount] ++ [0, 0, 0, 0, 0, 0, 0, 3] ++ [0, 0, 0, 5] ++
    [255, 255, 255, 255] ++ List.replicate 32 0 ++ [tag, TESTNET_ID]

/-- A request of account 0. -/
def request (from_ to_ : List UInt8) (amount tag : UInt8) : List UInt8 :=
  [0, 0, 0, 0] ++ (from_ ++ (to_ ++ requestRest amount tag))

section Request

variable {from_ to_ : List UInt8} (hfrom : from_.length = 55) (hto : to_.length = 55)
  (amount tag : UInt8)

include hfrom hto

theorem length_request : (request from_ to_ amount tag).length = 172 := by
  simp [request, requestRest, hfrom, hto]

theorem drop_request : (request from_ to_ amount tag).drop 114 = requestRest amount tag := by
  rw [show 114 = 4 + (55 + 55) from rfl, ← List.drop_drop, ← List.drop_drop, request,
    List.drop_left' (by rfl), List.drop_left' hfrom, List.drop_left' hto]

theorem request_addresses :
    addressField (request from_ to_ amount tag) 4 = from_ ++ [0] ∧
    addressField (request from_ to_ amount tag) 59 = to_ ++ [0] := by
  constructor
  · rw [addressField, request, List.drop_left' (by rfl), List.take_left' hfrom]
  · rw [addressField, show 59 = 4 + 55 from rfl, ← List.drop_drop, request,
      List.drop_left' (by rfl), List.drop_left' hfrom, List.take_left' hto]

theorem request_fields :
    numField (request from_ to_ amount tag) 114 8 = amount.toNat ∧
    numField (request from_ to_ amount tag) 122 8 = 3 ∧
    (request from_ to_ amount tag).getD 170 0 = tag ∧
    (request from_ to_ amount tag).getD 171 0 = TESTNET_ID := by
  have hdrop := drop_request hfrom hto amount tag
  have hget : ∀ i, (request from_ to_ amount tag).getD (114 + i) 0 =
      (requestRest amount tag).getD i 0 := fun i => by
    rw [← hdrop]; simp [List.getD_eq_getElem?_getD]
  refine ⟨?_, ?_, hget 56, hget 57⟩
  · rw [numField, hdrop]
    show beVal [0, 0, 0, 0, 0, 0, 0, amount] = amount.toNat
    simp [beVal_cons]
  · rw [numField, show 122 = 114 + 8 from rfl, ← List.drop_drop, hdrop]
    rfl

/-- It is accepted if its addresses are, whatever the amount. -/
theorem acceptable_request {sha256 : List UInt8 → Vector UInt8 32} {st : Nat → Stale}
    (hvfrom : validate_address sha256 (st 0) (from_ ++ [0]) = .ok true)
    (hvto : validate_address sha256 (st 3) (to_ ++ [0]) = .ok true)
    (htag : tag = PAYMENT_TX ∨ tag = DELEGATION_TX) :
    Acceptable sha256 st (request from_ to_ amount tag) 172 := by
  obtain ⟨hamount, hfee, h170, h171⟩ := request_fields hfrom hto amount tag
  obtain ⟨haddr, haddr'⟩ := request_addresses hfrom hto amount tag
  have hlt := amount.toNat_lt
  exact {
    length := rfl
    from_ := by rw [haddr]; exact hvfrom
    to_ := by rw [haddr']; exact hvto
    total := by rw [hamount, hfee]; omega
    tag := by rw [h170]; exact htag
    network := .inl h171 }

end Request

end MinaLedger
