import MinaLedger.L1Encoding.ROInputMessage

/-!
# Transactions

src/src/transaction.c: the transaction, its memo, and how it is laid out as a
random-oracle input of 3 fields and `TX_BITSTRINGS_BYTES` bytes.

Results:
* `transaction_to_roinput_spec`: no component is dropped; whatever the arrays
  held, the input ends up with 3 fields and 599 bits, which are the
  components in order.
* `txBits_inj`: the layout loses nothing.
* `hash_message_determines_transaction`: so the 9 hashed elements determine the
  transaction.
* `derive_message_eq_iff`: the 268 bytes the nonce is derived from determine the
  network and the transaction up to bit 255 of its x-coordinates.
-/
namespace MinaLedger
open Lib.Radix Lib.BitString

def MEMO_BYTES : Nat := 34
def PAYMENT_TX : UInt8 := 0x00
def DELEGATION_TX : UInt8 := 0x04

/-- mirrors src/src/transaction.h:17-32 -/
@[ext] structure Transaction where
  -- common
  fee : UInt64
  fee_token : UInt64
  fee_payer_pk : Compressed
  nonce : UInt32
  valid_until : UInt32
  memo : Vector UInt8 MEMO_BYTES
  -- body
  tag : Vector Bool 3
  source_pk : Compressed
  receiver_pk : Compressed
  token_id : UInt64
  amount : UInt64
  token_locked : Bool
  deriving DecidableEq

/-- mirrors src/src/transaction.h:34-44 -/
def TX_BITSTRINGS_BYTES : Nat := 8 + 8 + 4 + 4 + MEMO_BYTES + 8 + 8 + 3 - 2

variable {fc bc : Nat}

/-- mirrors src/src/transaction.c:5-28 -/
def transaction_to_roinput (input : ROInput fc bc) (tx : Transaction) : Exec (ROInput fc bc) := do
  let input := { input with fields_len := 0, bits_len := 0 }
  let input ← roinput_add_field input tx.fee_payer_pk.x
  let input ← roinput_add_field input tx.source_pk.x
  let input ← roinput_add_field input tx.receiver_pk.x
  let input ← roinput_add_uint64 input tx.fee
  let input ← roinput_add_uint64 input tx.fee_token
  let input ← roinput_add_bit input tx.fee_payer_pk.is_odd
  let input ← roinput_add_uint32 input tx.nonce
  let input ← roinput_add_uint32 input tx.valid_until
  let input ← roinput_add_bytes input tx.memo.toList MEMO_BYTES
  let input ← (List.range 3).foldlM (fun input i => do
    let b ← load tx.tag.toList i
    roinput_add_bit input b) input
  let input ← roinput_add_bit input tx.source_pk.is_odd
  let input ← roinput_add_bit input tx.receiver_pk.is_odd
  let input ← roinput_add_uint64 input tx.token_id
  let input ← roinput_add_uint64 input tx.amount
  roinput_add_bit input tx.token_locked

/-- mirrors src/src/transaction.c:30-41 -/
def transaction_prepare_memo (out : Vector UInt8 MEMO_BYTES) (s : List UInt8) :
    Exec (Vector UInt8 MEMO_BYTES) := do
  let len := strnlen s (MEMO_BYTES - 2)
  let out ← store out 0 1
  let out ← store out 1 (UInt8.ofNat len)
  let out ← (List.range len).foldlM (fun out i => do
    let c ← load s i
    store out (2 + i) c) out
  (List.range' (2 + len) (MEMO_BYTES - (2 + len))).foldlM (fun out i => store out i 0) out

/-! ## The memo -/

/-- Kind, length, the characters before the NUL (32 at most), zeros. -/
def memoBytes (s : List UInt8) : List UInt8 :=
  1 :: UInt8.ofNat (strnlen s 32) ::
    (s.take (strnlen s 32) ++ List.replicate (32 - strnlen s 32) 0)

theorem transaction_prepare_memo_spec (out : Vector UInt8 MEMO_BYTES) (s : List UInt8) :
    ∃ r, transaction_prepare_memo out s = .ok r ∧ r.toList = memoBytes s := by
  have hlen := strnlen_le s 32
  have hchars : (s.take (strnlen s 32)).length = strnlen s 32 := by
    have h1 := (List.takeWhile_prefix (p := fun b : UInt8 => decide (b ≠ 0))
      (l := s.take 32)).length_le
    have h2 := List.length_take_le' 32 s
    rw [List.length_take]
    unfold strnlen
    omega
  obtain ⟨o1, h1, l1⟩ := store_toList out 0 1 (by decide)
  obtain ⟨o2, h2, l2⟩ := store_toList o1 1 (UInt8.ofNat (strnlen s 32)) (by decide)
  obtain ⟨o3, h3, l3⟩ := foldlM_store o2 2 (load s) (s.take (strnlen s 32))
    (fun i hi => by
      rw [load_eq _ _ (by rw [hchars] at hi; rw [List.length_take] at hchars; omega)]
      simp) (by rw [hchars]; show 2 + _ ≤ 34; omega)
  obtain ⟨o4, h4, l4⟩ := foldlM_store o3 (2 + strnlen s 32) (fun _ => .ok 0)
    (List.replicate (32 - strnlen s 32) 0) (fun i hi => by simp)
    (by rw [List.length_replicate]; show _ ≤ 34; omega)
  rw [hchars] at h3 l3
  rw [List.length_replicate] at h4 l4
  have hfill : (List.range' (2 + strnlen s 32) (MEMO_BYTES - (2 + strnlen s 32))).foldlM
      (fun out i => store out i 0) o3 = .ok o4 := by
    rw [show MEMO_BYTES - (2 + strnlen s 32) = 32 - strnlen s 32 by show 34 - _ = _; omega,
      List.range'_eq_map_range, List.foldlM_map]
    exact h4
  refine ⟨o4, ?_, ?_⟩
  · simp only [transaction_prepare_memo, show MEMO_BYTES - 2 = 32 from rfl, h1, h2, ok_bind]
    exact (congrArg (· >>= _) h3).trans hfill
  · have hout : out.toList.length = 34 := Vector.length_toList
    have htail : (o3.toList.drop (2 + strnlen s 32 + (32 - strnlen s 32))) = [] :=
      List.drop_eq_nil_of_le (by rw [Vector.length_toList]; show 34 ≤ _; omega)
    have hhead : o2.toList.take 2 = [1, UInt8.ofNat (strnlen s 32)] := by
      obtain ⟨x, y, t, ht⟩ : ∃ x y t, out.toList = x :: y :: t := by
        match h : out.toList with
        | [] | [_] => rw [h] at hout; simp at hout
        | x :: y :: t => exact ⟨x, y, t, rfl⟩
      rw [l2, l1, ht]; rfl
    have hfront : (o2.toList.take 2 ++ s.take (strnlen s 32)).length = 2 + strnlen s 32 := by
      rw [hhead, List.length_append, hchars]; simp
    rw [l4, htail, l3, List.take_left' hfront, hhead, memoBytes]
    simp

/-- The memo depends on the characters before the NUL only. -/
theorem memoBytes_eq {l : List UInt8} (hl : l.length = 32) :
    memoBytes (l ++ [0]) = 1 :: UInt8.ofNat (cstr (l ++ [0])).length ::
      (cstr (l ++ [0]) ++ List.replicate (32 - (cstr (l ++ [0])).length) 0) := by
  have htake : (l ++ [0]).take 32 = l := List.take_left' hl
  have hcstr : cstr (l ++ [0]) = l.takeWhile (· ≠ 0) := by
    rw [cstr, List.takeWhile_append]
    split
    · rename_i h
      rw [List.takeWhile_cons_of_neg (by decide), List.append_nil]
      exact ((List.takeWhile_prefix _).eq_of_length h).symm
    · rfl
  have hlen : strnlen (l ++ [0]) 32 = (cstr (l ++ [0])).length := by
    rw [strnlen, htake, hcstr]
  have hchars : (l ++ [0]).take (cstr (l ++ [0])).length = cstr (l ++ [0]) :=
    (List.prefix_iff_eq_take.mp (List.takeWhile_prefix _)).symm
  rw [memoBytes, hlen, hchars]

/-- And determines them. -/
theorem memoBytes_inj {l m : List UInt8} (hl : l.length = 32) (hm : m.length = 32) :
    memoBytes (l ++ [0]) = memoBytes (m ++ [0]) ↔ cstr (l ++ [0]) = cstr (m ++ [0]) := by
  have hshort : ∀ {l : List UInt8}, l.length = 32 → (cstr (l ++ [0])).length ≤ 32 := by
    intro l hl
    have hle := strnlen_le (l ++ [0]) 32
    have htake : (l ++ [0]).take 32 = l := List.take_left' hl
    rw [cstr, List.takeWhile_append]
    split
    · simp [hl]
    · have := (List.takeWhile_prefix (p := fun b : UInt8 => decide (b ≠ 0)) (l := l)).length_le
      omega
  rw [memoBytes_eq hl, memoBytes_eq hm]
  refine ⟨fun h => ?_, fun h => by rw [h]⟩
  have hlen := congrArg UInt8.toNat (List.cons.inj (List.cons.inj h).2).1
  have h1 := hshort hl
  have h2 := hshort hm
  rw [UInt8.toNat_ofNat', UInt8.toNat_ofNat', Nat.mod_eq_of_lt (by omega),
    Nat.mod_eq_of_lt (by omega)] at hlen
  exact (List.append_inj (List.cons.inj (List.cons.inj h).2).2 hlen).1

/-! ## The layout -/

/-- The components in order, each lowest bit first. -/
def txBits (tx : Transaction) : List Bool :=
  bitsLE 64 tx.fee.toNat ++ (bitsLE 64 tx.fee_token.toNat ++ ([tx.fee_payer_pk.is_odd] ++
  (bitsLE 32 tx.nonce.toNat ++ (bitsLE 32 tx.valid_until.toNat ++
  (tx.memo.toList.flatMap (fun b => bitsLE 8 b.toNat) ++ (tx.tag.toList ++
  ([tx.source_pk.is_odd] ++ ([tx.receiver_pk.is_odd] ++ (bitsLE 64 tx.token_id.toNat ++
  (bitsLE 64 tx.amount.toNat ++ [tx.token_locked]))))))))))

def txFields (tx : Transaction) : List Field :=
  [tx.fee_payer_pk.x, tx.source_pk.x, tx.receiver_pk.x]

theorem length_txBits (tx : Transaction) : (txBits tx).length = 599 := by
  have hmemo : tx.memo.toList.length = 34 := Vector.length_toList
  simp [txBits, flatMap_bitsLE, hmemo]

/-- Every call of `transaction_to_roinput` finds room. -/
theorem transaction_to_roinput_spec (input : ROInput 3 TX_BITSTRINGS_BYTES) (tx : Transaction) :
    ∃ r, transaction_to_roinput input tx = .ok r ∧ r.WF ∧ r.fieldList = txFields tx ∧
      r.bitString = txBits tx ∧ r.fields_len = 3 ∧ r.bits_len = 599 := by
  have hmemo : tx.memo.toList.length = MEMO_BYTES := Vector.length_toList
  have happ := (@appender_field 3 TX_BITSTRINGS_BYTES tx.fee_payer_pk.x).comp <|
    (appender_field tx.source_pk.x).comp <|
    (appender_field tx.receiver_pk.x).comp <| (appender_uint64 tx.fee).comp <|
    (appender_uint64 tx.fee_token).comp <| (appender_bit tx.fee_payer_pk.is_odd).comp <|
    (appender_uint32 tx.nonce).comp <| (appender_uint32 tx.valid_until).comp <|
    (appender_bytes hmemo).comp <| (appender_bits tx.tag).comp <|
    (appender_bit tx.source_pk.is_odd).comp <| (appender_bit tx.receiver_pk.is_odd).comp <|
    (appender_uint64 tx.token_id).comp <| (appender_uint64 tx.amount).comp <|
    appender_bit tx.token_locked
  have hwf : (⟨input.fields, input.bits, 0, 0⟩ : ROInput 3 TX_BITSTRINGS_BYTES).WF :=
    ⟨Nat.zero_le _, Nat.zero_le _, by norm_num, by decide⟩
  have hds : [] ++ ([] ++ ([] ++ txBits tx)) = txBits tx := rfl
  have hmemoBits : bitsLE (8 * MEMO_BYTES) (leVal tx.memo.toList) =
      tx.memo.toList.flatMap (fun b => bitsLE 8 b.toNat) := by rw [flatMap_bitsLE, hmemo]
  rw [hmemoBits] at happ
  change Appender _ (txFields tx) (txBits tx) at happ
  obtain ⟨r, hr, hadd⟩ := happ ⟨input.fields, input.bits, 0, 0⟩ hwf (by simp [txFields])
    (by rw [length_txBits]; show 0 + 599 ≤ 8 * TX_BITSTRINGS_BYTES; decide)
  have hfields := hadd.fields
  have hbits := hadd.bits
  have h0 : (⟨input.fields, input.bits, 0, 0⟩ : ROInput 3 TX_BITSTRINGS_BYTES).fieldList = [] := rfl
  have h1 : (⟨input.fields, input.bits, 0, 0⟩ : ROInput 3 TX_BITSTRINGS_BYTES).bitString = [] := rfl
  rw [h0, List.nil_append] at hfields
  rw [h1, List.nil_append] at hbits
  have hfl := hadd.fields_len hwf
  have hbl := hadd.bits_len
  rw [length_txBits] at hbl
  refine ⟨r, hr, hadd.wf, hfields, hbits, by simpa [txFields] using hfl, by simpa using hbl⟩

/-! ## The layout loses nothing -/

theorem uint64_bits_inj {x y : UInt64} (h : bitsLE 64 x.toNat = bitsLE 64 y.toNat) : x = y :=
  UInt64.toNat_inj.mp (bitsLE_inj x.toNat_lt y.toNat_lt h)

theorem uint32_bits_inj {x y : UInt32} (h : bitsLE 32 x.toNat = bitsLE 32 y.toNat) : x = y :=
  UInt32.toNat_inj.mp (bitsLE_inj x.toNat_lt y.toNat_lt h)

theorem bytes_bits_inj {k : Nat} {a b : Vector UInt8 k}
    (h : a.toList.flatMap (fun b => bitsLE 8 b.toNat) =
      b.toList.flatMap (fun b => bitsLE 8 b.toNat)) : a = b := by
  rw [flatMap_bitsLE, flatMap_bitsLE, Vector.length_toList, Vector.length_toList] at h
  have hlt (v : Vector UInt8 k) : leVal v.toList < 2 ^ (8 * k) := by
    have := leVal_lt v.toList
    rwa [Vector.length_toList, show (256 : Nat) = 2 ^ 8 by norm_num, ← pow_mul] at this
  exact Vector.toList_inj.mp (leVal_inj (by simp) (bitsLE_inj (hlt a) (hlt b) h))

theorem append_bits_inj {k v w : Nat} {ds es : List Bool}
    (h : bitsLE k v ++ ds = bitsLE k w ++ es) : bitsLE k v = bitsLE k w ∧ ds = es :=
  List.append_inj h (by simp)

/-- The components can be read back from the fields and the bits. -/
theorem txBits_inj {t u : Transaction} (hf : txFields t = txFields u) (hb : txBits t = txBits u) :
    t = u := by
  obtain ⟨hfee, hb⟩ := append_bits_inj hb
  obtain ⟨htoken, hb⟩ := append_bits_inj hb
  obtain ⟨hpayer, hb⟩ := List.append_inj hb rfl
  obtain ⟨hnonce, hb⟩ := append_bits_inj hb
  obtain ⟨hvalid, hb⟩ := append_bits_inj hb
  obtain ⟨hmemo, hb⟩ := List.append_inj hb (by simp [flatMap_bitsLE])
  obtain ⟨htag, hb⟩ := List.append_inj hb (by simp)
  obtain ⟨hsource, hb⟩ := List.append_inj hb rfl
  obtain ⟨hreceiver, hb⟩ := List.append_inj hb rfl
  obtain ⟨hid, hb⟩ := append_bits_inj hb
  obtain ⟨hamount, hlocked⟩ := append_bits_inj hb
  have h1 := uint64_bits_inj hfee
  have h2 := uint64_bits_inj htoken
  have h3 := uint32_bits_inj hnonce
  have h4 := uint32_bits_inj hvalid
  have h5 := bytes_bits_inj hmemo
  have h6 := Vector.toList_inj.mp htag
  have h7 := uint64_bits_inj hid
  have h8 := uint64_bits_inj hamount
  obtain ⟨fee, fee_token, ⟨px, po⟩, nonce, valid, memo, tag, ⟨sx, so⟩, ⟨rx, ro⟩, id, amount,
    locked⟩ := t
  obtain ⟨fee', fee_token', ⟨px', po'⟩, nonce', valid', memo', tag', ⟨sx', so'⟩, ⟨rx', ro'⟩, id',
    amount', locked'⟩ := u
  simp_all [txFields]

/-- The bits alone determine everything but the x-coordinates. -/
theorem txBits_parts {t u : Transaction} (hb : txBits t = txBits u) :
    { t with
      fee_payer_pk := ⟨u.fee_payer_pk.x, t.fee_payer_pk.is_odd⟩
      source_pk := ⟨u.source_pk.x, t.source_pk.is_odd⟩
      receiver_pk := ⟨u.receiver_pk.x, t.receiver_pk.is_odd⟩ } = u := txBits_inj rfl hb

/-! ## The hashed message -/

/-- The nine elements. -/
def txHashFields (pub : Affine) (rx : Field) (tx : Transaction) : List Field :=
  txFields tx ++ [pub.x, pub.y, rx] ++ (chunks 254 3 (txBits tx)).map chunkField

theorem hashFields_of_tx {input msg : ROInput 3 TX_BITSTRINGS_BYTES} {tx : Transaction}
    (h : transaction_to_roinput input tx = .ok msg) (pub : Affine) (rx : Field) :
    hashFields msg pub rx = txHashFields pub rx tx := by
  obtain ⟨r, hr, -, hfields, hbits, -, hbl⟩ := transaction_to_roinput_spec input tx
  obtain rfl : r = msg := Except.ok.inj (hr.symm.trans h)
  rw [hashFields, hfields, hbits, hbl]
  rfl

/-- The message of a transaction takes nine elements. -/
theorem hash_message_of_tx (st : Stale) (input : ROInput 3 TX_BITSTRINGS_BYTES) (tx : Transaction)
    (out : Vector Field 9) {len : Nat} (hlen : 9 ≤ len) (pub : Affine) (rx : Field) :
    ∃ msg r, transaction_to_roinput input tx = .ok msg ∧
      roinput_hash_message st out len pub rx msg = .ok (9, r) ∧
      r.toList = txHashFields pub rx tx := by
  obtain ⟨msg, hmsg, hwf, -, -, hfl, hbl⟩ := transaction_to_roinput_spec input tx
  have hcount : msg.fields_len + 3 + chunkCount msg.bits_len = 9 := by rw [hfl, hbl]; rfl
  have hfit : msg.fields_len + 3 ≤ len := by omega
  obtain ⟨r, hr, hrtake⟩ := roinput_hash_message_spec st hwf (by norm_num) out hfit
    (le_of_eq hcount) pub rx
  rw [hcount] at hr hrtake
  refine ⟨msg, r, hmsg, hr, ?_⟩
  rw [List.take_of_length_le (by simp)] at hrtake
  rw [hrtake, hashFields_of_tx hmsg]

/-- The packed elements determine the bits. -/
theorem map_chunkField_inj {c : Nat} {l m : List Bool} (hlen : l.length = m.length)
    (hl : l.length ≤ 254 * c)
    (h : (chunks 254 c l).map chunkField = (chunks 254 c m).map chunkField) : l = m := by
  refine chunks_inj hlen hl ?_
  have hnum : ∀ l : List Bool, (chunks 254 c l).map leBits =
      ((chunks 254 c l).map chunkField).map num := fun l => by
    rw [List.map_map]
    refine List.map_congr_left fun ds hds => ?_
    exact (num_chunkField (length_of_mem_chunks hds)).symm
  rw [hnum, hnum, h]

theorem txHashFields_inj {pub : Affine} {rx : Field} {t u : Transaction}
    (h : txHashFields pub rx t = txHashFields pub rx u) : t = u := by
  rw [txHashFields, txHashFields, List.append_assoc, List.append_assoc] at h
  -- three fields, the key and rx, then the chunks
  obtain ⟨hf, hrest⟩ := List.append_inj h rfl
  obtain ⟨-, hchunks⟩ := List.append_inj hrest rfl
  exact txBits_inj hf (map_chunkField_inj (by rw [length_txBits, length_txBits])
    (by rw [length_txBits]; norm_num) hchunks)

/-- The nine elements hashed for a transaction determine it: any two memories,
any two transactions, one public key and one rx. -/
theorem hash_message_determines_transaction (t u : Transaction)
    (input input' : ROInput 3 TX_BITSTRINGS_BYTES) (st st' : Stale) (out out' : Vector Field 9)
    {len : Nat} (hlen : 9 ≤ len) (pub : Affine) (rx : Field) :
    ∃ msg msg' r r',
      transaction_to_roinput input t = .ok msg ∧ transaction_to_roinput input' u = .ok msg' ∧
      (msg.fields_len = 3 ∧ msg.bits_len = 599 ∧ msg.fieldList = txFields t ∧
        msg.bitString = txBits t) ∧
      roinput_hash_message st out len pub rx msg = .ok (9, r) ∧
      roinput_hash_message st' out' len pub rx msg' = .ok (9, r') ∧
      (r = r' → t = u) := by
  obtain ⟨msg, hmsg, hwf, hfields, hbits, hfl, hbl⟩ := transaction_to_roinput_spec input t
  obtain ⟨msg₁, r, hmsg₁, hr, hlist⟩ := hash_message_of_tx st input t out hlen pub rx
  obtain ⟨msg', r', hmsg', hr', hlist'⟩ := hash_message_of_tx st' input' u out' hlen pub rx
  obtain rfl : msg = msg₁ := Except.ok.inj (hmsg.symm.trans hmsg₁)
  refine ⟨msg, msg', r, r', hmsg, hmsg', ⟨hfl, hbl, hfields, hbits⟩, hr, hr', fun h => ?_⟩
  rw [h] at hlist
  exact txHashFields_inj (hlist.symm.trans hlist')

/-- A payment of 42 with fee 3, next to one of 43. -/
def sampleTx (amount : UInt64) : Transaction where
  fee := 3
  fee_token := 1
  fee_payer_pk := ⟨ofNum 1, false⟩
  nonce := 200
  valid_until := 10000
  memo := Vector.replicate MEMO_BYTES 0
  tag := #v[false, false, false]
  source_pk := ⟨ofNum 1, false⟩
  receiver_pk := ⟨ofNum 2, true⟩
  token_id := 1
  amount := amount
  token_locked := false

/-- Arrays filled with one byte. -/
def filledInput (b : UInt8) : ROInput 3 TX_BITSTRINGS_BYTES :=
  ⟨Vector.replicate 3 (Vector.replicate 32 b), Vector.replicate _ b, 0, 0⟩

theorem hash_message_determines_transaction_sample :
    ∃ msg msg' r r',
      transaction_to_roinput (filledInput 0) (sampleTx 42) = .ok msg ∧
      transaction_to_roinput (filledInput 255) (sampleTx 43) = .ok msg' ∧
      (msg.fields_len = 3 ∧ msg.bits_len = 599 ∧ msg.fieldList = txFields (sampleTx 42) ∧
        msg.bitString = txBits (sampleTx 42)) ∧
      roinput_hash_message ⟨fun _ => 0⟩ (Vector.replicate 9 (ofNum 0)) 288
        ⟨ofNum 1, ofNum 2⟩ (ofNum 3) msg = .ok (9, r) ∧
      roinput_hash_message ⟨fun _ => 1⟩ (Vector.replicate 9 (ofNum 0)) 288
        ⟨ofNum 1, ofNum 2⟩ (ofNum 3) msg' = .ok (9, r') ∧
      (r = r' → sampleTx 42 = sampleTx 43) :=
  hash_message_determines_transaction (sampleTx 42) (sampleTx 43) _ _ _ _ _ _ (by norm_num) _ _

/-! ## The derivation message -/

/-- The bits of a transaction's derivation message. -/
def txDeriveBits (kp : Keypair) (tx : Transaction) (network_id : UInt8) : List Bool :=
  (txFields tx ++ [kp.pub.x, kp.pub.y]).flatMap fieldBits ++ txBits tx ++ fieldBits kp.priv ++
    bitsLE 8 network_id.toNat

/-- The derivation message of a transaction takes 268 bytes. -/
theorem derive_message_of_tx (st : Stale) (input : ROInput 3 TX_BITSTRINGS_BYTES) (tx : Transaction)
    (out : Vector UInt8 268) (kp : Keypair) (network_id : UInt8) :
    ∃ msg r, transaction_to_roinput input tx = .ok msg ∧
      roinput_derive_message st out 268 kp msg network_id = .ok (268, r) ∧
      Appends out r 0 (txDeriveBits kp tx network_id) := by
  obtain ⟨msg, hmsg, hwf, hfields, hbits, hfl, hbl⟩ := transaction_to_roinput_spec input tx
  have hlen : deriveLen msg = 268 := by rw [deriveLen, hfl, hbl]
  obtain ⟨r, hr, happ⟩ := roinput_derive_message_spec st hwf (by norm_num) (by decide) out
    (le_of_eq hlen) (le_of_eq hlen) kp network_id
  rw [hlen] at hr
  rw [deriveBits, hfields, hbits] at happ
  exact ⟨msg, r, hmsg, hr, happ⟩

theorem length_txDeriveBits (kp : Keypair) (tx : Transaction) (network_id : UInt8) :
    (txDeriveBits kp tx network_id).length = 2137 := by
  have hf : ∀ f : Field, (fieldBits f).length = 255 := fun f => length_bitsLE _ _
  simp [txDeriveBits, txFields, length_txBits, hf]

theorem byte_bits_inj {a b : UInt8} (h : bitsLE 8 a.toNat = bitsLE 8 b.toNat) : a = b :=
  UInt8.toNat_inj.mp (bitsLE_inj a.toNat_lt b.toNat_lt h)

/-- What these bits say. -/
theorem txDeriveBits_eq_iff {kp : Keypair} {t u : Transaction} {m n : UInt8} :
    txDeriveBits kp t m = txDeriveBits kp u n ↔
      (txFields t).map fieldBits = (txFields u).map fieldBits ∧ txBits t = txBits u ∧ m = n := by
  have hf : ∀ f : Field, (fieldBits f).length = 255 := fun f => length_bitsLE _ _
  constructor
  · intro h
    -- five fields, the bits, the private key, the network
    obtain ⟨h, hnet⟩ := List.append_inj h (by simp [txFields, length_txBits, hf])
    obtain ⟨h, -⟩ := List.append_inj h (by simp [txFields, length_txBits, hf])
    obtain ⟨h, hbits⟩ := List.append_inj h (by simp [txFields, hf])
    simp only [txFields, List.cons_append, List.nil_append, List.flatMap_cons] at h
    obtain ⟨h1, h⟩ := List.append_inj h ((hf _).trans (hf _).symm)
    obtain ⟨h2, h⟩ := List.append_inj h ((hf _).trans (hf _).symm)
    obtain ⟨h3, -⟩ := List.append_inj h ((hf _).trans (hf _).symm)
    exact ⟨by simp only [txFields, List.map_cons, List.map_nil, h1, h2, h3], hbits,
      byte_bits_inj hnet⟩
  · rintro ⟨hfields, hbits, rfl⟩
    have hflat : (txFields t).flatMap fieldBits = (txFields u).flatMap fieldBits := by
      rw [List.flatMap_def, hfields, ← List.flatMap_def]
    rw [txDeriveBits, txDeriveBits, List.flatMap_append, List.flatMap_append, hflat, hbits]

/-- The 268 bytes are the same exactly when the networks, the bits and the low 255
bits of the fields are. -/
theorem derive_message_eq_iff {st st' : Stale} {input input' : ROInput 3 TX_BITSTRINGS_BYTES}
    {t u : Transaction} {msg msg' : ROInput 3 TX_BITSTRINGS_BYTES} {out r r' : Vector UInt8 268}
    {len len' : Int} {kp : Keypair} {m n : UInt8} (hmsg : transaction_to_roinput input t = .ok msg)
    (hmsg' : transaction_to_roinput input' u = .ok msg')
    (h : roinput_derive_message st out 268 kp msg m = .ok (len, r))
    (h' : roinput_derive_message st' out 268 kp msg' n = .ok (len', r')) :
    r = r' ↔ (txFields t).map fieldBits = (txFields u).map fieldBits ∧ txBits t = txBits u ∧
      m = n := by
  obtain ⟨msg₁, r₁, hmsg₁, hr₁, happ⟩ := derive_message_of_tx st input t out kp m
  obtain ⟨msg₂, r₂, hmsg₂, hr₂, happ'⟩ := derive_message_of_tx st' input' u out kp n
  obtain rfl : msg₁ = msg := Except.ok.inj (hmsg₁.symm.trans hmsg)
  obtain rfl : msg₂ = msg' := Except.ok.inj (hmsg₂.symm.trans hmsg')
  obtain ⟨-, rfl⟩ := Prod.mk.inj (Except.ok.inj (hr₁.symm.trans h))
  obtain ⟨-, rfl⟩ := Prod.mk.inj (Except.ok.inj (hr₂.symm.trans h'))
  rw [happ.eq_iff happ' (by rw [length_txDeriveBits, length_txDeriveBits]), txDeriveBits_eq_iff]

end MinaLedger
