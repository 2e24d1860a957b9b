import MinaLedger.L4App.Review

/-!
# The nonce forgets bit 255 of the x-coordinates

`roinput_to_bytes` writes `FIELD_BITS` = 255 bits of every field into the
message the nonce k is derived from. `roinput_to_fields` copies all 32 bytes of
it into the message the challenge e is hashed from. Nothing in between bounds
the x-coordinate of an address: `validate_address` compares a checksum and
`read_public_key_compressed` takes any 32 bytes. So two transactions that differ
in bit 255 of an x-coordinate share k and not e, and two signatures with one k
and two challenges give the private key away.

Counterexample: payments to `receiver` and to the address with the same bytes
but for the top bit of x.

The exact condition (`nonce_binds_iff`): the derivation message binds network
and challenge for two accepted requests unless they are alike in everything
that is signed but for bit 255 of the x-coordinates (`TopBitPair`). Below 2^255
it always does (`binds_of_lt`).
-/
namespace MinaLedger.Bugs.NonceTopBit
open Lib.Radix Lib.BitString

/-- If the derivation messages are the same, so are the network and the elements
hashed for the challenge, whatever the local arrays held. `derive_msg` has the same
content before both calls (`message_derive` clears it). -/
def NonceBinds (kp : Keypair) (tx tx' : tx_t) : Prop :=
  ∀ (st st' : Stale) (input input' msg msg' : ROInput 3 TX_BITSTRINGS_BYTES)
    (out : Vector UInt8 268) (p : Int × Vector UInt8 268),
    transaction_to_roinput input tx.tx = .ok msg →
    transaction_to_roinput input' tx'.tx = .ok msg' →
    roinput_derive_message st out 268 kp msg tx.network_id = .ok p →
    roinput_derive_message st' out 268 kp msg' tx'.network_id = .ok p →
    tx.network_id = tx'.network_id ∧
    ∀ (st₁ st₂ : Stale) (out₁ out₂ : Vector Field 9) (rx : Field),
      ∃ q, roinput_hash_message st₁ out₁ (9 * FIELD_BYTES) kp.pub rx msg = .ok q ∧
        roinput_hash_message st₂ out₂ (9 * FIELD_BYTES) kp.pub rx msg' = .ok q

/-! ## In terms of the transactions -/

/-- What the derivation message keeps of a transaction and its network. -/
structure SameDerived (tx tx' : tx_t) : Prop where
  fields : (txFields tx.tx).map fieldBits = (txFields tx'.tx).map fieldBits
  bits : txBits tx.tx = txBits tx'.tx
  network : tx.network_id = tx'.network_id

variable {tx tx' : tx_t}

theorem nonceBinds_iff_fields (kp : Keypair) :
    NonceBinds kp tx tx' ↔ (SameDerived tx tx' → txFields tx.tx = txFields tx'.tx) := by
  have hnine : 9 ≤ 9 * FIELD_BYTES := by decide
  constructor
  · intro h hsame
    obtain ⟨msg, r, hmsg, hr, -⟩ := derive_message_of_tx ⟨fun _ => 0⟩ (filledInput 0) tx.tx
      (Vector.replicate 268 0) kp tx.network_id
    obtain ⟨msg', r', hmsg', hr', -⟩ := derive_message_of_tx ⟨fun _ => 0⟩ (filledInput 0) tx'.tx
      (Vector.replicate 268 0) kp tx'.network_id
    obtain rfl : r = r' :=
      (derive_message_eq_iff hmsg hmsg' hr hr').mpr ⟨hsame.fields, hsame.bits, hsame.network⟩
    obtain ⟨q, hq, hq'⟩ := (h _ _ _ _ _ _ _ _ hmsg hmsg' hr hr').2 ⟨fun _ => 0⟩ ⟨fun _ => 0⟩
      (Vector.replicate 9 (ofNum 0)) (Vector.replicate 9 (ofNum 0)) (ofNum 0)
    obtain ⟨m, s, hm, hs, hlist⟩ := hash_message_of_tx ⟨fun _ => 0⟩ (filledInput 0) tx.tx
      (Vector.replicate 9 (ofNum 0)) hnine kp.pub (ofNum 0)
    obtain ⟨m', s', hm', hs', hlist'⟩ := hash_message_of_tx ⟨fun _ => 0⟩ (filledInput 0) tx'.tx
      (Vector.replicate 9 (ofNum 0)) hnine kp.pub (ofNum 0)
    obtain rfl : m = msg := Except.ok.inj (hm.symm.trans hmsg)
    obtain rfl : m' = msg' := Except.ok.inj (hm'.symm.trans hmsg')
    obtain rfl : s = s' := (Prod.mk.inj (Except.ok.inj
      ((hs.symm.trans hq).trans (hs'.symm.trans hq').symm))).2
    rw [txHashFields_inj (hlist.symm.trans hlist')]
  · intro h st st' input input' msg msg' out p hmsg hmsg' hp hp'
    obtain ⟨hfields, hbits, hnet⟩ := (derive_message_eq_iff hmsg hmsg' hp hp').mp rfl
    have htx : tx.tx = tx'.tx := txBits_inj (h ⟨hfields, hbits, hnet⟩) hbits
    refine ⟨hnet, fun st₁ st₂ out₁ out₂ rx => ?_⟩
    obtain ⟨m, s, hm, hs, hlist⟩ := hash_message_of_tx st₁ input tx.tx out₁ hnine kp.pub rx
    obtain ⟨m', s', hm', hs', hlist'⟩ := hash_message_of_tx st₂ input' tx'.tx out₂ hnine kp.pub rx
    obtain rfl : m = msg := Except.ok.inj (hm.symm.trans hmsg)
    obtain rfl : m' = msg' := Except.ok.inj (hm'.symm.trans hmsg')
    obtain rfl : s = s' := Vector.toList_inj.mp (by rw [hlist, hlist', htx])
    exact ⟨_, hs, hs'⟩

/-- With x-coordinates below 2^255 nothing is forgotten. -/
theorem binds_of_lt (kp : Keypair) (h : ∀ f ∈ txFields tx.tx, num f < 2 ^ 255)
    (h' : ∀ f ∈ txFields tx'.tx, num f < 2 ^ 255) : NonceBinds kp tx tx' := by
  refine (nonceBinds_iff_fields kp).mpr fun hsame => ?_
  have hfields := hsame.fields
  simp only [txFields, List.map_cons, List.map_nil, List.cons.injEq, and_true] at hfields
  have key : ∀ {a b : Field}, a ∈ txFields tx.tx → b ∈ txFields tx'.tx →
      fieldBits a = fieldBits b → a = b := fun ha hb he => by
    have hmod := fieldBits_eq_iff.mp he
    rw [Nat.mod_eq_of_lt (h _ ha), Nat.mod_eq_of_lt (h' _ hb)] at hmod
    exact num_inj hmod
  obtain ⟨hp, hs, hr⟩ := hfields
  rw [txFields, txFields, key (by simp [txFields]) (by simp [txFields]) hp,
    key (by simp [txFields]) (by simp [txFields]) hs,
    key (by simp [txFields]) (by simp [txFields]) hr]

/-! ## In terms of the requests -/

/-- The x-coordinate in the forty bytes of an address. -/
def xOf (bytes : List UInt8) : Nat := leVal ((bytes.drop 3).take 32)

/-- Two keys that differ in bit 255 of x at most. -/
structure SameButTop (bytes bytes' : List UInt8) : Prop where
  x : xOf bytes % 2 ^ 255 = xOf bytes' % 2 ^ 255
  odd : bytes.getD 35 0 = 0 ↔ bytes'.getD 35 0 = 0

/-- The forty bytes the `i`-th reading sees in an address field. -/
def keyBytes (st : Nat → Stale) (data : List UInt8) (i off : Nat) : List UInt8 :=
  seenBytes (st i) (addressField data off)

/-- Everything that is signed is the same but for bit 255 of the x-coordinates. -/
structure SameButTops (st st' : Nat → Stale) (data data' : List UInt8) : Prop where
  source : SameButTop (keyBytes st data 1 4) (keyBytes st' data' 1 4)
  payer : SameButTop (keyBytes st data 2 4) (keyBytes st' data' 2 4)
  receiver : SameButTop (keyBytes st data 4 59) (keyBytes st' data' 4 59)
  amount : numField data 114 8 = numField data' 114 8
  fee : numField data 122 8 = numField data' 122 8
  nonce : numField data 130 4 = numField data' 130 4
  valid_until : numField data 134 4 = numField data' 134 4
  memo : cstr (memoField data) = cstr (memoField data')
  tag : data.getD 170 0 = data'.getD 170 0
  network : data.getD 171 0 = data'.getD 171 0

/-- And one of these bits is not the same. -/
structure TopBitPair (st st' : Nat → Stale) (data data' : List UInt8) : Prop where
  same : SameButTops st st' data data'
  top : xOf (keyBytes st data 1 4) ≠ xOf (keyBytes st' data' 1 4) ∨
    xOf (keyBytes st data 2 4) ≠ xOf (keyBytes st' data' 2 4) ∨
    xOf (keyBytes st data 4 59) ≠ xOf (keyBytes st' data' 4 59)

/-- A request `parse_tx` accepted, with the keys in terms of the bytes seen. -/
structure Accepted (st : Nat → Stale) (data : List UInt8) (tx : tx_t) (ui : ui_t) : Prop where
  length : 172 ≤ data.length
  parsed : Parsed st data tx ui
  tag : tx.tag = PAYMENT_TX ∨ tx.tag = DELEGATION_TX
  source : tx.tx.source_pk = keyOf (keyBytes st data 1 4)
  payer : tx.tx.fee_payer_pk = keyOf (keyBytes st data 2 4)
  receiver : tx.tx.receiver_pk = keyOf (keyBytes st data 4 59)

theorem accepted_of_parse_tx {sha256 : List UInt8 → Vector UInt8 32} {st : Nat → Stale}
    {data : List UInt8} (hdata : 172 ≤ data.length) {dataLength : UInt8} {tx₀ tx : tx_t}
    {ui₀ ui : ui_t} (h : parse_tx sha256 st data dataLength tx₀ ui₀ = .ok (true, tx, ui)) :
    Accepted st data tx ui := by
  obtain ⟨hA, hP⟩ := parse_tx_true sha256 hdata h
  obtain ⟨hsource, hpayer, hreceiver⟩ := parsed_keys sha256 hA hP
  exact ⟨hdata, hP, hP.tag ▸ hA.tag, hsource, hpayer, hreceiver⟩

theorem sameButTop_iff {a b : List UInt8} : SameButTop a b ↔
    fieldBits (keyOf a).x = fieldBits (keyOf b).x ∧ (keyOf a).is_odd = (keyOf b).is_odd := by
  have hodd : (keyOf a).is_odd = (keyOf b).is_odd ↔ (a.getD 35 0 = 0 ↔ b.getD 35 0 = 0) := by
    rw [keyOf, keyOf, decide_eq_decide, not_iff_not]
  rw [fieldBits_eq_iff, num_keyOf, num_keyOf, hodd]
  exact ⟨fun h => ⟨h.x, h.odd⟩, fun h => ⟨h.1, h.2⟩⟩

/-- The three tag bits tell the two kinds apart. -/
theorem tag_eq_iff {a b : UInt8} (ha : a = PAYMENT_TX ∨ a = DELEGATION_TX)
    (hb : b = PAYMENT_TX ∨ b = DELEGATION_TX) :
    (#v[a &&& 0x01 != 0, a &&& 0x02 != 0, a &&& 0x04 != 0] : Vector Bool 3) =
      #v[b &&& 0x01 != 0, b &&& 0x02 != 0, b &&& 0x04 != 0] ↔ a = b := by
  rcases ha with rfl | rfl <;> rcases hb with rfl | rfl <;> decide

section Pair

variable {st st' : Nat → Stale} {data data' : List UInt8} {ui ui' : ui_t}
  (h : Accepted st data tx ui) (h' : Accepted st' data' tx' ui')

include h h'

theorem sameDerived_of_sameButTops (same : SameButTops st st' data data') :
    SameDerived tx tx' := by
  have hlen : ∀ {data : List UInt8}, 172 ≤ data.length → ((data.drop 138).take 32).length = 32 :=
    fun hd => by rw [List.length_take, List.length_drop]; omega
  obtain ⟨hsx, hso⟩ := sameButTop_iff.mp same.source
  obtain ⟨hpx, hpo⟩ := sameButTop_iff.mp same.payer
  obtain ⟨hrx, hro⟩ := sameButTop_iff.mp same.receiver
  rw [← h.source, ← h'.source] at hsx hso
  rw [← h.payer, ← h'.payer] at hpx hpo
  rw [← h.receiver, ← h'.receiver] at hrx hro
  have hmemo : tx.tx.memo = tx'.tx.memo := Vector.toList_inj.mp (by
    rw [h.parsed.memo, h'.parsed.memo]
    exact (memoBytes_inj (hlen h.length) (hlen h'.length)).mpr same.memo)
  have htag : tx.tx.tag = tx'.tx.tag := by
    rw [h.parsed.tagBits, h'.parsed.tagBits, h.parsed.tag, h'.parsed.tag, same.tag]
  refine ⟨?_, ?_, ?_⟩
  · simp only [txFields, List.map_cons, List.map_nil, hpx, hsx, hrx]
  · rw [txBits, txBits, h.parsed.fee, h'.parsed.fee, same.fee, h.parsed.fee_token,
      h'.parsed.fee_token, hpo, h.parsed.nonce, h'.parsed.nonce, same.nonce,
      h.parsed.valid_until, h'.parsed.valid_until, same.valid_until, hmemo, htag, hso, hro,
      h.parsed.token_id, h'.parsed.token_id, h.parsed.amount, h'.parsed.amount, same.amount,
      h.parsed.token_locked, h'.parsed.token_locked]
  · rw [h.parsed.network, h'.parsed.network, same.network]

theorem sameButTops_of_sameDerived (same : SameDerived tx tx') :
    SameButTops st st' data data' := by
  have hlen : ∀ {data : List UInt8}, 172 ≤ data.length → ((data.drop 138).take 32).length = 32 :=
    fun hd => by rw [List.length_take, List.length_drop]; omega
  have hparts := txBits_parts same.bits
  have hfields := same.fields
  simp only [txFields, List.map_cons, List.map_nil, List.cons.injEq, and_true] at hfields
  obtain ⟨hpx, hsx, hrx⟩ := hfields
  have hso : tx.tx.source_pk.is_odd = tx'.tx.source_pk.is_odd :=
    congrArg (fun t => t.source_pk.is_odd) hparts
  have hpo : tx.tx.fee_payer_pk.is_odd = tx'.tx.fee_payer_pk.is_odd :=
    congrArg (fun t => t.fee_payer_pk.is_odd) hparts
  have hro : tx.tx.receiver_pk.is_odd = tx'.tx.receiver_pk.is_odd :=
    congrArg (fun t => t.receiver_pk.is_odd) hparts
  have hmemo : tx.tx.memo = tx'.tx.memo := congrArg (fun t => t.memo) hparts
  have htag : tx.tx.tag = tx'.tx.tag := congrArg (fun t => t.tag) hparts
  rw [h.source, h'.source] at hsx hso
  rw [h.payer, h'.payer] at hpx hpo
  rw [h.receiver, h'.receiver] at hrx hro
  rw [h.parsed.tagBits, h'.parsed.tagBits, tag_eq_iff h.tag h'.tag, h.parsed.tag,
    h'.parsed.tag] at htag
  exact {
    source := sameButTop_iff.mpr ⟨hsx, hso⟩
    payer := sameButTop_iff.mpr ⟨hpx, hpo⟩
    receiver := sameButTop_iff.mpr ⟨hrx, hro⟩
    amount := by
      rw [← h.parsed.amount, ← h'.parsed.amount]
      exact congrArg (fun t => t.amount.toNat) hparts
    fee := by
      rw [← h.parsed.fee, ← h'.parsed.fee]
      exact congrArg (fun t => t.fee.toNat) hparts
    nonce := by
      rw [← h.parsed.nonce, ← h'.parsed.nonce]
      exact congrArg (fun t => t.nonce.toNat) hparts
    valid_until := by
      rw [← h.parsed.valid_until, ← h'.parsed.valid_until]
      exact congrArg (fun t => t.valid_until.toNat) hparts
    memo := by
      refine (memoBytes_inj (hlen h.length) (hlen h'.length)).mp ?_
      exact h.parsed.memo.symm.trans (hmemo ▸ h'.parsed.memo)
    tag := htag
    network := by rw [← h.parsed.network, ← h'.parsed.network, same.network] }

/-- The x-coordinates themselves. -/
theorem txFields_eq_iff : txFields tx.tx = txFields tx'.tx ↔
    xOf (keyBytes st data 1 4) = xOf (keyBytes st' data' 1 4) ∧
    xOf (keyBytes st data 2 4) = xOf (keyBytes st' data' 2 4) ∧
    xOf (keyBytes st data 4 59) = xOf (keyBytes st' data' 4 59) := by
  have hx : ∀ {a b : List UInt8}, (keyOf a).x = (keyOf b).x ↔ xOf a = xOf b := fun {a b} => by
    rw [xOf, xOf, ← num_keyOf, ← num_keyOf]
    exact ⟨fun he => by rw [he], num_inj⟩
  simp only [txFields, List.cons.injEq, and_true, h.source, h'.source, h.payer, h'.payer,
    h.receiver, h'.receiver, hx]
  constructor
  · rintro ⟨hp, hs, hr⟩
    exact ⟨hs, hp, hr⟩
  · rintro ⟨hs, hp, hr⟩
    exact ⟨hp, hs, hr⟩

theorem binds_iff (kp : Keypair) : NonceBinds kp tx tx' ↔ ¬TopBitPair st st' data data' := by
  rw [nonceBinds_iff_fields, txFields_eq_iff h h']
  constructor
  · rintro hbinds ⟨hsame, htop⟩
    obtain ⟨hs, hp, hr⟩ := hbinds (sameDerived_of_sameButTops h h' hsame)
    exact htop.elim (· hs) (·.elim (· hp) (· hr))
  · intro hno hsame
    by_contra hx
    refine hno ⟨sameButTops_of_sameDerived h h' hsame, ?_⟩
    by_contra htop
    rw [not_or, not_or, not_not, not_not, not_not] at htop
    exact hx htop

end Pair

/-- The exact condition, for every keypair and every two accepted requests. -/
theorem nonce_binds_iff (sha256 : List UInt8 → Vector UInt8 32) {st st' : Nat → Stale}
    {data data' : List UInt8} (hdata : 172 ≤ data.length) (hdata' : 172 ≤ data'.length)
    {dataLength dataLength' : UInt8} {tx₀ tx₀' tx tx' : tx_t} {ui₀ ui₀' ui ui' : ui_t}
    (h : parse_tx sha256 st data dataLength tx₀ ui₀ = .ok (true, tx, ui))
    (h' : parse_tx sha256 st' data' dataLength' tx₀' ui₀' = .ok (true, tx', ui'))
    (kp : Keypair) : NonceBinds kp tx tx' ↔ ¬TopBitPair st st' data data' :=
  binds_iff (accepted_of_parse_tx hdata h) (accepted_of_parse_tx hdata' h') kp

/-! ## Two payments with one nonce -/

/-- `receiver` with bit 255 of x set. -/
def receiverTop : List UInt8 := chars "B62qrcFstkpqXww1EkSGrqMCwCNho86kuqBd4FrAAUsPxNLjTEaPPxw"

/-- SHA-256 on the strings hashed for both. -/
def sha256Top (l : List UInt8) : Vector UInt8 32 :=
  let first : Vector UInt8 32 := #v[
      201, 140, 120, 166, 166, 61, 198, 215, 38, 99, 195, 67, 150, 128, 236, 139, 18, 243, 254, 137,
      34, 134, 229, 73, 126, 245, 97, 203, 234, 6, 145, 103]
  if l = receiverBytes.take 34 ++ [131, 1] then first
  else if l = first.toList then #v[
      8, 72, 241, 228, 97, 110, 83, 68, 13, 116, 76, 188, 164, 230, 228, 169, 108, 2, 234, 250, 111,
      44, 96, 90, 13, 42, 163, 3, 72, 147, 180, 154]
  else sha256Table l

theorem accepted_sha256Top (st : Stale) :
    validate_address sha256Top st (receiver ++ [0]) = .ok true ∧
    validate_address sha256Top st (receiverTop ++ [0]) = .ok true := by
  constructor <;>
    rw [validate_address_eq sha256Top (by decide +kernel) (by decide +kernel)] <;> decide +kernel

theorem length_receiverTop : receiverTop.length = 55 := by decide +kernel

/-- An empty stack. -/
def noStale (_ : Nat) : Stale := ⟨fun _ => 0⟩

/-- A payment of 42 is accepted. -/
theorem parse_payment {to_ : List UInt8} (hto : to_.length = 55)
    (hvalid : validate_address sha256Top (noStale 3) (to_ ++ [0]) = .ok true) :
    ∃ tx ui, parse_tx sha256Top noStale (request receiver to_ 42 PAYMENT_TX) 172 (filledTx 0)
      (filledUi 0) = .ok (true, tx, ui) := by
  have hA := acceptable_request length_receiver hto 42 PAYMENT_TX (accepted_sha256Top _).1 hvalid
    (.inl rfl)
  obtain ⟨tx, ui, hr, -⟩ := hA.parse_tx sha256Top
    (le_of_eq (length_request length_receiver hto 42 PAYMENT_TX).symm) (filledTx 0) (filledUi 0)
  exact ⟨tx, ui, hr⟩

theorem topBitPair_receiver : TopBitPair noStale noStale (request receiver receiver 42 PAYMENT_TX)
    (request receiver receiverTop 42 PAYMENT_TX) := by
  obtain ⟨hfrom, hto⟩ := request_addresses length_receiver length_receiver 42 PAYMENT_TX
  obtain ⟨hfrom', hto'⟩ := request_addresses length_receiver length_receiverTop 42 PAYMENT_TX
  have same : ∀ i, SameButTop (keyBytes noStale (request receiver receiver 42 PAYMENT_TX) i 4)
      (keyBytes noStale (request receiver receiverTop 42 PAYMENT_TX) i 4) := fun i => by
    rw [keyBytes, keyBytes, hfrom, hfrom']
    exact ⟨rfl, Iff.rfl⟩
  have hseen : seenBytes (noStale 4) (receiver ++ [0]) = receiverBytes ++ [1] ++
      (addressDecode receiver).drop 36 := by decide +kernel
  have hseen' : seenBytes (noStale 4) (receiverTop ++ [0]) = receiverBytes.take 34 ++ [131, 1] ++
      (addressDecode receiverTop).drop 36 := by decide +kernel
  -- behind the addresses the requests are the same bytes
  have hrest : ∀ {off : Nat}, 114 ≤ off → (request receiver receiver 42 PAYMENT_TX).drop off =
      (request receiver receiverTop 42 PAYMENT_TX).drop off := fun hoff => by
    rw [← Nat.add_sub_cancel' hoff, ← List.drop_drop, ← List.drop_drop,
      drop_request length_receiver length_receiver, drop_request length_receiver length_receiverTop]
  have hnum : ∀ {off : Nat} (k : Nat), 114 ≤ off →
      numField (request receiver receiver 42 PAYMENT_TX) off k =
      numField (request receiver receiverTop 42 PAYMENT_TX) off k := fun k hoff => by
    rw [numField, numField, hrest hoff]
  obtain ⟨-, -, htag, hnet⟩ := request_fields length_receiver length_receiver 42 PAYMENT_TX
  obtain ⟨-, -, htag', hnet'⟩ := request_fields length_receiver length_receiverTop 42 PAYMENT_TX
  refine ⟨{
    source := same 1
    payer := same 2
    receiver := ?_
    amount := hnum 8 le_rfl
    fee := hnum 8 (by norm_num)
    nonce := hnum 4 (by norm_num)
    valid_until := hnum 4 (by norm_num)
    memo := by rw [memoField, memoField, hrest (by norm_num)]
    tag := htag.trans htag'.symm
    network := hnet.trans hnet'.symm }, .inr (.inr ?_)⟩
  · rw [keyBytes, keyBytes, hto, hto', hseen, hseen']
    exact ⟨by decide +kernel, by decide +kernel⟩
  · rw [keyBytes, keyBytes, hto, hto', hseen, hseen']
    decide +kernel

/-- Both payments are accepted, and whatever the key is, their derivation messages are
the same while network or challenge are not. -/
theorem one_nonce_two_challenges :
    ∃ tx ui tx' ui',
      parse_tx sha256Top noStale (request receiver receiver 42 PAYMENT_TX) 172 (filledTx 0)
        (filledUi 0) = .ok (true, tx, ui) ∧
      parse_tx sha256Top noStale (request receiver receiverTop 42 PAYMENT_TX) 172 (filledTx 0)
        (filledUi 0) = .ok (true, tx', ui') ∧
      ∀ kp, ¬NonceBinds kp tx tx' := by
  obtain ⟨tx, ui, h⟩ := parse_payment length_receiver (accepted_sha256Top _).1
  obtain ⟨tx', ui', h'⟩ := parse_payment length_receiverTop (accepted_sha256Top _).2
  have hlen := le_of_eq (length_request length_receiver length_receiver 42 PAYMENT_TX).symm
  have hlen' := le_of_eq (length_request length_receiver length_receiverTop 42 PAYMENT_TX).symm
  refine ⟨tx, ui, tx', ui', h, h', fun kp hbinds => ?_⟩
  exact (binds_iff (accepted_of_parse_tx hlen h) (accepted_of_parse_tx hlen' h') kp).mp hbinds
    topBitPair_receiver

theorem nonce_binds_iff_receiver :
    ∃ tx ui tx' ui',
      parse_tx sha256Top noStale (request receiver receiver 42 PAYMENT_TX) 172 (filledTx 0)
        (filledUi 0) = .ok (true, tx, ui) ∧
      parse_tx sha256Top noStale (request receiver receiverTop 42 PAYMENT_TX) 172 (filledTx 0)
        (filledUi 0) = .ok (true, tx', ui') ∧
      ∀ kp, NonceBinds kp tx tx' ↔ ¬TopBitPair noStale noStale
        (request receiver receiver 42 PAYMENT_TX) (request receiver receiverTop 42 PAYMENT_TX) := by
  obtain ⟨tx, ui, h⟩ := parse_payment length_receiver (accepted_sha256Top _).1
  obtain ⟨tx', ui', h'⟩ := parse_payment length_receiverTop (accepted_sha256Top _).2
  have hlen := le_of_eq (length_request length_receiver length_receiver 42 PAYMENT_TX).symm
  have hlen' := le_of_eq (length_request length_receiver length_receiverTop 42 PAYMENT_TX).symm
  exact ⟨tx, ui, tx', ui', h, h', nonce_binds_iff sha256Top hlen hlen' h h'⟩

end MinaLedger.Bugs.NonceTopBit
