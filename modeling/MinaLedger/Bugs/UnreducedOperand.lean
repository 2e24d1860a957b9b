import MinaLedger.L2Crypto.Poseidon
import MinaLedger.L4App.SignTransaction

/-!
# An address can hold an x-coordinate that is not a field element

The SDK's modular arithmetic takes operands below the modulus, as
`field_negate` and `scalar_negate` say (crypto.c:169, 242: "Ledger API expects
inputs to be in range"). Every operand of `sign` is, but for one: the
x-coordinate of the receiver. `validate_address` compares a checksum, and
`read_public_key_compressed` copies the 32 bytes as they stand. They go into
the list that is hashed for the challenge, and `poseidon_update` adds each
element to the state with `cx_math_addm`.

Counterexample: the address of the bytes of `FIELD_MODULUS` itself.

The exact condition (`operandsReduced_iff`): the x-coordinate in the receiver's
address is below `FIELD_MODULUS`. The fee payer and the source are the signer's
own key, a packed element holds 254 bits, and the nonce and the private key are
cut to 254 bits.
-/
namespace MinaLedger.Bugs.UnreducedOperand
open Pasta Lib.Radix

/-! ## Arithmetic that looks at its operands -/

/-- Faults unless the operands are below the modulus; exponents are not looked at. -/
def checked (cx : Cx) : Cx where
  addm a b m := if num a < num m ∧ num b < num m then cx.addm a b m else .error .undefined
  subm a b m := if num a < num m ∧ num b < num m then cx.subm a b m else .error .undefined
  multm a b m := if num a < num m ∧ num b < num m then cx.multm a b m else .error .undefined
  powm a e m := if num a < num m then cx.powm a e m else .error .undefined
  invprimem a m := if num a < num m then cx.invprimem a m else .error .undefined

/-- Exponents as well. -/
def strict (cx : Cx) : Cx :=
  { checked cx with
    powm a e m := if num a < num m ∧ num e < num m then cx.powm a e m else .error .undefined }

section Property

variable {fc bc : Nat}

/-- Every operand `sign` hands to the arithmetic is below the modulus of the call: with the
arithmetic that faults otherwise it returns. In particular the elements hashed are
below `FIELD_MODULUS`, and the nonce, the private key and the digest below `GROUP_ORDER`. -/
structure OperandsReduced (cx : Cx) (blake2b : List UInt8 → Vector UInt8 32) (pos : State)
    (st : Nat → Stale) (kp : Keypair) (msg : ROInput fc bc) (network_id : UInt8) : Prop where
  operands : ∃ r, sign (strict cx) blake2b (poseidon_hash (strict cx) pos) st kp msg network_id =
    .ok r
  hashed : ∀ (out : Vector Field 9) (rx : Field), num rx < num FIELD_MODULUS → ∀ len r,
    roinput_hash_message (st 1) out (9 * FIELD_BYTES) kp.pub rx msg = .ok (len, r) →
    ∀ a ∈ r.toList.take len.toNat, num a < num FIELD_MODULUS
  nonce : ∀ k, message_derive blake2b (st 0) kp msg network_id = .ok (some k) →
    num k < num GROUP_ORDER
  priv : num kp.priv < num GROUP_ORDER
  digest : ∀ rx, num rx < num FIELD_MODULUS → ∀ e,
    message_hash (poseidon_hash cx pos) (st 1) kp.pub rx msg network_id = .ok (some e) →
    num e < num GROUP_ORDER

end Property

/-! ## On reduced operands nothing changes -/

section Checked

variable (cx : Cx)

theorem checked_exact {cx : Cx} (h : cx.Exact) : (checked cx).Exact where
  addm a b m ha hb := (if_pos ⟨ha, hb⟩).trans (h.addm a b m ha hb)
  subm a b m ha hb := (if_pos ⟨ha, hb⟩).trans (h.subm a b m ha hb)
  multm a b m ha hb := (if_pos ⟨ha, hb⟩).trans (h.multm a b m ha hb)
  powm a e m ha := (if_pos ha).trans (h.powm a e m ha)
  invprimem a m hm h0 ha := by
    obtain ⟨r, hr, hlt⟩ := h.invprimem a m hm h0 ha
    exact ⟨r, (if_pos ha).trans hr, hlt⟩

/-- Only the S-box raises to a power, and its exponent is 5. -/
theorem sbox_strict : sbox (strict cx) = sbox (checked cx) := by
  funext x
  simp only [sbox, field_pow, strict, checked, FIELD_FIVE_lt, and_true]

theorem poseidon_permutation_strict :
    poseidon_permutation (strict cx) = poseidon_permutation (checked cx) := by
  have hsboxes : sboxes (strict cx) = sboxes (checked cx) := by
    funext s; rw [sboxes, sboxes, sbox_strict]
  have hround : fullRound (strict cx) = fullRound (checked cx) := by
    funext s r; rw [fullRound, fullRound, hsboxes]; rfl
  funext s
  rw [poseidon_permutation, poseidon_permutation, hround]
  rfl

theorem poseidon_hash_strict (pos : State) :
    poseidon_hash (strict cx) pos = poseidon_hash (checked cx) pos := by
  funext network_id l
  rw [poseidon_hash, poseidon_hash, poseidon_update, poseidon_update, poseidon_permutation_strict]
  rfl

theorem sign_strict {fc bc : Nat} :
    @sign fc bc (strict cx) = @sign fc bc (checked cx) := rfl

end Checked

/-! ## The sponge on an unreduced element -/

section Sponge

variable {cx : Cx}

theorem field_add_checked (a : Field) {v : Field} (hv : ¬num v < fieldModulus) :
    field_add (checked cx) a v = .error .undefined :=
  if_neg fun h => hv (num_FIELD_MODULUS ▸ h.2)

/-- The elements before it are absorbed, and then the addition faults. -/
theorem poseidon_update_checked (h : cx.Exact) : ∀ (l : List Field) (x : Fin 3 → Fp),
    ¬(∀ a ∈ l, num a < fieldModulus) →
    poseidon_update (checked cx) (encodeState x) l l.length = .error .undefined
  | [], _, hl => absurd (fun _ ha => absurd ha List.not_mem_nil) hl
  | [a], x, hl => by
    have ha : ¬num a < fieldModulus := by simpa using hl
    rw [List.length_singleton, poseidon_update_singleton, encodeState, absorb_zero,
      field_add_checked _ ha]
    rfl
  | a :: b :: l, x, hl => by
    have hcx := checked_exact h
    rw [poseidon_update_cons_cons]
    by_cases ha : num a < fieldModulus
    · rw [absorb_zero_encode hcx x ha, ok_bind]
      by_cases hb : num b < fieldModulus
      · rw [absorb_one_encode hcx _ hb, ok_bind, poseidon_permutation_encode hcx, ok_bind]
        refine poseidon_update_checked h l _ fun hrest => hl fun c hc => ?_
        rcases List.mem_cons.mp hc with rfl | hc
        · exact ha
        · rcases List.mem_cons.mp hc with rfl | hc
          · exact hb
          · exact hrest c hc
      · rw [encodeState, absorb_one, field_add_checked _ hb]
        rfl
    · rw [encodeState, absorb_zero, field_add_checked _ ha]
      rfl

theorem poseidon_hash_checked (h : cx.Exact) (pos : State) {network_id : UInt8}
    (hid : network_id = TESTNET_ID ∨ network_id = MAINNET_ID) {l : List Field}
    (hl : ¬∀ a ∈ l, num a < fieldModulus) :
    poseidon_hash (checked cx) pos network_id l = .error .undefined := by
  obtain ⟨x, hx⟩ := poseidon_init_encode pos hid
  simp only [poseidon_hash, hx, poseidon_update_checked h l x hl, error_bind]

end Sponge

/-! ## Signing -/

section Sign

variable {fc bc : Nat} {cx : Cx} (h : cx.Exact) {blake2b : List UInt8 → Vector UInt8 32}
  {pos : State} {st : Nat → Stale} {kp : Keypair} {msg : ROInput fc bc} (hfit : msg.Fits)
  {network_id : UInt8} (hid : network_id = TESTNET_ID ∨ network_id = MAINNET_ID)
  (hpub : kp.pub.Valid)

include h hfit hid hpub

/-- The fields of the message decide. -/
theorem operandsReduced_iff_fields (hpriv : num kp.priv < groupOrder) :
    OperandsReduced cx blake2b pos st kp msg network_id ↔
      ∀ a ∈ msg.fieldList, num a < fieldModulus := by
  have hcx := checked_exact h
  constructor
  · rintro ⟨⟨r, hr⟩, -, -, -, -⟩
    by_contra hl
    obtain ⟨rx, hrx, k, hrun⟩ := sign_run hfit hcx blake2b (poseidon_hash (checked cx) pos) st kp
      network_id
    have hfault := poseidon_hash_checked h pos hid (mt (hashFields_lt_iff hpub hrx).mp hl)
    rw [sign_strict, poseidon_hash_strict, hrun, hfault] at hr
    exact absurd hr (by simp [catchOther])
  · intro hl
    have hdigest : ∀ {cx : Cx}, cx.Exact → ∀ rx, num rx < fieldModulus →
        ∃ d, poseidon_hash cx pos network_id (hashFields msg kp.pub rx) = .ok d ∧
          num d < fieldModulus := fun hcx rx hrx => by
      obtain ⟨x, hx⟩ := poseidon_hash_encode hcx pos hid ((hashFields_lt_iff hpub hrx).mpr hl)
      exact ⟨_, hx, by rw [num_encode num_FIELD_MODULUS]; exact ZMod.val_lt x⟩
    constructor
    · obtain ⟨sig, hsig⟩ := sign_of_digest hfit hcx blake2b st (hdigest hcx) hpriv
      exact ⟨_, by rw [sign_strict, poseidon_hash_strict, hsig]⟩
    · intro out rx hrx len r hr a ha
      rw [num_FIELD_MODULUS] at hrx ⊢
      obtain ⟨r', hr', htake⟩ := roinput_hash_message_of_fits hfit (st 1) out kp.pub rx
      obtain ⟨rfl, rfl⟩ := Prod.mk.inj (Except.ok.inj (hr.symm.trans hr'))
      rw [Int.toNat_natCast, htake] at ha
      exact (hashFields_lt_iff hpub hrx).mpr hl a ha
    · intro k hk
      rw [num_GROUP_ORDER]
      exact message_derive_lt hk
    · rw [num_GROUP_ORDER]
      exact hpriv
    · intro rx hrx e he
      rw [num_FIELD_MODULUS] at hrx
      obtain ⟨d, hd, hlt⟩ := hdigest h rx hrx
      rw [message_hash_of_fits hfit, hd] at he
      obtain rfl := Option.some.inj (Except.ok.inj he)
      rw [num_GROUP_ORDER]
      exact hlt.trans fieldModulus_lt_groupOrder

end Sign

/-- The x-coordinate in the receiver's address of a request, by the bytes its reading sees. -/
def receiverX (st : Nat → Stale) (data : List UInt8) : Nat :=
  leVal (((seenBytes (st 4) (addressField data 59)).drop 3).take 32)

section Request

variable {sha256 : List UInt8 → Vector UInt8 32} {stp : Nat → Stale} {data : List UInt8}
  {dataLength : UInt8} {tx₁ : tx_t} {ui₁ : ui_t}

theorem receiver_pk_eq (hA : Acceptable sha256 stp data dataLength) (hP : Parsed stp data tx₁ ui₁) :
    num tx₁.tx.receiver_pk.x = receiverX stp data := by
  rw [(parsed_keys sha256 hA hP).2.2, num_keyOf, receiverX]

/-- The first two fields are the signer's own, so the receiver decides. -/
theorem operandsReduced_iff_of_parsed {cx : Cx} (h : cx.Exact)
    {blake2b : List UInt8 → Vector UInt8 32} {bytes : Vector UInt8 32}
    (hA : Acceptable sha256 stp data dataLength) (hP : Parsed stp data tx₁ ui₁)
    (hfrom : ui₁.from_.toList = addressText sha256 (keypairOf bytes).pub.x
      (oddByte (field_is_odd (keypairOf bytes).pub.y)) ++ [0])
    {input msg : ROInput 3 TX_BITSTRINGS_BYTES}
    (hmsg : transaction_to_roinput input tx₁.tx = .ok msg) (pos : State) (st : Nat → Stale) :
    OperandsReduced cx blake2b pos st (keypairOf bytes) msg tx₁.network_id ↔
      receiverX stp data < num FIELD_MODULUS := by
  have hpub : (keypairOf bytes).pub.Valid := affineOf_valid _
  have hid : tx₁.network_id = TESTNET_ID ∨ tx₁.network_id = MAINNET_ID := by
    rw [hP.network]; exact hA.network
  obtain ⟨hsource, hpayer⟩ := own_keys hP hfrom
  obtain ⟨msg', hmsg', -, hfields, -⟩ := transaction_to_roinput_spec input tx₁.tx
  obtain rfl : msg' = msg := Except.ok.inj (hmsg'.symm.trans hmsg)
  rw [operandsReduced_iff_fields h (roinput_fits hmsg) hid hpub (scalar_from_bytes_lt bytes), hfields,
    txFields, hpayer, hsource, num_FIELD_MODULUS, ← receiver_pk_eq hA hP]
  have hx := hpub.x_lt
  simp [hx]

end Request

/-- For a derived keypair and an accepted request from its address, every operand `sign` hands
to the arithmetic is reduced exactly when the x-coordinate in the receiver's address is
below `FIELD_MODULUS`. -/
theorem operandsReduced_iff {cx : Cx} (h : cx.Exact) (sha256 blake2b : List UInt8 → Vector UInt8 32)
    {derive : Derive} {account : UInt32} {kp : Keypair}
    (hkp : generate_keypair cx derive account = .ok kp) {stp : Nat → Stale} {data : List UInt8}
    (hdata : 172 ≤ data.length) {dataLength : UInt8} {tx₀ tx₁ : tx_t} {ui₀ ui₁ : ui_t}
    (hparse : parse_tx sha256 stp data dataLength tx₀ ui₀ = .ok (true, tx₁, ui₁)) {sta : Stale}
    {buf : Vector UInt8 MINA_ADDRESS_LEN}
    (haddr : generate_address sha256 sta buf MINA_ADDRESS_LEN kp.pub = .ok (true, ui₁.from_))
    {input msg : ROInput 3 TX_BITSTRINGS_BYTES}
    (hmsg : transaction_to_roinput input tx₁.tx = .ok msg) (pos : State) (st : Nat → Stale) :
    OperandsReduced cx blake2b pos st kp msg tx₁.network_id ↔
      receiverX stp data < num FIELD_MODULUS := by
  obtain ⟨hA, hP⟩ := parse_tx_true sha256 hdata hparse
  obtain ⟨bytes, hd, -⟩ := bind_ok hkp
  obtain rfl : kp = keypairOf bytes := Except.ok.inj (hkp.symm.trans (generate_keypair_eq h hd))
  -- the text that was parsed is the text of the key's address
  obtain ⟨r, hr, hfrom⟩ := generate_address_eq sha256 sta buf (keypairOf bytes).pub
  obtain rfl : ui₁.from_ = r := (Prod.mk.inj (Except.ok.inj (haddr.symm.trans hr))).2
  exact operandsReduced_iff_of_parsed h hA hP hfrom hmsg pos st

/-! ## The private key 1 -/

/-- Its address on the network. -/
def ownAddress : List UInt8 := chars "B62qiVGZQdBJJrxnzhvqp7LKe6jDiFcpU3cF5xHoZof5Pz9qiL85KLx"

/-- The address whose x-coordinate is `FIELD_MODULUS`. -/
def modulusAddress : List UInt8 := chars "B62qiVGZQePkxzhSLdHqK2t7ajZcXW7panxu22z3W9uvvxVfQzJHMAy"

/-- SHA-256 on the strings hashed for both. -/
def sha256Two (l : List UInt8) : Vector UInt8 32 :=
  let own : Vector UInt8 32 := #v[
      227, 205, 195, 94, 236, 154, 151, 34, 90, 255, 163, 201, 159, 116, 176, 23, 172, 61, 210, 28,
      43, 150, 130, 47, 139, 174, 127, 79, 142, 21, 22, 170]
  let modulus : Vector UInt8 32 := #v[
      18, 223, 52, 129, 29, 66, 79, 239, 244, 99, 75, 16, 93, 122, 202, 17, 99, 205, 130, 164, 21,
      137, 139, 172, 8, 178, 34, 64, 115, 197, 239, 166]
  if l = addressBody (ofNum 1) 1 then own
  else if l = own.toList then #v[
      196, 19, 178, 61, 35, 32, 251, 115, 23, 9, 238, 82, 173, 38, 134, 152, 201, 103, 248, 85, 16,
      80, 197, 171, 214, 236, 118, 58, 6, 168, 120, 134]
  else if l = addressBody FIELD_MODULUS 0 then modulus
  else if l = modulus.toList then #v[
      81, 87, 103, 2, 124, 71, 56, 208, 170, 93, 55, 134, 118, 137, 0, 132, 68, 97, 152, 35, 27, 222,
      147, 212, 138, 185, 89, 120, 169, 28, 223, 207]
  else Vector.replicate 32 0

theorem ownAddress_eq :
    addressText sha256Two unitKeypair.pub.x (oddByte (field_is_odd unitKeypair.pub.y)) =
      ownAddress := by decide +kernel

theorem modulusAddress_eq : addressText sha256Two FIELD_MODULUS 0 = modulusAddress := by
  decide +kernel

/-- A payment of 42 from the own address to the address of some x-coordinate. -/
theorem parse_own {x : Field} {odd : UInt8} {to_ : List UInt8}
    (hto : addressText sha256Two x odd = to_) :
    172 ≤ (request ownAddress to_ 42 PAYMENT_TX).length ∧
    Acceptable sha256Two cleanStack (request ownAddress to_ 42 PAYMENT_TX) 172 ∧
    ∃ tx ui, parse_tx sha256Two cleanStack (request ownAddress to_ 42 PAYMENT_TX) 172 .boot .boot =
        .ok (true, tx, ui) ∧
      Parsed cleanStack (request ownAddress to_ 42 PAYMENT_TX) tx ui ∧
      generate_address sha256Two (cleanStack 0) ui.from_ MINA_ADDRESS_LEN unitKeypair.pub =
        .ok (true, ui.from_) ∧
      tx.tx.receiver_pk.x = x := by
  have hown : ownAddress.length = 55 := ownAddress_eq ▸ length_addressText sha256Two _ _
  have hlen : to_.length = 55 := hto ▸ length_addressText sha256Two _ _
  have hreadOwn := read_addressText sha256Two _ _ (congrArg (· ++ [0]) ownAddress_eq.symm)
  have hread := read_addressText sha256Two x odd (congrArg (· ++ [0]) hto.symm)
  have hdata := le_of_eq (length_request hown hlen 42 PAYMENT_TX).symm
  have hA := acceptable_request hown hlen 42 PAYMENT_TX (hreadOwn (cleanStack 0) ⟨ofNum 0, false⟩).1
    (hread (cleanStack 3) ⟨ofNum 0, false⟩).1 (.inl rfl)
  obtain ⟨tx, ui, hparse, hP⟩ := hA.parse_tx sha256Two hdata .boot .boot
  obtain ⟨hfrom, hto'⟩ := request_addresses hown hlen 42 PAYMENT_TX
  obtain ⟨r, hr, hlist⟩ := generate_address_eq sha256Two (cleanStack 0) ui.from_ unitKeypair.pub
  rw [ownAddress_eq, ← hfrom, ← hP.from_] at hlist
  obtain rfl : r = ui.from_ := Vector.toList_inj.mp hlist
  obtain ⟨pk, hpk⟩ := hP.receiver
  rw [hto'] at hpk
  refine ⟨hdata, hA, tx, ui, hparse, hP, hr, ?_⟩
  rw [Except.ok.inj (hpk.symm.trans (hread _ _).2)]

/-- Paying to itself it signs with reduced operands alone. -/
theorem operandsReduced_iff_own :
    ∃ tx ui msg, parse_tx sha256Two cleanStack (request ownAddress ownAddress 42 PAYMENT_TX) 172
        .boot .boot = .ok (true, tx, ui) ∧
      transaction_to_roinput tx.input tx.tx = .ok msg ∧
      OperandsReduced Cx.reference zeroHash TESTNET_IV cleanStack unitKeypair msg tx.network_id := by
  obtain ⟨hdata, hA, tx, ui, hparse, hP, haddr, hx⟩ := parse_own ownAddress_eq
  obtain ⟨msg, hmsg, -⟩ := transaction_to_roinput_spec tx.input tx.tx
  have hlt : receiverX cleanStack (request ownAddress ownAddress 42 PAYMENT_TX) <
      num FIELD_MODULUS := by
    rw [← receiver_pk_eq hA hP, hx]; decide +kernel
  exact ⟨tx, ui, msg, hparse, hmsg, (operandsReduced_iff Cx.reference_exact sha256Two zeroHash
    (unitEnv_keypair 0) hdata hparse haddr hmsg TESTNET_IV cleanStack).mpr hlt⟩

/-- **Counterexample**: the payment to `modulusAddress` is accepted, and the key it is from
signs it with an unreduced operand. -/
theorem sign_passes_unreduced :
    ∃ tx ui msg, parse_tx sha256Two cleanStack (request ownAddress modulusAddress 42 PAYMENT_TX) 172
        .boot .boot = .ok (true, tx, ui) ∧
      generate_keypair Cx.reference unitEnv.derive tx.account = .ok unitKeypair ∧
      generate_address sha256Two (cleanStack 0) ui.from_ MINA_ADDRESS_LEN unitKeypair.pub =
        .ok (true, ui.from_) ∧
      transaction_to_roinput tx.input tx.tx = .ok msg ∧
      tx.tx.receiver_pk.x = FIELD_MODULUS ∧
      ∀ blake2b pos st,
        ¬OperandsReduced Cx.reference blake2b pos st unitKeypair msg tx.network_id := by
  obtain ⟨-, hA, tx, ui, hparse, hP, haddr, hx⟩ := parse_own modulusAddress_eq
  obtain ⟨msg, hmsg, -⟩ := transaction_to_roinput_spec tx.input tx.tx
  refine ⟨tx, ui, msg, hparse, unitEnv_keypair _, haddr, hmsg, hx, fun blake2b pos st hred => ?_⟩
  rw [← keypairOf_one] at haddr hred
  obtain ⟨r, hr, hfrom⟩ := generate_address_eq sha256Two (cleanStack 0) ui.from_ (keypairOf (ofNum 1)).pub
  obtain rfl : ui.from_ = r := (Prod.mk.inj (Except.ok.inj (haddr.symm.trans hr))).2
  have hlt := (operandsReduced_iff_of_parsed Cx.reference_exact hA hP hfrom hmsg pos st).mp hred
  rw [← receiver_pk_eq hA hP, hx] at hlt
  exact lt_irrefl _ hlt

end MinaLedger.Bugs.UnreducedOperand
