import MinaLedger.L2Crypto.Keypair
import MinaLedger.L2Crypto.Poseidon
import MinaLedger.L4App.SignTx

/-!
# Signing the parsed transaction

The `TRY` block of `sign_transaction` in src/src/sign_tx.c: derive the keypair
of the account, compare the text of its address with the `from` text on screen,
build the random-oracle input and sign it.

Results:
* `trySign_signs`: a derived key whose address is the text on screen signs, if what is
  hashed has a digest; `digests_of_reduced`: the sponge has one for reduced keys.
* `trySign_returns`: with a digest for everything the block ends, with a signature
  exactly when the key can be derived and its address is the text on screen.
* `trySign_congr`: what the arrays of `_tx`, the other texts and the stack hold does
  not matter.
* `signs_own_key`: the fee payer and the source of what is signed are the
  compression of the signing key.
-/
namespace MinaLedger
open Pasta Lib.Radix Lib.BitString

/-- What the application is linked with: the SDK's arithmetic, hash functions and
key derivation, the Poseidon digest, and the version of the build. -/
structure Env where
  cx : Cx
  sha256 : List UInt8 → Vector UInt8 32
  blake2b : List UInt8 → Vector UInt8 32
  poseidon : UInt8 → List Field → Exec Field
  derive : Derive
  version : Vector UInt8 3

/-- A `TRY` block whose exception is looked at afterwards. -/
def attempt {α : Type} (x : Exec α) : Exec (Except Nat α) :=
  match x with
  | .ok a => .ok (.ok a)
  | .error (.thrown e) => .ok (.error e)
  | .error .undefined => .error .undefined
  | .error .outOfFuel => .error .outOfFuel

/-- The input over the arrays of `_tx`; `transaction_to_roinput` sets the lengths.
mirrors src/src/sign_tx.c:35-38 -/
def tx_t.input (_tx : tx_t) : ROInput 3 TX_BITSTRINGS_BYTES := ⟨_tx.input_fields, _tx.input_bits, 0, 0⟩

section Functions

variable (env : Env)

/-- `_tx` with its arrays written, and the signature; `none` is `error = true`.
mirrors src/src/sign_tx.c:22-53 -/
def trySign (st : Nat → Stale) (_tx : tx_t) (_ui : ui_t) : Exec (tx_t × Option Signature) := do
  match ← attempt (generate_keypair env.cx env.derive _tx.account) with
  | .error _ => return (_tx, none)
  | .ok kp =>
    let (ok, address) ← generate_address env.sha256 (st 1) ((st 0).array MINA_ADDRESS_LEN) MINA_ADDRESS_LEN kp.pub
    if !ok then
      return (_tx, none)
    if address.toList ≠ _ui.from_.toList then
      return (_tx, none)
    -- create random oracle input from transaction
    let roinput ← transaction_to_roinput _tx.input _tx.tx
    let _tx := { _tx with input_fields := roinput.fields, input_bits := roinput.bits }
    let sig ← sign env.cx env.blake2b env.poseidon (fun i => st (2 + i)) kp roinput _tx.network_id
    return (_tx, sig)

end Functions

/-! ## The input -/

/-- The text of the address of a keypair, with its NUL. -/
def Env.addressOf (env : Env) (kp : Keypair) : List UInt8 :=
  addressText env.sha256 kp.pub.x (oddByte (field_is_odd kp.pub.y)) ++ [0]

/-- `generate_address` writes it, into any buffer. -/
theorem generate_address_of (env : Env) (st : Stale) (buf : Vector UInt8 MINA_ADDRESS_LEN)
    (kp : Keypair) : ∃ address,
      generate_address env.sha256 st buf MINA_ADDRESS_LEN kp.pub = .ok (true, address) ∧
      address.toList = env.addressOf kp :=
  generate_address_eq env.sha256 st buf kp.pub

/-- The input of a transaction fits the arrays `sign` hashes from. -/
theorem roinput_fits {input msg : ROInput 3 TX_BITSTRINGS_BYTES} {tx : Transaction}
    (h : transaction_to_roinput input tx = .ok msg) : msg.Fits := by
  obtain ⟨r, hr, hwf, -, -, hfl, hbl⟩ := transaction_to_roinput_spec input tx
  obtain rfl : r = msg := Except.ok.inj (hr.symm.trans h)
  exact {
    wf := hwf
    fc_lt := by norm_num
    bc_lt := by decide
    derive := by rw [deriveLen, hfl, hbl]
    hash := by rw [hfl, hbl]; decide }

/-- The same transaction, the same account, the same network: all that a review fixes. -/
structure SameTx (t u : tx_t) : Prop where
  account : t.account = u.account
  network : t.network_id = u.network_id
  tx : t.tx = u.tx

theorem SameTx.refl (t : tx_t) : SameTx t t := ⟨rfl, rfl, rfl⟩

theorem SameTx.trans {t u v : tx_t} (h : SameTx t u) (h' : SameTx u v) : SameTx t v :=
  ⟨h.account.trans h'.account, h.network.trans h'.network, h.tx.trans h'.tx⟩

/-- What the arrays held before does not show in the signature. -/
theorem sign_roinput_congr (env : Env) (st st' : Nat → Stale) (kp : Keypair) (id : UInt8)
    {input input' msg msg' : ROInput 3 TX_BITSTRINGS_BYTES} {tx : Transaction}
    (h : transaction_to_roinput input tx = .ok msg)
    (h' : transaction_to_roinput input' tx = .ok msg') :
    sign env.cx env.blake2b env.poseidon st kp msg id =
      sign env.cx env.blake2b env.poseidon st' kp msg' id := by
  obtain ⟨r, hr, -, hf, hb, -, -⟩ := transaction_to_roinput_spec input tx
  obtain ⟨r', hr', -, hf', hb', -, -⟩ := transaction_to_roinput_spec input' tx
  obtain rfl : r = msg := Except.ok.inj (hr.symm.trans h)
  obtain rfl : r' = msg' := Except.ok.inj (hr'.symm.trans h')
  exact sign_congr (roinput_fits h) (roinput_fits h') (hf.trans hf'.symm) (hb.trans hb'.symm) _ _ _
    _ _ _ _

/-! ## The block -/

theorem attempt_ok {α : Type} {x : Exec α} {r : Except Nat α} (h : attempt x = .ok r) :
    (∃ a, x = .ok a ∧ r = .ok a) ∨ ∃ e, x = .error (.thrown e) ∧ r = .error e := by
  unfold attempt at h
  split at h
  · exact .inl ⟨_, rfl, (Except.ok.inj h).symm⟩
  · exact .inr ⟨_, rfl, (Except.ok.inj h).symm⟩
  · cases h
  · cases h

section Block

variable {env : Env} {st : Nat → Stale} {_tx : tx_t} {_ui : ui_t}

/-- A key that cannot be derived: no signature. -/
theorem trySign_thrown {e : Nat}
    (h : generate_keypair env.cx env.derive _tx.account = .error (.thrown e)) :
    trySign env st _tx _ui = .ok (_tx, none) := by
  simp only [trySign, h, attempt, ok_bind, pure_eq_ok]

/-- A key whose address is not the text on screen: no signature either. -/
theorem trySign_address {kp : Keypair}
    (h : generate_keypair env.cx env.derive _tx.account = .ok kp) :
    trySign env st _tx _ui =
      if env.addressOf kp ≠ _ui.from_.toList then .ok (_tx, none)
      else do
        let roinput ← transaction_to_roinput _tx.input _tx.tx
        let sig ← sign env.cx env.blake2b env.poseidon (fun i => st (2 + i)) kp roinput
          _tx.network_id
        return ({ _tx with input_fields := roinput.fields, input_bits := roinput.bits }, sig) := by
  obtain ⟨address, hgen, hlist⟩ := generate_address_of env (st 1) ((st 0).array MINA_ADDRESS_LEN) kp
  simp only [trySign, h, attempt, ok_bind, hgen, hlist, pure_eq_ok]
  rfl

/-- What the block did, once it is over. -/
theorem trySign_cases {_tx' : tx_t} {o : Option Signature}
    (h : trySign env st _tx _ui = .ok (_tx', o)) :
    SameTx _tx' _tx ∧ ∀ sig, o = some sig → ∃ kp msg,
      generate_keypair env.cx env.derive _tx.account = .ok kp ∧
      env.addressOf kp = _ui.from_.toList ∧
      transaction_to_roinput _tx.input _tx.tx = .ok msg ∧
      sign env.cx env.blake2b env.poseidon (fun i => st (2 + i)) kp msg _tx.network_id =
        .ok (some sig) := by
  obtain ⟨r, hr, -⟩ := bind_ok h
  rcases attempt_ok hr with ⟨kp, hkp, -⟩ | ⟨e, he, -⟩
  · rw [trySign_address hkp] at h
    split at h
    · obtain ⟨rfl, rfl⟩ := Prod.mk.inj (Except.ok.inj h)
      exact ⟨.refl _, nofun⟩
    · rename_i haddr
      obtain ⟨msg, hmsg, h⟩ := bind_ok h
      obtain ⟨s, hs, h⟩ := bind_ok h
      obtain ⟨rfl, rfl⟩ := Prod.mk.inj (Except.ok.inj h)
      exact ⟨⟨rfl, rfl, rfl⟩, fun sig hsig => ⟨kp, msg, hkp, not_not.mp haddr, hmsg, hsig ▸ hs⟩⟩
  · rw [trySign_thrown he] at h
    obtain ⟨rfl, rfl⟩ := Prod.mk.inj (Except.ok.inj h)
    exact ⟨.refl _, nofun⟩

/-- The outcome depends on the reviewed transaction and the `from` text, not on the
arrays, the other texts or the stack. -/
theorem trySign_congr (st' : Nat → Stale) {_tx₁ _tx' : tx_t} {_ui₁ : ui_t} {o : Option Signature}
    (hsame : SameTx _tx _tx₁) (hfrom : _ui.from_ = _ui₁.from_)
    (h : trySign env st _tx _ui = .ok (_tx', o)) :
    ∃ _tx₁', trySign env st' _tx₁ _ui₁ = .ok (_tx₁', o) := by
  obtain ⟨r, hr, -⟩ := bind_ok h
  rcases attempt_ok hr with ⟨kp, hkp, -⟩ | ⟨e, he, -⟩
  · have hkp₁ := hkp
    rw [hsame.account] at hkp₁
    rw [trySign_address hkp] at h
    rw [trySign_address hkp₁, ← hfrom]
    split at h
    · rename_i haddr
      obtain ⟨-, rfl⟩ := Prod.mk.inj (Except.ok.inj h)
      exact ⟨_, if_pos haddr⟩
    · rename_i haddr
      obtain ⟨msg, hmsg, h⟩ := bind_ok h
      obtain ⟨s, hs, h⟩ := bind_ok h
      obtain ⟨-, rfl⟩ := Prod.mk.inj (Except.ok.inj h)
      obtain ⟨msg₁, hmsg₁, -⟩ := transaction_to_roinput_spec _tx₁.input _tx₁.tx
      rw [hsame.tx] at hmsg
      rw [hsame.network, sign_roinput_congr env _ (fun i => st' (2 + i)) kp _ hmsg hmsg₁] at hs
      exact ⟨_, by rw [if_neg haddr, hmsg₁, ok_bind, hs]; rfl⟩
  · rw [trySign_thrown he] at h
    rw [hsame.account] at he
    obtain ⟨-, rfl⟩ := Prod.mk.inj (Except.ok.inj h)
    exact ⟨_, trySign_thrown he⟩

end Block

/-! ## The block returns -/

/-- What is hashed for a transaction has a digest below the modulus, with any rx. -/
def Digests (env : Env) (pub : Affine) (tx : tx_t) : Prop :=
  ∀ rx, num rx < fieldModulus →
    ∃ d, env.poseidon tx.network_id (txHashFields pub rx tx.tx) = .ok d ∧ num d < fieldModulus

/-- For the sponge of poseidon.c it is enough that the keys are field elements. -/
theorem digests_of_reduced {env : Env} (h : env.cx.Exact) {pos : State}
    (hpos : env.poseidon = poseidon_hash env.cx pos) {pub : Affine} (hpub : pub.Valid) {tx : tx_t}
    (hid : tx.network_id = TESTNET_ID ∨ tx.network_id = MAINNET_ID)
    (htx : ∀ a ∈ txFields tx.tx, num a < fieldModulus) : Digests env pub tx := by
  intro rx hrx
  obtain ⟨msg, hmsg, -, hfields, -⟩ := transaction_to_roinput_spec tx.input tx.tx
  rw [← hfields] at htx
  obtain ⟨x, hx⟩ := poseidon_hash_encode h pos hid ((hashFields_lt_iff hpub hrx).mpr htx)
  rw [hpos, ← hashFields_of_tx hmsg]
  exact ⟨_, hx, by rw [num_encode num_FIELD_MODULUS]; exact ZMod.val_lt x⟩

/-- The derived key owns the text on screen: there is a signature. -/
theorem trySign_signs {env : Env} (h : env.cx.Exact) (st : Nat → Stale) {_tx : tx_t} {_ui : ui_t}
    {bytes : Vector UInt8 32} (hd : env.derive (bip32_path _tx.account) = .ok bytes)
    (haddr : env.addressOf (keypairOf bytes) = _ui.from_.toList)
    (hdig : Digests env (keypairOf bytes).pub _tx) :
    ∃ _tx' sig, trySign env st _tx _ui = .ok (_tx', some sig) := by
  obtain ⟨msg, hmsg, -⟩ := transaction_to_roinput_spec _tx.input _tx.tx
  have hlt := (keypairOf_priv_lt bytes).trans (two_pow_254_lt.trans fieldModulus_lt_groupOrder)
  obtain ⟨sig, hsig⟩ := sign_of_digest (roinput_fits hmsg) h env.blake2b (fun i => st (2 + i))
    (fun rx hrx => by rw [hashFields_of_tx hmsg]; exact hdig rx hrx) hlt
  refine ⟨{ _tx with input_fields := msg.fields, input_bits := msg.bits }, sig, ?_⟩
  rw [trySign_address (generate_keypair_eq h hd), if_neg (not_not.mpr haddr), hmsg, ok_bind, hsig]
  rfl

/-- The promises of what the application is linked with: exact arithmetic, a
derivation that returns or throws, and a digest below the modulus. -/
structure Env.Sound (env : Env) : Prop where
  exact : env.cx.Exact
  derive : ∀ path, (∃ bytes, env.derive path = .ok bytes) ∨ ∃ e, env.derive path = .error (.thrown e)
  poseidon : ∀ id l, ∃ d, env.poseidon id l = .ok d ∧ num d < fieldModulus

theorem Env.Sound.keypair {env : Env} (h : env.Sound) (account : UInt32) :
    (∃ bytes, env.derive (bip32_path account) = .ok bytes ∧
      generate_keypair env.cx env.derive account = .ok (keypairOf bytes)) ∨
    ∃ e, env.derive (bip32_path account) = .error (.thrown e) ∧
      generate_keypair env.cx env.derive account = .error (.thrown e) := by
  rcases h.derive (bip32_path account) with ⟨bytes, hd⟩ | ⟨e, he⟩
  · exact .inl ⟨bytes, hd, generate_keypair_eq h.exact hd⟩
  · exact .inr ⟨e, he, by rw [generate_keypair, he]; rfl⟩

/-- Then the block ends, and with a signature exactly when the key can be derived and
its address is the text on screen. -/
theorem trySign_returns {env : Env} (h : env.Sound) (st : Nat → Stale) (_tx : tx_t) (_ui : ui_t) :
    ∃ _tx' o, trySign env st _tx _ui = .ok (_tx', o) ∧ SameTx _tx' _tx ∧
      (o.isSome ↔ ∃ bytes, env.derive (bip32_path _tx.account) = .ok bytes ∧
        env.addressOf (keypairOf bytes) = _ui.from_.toList) := by
  rcases h.keypair _tx.account with ⟨bytes, hd, hkp⟩ | ⟨e, he, hkp⟩
  · have hiff : (∃ b, env.derive (bip32_path _tx.account) = .ok b ∧
        env.addressOf (keypairOf b) = _ui.from_.toList) ↔
        env.addressOf (keypairOf bytes) = _ui.from_.toList :=
      ⟨fun ⟨b, hb, heq⟩ => by
        obtain rfl : b = bytes := Except.ok.inj (hb.symm.trans hd)
        exact heq, fun heq => ⟨bytes, hd, heq⟩⟩
    rw [hiff]
    by_cases haddr : env.addressOf (keypairOf bytes) = _ui.from_.toList
    · obtain ⟨_tx', sig, htry⟩ := trySign_signs h.exact st hd haddr fun rx _ => h.poseidon _ _
      exact ⟨_tx', some sig, htry, (trySign_cases htry).1, by simp [haddr]⟩
    · refine ⟨_tx, none, ?_, .refl _, by simp [haddr]⟩
      rw [trySign_address hkp, if_pos haddr]
  · exact ⟨_tx, none, trySign_thrown hkp, .refl _, by simp [he]⟩

/-! ## The flag bits -/

/-- The flag bits of the two keys among the 599 bits. -/
theorem txBits_flags (tx : Transaction) :
    (txBits tx)[128]? = some tx.fee_payer_pk.is_odd ∧ (txBits tx)[468]? = some tx.source_pk.is_odd := by
  have hmemo : (tx.memo.toList.flatMap fun b => bitsLE 8 b.toNat).length = 272 := by
    rw [flatMap_bitsLE, length_bitsLE, Vector.length_toList]; rfl
  have htag : tx.tag.toList.length = 3 := Vector.length_toList
  constructor
  · rw [txBits]
    simp [List.getElem?_append]
  · rw [txBits]
    simp [hmemo, htag]

/-! ## A request of the device's own account -/

/-- Static memory at the start. mirrors src/src/sign_tx.c:11-12 -/
def tx_t.boot : tx_t where
  network_id := 0
  account := 0
  tx := ⟨0, 0, ⟨ofNum 0, false⟩, 0, 0, Vector.replicate _ 0, Vector.replicate _ false,
    ⟨ofNum 0, false⟩, ⟨ofNum 0, false⟩, 0, 0, false⟩
  input_fields := Vector.replicate _ (ofNum 0)
  input_bits := Vector.replicate _ 0
  tag := 0

def ui_t.boot : ui_t :=
  ⟨Vector.replicate _ 0, Vector.replicate _ 0, Vector.replicate _ 0, Vector.replicate _ 0,
    Vector.replicate _ 0, Vector.replicate _ 0, Vector.replicate _ 0, Vector.replicate _ 0,
    Vector.replicate _ 0, Vector.replicate _ 0, Vector.replicate _ 0⟩

/-- The nonce and the private key 1 for every request and account, and the digest 3. -/
def unitEnv : Env where
  cx := Cx.reference
  sha256 := zeroHash
  blake2b := oneHash
  poseidon := constDigest
  derive _ := .ok (ofNum 1)
  version := #v[1, 0, 0]

theorem unitEnv_sound : unitEnv.Sound where
  exact := Cx.reference_exact
  derive _ := .inl ⟨_, rfl⟩
  poseidon := constDigest_lt

theorem keypairOf_one : keypairOf (ofNum 1) = unitKeypair := by
  have h1 : scalar_from_bytes (ofNum 1) = ofNum 1 := num_inj (by
    rw [num_scalar_from_bytes, num_ofNum (by norm_num)]
    exact Nat.mod_eq_of_lt (Nat.one_lt_two_pow (by norm_num)))
  rw [keypairOf, h1, num_ofNum (by norm_num), one_nsmul, ← AFFINE_ONE_eq]
  rfl

theorem unitEnv_keypair (account : UInt32) :
    generate_keypair unitEnv.cx unitEnv.derive account = .ok unitKeypair := by
  have hkp := generate_keypair_eq Cx.reference_exact
    (show unitEnv.derive (bip32_path account) = .ok (ofNum 1) from rfl)
  rwa [keypairOf_one] at hkp

/-- The address of that key. -/
def unitAddress : List UInt8 :=
  addressText zeroHash AFFINE_ONE.x (oddByte (field_is_odd AFFINE_ONE.y))

/-- 42 from that account to itself. -/
def unitRequest : List UInt8 := request unitAddress unitAddress 42 PAYMENT_TX

theorem length_unitAddress : unitAddress.length = 55 := length_addressText zeroHash _ _

theorem length_unitRequest : unitRequest.length = 172 :=
  length_request length_unitAddress length_unitAddress 42 PAYMENT_TX

theorem length_unitRequest_le : unitRequest.length ≤ 255 := by
  rw [length_unitRequest]; norm_num

theorem acceptable_unitRequest (st : Nat → Stale) : Acceptable zeroHash st unitRequest 172 := by
  have hread := fun st => (read_addressText zeroHash AFFINE_ONE.x (oddByte (field_is_odd AFFINE_ONE.y))
    (show unitAddress ++ [0] = _ from rfl) st ⟨ofNum 0, false⟩).1
  exact acceptable_request length_unitAddress length_unitAddress 42 PAYMENT_TX (hread _) (hread _)
    (.inl rfl)

theorem unitRequest_parsed (st : Nat → Stale) (tx : tx_t) (ui : ui_t) :
    ∃ tx' ui', parse_tx zeroHash st unitRequest 172 tx ui = .ok (true, tx', ui') ∧
      Parsed st unitRequest tx' ui' :=
  (acceptable_unitRequest st).parse_tx zeroHash (le_of_eq length_unitRequest.symm) tx ui

/-- The `from` text of the request is the address of the derived key, so it is signed. -/
theorem unitRequest_signed {tx : tx_t} {ui : ui_t} {stp : Nat → Stale}
    (h : Parsed stp unitRequest tx ui) (st : Nat → Stale) :
    ∃ tx' sig, trySign unitEnv st tx ui = .ok (tx', some sig) := by
  obtain ⟨tx', o, htry, -, hiff⟩ := trySign_returns unitEnv_sound st tx ui
  have hfrom : ui.from_.toList = unitAddress ++ [0] := by
    rw [h.from_]; exact (request_addresses length_unitAddress length_unitAddress 42 PAYMENT_TX).1
  have hsome : o.isSome := hiff.mpr ⟨ofNum 1, rfl, by rw [keypairOf_one, hfrom]; rfl⟩
  obtain ⟨sig, rfl⟩ := Option.isSome_iff_exists.mp hsome
  exact ⟨tx', sig, htry⟩

/-! ## Fee payer and source -/

/-- What is decoded from the text of a key's address is that key, on both readings of it. -/
theorem own_keys {sha256 : List UInt8 → Vector UInt8 32} {stp : Nat → Stale} {data : List UInt8}
    {tx : tx_t} {ui : ui_t} (hP : Parsed stp data tx ui) {pub : Affine}
    (hfrom : ui.from_.toList = addressText sha256 pub.x (oddByte (field_is_odd pub.y)) ++ [0]) :
    tx.tx.source_pk = ⟨pub.x, decide (num pub.y % 2 = 1)⟩ ∧
    tx.tx.fee_payer_pk = ⟨pub.x, decide (num pub.y % 2 = 1)⟩ := by
  rw [hP.from_] at hfrom
  have hread := fun st out => (read_addressText sha256 pub.x _ hfrom st out).2
  rw [oddByte_ne_zero, field_is_odd_eq] at hread
  obtain ⟨pk₁, hsource⟩ := hP.source
  obtain ⟨pk₂, hpayer⟩ := hP.payer
  exact ⟨Except.ok.inj (hsource.symm.trans (hread _ _)),
    Except.ok.inj (hpayer.symm.trans (hread _ _))⟩

/-- A signature spends from the signer's own key: if the request was accepted and the
block passes its address check and signs, then the fee payer and the source of the
input signed are the compression of the key it is signed with. Between the parser
and the signature only the arrays and the titles may have been written. -/
theorem signs_own_key (env : Env) {stp st : Nat → Stale} {data : List UInt8}
    (hdata : 172 ≤ data.length) {dataLength : UInt8} {tx₀ tx₁ : tx_t} {ui₀ ui₁ : ui_t}
    (hparse : parse_tx env.sha256 stp data dataLength tx₀ ui₀ = .ok (true, tx₁, ui₁))
    {kp : Keypair} (hkp : generate_keypair env.cx env.derive tx₁.account = .ok kp)
    {_tx _tx' : tx_t} (hsame : SameTx _tx tx₁) {_ui : ui_t} (hfrom : _ui.from_ = ui₁.from_)
    {sig : Signature} (hsign : trySign env st _tx _ui = .ok (_tx', some sig)) :
    ∃ roinput, transaction_to_roinput _tx.input _tx.tx = .ok roinput ∧
      sign env.cx env.blake2b env.poseidon (fun i => st (2 + i)) kp roinput _tx.network_id =
        .ok (some sig) ∧
      _tx.tx.fee_payer_pk = ⟨kp.pub.x, decide (num kp.pub.y % 2 = 1)⟩ ∧
      _tx.tx.source_pk = ⟨kp.pub.x, decide (num kp.pub.y % 2 = 1)⟩ ∧
      roinput.fieldList = [kp.pub.x, kp.pub.x, _tx.tx.receiver_pk.x] ∧
      roinput.bitString[128]? = some (decide (num kp.pub.y % 2 = 1)) ∧
      roinput.bitString[468]? = some (decide (num kp.pub.y % 2 = 1)) := by
  have hP := (parse_tx_true env.sha256 hdata hparse).2
  obtain ⟨-, hcases⟩ := trySign_cases hsign
  obtain ⟨kp', msg, hkp', haddr, hmsg, hsig⟩ := hcases sig rfl
  rw [hsame.account] at hkp'
  obtain rfl : kp' = kp := Except.ok.inj (hkp'.symm.trans hkp)
  rw [hfrom] at haddr
  obtain ⟨h1, h2⟩ := own_keys hP haddr.symm
  rw [← hsame.tx] at h1 h2
  obtain ⟨r, hr, -, hfields, hbits, -, -⟩ := transaction_to_roinput_spec _tx.input _tx.tx
  obtain rfl : r = msg := Except.ok.inj (hr.symm.trans hmsg)
  obtain ⟨hflag, hflag'⟩ := txBits_flags _tx.tx
  refine ⟨r, hr, hsig, h2, h1, ?_, ?_, ?_⟩
  · rw [hfields, txFields, h1, h2]
  · rw [hbits, hflag, h2]
  · rw [hbits, hflag', h1]

/-- At the request of the key's own account. -/
theorem signs_own_key_unit :
    ∃ tx₁ ui₁ tx' sig roinput,
      parse_tx zeroHash cleanStack unitRequest 172 .boot .boot = .ok (true, tx₁, ui₁) ∧
      trySign unitEnv cleanStack tx₁ ui₁ = .ok (tx', some sig) ∧
      transaction_to_roinput tx₁.input tx₁.tx = .ok roinput ∧
      tx₁.tx.source_pk = ⟨AFFINE_ONE.x, decide (num AFFINE_ONE.y % 2 = 1)⟩ ∧
      tx₁.tx.fee_payer_pk = tx₁.tx.source_pk := by
  obtain ⟨tx₁, ui₁, hparse, hP⟩ := unitRequest_parsed cleanStack .boot .boot
  obtain ⟨tx', sig, hsign⟩ := unitRequest_signed hP cleanStack
  obtain ⟨roinput, hro, -, hpayer, hsource, -⟩ := signs_own_key unitEnv
    (le_of_eq length_unitRequest.symm) hparse (unitEnv_keypair _) (.refl tx₁) rfl hsign
  exact ⟨tx₁, ui₁, tx', sig, roinput, hparse, hsign, hro, hsource, hpayer.trans hsource.symm⟩

end MinaLedger
