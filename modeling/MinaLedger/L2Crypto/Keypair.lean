import MinaLedger.L2Crypto.Address
import MinaLedger.L2Crypto.Sign

/-!
# The keypair of an account

`generate_keypair` of src/src/crypto.c. The SDK's key derivation is not part of
the repository: `derive` is any function of the path that returns 32 bytes or
throws.

Results:
* `generate_keypair_eq`: a derived key is cut to 254 bits and its public key is
  that multiple of the generator.
* `bip32_path_inj`: two accounts have one path exactly when they agree below
  the hardened bit.
-/
namespace MinaLedger
open Pasta

/-- mirrors src/src/crypto.h:11-12 -/
def BIP32_PATH_LEN : Nat := 5
def BIP32_HARDENED_OFFSET : UInt32 := 0x80000000

/-- mirrors src/src/crypto.c:506-512 -/
def bip32_path (account : UInt32) : Vector UInt32 BIP32_PATH_LEN :=
  #v[44 ||| BIP32_HARDENED_OFFSET, 12586 ||| BIP32_HARDENED_OFFSET,
    account ||| BIP32_HARDENED_OFFSET, 0, 0]

/-- `os_perso_derive_node_bip32(CX_CURVE_256K1, path, BIP32_PATH_LEN, priv, NULL)`. -/
abbrev Derive := Vector UInt32 BIP32_PATH_LEN → Exec (Vector UInt8 32)

/-- mirrors src/src/crypto.c:504-522 -/
def generate_keypair (cx : Cx) (derive : Derive) (account : UInt32) : Exec Keypair := do
  -- generate private key
  let priv ← derive (bip32_path account)
  let priv := scalar_from_bytes priv
  -- generate public key
  let pub ← generate_pubkey cx priv
  return ⟨pub, priv⟩

/-- The private key of 32 derived bytes, and its public key. -/
def keypairOf (bytes : Vector UInt8 32) : Keypair :=
  ⟨affineOf (num (scalar_from_bytes bytes) • generator), scalar_from_bytes bytes⟩

theorem keypairOf_priv_lt (bytes : Vector UInt8 32) : num (keypairOf bytes).priv < 2 ^ 254 := by
  rw [keypairOf, num_scalar_from_bytes]
  exact Nat.mod_lt _ (by norm_num)

theorem generate_keypair_eq {cx : Cx} (h : cx.Exact) {derive : Derive} {account : UInt32}
    {bytes : Vector UInt8 32} (hd : derive (bip32_path account) = .ok bytes) :
    generate_keypair cx derive account = .ok (keypairOf bytes) := by
  have hpub := generate_pubkey_eq h (scalar_from_bytes_lt bytes)
  simp only [generate_keypair, hd, ok_bind, hpub, pure_eq_ok]
  rfl

/-- The hardened bit is set, and a bit that was set before is not added again. -/
theorem toNat_or_hardened (v : UInt32) :
    (v ||| BIP32_HARDENED_OFFSET).toNat = v.toNat % 2 ^ 31 + 2 ^ 31 := by
  have hv := v.toNat_lt
  rw [UInt32.toNat_or, show BIP32_HARDENED_OFFSET.toNat = 2 ^ 31 from rfl]
  apply Nat.eq_of_testBit_eq
  intro i
  rw [Nat.add_comm, Nat.testBit_or]
  rcases Nat.lt_trichotomy i 31 with hi | rfl | hi
  · rw [Nat.testBit_two_pow_add_gt hi, Nat.testBit_mod_two_pow, Nat.testBit_two_pow]
    simp [hi, hi.ne']
  · rw [Nat.testBit_two_pow_add_eq, Nat.testBit_mod_two_pow, Nat.testBit_two_pow]
    simp
  · have h1 : v.toNat < 2 ^ i := lt_of_lt_of_le hv (Nat.pow_le_pow_right (by norm_num) hi)
    have h2 : 2 ^ 31 + v.toNat % 2 ^ 31 < 2 ^ i := by
      have : 2 ^ 32 ≤ 2 ^ i := Nat.pow_le_pow_right (by norm_num) hi
      have := Nat.mod_lt v.toNat (show 0 < 2 ^ 31 by norm_num)
      omega
    rw [Nat.testBit_lt_two_pow h1, Nat.testBit_lt_two_pow h2, Nat.testBit_two_pow]
    simp [show (31 : Nat) ≠ i by omega]

/-- So accounts that differ only there share a key. -/
theorem bip32_path_inj {a b : UInt32} :
    bip32_path a = bip32_path b ↔ a.toNat % 2 ^ 31 = b.toNat % 2 ^ 31 := by
  constructor
  · intro h
    have h2 := congrArg (fun v : Vector UInt32 BIP32_PATH_LEN => v[2]) h
    have h3 := congrArg UInt32.toNat (show a ||| BIP32_HARDENED_OFFSET = b ||| BIP32_HARDENED_OFFSET
      from h2)
    rw [toNat_or_hardened, toNat_or_hardened] at h3
    omega
  · intro h
    have h2 : a ||| BIP32_HARDENED_OFFSET = b ||| BIP32_HARDENED_OFFSET :=
      UInt32.toNat_inj.mp (by rw [toNat_or_hardened, toNat_or_hardened, h])
    rw [bip32_path, bip32_path, h2]

end MinaLedger
