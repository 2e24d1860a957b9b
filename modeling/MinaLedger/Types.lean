import MinaLedger.Core
import MinaLedger.Lib.Radix

/-!
# The types of crypto.h

Field elements and scalars are 32 big-endian bytes, as the SDK's arithmetic
takes them. `num` reads such a string as a number and `ofNum` writes one.

Results: `num` and `ofNum` are inverse below 2^256 (`num_ofNum`, `ofNum_num`),
and `memcmp` on two of them compares the numbers (`num_inj`).
-/
namespace MinaLedger
open Lib.Radix

/-- mirrors src/src/crypto.h:27 -/
abbrev Field := Vector UInt8 32

/-- mirrors src/src/crypto.h:28 -/
abbrev Scalar := Vector UInt8 32

/-- Jacobian coordinates. mirrors src/src/crypto.h:30-34 -/
structure Group where
  X : Field
  Y : Field
  Z : Field
  deriving DecidableEq

/-- mirrors src/src/crypto.h:36-39 -/
structure Affine where
  x : Field
  y : Field
  deriving DecidableEq

/-- mirrors src/src/crypto.h:41-44 -/
@[ext] structure Compressed where
  x : Field
  is_odd : Bool
  deriving DecidableEq

/-- mirrors src/src/crypto.h:46-49 -/
structure Signature where
  rx : Field
  s : Scalar
  deriving DecidableEq

/-- mirrors src/src/crypto.h:51-54 -/
structure Keypair where
  pub : Affine
  priv : Scalar
  deriving DecidableEq

def FIELD_BYTES : Nat := 32
def SCALAR_BYTES : Nat := 32
def SCALAR_BITS : Nat := 256

/-- String length, with the NUL. mirrors src/src/crypto.h:20 -/
def MINA_ADDRESS_LEN : Nat := 56

def COIN : Nat := 1000000000

def TESTNET_ID : UInt8 := 0x00
def MAINNET_ID : UInt8 := 0x01

/-! ## Byte strings as numbers -/

variable {n : Nat}

/-- The big-endian number in `n` bytes. -/
def num (a : Vector UInt8 n) : Nat := beVal a.toList

/-- The 32 big-endian bytes of a number. -/
def ofNum (v : Nat) : Field := ⟨(beBytes 32 v).toArray, by simp⟩

theorem num_lt (a : Vector UInt8 n) : num a < 256 ^ n := by
  simpa [num] using beVal_lt a.toList

theorem num_inj {a b : Vector UInt8 n} (h : num a = num b) : a = b :=
  Vector.toList_inj.mp (beVal_inj (by simp) h)

theorem toList_ofNum (v : Nat) : (ofNum v).toList = beBytes 32 v := rfl

theorem num_ofNum {v : Nat} (h : v < 256 ^ 32) : num (ofNum v) = v := by
  rw [num, toList_ofNum, beVal_beBytes h]

@[simp] theorem ofNum_num (a : Field) : ofNum (num a) = a := num_inj (num_ofNum (num_lt a))

end MinaLedger
