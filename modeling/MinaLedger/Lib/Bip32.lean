import Mathlib.Data.List.Basic
import MinaLedger.Lib.Text

/-!
# Derivation paths as text

A BIP32 path is a list of 32-bit indexes; the ones from 2^31 on are hardened. In the
text form the indexes are decimal numbers below 2^31 between slashes, and an apostrophe
behind the number means the hardened index, 2^31 more.

Results:
* `readIndex_hardened`: how a hardened index is read.
* `readPath_cons`, `readPath_single`: a path is read index by index.
-/
namespace Lib.Bip32
open Lib.Text

/-- Where the hardened indexes begin. -/
def HARDENED : Nat := 2 ^ 31

/-- A decimal number below 2^31. -/
def readNumber (l : List UInt8) : Option Nat := do
  let v ← readDecimal l
  if v < HARDENED then some v else none

/-- One index; `39` is the apostrophe. -/
def readIndex (l : List UInt8) : Option Nat :=
  if l.getLast? = some 39 then (readNumber l.dropLast).map (· + HARDENED) else readNumber l

/-- The indexes between the slashes. -/
def readPath (text : List UInt8) : Option (List Nat) := (text.splitOn 47).mapM readIndex

/-! ## One index -/

theorem readNumber_eq {l : List UInt8} {v : Nat} (h : readDecimal l = some v) :
    readNumber l = if v < HARDENED then some v else none := by
  rw [readNumber, h]; rfl

theorem readIndex_hardened {l : List UInt8} {v : Nat} (h : readDecimal l = some v) :
    readIndex (l ++ [39]) = if v < HARDENED then some (v + HARDENED) else none := by
  rw [readIndex, if_pos List.getLast?_concat, List.dropLast_concat, readNumber_eq h]
  split <;> rfl

/-! ## The path -/

theorem readPath_single {l : List UInt8} (h : 47 ∉ l) :
    readPath l = (readIndex l).map fun i => [i] := by
  rw [readPath, List.splitOn_eq_singleton h, List.mapM_cons, List.mapM_nil]
  cases readIndex l <;> rfl

theorem readPath_cons {l rest : List UInt8} (h : 47 ∉ l) :
    readPath (l ++ 47 :: rest) = (do
      let i ← readIndex l
      let is ← readPath rest
      some (i :: is)) := by
  rw [readPath, List.splitOn_append_cons_self_of_not_mem h, List.mapM_cons]
  rfl

end Lib.Bip32
