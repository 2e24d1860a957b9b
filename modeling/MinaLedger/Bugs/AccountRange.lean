import MinaLedger.L2Crypto.Keypair
import MinaLedger.L4App.GetAddress
import MinaLedger.Lib.Bip32

/-!
# Accounts from 2^31 on show one path and derive another

A request names any 32-bit account. `handle_get_address` shows it in decimal as a
hardened index, and `generate_keypair` sets its top bit (src/src/crypto.c:506-512), which
from 2^31 on is set already: account 2^31 shows 44'/12586'/2147483648'/0/0, which is no
path, and derives the key of account 0.

Counterexample: the requests for the accounts 0 and 2^31.

The exact condition (`path_derived_iff`): both accounts of a pair of requests are below
2^31.
-/
namespace MinaLedger.Bugs.AccountRange
open Lib.Radix Lib.Text Lib.Bip32

/-- The handler shows the path of the account it was given, inside its 27 bytes, and the
array `generate_keypair` makes of the account is that path. -/
def ShowsDerived (env : Env) (st : Nat → Stale) (d : Device) (data : List UInt8) : Prop :=
  ∃ o rest, handle_get_address env st data 4 d = .ok o ∧
    o.device._account.toNat = beVal (data.take 4) ∧
    o.device._bip44_path.toList = chars "44'/12586'/" ++ decimal (beVal (data.take 4)) ++
      chars "'/0/0" ++ [0] ++ rest ∧
    readPath (cstr o.device._bip44_path.toList) =
      some ((bip32_path o.device._account).toList.map UInt32.toNat)

/-- Two requests whose paths look different derive along different arrays. -/
def Distinguishes (env : Env) (st : Nat → Stale) (d : Device) (data data' : List UInt8) : Prop :=
  ∀ o o', handle_get_address env st data 4 d = .ok o →
    handle_get_address env st data' 4 d = .ok o' →
    cstr o.device._bip44_path.toList ≠ cstr o'.device._bip44_path.toList →
    bip32_path o.device._account ≠ bip32_path o'.device._account

/-! ## Reading the path that is shown -/

theorem slash_notMem_decimal (v : Nat) : (47 : UInt8) ∉ decimal v := fun h => by
  obtain ⟨d, hd, h0⟩ := digit_of_mem_decimal h
  have := congrArg UInt8.toNat h0
  rw [toNat_digitChar hd, show (47 : UInt8).toNat = 47 from rfl] at this
  omega

theorem readPath_pathText (account : Nat) :
    readPath (pathText account) = if account < HARDENED then
      some [44 + HARDENED, 12586 + HARDENED, account + HARDENED, 0, 0] else none := by
  have hsplit : pathText account = [52, 52, 39] ++ 47 :: ([49, 50, 53, 56, 54, 39] ++ 47 ::
      ((decimal account ++ [39]) ++ 47 :: ([48] ++ 47 :: [48]))) := by
    rw [pathText, chars_purpose, chars_change]; simp
  have hpurpose : readIndex [52, 52, 39] = some (44 + HARDENED) := by decide
  have hcoin : readIndex [49, 50, 53, 56, 54, 39] = some (12586 + HARDENED) := by decide
  have hzero : readIndex [48] = some 0 := by decide
  have haccount : (47 : UInt8) ∉ decimal account ++ [39] := by
    rw [List.mem_append, not_or]
    exact ⟨slash_notMem_decimal account, by decide⟩
  rw [hsplit, readPath_cons (by decide), readPath_cons (by decide), readPath_cons haccount,
    readPath_cons (by decide), readPath_single (by decide), hpurpose, hcoin, hzero,
    readIndex_hardened (readDecimal_decimal account)]
  split <;> rfl

theorem pathText_inj {v w : Nat} (h : pathText v = pathText w) : v = w := by
  rw [pathText, pathText] at h
  exact decimal_inj (List.append_cancel_left (List.append_cancel_right h))

theorem toList_bip32_path (account : UInt32) :
    (bip32_path account).toList.map UInt32.toNat =
      [44 + HARDENED, 12586 + HARDENED, account.toNat % 2 ^ 31 + HARDENED, 0, 0] := by
  rw [HARDENED, ← toNat_or_hardened]; rfl

/-- The array is the reading of the text for the accounts below 2^31 alone. -/
theorem readPath_eq_iff (account : UInt32) :
    readPath (pathText account.toNat) = some ((bip32_path account).toList.map UInt32.toNat) ↔
      account.toNat < 2 ^ 31 := by
  rw [readPath_pathText, toList_bip32_path, HARDENED]
  by_cases h : account.toNat < 2 ^ 31
  · rw [if_pos h, Nat.mod_eq_of_lt h]
    exact iff_of_true rfl h
  · rw [if_neg h]
    exact iff_of_false (by simp) h

/-! ## The requests -/

section Requests

variable (env : Env) (st : Nat → Stale) (d : Device) {data data' : List UInt8}

theorem length_pathText (account : UInt32) : (pathText account.toNat).length < 27 := by
  have hdigits : (decimal account.toNat).length ≤ 10 :=
    length_decimal_le (by norm_num) (lt_of_lt_of_le account.toNat_lt (by norm_num))
  rw [pathText, chars_purpose, chars_change, List.length_append, List.length_append]
  simp only [List.length_cons, List.length_nil]
  omega

theorem shows_derived_iff (hdata : 4 ≤ data.length) :
    ShowsDerived env st d data ↔ beVal (data.take 4) < 2 ^ 31 := by
  obtain ⟨account, path, address, haccount, hpath, hrun⟩ := handle_get_address_spec env st d hdata
  rw [← haccount, ← readPath_eq_iff]
  constructor
  · rintro ⟨o, rest, hrun', -, -, hread⟩
    obtain rfl := Except.ok.inj (hrun.symm.trans hrun')
    rw [← hpath]
    exact hread
  · intro hread
    obtain ⟨rest, hrest⟩ := exists_nul (s := path.toList) (by
      rw [hpath, Vector.length_toList]; exact length_pathText account)
    refine ⟨_, rest, hrun, haccount, ?_, ?_⟩
    · rw [hpath, pathText] at hrest
      rw [← haccount]
      exact hrest
    · rw [← hpath] at hread
      exact hread

/-- Different accounts, that differ in their low 31 bits too. -/
theorem distinguishes_iff (hdata : 4 ≤ data.length) (hdata' : 4 ≤ data'.length) :
    Distinguishes env st d data data' ↔ (beVal (data.take 4) ≠ beVal (data'.take 4) →
      beVal (data.take 4) % 2 ^ 31 ≠ beVal (data'.take 4) % 2 ^ 31) := by
  obtain ⟨a, path, _, ha, hpath, hrun⟩ := handle_get_address_spec env st d hdata
  obtain ⟨a', path', _, ha', hpath', hrun'⟩ := handle_get_address_spec env st d hdata'
  rw [← ha, ← ha']
  constructor
  · intro h hne hmod
    refine h _ _ hrun hrun' (fun htext => hne ?_) (bip32_path_inj.mpr hmod)
    exact pathText_inj (hpath.symm.trans (htext.trans hpath'))
  · intro h o o' ho ho' htext hsame
    obtain rfl := Except.ok.inj (hrun.symm.trans ho)
    obtain rfl := Except.ok.inj (hrun'.symm.trans ho')
    refine h (fun hsame => htext ?_) (bip32_path_inj.mp hsame)
    rw [hpath, hpath', hsame]

/-- The exact condition: both accounts are below 2^31. -/
theorem path_derived_iff (hdata : 4 ≤ data.length) (hdata' : 4 ≤ data'.length) :
    ShowsDerived env st d data ∧ ShowsDerived env st d data' ∧
        Distinguishes env st d data data' ↔
      beVal (data.take 4) < 2 ^ 31 ∧ beVal (data'.take 4) < 2 ^ 31 := by
  rw [shows_derived_iff env st d hdata, shows_derived_iff env st d hdata',
    distinguishes_iff env st d hdata hdata']
  constructor
  · rintro ⟨h, h', -⟩
    exact ⟨h, h'⟩
  · rintro ⟨h, h'⟩
    refine ⟨h, h', fun hne => ?_⟩
    rwa [Nat.mod_eq_of_lt h, Nat.mod_eq_of_lt h']

end Requests

/-- The accounts 1 and 2147483647. -/
theorem path_derived_iff_last : ShowsDerived unitEnv cleanStack .boot [0, 0, 0, 1] ∧
    ShowsDerived unitEnv cleanStack .boot [127, 255, 255, 255] ∧
    Distinguishes unitEnv cleanStack .boot [0, 0, 0, 1] [127, 255, 255, 255] :=
  (path_derived_iff unitEnv cleanStack .boot (by decide) (by decide)).mpr
    ⟨by decide, by decide⟩

/-- The accounts 0 and 2147483648: the second text is no path, and the two requests show
different texts and derive along one array. -/
theorem path_of_account_2147483648 :
    ¬ShowsDerived unitEnv cleanStack .boot [128, 0, 0, 0] ∧
    ¬Distinguishes unitEnv cleanStack .boot [0, 0, 0, 0] [128, 0, 0, 0] ∧
    bip32_path 0 = bip32_path 2147483648 := by
  have hsame : bip32_path 0 = bip32_path 2147483648 := bip32_path_inj.mpr (by decide)
  refine ⟨fun h => ?_, fun h => ?_, hsame⟩
  · have := (shows_derived_iff unitEnv cleanStack .boot (by decide)).mp h
    exact absurd this (by decide)
  · exact (distinguishes_iff unitEnv cleanStack .boot (by decide) (by decide)).mp h (by decide)
      (by decide)

end MinaLedger.Bugs.AccountRange
