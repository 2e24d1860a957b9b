import MinaLedger.L1Encoding.Wire
import MinaLedger.L4App.Ux

/-!
# The address request

`handle_get_address` of src/src/get_address.c: four bytes of account, and the
derivation path as text in a buffer that is exactly long enough for ten digits.

Results:
* `bip44_path_text`: the path is written without leaving its 27 bytes, for every
  account.
* `handle_get_address_spec`: a request of four bytes starts its flow with no
  address yet; any other changes nothing.
-/
namespace MinaLedger
open Lib.Radix

variable {n : Nat}

/-- `strncat(dst, src, k)` for a literal. -/
def strncat (dst : Vector UInt8 n) (src : String) (k : Nat) : Exec (Vector UInt8 n) := do
  let len ← strlen dst.toList
  writeBytes dst len ((chars src).take k ++ [0])

/-- `_bip44_path` of an account; the buffer of `value_to_string` is the part from 11 on.
mirrors src/src/get_address.c:189-191 -/
def bip44_path (_bip44_path : Vector UInt8 27) (_account : UInt32) : Exec (Vector UInt8 27) := do
  let _bip44_path ← strncpy _bip44_path "44'/12586'/" 27
  let (_, tail) ← value_to_string (_bip44_path.drop 11) (27 - 11) _account.toUInt64
  let _bip44_path ← writeBytes _bip44_path 11 tail.toList
  strncat _bip44_path "'/0/0" 6

/-- mirrors src/src/get_address.c:175-200 -/
def handle_get_address (env : Env) (st : Nat → Stale) (dataBuffer : List UInt8) (dataLength : UInt8)
    (d : Device) : Exec Outcome := do
  if dataLength ≠ 4 then
    return { device := d, thrown := some INVALID_PARAMETER }
  let d := { d with _generated := false }
  let _address ← store d._address 0 0
  let d := { d with _address := _address }
  let _account ← read_uint32_be dataBuffer 0
  let d := { d with _account := _account }
  let _bip44_path ← bip44_path d._bip44_path d._account
  let d := { d with _bip44_path := _bip44_path }
  let o ← ux_flow_init env st .ux_get_address_flow d
  return { o with device := { o.device with flags := true } }

/-! ## The path -/

/-- The text of the path of an account. -/
def pathText (account : Nat) : List UInt8 :=
  chars "44'/12586'/" ++ decimal account ++ chars "'/0/0"

theorem chars_purpose : chars "44'/12586'/" = [52, 52, 39, 47, 49, 50, 53, 56, 54, 39, 47] := by
  decide +kernel

theorem chars_change : chars "'/0/0" = [39, 47, 48, 47, 48] := by decide +kernel

theorem zero_notMem_path (account : Nat) :
    (0 : UInt8) ∉ chars "44'/12586'/" ++ decimal account := by
  rw [chars_purpose, List.mem_append, not_or]
  exact ⟨by decide, zero_notMem_decimal account⟩

theorem strncat_text (dst : Vector UInt8 n) (src : String) {k : Nat} {s rest : List UInt8}
    (hdst : dst.toList = s ++ [0] ++ rest) (hs : (0 : UInt8) ∉ s)
    (hroom : s.length + (((chars src).take k).length + 1) ≤ n) :
    ∃ r, strncat dst src k = .ok r ∧
      ∃ rest', r.toList = s ++ (chars src).take k ++ [0] ++ rest' := by
  obtain ⟨r, hr, hlist⟩ := writeBytes_toList dst s.length ((chars src).take k ++ [0])
    (by rw [List.length_append, List.length_singleton]; exact hroom)
  refine ⟨r, ?_, dst.toList.drop (s.length + ((chars src).take k ++ [0]).length), ?_⟩
  · rw [strncat, hdst, strlen_text hs, ok_bind, hr]
  · rw [hlist]
    congr 1
    rw [hdst, List.append_assoc s, List.take_left' rfl, List.append_assoc]

/-- Eleven characters, ten digits at most, five characters and the NUL: 27 bytes. -/
theorem bip44_path_text (path : Vector UInt8 27) (account : UInt32) :
    ∃ r, bip44_path path account = .ok r ∧ cstr r.toList = pathText account.toNat := by
  have hdigits : (decimal account.toNat).length ≤ 10 :=
    length_decimal_le (by norm_num) (lt_of_lt_of_le account.toNat_lt (by norm_num))
  have haccount : account.toUInt64.toNat = account.toNat := UInt32.toNat_toUInt64 account
  obtain ⟨p₁, hp₁, l₁⟩ := strncpy_eq path "44'/12586'/"
  have hpad : p₁.toList = chars "44'/12586'/" ++ List.replicate 16 0 := by
    rw [l₁, padded, chars_purpose]; rfl
  obtain ⟨tail, htail, ltail⟩ := (value_to_string_spec (p₁.drop 11) (le_refl (27 - 11))
    account.toUInt64).1 (by rw [haccount]; omega)
  rw [haccount] at ltail
  obtain ⟨p₂, hp₂, l₂⟩ := writeBytes_toList p₁ 11 tail.toList (by rw [Vector.length_toList])
  have hfront : p₁.toList.take 11 = chars "44'/12586'/" := by
    rw [hpad, List.take_left' (by rw [chars_purpose]; rfl)]
  have hback : p₁.toList.drop (11 + tail.toList.length) = [] :=
    List.drop_eq_nil_of_le (by rw [Vector.length_toList, Vector.length_toList])
  rw [hfront, hback, List.append_nil, ltail, ← List.append_assoc, ← List.append_assoc] at l₂
  have hcat : (chars "'/0/0").take 6 = chars "'/0/0" := by rw [chars_change]; rfl
  obtain ⟨r, hr, rest', hlist⟩ := strncat_text p₂ "'/0/0" (k := 6) l₂ (zero_notMem_path account.toNat)
    (by rw [hcat, chars_change, chars_purpose, List.length_append]; simp; omega)
  refine ⟨r, ?_, ?_⟩
  · simp only [bip44_path, hp₁, ok_bind, htail, hp₂, hr]
  · have h0 : (0 : UInt8) ∉ chars "44'/12586'/" ++ decimal account.toNat ++ chars "'/0/0" := by
      rw [List.mem_append, not_or]
      exact ⟨zero_notMem_path account.toNat, by rw [chars_change]; decide⟩
    rw [hlist, hcat, cstr_append_zero h0, pathText]

/-! ## The handler -/

section Handler

variable (env : Env) (st : Nat → Stale) {data : List UInt8} (d : Device)

/-- A request of another length is refused before anything is written. -/
theorem handle_get_address_length {dataLength : UInt8} (h : dataLength ≠ 4) :
    handle_get_address env st data dataLength d =
      .ok { device := d, thrown := some INVALID_PARAMETER } := by
  rw [handle_get_address, if_pos h]; rfl

/-- A request of four bytes: its account, its path, no address, its flow. -/
theorem handle_get_address_spec (hdata : 4 ≤ data.length) :
    ∃ account path address, account.toNat = beVal (data.take 4) ∧
      cstr path.toList = pathText account.toNat ∧
      handle_get_address env st data 4 d = .ok { device := { d with
        flow := .ux_get_address_flow, _generated := false, _account := account,
        _bip44_path := path, _address := address, flags := true } } := by
  obtain ⟨account, haccount, vaccount⟩ := read_uint32_be_eq (show 0 + 4 ≤ data.length by omega)
  obtain ⟨path, hpath, tpath⟩ := bip44_path_text d._bip44_path account
  have hstore := store_eq d._address 0 0 (show 0 < MINA_ADDRESS_LEN by decide)
  refine ⟨account, path, d._address.set 0 0 (by decide), by simpa using vaccount, tpath, ?_⟩
  simp only [handle_get_address, ne_eq, not_true_eq_false, if_false, hstore, ok_bind, haccount, hpath]
  rfl

end Handler

end MinaLedger
