import MinaLedger.L2Crypto.Address

/-!
# An accepted address is not always the text of its key

`generate_address` writes version 0xcb, the kinds 1 and 1 and a parity byte 0
or 1. `validate_address` compares the checksum and nothing else, and
`read_public_key_compressed` ("does not validate the address") turns every
nonzero parity byte into `is_odd`. So a text with another version, another
kind or a parity byte above 1 is accepted, and signed as the key of a
different address.

Counterexample: `receiver` of src/tests/random_oracle_input_tests.c, and the
same 35 bytes with parity byte 2 and the checksum to match. Both are accepted
and both are the same key.

The exact condition (`reencodes_iff`): an accepted text is the text of its key
if and only if its version, kinds and parity byte are the ones
`generate_address` writes. On those texts the key determines the text
(`kindOk_key_inj`).
-/
namespace MinaLedger.Bugs.AddressKind
open Lib.Radix

/-- The bytes `validate_address` does not look at are as `generate_address` writes them. -/
def KindOk (s : List UInt8) : Prop :=
  (addressDecode s).take 3 = [0xcb, 0x01, 0x01] ∧
    ((addressDecode s).getD 35 0 = 0 ∨ (addressDecode s).getD 35 0 = 1)

instance (s : List UInt8) : Decidable (KindOk s) := inferInstanceAs (Decidable (_ ∧ _))

/-- The key read from the text, encoded again, is the text. -/
def Reencodes (sha256 : List UInt8 → Vector UInt8 32) (address : List UInt8) : Prop :=
  ∀ st out pk, read_public_key_compressed st out address = .ok pk →
    ∀ y, field_is_odd y = pk.is_odd → ∀ st' buf,
      ∃ r : Vector UInt8 56,
        generate_address sha256 st' buf MINA_ADDRESS_LEN ⟨pk.x, y⟩ = .ok (true, r) ∧
        r.toList = address

variable {sha256 : List UInt8 → Vector UInt8 32} {s : List UInt8}

theorem strnlen_text (hlen : s.length = 55) (hdec : Decodes 40 s) : strnlen (s ++ [0]) 56 = 55 :=
  strnlen_append_zero hlen (zero_not_mem hdec.1)

theorem take_text (hlen : s.length = 55) : (s ++ [0]).take 55 = s := List.take_left' hlen

/-- A text of 55 characters whose bytes start with 0xcb is canonical. -/
theorem b58Text_addressDecode (hlen : s.length = 55) (hdec : Decodes 40 s)
    (hcb : (addressDecode s).head? = some 0xcb) : b58Text (addressDecode s) = s := by
  have h40 : (addressDecode s).length = 40 := length_beBytes 40 _
  have hval : beVal (addressDecode s) = b58Value s := beVal_beBytes hdec.2
  have htext := length_b58Text_cb h40 hcb
  have hz : ((addressDecode s).takeWhile (· = 0)).length = 0 := by
    cases hb : addressDecode s with
    | nil => rfl
    | cons b l =>
      rw [hb, List.head?_cons] at hcb
      rw [Option.some.inj hcb, List.takeWhile_cons_of_neg (by decide)]; rfl
  rw [b58Text, hz, hval, List.replicate_zero, List.nil_append] at htext ⊢
  refine map_digitsBE_b58Value hdec.1 fun hone => ?_
  -- with a leading '1' the value would have at most 54 digits
  cases hs : s with
  | nil => rw [hs] at hlen; simp at hlen
  | cons c t =>
    rw [hs, List.head?_cons] at hone
    obtain rfl : c = 49 := Option.some.inj hone
    have ht : t.length = 54 := by rw [hs] at hlen; simpa using hlen
    have hdig : ∀ d ∈ t.map (B58_ALPHABET.idxOf ·), d < 58 := fun d hd => by
      obtain ⟨x, hx, rfl⟩ := List.mem_map.mp hd
      exact idxOf_lt (hdec.1 x (by rw [hs]; exact List.mem_cons_of_mem _ hx))
    have hlt := ofBE_lt (by norm_num : 1 < 58) hdig
    have hvt : b58Value s = b58Value t := by
      rw [hs]; exact b58Value_ones 1 t
    rw [List.length_map, ht] at hlt
    have hle := length_digitsBE_le (by norm_num : 1 < 58) hlt
    rw [List.length_map, hvt, b58Value] at htext
    omega

/-! ## The exact condition -/

section Accepted

variable (hlen : s.length = 55) (hdec : Decodes 40 s)

include hlen hdec

theorem checksum_of_accepted {st : Stale} (hval : validate_address sha256 st (s ++ [0]) = .ok true) :
    (addressDecode s).drop 36 = checksum sha256 ((addressDecode s).take 36) := by
  have hdec' : Decodes 40 ((s ++ [0]).take 55) := by rw [take_text hlen]; exact hdec
  have h := validate_address_eq sha256 (strnlen_text hlen hdec) hdec' st
  rw [h, take_text hlen] at hval
  simpa using hval

/-- What is read from an accepted text. -/
theorem read_text (st : Stale) (out : Compressed) :
    read_public_key_compressed st out (s ++ [0]) = .ok (keyOf (addressDecode s)) := by
  have hdec' : Decodes 40 ((s ++ [0]).take 55) := by rw [take_text hlen]; exact hdec
  rw [read_public_key_compressed_eq (strnlen_text hlen hdec) hdec', take_text hlen]

/-- With the right kind the forty bytes are those of the key. -/
theorem addressDecode_eq {st : Stale} (hval : validate_address sha256 st (s ++ [0]) = .ok true)
    (hkind : KindOk s) : addressDecode s = addressBytes sha256 (keyOf (addressDecode s)).x
      (oddByte (keyOf (addressDecode s)).is_odd) := by
  have hsum := checksum_of_accepted hlen hdec hval
  have h40 : (addressDecode s).length = 40 := length_beBytes 40 _
  have hx := toList_keyOf h40
  obtain ⟨hhead, hpar⟩ := hkind
  generalize addressDecode s = b at *
  have hbyte : oddByte (keyOf b).is_odd = b.getD 35 0 := by
    rcases hpar with h | h <;> rw [keyOf, h] <;> rfl
  have hbody : addressBody (keyOf b).x (oddByte (keyOf b).is_odd) = b.take 36 := by
    have h35 : 35 < b.length := by omega
    have hget : b.getD 35 0 = b[35] := List.getD_eq_getElem _ _ h35
    have hmid : b.take 3 ++ (b.drop 3).take 32 = b.take 35 := by
      rw [show 35 = 3 + 32 from rfl, List.take_add]
    rw [addressBody, hx, List.reverse_reverse, hbyte, ← hhead, hmid, hget,
      List.take_succ_eq_append_getElem h35]
  rw [addressBytes, hbody, ← hsum, List.take_append_drop]

theorem reencodes_of_kindOk {st : Stale} (hval : validate_address sha256 st (s ++ [0]) = .ok true)
    (hkind : KindOk s) : Reencodes sha256 (s ++ [0]) := by
  intro st₁ out pk hpk y hy st₂ buf
  obtain rfl : keyOf (addressDecode s) = pk :=
    Except.ok.inj ((read_text hlen hdec st₁ out).symm.trans hpk)
  obtain ⟨r, hr, hlist⟩ := generate_address_eq sha256 st₂ buf ⟨(keyOf (addressDecode s)).x, y⟩
  refine ⟨r, hr, ?_⟩
  have hbytes := addressDecode_eq hlen hdec hval hkind
  have hcb : (addressDecode s).head? = some 0xcb := by rw [hbytes]; rfl
  rw [hlist]
  show addressText sha256 (keyOf (addressDecode s)).x (oddByte (field_is_odd y)) ++ [0] = s ++ [0]
  rw [hy, addressText, ← hbytes, b58Text_addressDecode hlen hdec hcb]

theorem kindOk_of_reencodes (h : Reencodes sha256 (s ++ [0])) : KindOk s := by
  have hpk := read_text hlen hdec ⟨fun _ => 0⟩ ⟨ofNum 0, false⟩
  generalize keyOf (addressDecode s) = pk at hpk
  -- some y has the parity that was read
  obtain ⟨y, hy⟩ : ∃ y : Field, field_is_odd y = pk.is_odd := by
    refine ⟨ofNum (if pk.is_odd then 1 else 0), ?_⟩
    rw [field_is_odd_eq, num_ofNum (by split <;> norm_num)]
    cases pk.is_odd <;> rfl
  obtain ⟨r, hr, hlist⟩ := h _ _ _ hpk y hy ⟨fun _ => 0⟩ (Vector.replicate 56 0)
  obtain ⟨r', hr', hlist'⟩ := generate_address_eq sha256 ⟨fun _ => 0⟩ (Vector.replicate 56 0)
    ⟨pk.x, y⟩
  obtain rfl : r' = r := (Prod.mk.inj (Except.ok.inj (hr'.symm.trans hr))).2
  have htext : addressText sha256 pk.x (oddByte (field_is_odd y)) = s :=
    (List.append_inj (hlist'.symm.trans hlist) (by rw [length_addressText, hlen])).1
  have hbytes := (decodes_addressText sha256 pk.x (oddByte (field_is_odd y))).2
  rw [htext] at hbytes
  refine ⟨by rw [hbytes]; rfl, ?_⟩
  have hpar : (addressDecode s).getD 35 0 = oddByte (field_is_odd y) := by
    rw [hbytes, addressBytes, addressBody]
    simp [List.getD_eq_getElem?_getD]
  rw [hpar]
  cases field_is_odd y
  · exact .inl rfl
  · exact .inr rfl

end Accepted

/-- On texts of the right kind the key determines the text. -/
theorem kindOk_key_inj {t : List UInt8} (hs : s.length = 55) (ht : t.length = 55)
    (hds : Decodes 40 s) (hdt : Decodes 40 t) {st : Stale}
    (hvs : validate_address sha256 st (s ++ [0]) = .ok true)
    (hvt : validate_address sha256 st (t ++ [0]) = .ok true) (hks : KindOk s) (hkt : KindOk t)
    {out : Compressed} (h : read_public_key_compressed st out (s ++ [0]) =
      read_public_key_compressed st out (t ++ [0])) : s = t := by
  rw [read_text hs hds, read_text ht hdt] at h
  have hkey := Except.ok.inj h
  have hbs := addressDecode_eq hs hds hvs hks
  have hb : addressDecode s = addressDecode t := by
    rw [hbs, addressDecode_eq ht hdt hvt hkt, hkey]
  have hcb : (addressDecode s).head? = some 0xcb := by rw [hbs]; rfl
  rw [← b58Text_addressDecode hs hds hcb, hb, b58Text_addressDecode ht hdt (hb ▸ hcb)]

/-- The exact condition, for every hash and every accepted text that decodes:
encoding its key gives the text back if and only if its version, kinds and
parity byte are canonical; and among such texts the key determines the text. -/
theorem reencodes_iff (sha256 : List UInt8 → Vector UInt8 32) (st : Stale) {s : List UInt8}
    (hlen : s.length = 55) (hdec : Decodes 40 s)
    (hval : validate_address sha256 st (s ++ [0]) = .ok true) :
    (Reencodes sha256 (s ++ [0]) ↔ KindOk s) ∧
    ∀ t, t.length = 55 → Decodes 40 t → validate_address sha256 st (t ++ [0]) = .ok true →
      KindOk s → KindOk t → ∀ out, read_public_key_compressed st out (s ++ [0]) =
        read_public_key_compressed st out (t ++ [0]) → s = t :=
  ⟨⟨kindOk_of_reencodes hlen hdec, reencodes_of_kindOk hlen hdec hval⟩,
    fun _ ht hdt hvt hks hkt _ h => kindOk_key_inj hlen ht hdec hdt hval hvt hks hkt h⟩

/-! ## Two texts of one key -/

/-- `receiver` with parity byte 2. -/
def receiverAgain : List UInt8 := chars "B62qrcFstkpqXww1EkSGrqMCwCNho86kuqBd4FrAAUsPxNKdiWG65Te"

theorem decodes_receiverAgain : Decodes 40 receiverAgain := by decide +kernel

theorem accepted_receiverAgain (st : Stale) :
    validate_address sha256Table st (receiverAgain ++ [0]) = .ok true := by
  rw [validate_address_eq sha256Table (by decide +kernel) (by decide +kernel)]; decide +kernel

theorem reencodes_iff_receiver : Reencodes sha256Table (receiver ++ [0]) ↔ KindOk receiver :=
  (reencodes_iff sha256Table ⟨fun _ => 0⟩ (by decide +kernel) decodes_receiver (accepted_receiver _)).1

/-- Both are accepted, both are the same key, and the second is not that key's text. -/
theorem two_texts_of_one_key :
    receiverAgain ≠ receiver ∧ receiverAgain.length = 55 ∧ Decodes 40 receiverAgain ∧
    validate_address sha256Table ⟨fun _ => 0⟩ (receiver ++ [0]) = .ok true ∧
    validate_address sha256Table ⟨fun _ => 0⟩ (receiverAgain ++ [0]) = .ok true ∧
    (∃ pk, read_public_key_compressed ⟨fun _ => 0⟩ ⟨ofNum 0, false⟩ (receiver ++ [0]) = .ok pk ∧
      read_public_key_compressed ⟨fun _ => 0⟩ ⟨ofNum 0, false⟩ (receiverAgain ++ [0]) = .ok pk) ∧
    ¬Reencodes sha256Table (receiverAgain ++ [0]) := by
  have hlen : receiverAgain.length = 55 := by decide +kernel
  refine ⟨by decide +kernel, hlen, decodes_receiverAgain, accepted_receiver _, accepted_receiverAgain _,
    ?_, ?_⟩
  · refine ⟨_, read_text (by decide +kernel) decodes_receiver _ _, ?_⟩
    rw [read_text hlen decodes_receiverAgain]
    decide +kernel
  · intro h
    exact absurd (kindOk_of_reencodes hlen decodes_receiverAgain h) (by decide +kernel)

end MinaLedger.Bugs.AddressKind
