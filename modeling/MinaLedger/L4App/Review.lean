import MinaLedger.L4App.SignTx

/-!
# What the screens determine

Two accepted requests with the same screens, line by line.

Results:
* `sameScreens_of_sameButAmount`: the lines are those of the request, whatever
  was there before.
* `Reviewed.sameScreens_iff`: they agree in the network and in every part of
  the transaction but the amount, so they are the same transaction if and only
  if the amounts are the same.
* `payment_review_is_complete`: a payment shows its amount, so what is signed
  is the same.
-/
namespace MinaLedger
open Lib.Radix

/-- An accepted request whose address fields decode, and what it left behind. -/
structure Reviewed (st : Nat → Stale) (data : List UInt8) (tx : tx_t) (ui : ui_t) : Prop where
  length : 172 ≤ data.length
  parsed : Parsed st data tx ui
  from_ : Decodes 40 ((data.drop 4).take 55)
  to_ : Decodes 40 ((data.drop 59).take 55)
  tag : tx.tag = PAYMENT_TX ∨ tx.tag = DELEGATION_TX
  network : tx.network_id = TESTNET_ID ∨ tx.network_id = MAINNET_ID

/-- The same flow, and the same lines on each of its steps. -/
structure SameScreens (tx : tx_t) (ui : ui_t) (tx' : tx_t) (ui' : ui_t) : Prop where
  flow : flowOf tx ui = flowOf tx' ui'
  lines : ∀ s ∈ flowOf tx ui, s.lines ui = s.lines ui'

/-- What `handle_sign_tx` leaves behind when it starts a flow. -/
theorem reviewed_of_handle {sha256 : List UInt8 → Vector UInt8 32} {st : Nat → Stale}
    {data : List UInt8} (hdata : 172 ≤ data.length) {dataLength : UInt8} {tx tx' : tx_t}
    {ui ui' : ui_t} {flow : List SignStep}
    (h : handle_sign_tx sha256 st data dataLength tx ui = .ok (some flow, tx', ui'))
    (hfrom : Decodes 40 ((data.drop 4).take 55)) (hto : Decodes 40 ((data.drop 59).take 55)) :
    Reviewed st data tx' ui' ∧ flow = flowOf tx' ui' := by
  obtain ⟨r, tx₁, ui₁, hr, hnone, hsome⟩ := handle_sign_tx_spec sha256 st hdata dataLength tx ui
  obtain ⟨rfl, htx⟩ := Prod.mk.inj (Except.ok.inj (hr.symm.trans h))
  obtain ⟨rfl, rfl⟩ := Prod.mk.inj htx
  obtain ⟨hP, -, hflow⟩ := hsome flow rfl
  have hacc : Acceptable sha256 st data dataLength := by
    by_contra hno; exact absurd (hnone.mpr hno) (by simp)
  exact ⟨⟨hdata, hP, hfrom, hto, hP.tag ▸ hacc.tag, hP.network ▸ hacc.network⟩, hflow⟩

/-! ## From the request to the lines -/

/-- Outside the amount the two requests are the same bytes. -/
structure SameButAmount (data data' : List UInt8) : Prop where
  before : data.take 114 = data'.take 114
  after : data.drop 122 = data'.drop 122

section Lines

variable {st st' : Nat → Stale} {data data' : List UInt8} {tx tx' : tx_t} {ui ui' : ui_t}
  {flow flow' : List SignStep}

theorem SameButAmount.addressField (h : SameButAmount data data') {off : Nat}
    (hoff : off + 55 ≤ 114) : addressField data off = MinaLedger.addressField data' off := by
  have hcut : ∀ d : List UInt8, (d.drop off).take 55 = ((d.take 114).drop off).take 55 := fun d => by
    rw [List.drop_take, List.take_take, Nat.min_eq_left (by omega)]
  rw [MinaLedger.addressField, MinaLedger.addressField, hcut, h.before, ← hcut]

theorem SameButAmount.drop_after (h : SameButAmount data data') {off : Nat} (hoff : 122 ≤ off) :
    data.drop off = data'.drop off := by
  have hcut : ∀ d : List UInt8, d.drop off = (d.drop 122).drop (off - 122) := fun d => by
    rw [List.drop_drop, Nat.add_sub_cancel' hoff]
  rw [hcut, h.after, ← hcut]

theorem SameButAmount.getD_after (h : SameButAmount data data') {i : Nat} (hi : 122 ≤ i) :
    data.getD i 0 = data'.getD i 0 := by
  have hcut : ∀ d : List UInt8, d.getD i 0 = (d.drop i).getD 0 0 := fun d => by
    simp [List.getD_eq_getElem?_getD]
  rw [hcut, h.drop_after hi, ← hcut]

theorem SameButAmount.numField_after (h : SameButAmount data data') {off : Nat} (hoff : 122 ≤ off)
    (k : Nat) : numField data off k = numField data' off k := by
  rw [numField, numField, h.drop_after hoff]

/-- The screens are those of the request: two requests that are the same outside the
amount look the same if the amounts are the same or no screen shows them. -/
theorem sameScreens_of_sameButAmount (h : Shown st data tx ui flow)
    (h' : Shown st' data' tx' ui' flow') (hsame : SameButAmount data data')
    (hamount : numField data 114 8 = numField data' 114 8 ∨ data.getD 170 0 = DELEGATION_TX) :
    SameScreens tx ui tx' ui' := by
  have hfee := hsame.numField_after (show 122 ≤ 122 from le_rfl) 8
  have htag : tx.tag = tx'.tag := by
    rw [h.parsed.tag, h'.parsed.tag, hsame.getD_after (by norm_num)]
  have hnet : tx.network_id = tx'.network_id := by
    rw [h.parsed.network, h'.parsed.network, hsame.getD_after (by norm_num)]
  have hvalid : tx.tx.valid_until = tx'.tx.valid_until := UInt32.toNat_inj.mp (by
    rw [h.parsed.valid_until, h'.parsed.valid_until, hsame.numField_after (by norm_num)])
  have hmemo : ui.memo.toList = ui'.memo.toList := by
    rw [h.parsed.memoText, h'.parsed.memoText, memoField, memoField,
      hsame.drop_after (by norm_num)]
  have htitles : [ui.type.toList, ui.from_title.toList, ui.to_title.toList] =
      [ui'.type.toList, ui'.from_title.toList, ui'.to_title.toList] := by
    rw [h.titles, h'.titles, titlesOf, titlesOf, htag]
  obtain ⟨htype, htail⟩ := List.cons.inj htitles
  obtain ⟨hfrom, htail⟩ := List.cons.inj htail
  have hto := (List.cons.inj htail).1
  have hshown : .amount ∈ flowOf tx ui ∨ .total ∈ flowOf tx ui →
      numField data 114 8 = numField data' 114 8 := fun hs => hamount.resolve_right fun hdel => by
    rw [flowOf, ux_sign_tx_flow_eq, h.parsed.tag.trans hdel] at hs
    simp at hs
  constructor
  · rw [flowOf, flowOf, htag, hvalid, hmemo, hnet]
  · intro s hs
    cases s with
    | topic | network | approve | reject => rfl
    | type => simp only [SignStep.lines, htype]
    | from_ =>
      simp only [SignStep.lines, hfrom, h.parsed.from_, h'.parsed.from_,
        hsame.addressField (show 4 + 55 ≤ 114 by norm_num)]
    | to_ =>
      simp only [SignStep.lines, hto, h.parsed.to_, h'.parsed.to_,
        hsame.addressField (show 59 + 55 ≤ 114 by norm_num)]
    | amount =>
      simp only [SignStep.lines, h.parsed.amountText, h'.parsed.amountText, hshown (.inl hs)]
    | fee => simp only [SignStep.lines, h.parsed.feeText, h'.parsed.feeText, hfee]
    | total =>
      simp only [SignStep.lines, h.parsed.totalText, h'.parsed.totalText, hshown (.inr hs), hfee]
    | nonce =>
      simp only [SignStep.lines, h.parsed.nonceText, h'.parsed.nonceText,
        hsame.numField_after (show 122 ≤ 130 by norm_num)]
    | valid_until =>
      simp only [SignStep.lines, h.parsed.validText, h'.parsed.validText,
        hsame.numField_after (show 122 ≤ 134 by norm_num)]
    | memo => simp only [SignStep.lines, hmemo]

end Lines

/-! ## From lines to values -/

section Screens

variable {st st' : Nat → Stale} {data data' : List UInt8} {tx tx' : tx_t} {ui ui' : ui_t}

/-- These steps are in every flow. -/
theorem mem_flowOf (tx : tx_t) (ui : ui_t) :
    .from_ ∈ flowOf tx ui ∧ .to_ ∈ flowOf tx ui ∧ .fee ∈ flowOf tx ui ∧ .nonce ∈ flowOf tx ui := by
  rw [flowOf, ux_sign_tx_flow_eq]
  simp

/-- The second line of a step is on screen. -/
theorem SameScreens.second (h : SameScreens tx ui tx' ui') {s : SignStep}
    (hs : s ∈ flowOf tx ui) {a b a' b' : List UInt8} (hl : s.lines ui = [a, b])
    (hl' : s.lines ui' = [a', b']) : b = b' := by
  have := h.lines s hs
  rw [hl, hl'] at this
  exact (List.cons.inj (List.cons.inj this).2).1

theorem addressField_inj {off : Nat} (h : Decodes 40 ((data.drop off).take 55))
    (h' : Decodes 40 ((data'.drop off).take 55))
    (heq : cstr (addressField data off) = cstr (addressField data' off)) :
    addressField data off = addressField data' off := by
  have hcut : ∀ l : List UInt8, IsB58 l → cstr (l ++ [0]) = l := fun l hl => by
    have := @cstr_append_zero l [] (zero_not_mem hl)
    rwa [List.append_nil] at this
  unfold addressField at heq ⊢
  rw [hcut _ h.1, hcut _ h'.1] at heq
  rw [heq]

theorem strnlen_addressField (hdata : 172 ≤ data.length) {off : Nat} (hoff : off + 55 ≤ 172)
    (h : Decodes 40 ((data.drop off).take 55)) :
    strnlen (addressField data off) 56 = 55 ∧ Decodes 40 ((addressField data off).take 55) := by
  have hlen : ((data.drop off).take 55).length = 55 := by
    rw [List.length_take, List.length_drop]; omega
  refine ⟨strnlen_append_zero hlen (zero_not_mem h.1), ?_⟩
  rw [addressField, List.take_left' hlen]
  exact h

/-- The same text is the same key. -/
theorem key_eq {off : Nat} (hoff : off + 55 ≤ 172) (hdata : 172 ≤ data.length)
    (h : Decodes 40 ((data.drop off).take 55)) {s s' : Stale} {pk pk' : Compressed}
    (hr : ∃ out, read_public_key_compressed s out (addressField data off) = .ok pk)
    (hr' : ∃ out, read_public_key_compressed s' out (addressField data' off) = .ok pk')
    (heq : addressField data off = addressField data' off) : pk = pk' := by
  obtain ⟨hlen, hdec⟩ := strnlen_addressField hdata hoff h
  obtain ⟨out, hout⟩ := hr
  obtain ⟨out', hout'⟩ := hr'
  rw [read_public_key_compressed_eq hlen hdec] at hout
  rw [← heq, read_public_key_compressed_eq hlen hdec] at hout'
  exact Except.ok.inj (hout.symm.trans hout')

variable (h : Reviewed st data tx ui) (h' : Reviewed st' data' tx' ui')
  (same : SameScreens tx ui tx' ui')

include h h' same

theorem same_network_tag : tx.network_id = tx'.network_id ∧ tx.tag = tx'.tag := by
  obtain ⟨hn, ht, -, -⟩ := ux_sign_tx_flow_inj same.flow
  constructor
  · rcases h.network with e | e <;> rcases h'.network with e' | e' <;> rw [e, e'] at hn ⊢ <;>
      exact absurd hn (by decide)
  · rcases h.tag with e | e <;> rcases h'.tag with e' | e' <;> rw [e, e'] at ht ⊢ <;>
      exact absurd ht (by decide)

theorem same_keys : tx.tx.source_pk = tx'.tx.source_pk ∧
    tx.tx.fee_payer_pk = tx'.tx.fee_payer_pk ∧ tx.tx.receiver_pk = tx'.tx.receiver_pk := by
  obtain ⟨hfrom, hto, -, -⟩ := mem_flowOf tx ui
  have hf := same.second hfrom rfl rfl
  have ht := same.second hto rfl rfl
  rw [h.parsed.from_, h'.parsed.from_] at hf
  rw [h.parsed.to_, h'.parsed.to_] at ht
  have hf := addressField_inj h.from_ h'.from_ hf
  have ht := addressField_inj h.to_ h'.to_ ht
  exact ⟨key_eq (by norm_num) h.length h.from_ h.parsed.source h'.parsed.source hf,
    key_eq (by norm_num) h.length h.from_ h.parsed.payer h'.parsed.payer hf,
    key_eq (by norm_num) h.length h.to_ h.parsed.receiver h'.parsed.receiver ht⟩

theorem same_fee_nonce : tx.tx.fee = tx'.tx.fee ∧ tx.tx.nonce = tx'.tx.nonce := by
  obtain ⟨-, -, hfee, hnonce⟩ := mem_flowOf tx ui
  have hf := same.second hfee rfl rfl
  have hn := same.second hnonce rfl rfl
  rw [h.parsed.feeText, h'.parsed.feeText] at hf
  rw [h.parsed.nonceText, h'.parsed.nonceText] at hn
  have hf := amountText_inj hf
  have hn := decimal_inj hn
  rw [← h.parsed.fee, ← h'.parsed.fee] at hf
  rw [← h.parsed.nonce, ← h'.parsed.nonce] at hn
  exact ⟨UInt64.toNat_inj.mp hf, UInt32.toNat_inj.mp hn⟩

/-- Shown, or forced by its absence. -/
theorem same_valid_until : tx.tx.valid_until = tx'.tx.valid_until := by
  obtain ⟨-, -, hv, -⟩ := ux_sign_tx_flow_inj same.flow
  by_cases hne : tx.tx.valid_until = 0xffffffff
  · rw [hne] at hv ⊢
    have hv' : (tx'.tx.valid_until != 0xffffffff) = false := by rw [← hv]; decide
    exact (by simpa using hv' : tx'.tx.valid_until = 0xffffffff).symm
  · have hmem : .valid_until ∈ flowOf tx ui :=
      (mem_ux_sign_tx_flow _ _ _ _).2.2.1.mpr (by simpa using hne)
    have ht := same.second hmem rfl rfl
    rw [h.parsed.validText, h'.parsed.validText] at ht
    have ht := decimal_inj ht
    rw [← h.parsed.valid_until, ← h'.parsed.valid_until] at ht
    exact UInt32.toNat_inj.mp ht

/-- Shown up to the NUL, or empty; and nothing behind the NUL is signed. -/
theorem same_memo : tx.tx.memo = tx'.tx.memo := by
  obtain ⟨-, -, -, hm⟩ := ux_sign_tx_flow_inj same.flow
  have htext : cstr ui.memo.toList = cstr ui'.memo.toList := by
    by_cases h0 : ui.memo.toList.getD 0 0 = 0
    · -- no memo screen: both texts are empty
      have hempty : ∀ v : Vector UInt8 (MEMO_BYTES - 1), v.toList.getD 0 0 = 0 →
          cstr v.toList = [] := fun v hv => by
        cases hl : v.toList with
        | nil => rfl
        | cons c l =>
          rw [hl] at hv
          rw [cstr, List.takeWhile_cons_of_neg (by simpa using hv)]
      have h0' : ui'.memo.toList.getD 0 0 = 0 := by
        rw [h0] at hm
        simpa using hm.symm
      rw [hempty _ h0, hempty _ h0']
    · have hmem : .memo ∈ flowOf tx ui :=
        (mem_ux_sign_tx_flow _ _ _ _).2.2.2.mpr (by simpa using h0)
      exact same.second hmem rfl rfl
  have hlen : ∀ data : List UInt8, 172 ≤ data.length → ((data.drop 138).take 32).length = 32 :=
    fun data hd => by rw [List.length_take, List.length_drop]; omega
  rw [h.parsed.memoText, h'.parsed.memoText, memoField, memoField] at htext
  refine Vector.toList_inj.mp ?_
  rw [h.parsed.memo, h'.parsed.memo]
  exact (memoBytes_inj (hlen _ h.length) (hlen _ h'.length)).mpr htext

/-- Requests with the same screens sign the same but for the amount. -/
theorem Reviewed.sameScreens_iff : tx.network_id = tx'.network_id ∧
    (tx.tx = tx'.tx ↔ tx.tx.amount = tx'.tx.amount) := by
  obtain ⟨hnet, htag⟩ := same_network_tag h h' same
  obtain ⟨hsource, hpayer, hreceiver⟩ := same_keys h h' same
  obtain ⟨hfee, hnonce⟩ := same_fee_nonce h h' same
  refine ⟨hnet, fun he => by rw [he], fun hamount => ?_⟩
  exact Transaction.ext hfee (h.parsed.fee_token.trans h'.parsed.fee_token.symm) hpayer hnonce
    (same_valid_until h h' same) (same_memo h h' same)
    (by rw [h.parsed.tagBits, h'.parsed.tagBits, htag]) hsource hreceiver
    (h.parsed.token_id.trans h'.parsed.token_id.symm) hamount
    (h.parsed.token_locked.trans h'.parsed.token_locked.symm)

/-- A payment shows its amount. -/
theorem same_amount (hpay : tx.tag = PAYMENT_TX) : tx.tx.amount = tx'.tx.amount := by
  have hmem : .amount ∈ flowOf tx ui :=
    (mem_ux_sign_tx_flow _ _ _ _).2.1.mpr (by rw [hpay]; decide)
  have ht := same.second hmem rfl rfl
  rw [h.parsed.amountText, h'.parsed.amountText] at ht
  have ht := amountText_inj ht
  rw [← h.parsed.amount, ← h'.parsed.amount] at ht
  exact UInt64.toNat_inj.mp ht

end Screens

/-- `transaction_to_roinput` gives the same fields and the same bits for both, whatever
the arrays held. -/
def SameInput (t u : Transaction) : Prop :=
  ∀ input input' : ROInput 3 TX_BITSTRINGS_BYTES,
    ∃ r r', transaction_to_roinput input t = .ok r ∧ transaction_to_roinput input' u = .ok r' ∧
      r.fields_len = r'.fields_len ∧ r.fieldList = r'.fieldList ∧ r.bits_len = r'.bits_len ∧
      r.bitString = r'.bitString

theorem sameInput_iff {t u : Transaction} : SameInput t u ↔ t = u := by
  constructor
  · intro h
    obtain ⟨r, r', hr, hr', -, hf, -, hb⟩ := h (filledInput 0) (filledInput 0)
    obtain ⟨q, hq, -, hqf, hqb, -, -⟩ := transaction_to_roinput_spec (filledInput 0) t
    obtain ⟨q', hq', -, hqf', hqb', -, -⟩ := transaction_to_roinput_spec (filledInput 0) u
    obtain rfl : q = r := Except.ok.inj (hq.symm.trans hr)
    obtain rfl : q' = r' := Except.ok.inj (hq'.symm.trans hr')
    exact txBits_inj (hqf.symm.trans (hf.trans hqf')) (hqb.symm.trans (hb.trans hqb'))
  · rintro rfl input input'
    obtain ⟨r, hr, -, hf, hb, hfl, hbl⟩ := transaction_to_roinput_spec input t
    obtain ⟨r', hr', -, hf', hb', hfl', hbl'⟩ := transaction_to_roinput_spec input' t
    exact ⟨r, r', hr, hr', hfl.trans hfl'.symm, hf.trans hf'.symm, hbl.trans hbl'.symm,
      hb.trans hb'.symm⟩

/-- What you see is what you sign: a payment and any request that look the same
on every screen give the same network and the same signed input. The two may
follow any earlier requests and find anything in their local arrays. -/
theorem payment_review_is_complete (sha256 : List UInt8 → Vector UInt8 32) {st st' : Nat → Stale}
    {data data' : List UInt8} (hdata : 172 ≤ data.length) (hdata' : 172 ≤ data'.length)
    {dataLength dataLength' : UInt8} {tx₀ tx₀' tx tx' : tx_t} {ui₀ ui₀' ui ui' : ui_t}
    {flow : List SignStep}
    (h : handle_sign_tx sha256 st data dataLength tx₀ ui₀ = .ok (some flow, tx, ui))
    (h' : handle_sign_tx sha256 st' data' dataLength' tx₀' ui₀' = .ok (some flow, tx', ui'))
    (hfrom : Decodes 40 ((data.drop 4).take 55)) (hto : Decodes 40 ((data.drop 59).take 55))
    (hfrom' : Decodes 40 ((data'.drop 4).take 55)) (hto' : Decodes 40 ((data'.drop 59).take 55))
    (hpay : data.getD 170 0 = PAYMENT_TX) (hlines : ∀ s ∈ flow, s.lines ui = s.lines ui') :
    tx.network_id = tx'.network_id ∧ SameInput tx.tx tx'.tx := by
  obtain ⟨hr, hflow⟩ := reviewed_of_handle hdata h hfrom hto
  obtain ⟨hr', hflow'⟩ := reviewed_of_handle hdata' h' hfrom' hto'
  have same : SameScreens tx ui tx' ui' := ⟨hflow.symm.trans hflow', by rw [← hflow]; exact hlines⟩
  obtain ⟨hnet, hiff⟩ := hr.sameScreens_iff hr' same
  have hamount := same_amount hr hr' same (by rw [hr.parsed.tag, hpay])
  exact ⟨hnet, sameInput_iff.mpr (hiff.mpr hamount)⟩

/-! ## A known request, reviewed twice -/

/-- Every byte of `_tx` is `b`. -/
def filledTx (b : UInt8) : tx_t where
  network_id := b
  account := 0
  tx := sampleTx 0
  input_fields := Vector.replicate 3 (Vector.replicate 32 b)
  input_bits := Vector.replicate _ b
  tag := b

def filledUi (b : UInt8) : ui_t where
  from_ := Vector.replicate _ b
  to_ := Vector.replicate _ b
  amount := Vector.replicate _ b
  fee := Vector.replicate _ b
  total := Vector.replicate _ b
  nonce := Vector.replicate _ b
  valid_until := Vector.replicate _ b
  memo := Vector.replicate _ b
  type := Vector.replicate _ b
  from_title := Vector.replicate _ b
  to_title := Vector.replicate _ b

theorem length_receiver : receiver.length = 55 := by decide +kernel

/-- From `receiver` to itself. -/
def sampleRequest (amount tag : UInt8) : List UInt8 := request receiver receiver amount tag

theorem length_sampleRequest (amount tag : UInt8) : (sampleRequest amount tag).length = 172 :=
  length_request length_receiver length_receiver amount tag

theorem decodes_sampleRequest (amount tag : UInt8) :
    Decodes 40 (((sampleRequest amount tag).drop 4).take 55) ∧
    Decodes 40 (((sampleRequest amount tag).drop 59).take 55) := by
  obtain ⟨hfrom, hto⟩ := request_addresses length_receiver length_receiver amount tag
  have hcut : ∀ l : List UInt8, l ++ [0] = receiver ++ [0] → Decodes 40 l := fun l h => by
    rw [List.append_cancel_right h]; exact decodes_receiver
  exact ⟨hcut _ hfrom, hcut _ hto⟩

/-- It is accepted and shown, whatever was there before. -/
theorem sampleRequest_shown (b amount : UInt8) {tag : UInt8}
    (htag : tag = PAYMENT_TX ∨ tag = DELEGATION_TX) :
    ∃ flow tx ui, handle_sign_tx sha256Table (fun _ => ⟨fun _ => b⟩) (sampleRequest amount tag) 172
        (filledTx b) (filledUi b) = .ok (some flow, tx, ui) ∧
      Shown (fun _ => ⟨fun _ => b⟩) (sampleRequest amount tag) tx ui flow := by
  obtain ⟨r, tx, ui, hr, hnone, hsome⟩ := handle_sign_tx_spec sha256Table (fun _ => ⟨fun _ => b⟩)
    (le_of_eq (length_sampleRequest amount tag).symm) 172 (filledTx b) (filledUi b)
  cases r with
  | none => exact absurd (acceptable_request length_receiver length_receiver amount tag
      (accepted_receiver _) (accepted_receiver _) htag) (hnone.mp rfl)
  | some flow => exact ⟨flow, tx, ui, hr, hsome flow rfl⟩

theorem payment_review_is_complete_sample :
    ∃ tx ui tx' ui' flow,
      handle_sign_tx sha256Table (fun _ => ⟨fun _ => 0⟩) (sampleRequest 42 PAYMENT_TX) 172
        (filledTx 0) (filledUi 0) = .ok (some flow, tx, ui) ∧
      handle_sign_tx sha256Table (fun _ => ⟨fun _ => 255⟩) (sampleRequest 42 PAYMENT_TX) 172
        (filledTx 255) (filledUi 255) = .ok (some flow, tx', ui') ∧
      tx.network_id = tx'.network_id ∧ SameInput tx.tx tx'.tx := by
  obtain ⟨flow, tx, ui, h, hs⟩ := sampleRequest_shown 0 42 (.inl rfl : PAYMENT_TX = _ ∨ _)
  obtain ⟨flow', tx', ui', h', hs'⟩ := sampleRequest_shown 255 42 (.inl rfl : PAYMENT_TX = _ ∨ _)
  have same := sameScreens_of_sameButAmount hs hs' ⟨rfl, rfl⟩ (.inl rfl)
  obtain rfl : flow = flow' := hs.flow.trans (same.flow.trans hs'.flow.symm)
  obtain ⟨hfrom, hto⟩ := decodes_sampleRequest 42 PAYMENT_TX
  have hpay := (request_fields length_receiver length_receiver 42 PAYMENT_TX).2.2.1
  have hlen := le_of_eq (length_sampleRequest 42 PAYMENT_TX).symm
  exact ⟨tx, ui, tx', ui', flow, h, h', payment_review_is_complete sha256Table hlen hlen h h' hfrom
    hto hfrom hto hpay (by rw [hs.flow]; exact same.lines)⟩

end MinaLedger
