import MinaLedger.L4App.GetAddress

/-!
# The event loop

src/src/main.c: `handleApdu` checks the header of a request, calls its handler
and turns every exception into a status word; `app_main` waits for the next
request while the SDK runs the callbacks of the current flow, and answers an
exception that leaves one of those.

`G_io_apdu_buffer` is an input here: the SDK writes the `rx` bytes it received and
leaves what was behind them.

Results:
* `stale_bytes_do_not_matter`: what is behind the received bytes has no influence
  on a request, and the handlers do not read it (`handle_get_address_take`,
  `parse_tx_take`).
* `handleApdu_returns`: every request is handled, and no exception is left over.
* `app_main_returns`: no turn of the loop is undefined.
-/
namespace MinaLedger
open Lib.Radix

/-- mirrors src/src/main.c:26-38 -/
def CLA : UInt8 := 0xe0
def INS_GET_CONF : UInt8 := 0x01
def INS_GET_ADDR : UInt8 := 0x02
def INS_SIGN_TX : UInt8 := 0x03

def APDU_HEADER_LEN : Nat := 5
def OFFSET_CLA : Nat := 0
def OFFSET_INS : Nat := 1
def OFFSET_LC : Nat := 4
def OFFSET_CDATA : Nat := 5

/-- `EXCEPTION_IO_RESET` of the SDK's exception numbers. -/
def EXCEPTION_IO_RESET : Nat := 0x10

/-- `G_io_apdu_buffer`. -/
abbrev ApduBuffer := Vector UInt8 260

/-! ## One request -/

/-- The status word of an exception. mirrors src/src/main.c:98-113 -/
def statusWord (e : Nat) : Nat :=
  if e &&& 0xF000 = 0x6000 then e
  else if e &&& 0xF000 = 0x9000 then e
  else 0x6800 ||| (e &&& 0x7FF)

/-- The two bytes of a status word. -/
def swBytes (sw : Nat) : List UInt8 := [UInt8.ofNat (sw >>> 8), UInt8.ofNat sw]

section Functions

variable (env : Env)

/-- `handle_sign_tx` on the static variables; its flow starts with a step that has
no init code. mirrors src/src/sign_tx.c:492-527 -/
def Device.handle_sign_tx (st : Nat → Stale) (dataBuffer : List UInt8) (dataLength : UInt8)
    (d : Device) : Exec Outcome := do
  let (flow, _tx, _ui) ← MinaLedger.handle_sign_tx env.sha256 st dataBuffer dataLength d._tx d._ui
  let d := { d with _tx := _tx, _ui := _ui }
  match flow with
  | none => return { device := d, thrown := some INVALID_PARAMETER }
  | some steps =>
    let o ← ux_flow_init env st (.ux_sign_tx_flow steps) d
    return { o with device := { o.device with flags := true } }

/-- The `TRY` block, and the first `*tx` bytes of the buffer behind it.
mirrors src/src/main.c:46-92 -/
def dispatch (st : Nat → Stale) (d : Device) (buffer : ApduBuffer) (length : Nat) :
    Exec (Outcome × List UInt8) := do
  if (← load buffer.toList OFFSET_CLA) ≠ CLA then
    return ({ device := d, thrown := some 0x6E00 }, [])
  -- the length the request states against the one received
  let dataLength ← load buffer.toList OFFSET_LC
  if dataLength.toNat + APDU_HEADER_LEN ≠ length then
    return ({ device := d, thrown := some 0x6E00 }, [])
  let ins ← load buffer.toList OFFSET_INS
  if ins = INS_GET_CONF then
    return ({ device := d, thrown := some 0x9000 }, env.version.toList)
  else if ins = INS_GET_ADDR then
    let o ← handle_get_address env st (buffer.toList.drop OFFSET_CDATA) dataLength d
    return (o, [])
  else if ins = INS_SIGN_TX then
    let o ← d.handle_sign_tx env st (buffer.toList.drop OFFSET_CDATA) dataLength
    return (o, [])
  else
    return ({ device := d, thrown := some 0x6D00 }, [])

/-- The outcome, in which only EXCEPTION_IO_RESET is still thrown, and the first `*tx`
bytes of the buffer. mirrors src/src/main.c:40-123 -/
def handleApdu (st : Nat → Stale) (d : Device) (buffer : ApduBuffer) (length : Nat) :
    Exec (Outcome × List UInt8) := do
  let (o, reply) ← dispatch env st d buffer length
  match o.thrown with
  | none => return (o, reply)
  | some e =>
    if e = EXCEPTION_IO_RESET then
      return (o, reply)
    let internal : Bool := e &&& 0xF000 ≠ 0x6000 ∧ e &&& 0xF000 ≠ 0x9000
    let d := if internal ∧ statusWord e = 0x6802 then ui_idle o.device else o.device
    return ({ device := d }, reply ++ swBytes (statusWord e))

/-! ## The loop -/

/-- What ends one wait of `io_exchange`, or happens during it: a request, a step that
comes on screen, both buttons or the timer of a step, a reset of the connection. -/
inductive Event where
  | apdu (buffer : ApduBuffer) (rx : Nat)
  | display (step : UxStep)
  | validate (step : UxStep)
  | reset

/-- Callbacks come from the current flow. "Quit" leaves the application. -/
def Enabled (d : Device) : Event → Prop
  | .display step => step ∈ d.flow.steps
  | .validate step => step ∈ d.flow.steps ∧ step ≠ .ux_idle_flow_3_step
  | _ => True

instance (d : Device) (e : Event) : Decidable (Enabled d e) := by
  cases e <;> simp only [Enabled] <;> infer_instance

/-- `io_exchange(CHANNEL_APDU | flags, tx)` sends the reply, unless it is asynchronous. -/
def exchange (d : Device) (reply : List UInt8) : Outcome :=
  { device := d, sent := if d.flags then [] else [reply] }

/-- The handler of `app_main`. mirrors src/src/main.c:160-184 -/
def catchMain (d : Device) (reply : List UInt8) (e : Nat) : Outcome :=
  let d := if e ≠ 0x9000 then { d with flags := false } else d
  exchange d (reply ++ swBytes (statusWord e))

/-- `main` after EXCEPTION_IO_RESET. mirrors src/src/main.c:310-340 -/
def restart (d : Device) : Device := { ui_idle d with flags := false }

/-- An exception that reaches `app_main`, with what was sent before it. -/
def rethrown (o : Outcome) (reply : List UInt8) (e : Nat) : Outcome :=
  if e = EXCEPTION_IO_RESET then { device := restart o.device, sent := o.sent }
  else { device := (catchMain o.device reply e).device,
         sent := o.sent ++ (catchMain o.device reply e).sent }

/-- A callback runs inside `io_exchange`, with `tx = 0`. -/
def duringExchange (o : Outcome) : Outcome :=
  match o.thrown with
  | none => o
  | some e => rethrown o [] e

/-- One turn of the loop. mirrors src/src/main.c:125-193 -/
def app_main (st : Nat → Stale) (d : Device) : Event → Exec Outcome
  | .apdu buffer rx => do
    let d := { d with flags := false }
    if rx = 0 then
      return catchMain d [] 0x6982
    if rx > 260 then
      return catchMain d [] 0x6E00
    let (o, reply) ← handleApdu env st d buffer rx
    match o.thrown with
    | none => return exchange o.device reply
    | some e => return rethrown o reply e
  | .display step => do return duringExchange (← display env st d step)
  | .validate step => do return duringExchange (← validate env st d step)
  | .reset => return { device := restart d }

end Functions

/-! ## Reading no more than was received -/

section Take

variable {data : List UInt8} {m : Nat}

theorem load_take {i : Nat} (h : i < m) : load (data.take m) i = load data i := by
  rw [load, load, List.getElem?_take_of_lt h]

theorem readBytes_take (hm : m ≤ data.length) {off k : Nat} (h : off + k ≤ m) :
    readBytes (data.take m) off k = readBytes data off k := by
  have hlen : off + k ≤ (data.take m).length := by rw [List.length_take]; omega
  rw [readBytes_eq _ _ _ hlen, readBytes_eq _ _ _ (by omega), List.drop_take, List.take_take,
    Nat.min_eq_left (by omega)]

theorem read_uint32_be_take {off : Nat} (h : off + 4 ≤ m) :
    read_uint32_be (data.take m) off = read_uint32_be data off := by
  simp (disch := omega) only [read_uint32_be, load_take]

theorem read_uint64_be_take {off : Nat} (h : off + 8 ≤ m) :
    read_uint64_be (data.take m) off = read_uint64_be data off := by
  simp (disch := omega) only [read_uint64_be, load_take]

/-- `parse_tx` reads the data and nothing behind it: memory that ends with the data
would do. -/
theorem parse_tx_take (sha256 : List UInt8 → Vector UInt8 32) (st : Nat → Stale)
    {dataLength : UInt8} (hlen : dataLength.toNat ≤ data.length) (tx : tx_t) (ui : ui_t) :
    parse_tx sha256 st (data.take dataLength.toNat) dataLength tx ui =
      parse_tx sha256 st data dataLength tx ui := by
  by_cases h : dataLength = 172
  · subst h
    have hm : 172 ≤ data.length := hlen
    have from_ : readBytes (data.take 172) 4 (MINA_ADDRESS_LEN - 1) =
        readBytes data 4 (MINA_ADDRESS_LEN - 1) := readBytes_take hm (by decide)
    have to_ : readBytes (data.take 172) 59 (MINA_ADDRESS_LEN - 1) =
        readBytes data 59 (MINA_ADDRESS_LEN - 1) := readBytes_take hm (by decide)
    have memo : readBytes (data.take 172) 138 (MEMO_BYTES - 1 - 1) =
        readBytes data 138 (MEMO_BYTES - 1 - 1) := readBytes_take hm (by decide)
    change parse_tx sha256 st (data.take 172) 172 tx ui = parse_tx sha256 st data 172 tx ui
    rw [parse_tx, parse_tx, read_uint32_be_take (show 0 + 4 ≤ 172 by norm_num), from_, to_,
      read_uint64_be_take (show 114 + 8 ≤ 172 by norm_num),
      read_uint64_be_take (show 122 + 8 ≤ 172 by norm_num),
      read_uint32_be_take (show 130 + 4 ≤ 172 by norm_num),
      read_uint32_be_take (show 134 + 4 ≤ 172 by norm_num), memo,
      load_take (show 170 < 172 by norm_num), load_take (show 171 < 172 by norm_num)]
  · rw [parse_tx, parse_tx, if_pos h, if_pos h]

/-- So does `handle_get_address`. -/
theorem handle_get_address_take (env : Env) (st : Nat → Stale) {dataLength : UInt8} (d : Device) :
    handle_get_address env st (data.take dataLength.toNat) dataLength d =
      handle_get_address env st data dataLength d := by
  by_cases h : dataLength = 4
  · subst h
    have hread : read_uint32_be (data.take (4 : UInt8).toNat) 0 = read_uint32_be data 0 :=
      read_uint32_be_take (by decide)
    simp only [handle_get_address, hread]
  · rw [handle_get_address_length env st d h, handle_get_address_length env st d h]

theorem handle_sign_tx_take (env : Env) (st : Nat → Stale) {dataLength : UInt8}
    (hlen : dataLength.toNat ≤ data.length) (d : Device) :
    d.handle_sign_tx env st (data.take dataLength.toNat) dataLength =
      d.handle_sign_tx env st data dataLength := by
  rw [Device.handle_sign_tx, Device.handle_sign_tx, handle_sign_tx, handle_sign_tx,
    parse_tx_take env.sha256 st hlen]

end Take

/-! ## What a request is -/

/-- The instruction and the data of a request whose header is right. -/
def command (buffer : ApduBuffer) (rx : Nat) : Option (UInt8 × List UInt8) :=
  if buffer[0] = CLA ∧ buffer[4].toNat + APDU_HEADER_LEN = rx then
    some (buffer[1], (buffer.toList.drop OFFSET_CDATA).take (rx - APDU_HEADER_LEN))
  else none

/-- What is behind the received bytes is not part of it. -/
theorem command_congr {b b' : ApduBuffer} {rx : Nat} (h : b.toList.take rx = b'.toList.take rx) :
    command b rx = command b' rx := by
  rcases Nat.lt_or_ge rx APDU_HEADER_LEN with hrx | hrx
  · -- not even a header: the length byte cannot match
    rw [command, command, if_neg (by omega), if_neg (by omega)]
  have hget : ∀ i (hi : i < 260), i < APDU_HEADER_LEN → b[i] = b'[i] := fun i hi h5 => by
    have hi' := congrArg (·[i]?) h
    rw [List.getElem?_take_of_lt (by omega), List.getElem?_take_of_lt (by omega)] at hi'
    simpa [hi] using hi'
  have hdata : (b.toList.drop OFFSET_CDATA).take (rx - APDU_HEADER_LEN) =
      (b'.toList.drop OFFSET_CDATA).take (rx - APDU_HEADER_LEN) := by
    rw [show rx - APDU_HEADER_LEN = rx - OFFSET_CDATA from rfl, ← List.drop_take, ← List.drop_take, h]
  rw [command, command, hget 0 (by norm_num) (by decide), hget 1 (by norm_num) (by decide),
    hget 4 (by norm_num) (by decide), hdata]

theorem load_vector {n : Nat} (v : Vector UInt8 n) {i : Nat} (h : i < n) :
    load v.toList i = .ok v[i] := by
  rw [load_eq _ _ (by rwa [Vector.length_toList])]; simp

/-- The data is as long as the length byte says, and in the buffer. -/
theorem command_data {buffer : ApduBuffer} {rx : Nat} {ins : UInt8} {data : List UInt8}
    (h : command buffer rx = some (ins, data)) :
    data.length = buffer[4].toNat ∧ rx = data.length + APDU_HEADER_LEN ∧
      data = (buffer.toList.drop OFFSET_CDATA).take buffer[4].toNat := by
  unfold command at h
  split at h
  · rename_i hok
    obtain ⟨-, rfl⟩ := Prod.mk.inj (Option.some.inj h)
    have hlt := buffer[4].toNat_lt
    have hlen : ((buffer.toList.drop OFFSET_CDATA).take (rx - APDU_HEADER_LEN)).length =
        buffer[4].toNat := by
      rw [List.length_take, List.length_drop, Vector.length_toList]
      unfold OFFSET_CDATA APDU_HEADER_LEN at *
      omega
    refine ⟨hlen, by omega, ?_⟩
    rw [show rx - APDU_HEADER_LEN = buffer[4].toNat by omega]
  · cases h

section Requests

variable {env : Env} (st : Nat → Stale) (d : Device) {buffer : ApduBuffer} {rx : Nat}
  {ins : UInt8} {data : List UInt8}

/-- A request whose header is wrong. -/
theorem handleApdu_none (h : command buffer rx = none) :
    handleApdu env st d buffer rx = .ok ({ device := d }, [0x6E, 0x00]) := by
  have hdispatch : dispatch env st d buffer rx = .ok ({ device := d, thrown := some 0x6E00 }, []) := by
    rw [dispatch, load_vector buffer (show OFFSET_CLA < 260 by decide),
      load_vector buffer (show OFFSET_LC < 260 by decide)]
    unfold command at h
    split at h
    · cases h
    · rename_i hbad
      by_cases hcla : buffer[0] = CLA
      · have hlc : buffer[4].toNat + APDU_HEADER_LEN ≠ rx := fun heq => hbad ⟨hcla, heq⟩
        simp only [ok_bind, show buffer[OFFSET_CLA] = CLA from hcla, ne_eq, not_true_eq_false,
          if_false]
        exact if_pos hlc
      · exact if_pos hcla
  rw [handleApdu, hdispatch]; rfl

/-- The dispatcher behind a right header. -/
theorem dispatch_of_command (h : command buffer rx = some (ins, data)) :
    dispatch env st d buffer rx =
      if ins = INS_GET_CONF then
        .ok ({ device := d, thrown := some 0x9000 }, env.version.toList)
      else if ins = INS_GET_ADDR then do
        let o ← handle_get_address env st data (UInt8.ofNat data.length) d
        return (o, [])
      else if ins = INS_SIGN_TX then do
        let o ← d.handle_sign_tx env st data (UInt8.ofNat data.length)
        return (o, [])
      else .ok ({ device := d, thrown := some 0x6D00 }, []) := by
  obtain ⟨hlen, -, hdata⟩ := command_data h
  have hlc : UInt8.ofNat data.length = buffer[4] := by rw [hlen, UInt8.ofNat_toNat]
  have hfit : buffer[4].toNat ≤ (buffer.toList.drop OFFSET_CDATA).length := by
    have hlt := buffer[4].toNat_lt
    rw [List.length_drop, Vector.length_toList]
    unfold OFFSET_CDATA
    omega
  rw [hlc, hdata, handle_get_address_take, handle_sign_tx_take env st hfit]
  unfold command at h
  split at h
  · rename_i hok
    obtain ⟨rfl, -⟩ := Prod.mk.inj (Option.some.inj h)
    rw [dispatch, load_vector buffer (show OFFSET_CLA < 260 by decide),
      load_vector buffer (show OFFSET_LC < 260 by decide),
      load_vector buffer (show OFFSET_INS < 260 by decide)]
    simp only [ok_bind, show buffer[OFFSET_CLA] = CLA from hok.1, ne_eq, not_true_eq_false, if_false,
      show buffer[OFFSET_LC].toNat + APDU_HEADER_LEN = rx from hok.2]
    rfl
  · cases h

theorem handleApdu_conf (h : command buffer rx = some (INS_GET_CONF, data)) :
    handleApdu env st d buffer rx = .ok ({ device := d }, env.version.toList ++ [0x90, 0x00]) := by
  rw [handleApdu, dispatch_of_command st d h, if_pos rfl]; rfl

theorem handleApdu_unknown (h : command buffer rx = some (ins, data)) (h1 : ins ≠ INS_GET_CONF)
    (h2 : ins ≠ INS_GET_ADDR) (h3 : ins ≠ INS_SIGN_TX) :
    handleApdu env st d buffer rx = .ok ({ device := d }, [0x6D, 0x00]) := by
  rw [handleApdu, dispatch_of_command st d h, if_neg h1, if_neg h2, if_neg h3]; rfl

/-- An address request of another length than four. -/
theorem handleApdu_addr_refused (h : command buffer rx = some (INS_GET_ADDR, data))
    (h4 : data.length ≠ 4) :
    handleApdu env st d buffer rx = .ok ({ device := ui_idle d }, [0x68, 0x02]) := by
  have hne : UInt8.ofNat data.length ≠ 4 := fun h0 => h4 (by
    obtain ⟨hlen, -, -⟩ := command_data h
    have hlt := buffer[4].toNat_lt
    have h4' := congrArg UInt8.toNat h0
    rw [UInt8.toNat_ofNat', Nat.mod_eq_of_lt (by omega)] at h4'
    exact h4')
  rw [handleApdu, dispatch_of_command st d h, if_neg (by decide), if_pos rfl,
    handle_get_address_length env st d hne]
  rfl

/-- An address request of four bytes. -/
theorem handleApdu_addr (h : command buffer rx = some (INS_GET_ADDR, data)) (h4 : data.length = 4) :
    ∃ account path address, account.toNat = beVal data ∧
      cstr path.toList = pathText account.toNat ∧
      handleApdu env st d buffer rx = .ok ({ device := { d with
        flow := .ux_get_address_flow, _generated := false, _account := account,
        _bip44_path := path, _address := address, flags := true } }, []) := by
  obtain ⟨account, path, address, haccount, hpath, hhandle⟩ :=
    handle_get_address_spec env st d (le_of_eq h4.symm)
  rw [List.take_of_length_le (le_of_eq h4)] at haccount
  refine ⟨account, path, address, haccount, hpath, ?_⟩
  rw [handleApdu, dispatch_of_command st d h, if_neg (by decide), if_pos rfl, h4,
    show UInt8.ofNat 4 = 4 from rfl, hhandle]
  rfl

/-- A sign request that is refused: what `parse_tx` wrote stays. -/
theorem handleApdu_sign_refused (h : command buffer rx = some (INS_SIGN_TX, data)) {_tx : tx_t}
    {_ui : ui_t} (hr : handle_sign_tx env.sha256 st data (UInt8.ofNat data.length) d._tx d._ui =
      .ok (none, _tx, _ui)) :
    handleApdu env st d buffer rx =
      .ok ({ device := ui_idle { d with _tx := _tx, _ui := _ui } }, [0x68, 0x02]) := by
  rw [handleApdu, dispatch_of_command st d h, if_neg (by decide), if_neg (by decide), if_pos rfl,
    Device.handle_sign_tx, hr]
  rfl

/-- A sign request that is accepted: its flow is next. -/
theorem handleApdu_sign (h : command buffer rx = some (INS_SIGN_TX, data)) {steps : List SignStep}
    {_tx : tx_t} {_ui : ui_t}
    (hr : handle_sign_tx env.sha256 st data (UInt8.ofNat data.length) d._tx d._ui =
      .ok (some steps, _tx, _ui)) :
    handleApdu env st d buffer rx = .ok ({ device := { d with
      _tx := _tx, _ui := _ui, flow := .ux_sign_tx_flow steps, flags := true } }, []) := by
  have hflow : ux_flow_init env st (.ux_sign_tx_flow steps) { d with _tx := _tx, _ui := _ui } =
      .ok { device := { d with _tx := _tx, _ui := _ui, flow := .ux_sign_tx_flow steps } } := by
    cases steps <;> rfl
  rw [handleApdu, dispatch_of_command st d h, if_neg (by decide), if_neg (by decide), if_pos rfl,
    Device.handle_sign_tx, hr]
  simp only [ok_bind, hflow]
  rfl

/-- A sign request of another length than 172 changes nothing. -/
theorem handle_sign_tx_length {dataLength : UInt8} (h : dataLength ≠ 172) (sha256 : List UInt8 → _)
    (_tx : tx_t) (_ui : ui_t) :
    handle_sign_tx sha256 st data dataLength _tx _ui = .ok (none, _tx, _ui) := by
  rw [handle_sign_tx, parse_tx, if_pos h]; rfl

/-- No sign request is undefined: what is read is in the data. -/
theorem handle_sign_tx_returns (h : command buffer rx = some (ins, data)) (_tx : tx_t) (_ui : ui_t) :
    ∃ r tx' ui', handle_sign_tx env.sha256 st data (UInt8.ofNat data.length) _tx _ui =
      .ok (r, tx', ui') := by
  by_cases h172 : UInt8.ofNat data.length = 172
  · have hdata : 172 ≤ data.length := by
      obtain ⟨hlen, -, -⟩ := command_data h
      have hlt := buffer[4].toNat_lt
      have hval := congrArg UInt8.toNat h172
      rw [UInt8.toNat_ofNat', Nat.mod_eq_of_lt (by omega)] at hval
      exact le_of_eq hval.symm
    obtain ⟨r, tx', ui', hr, -, -⟩ := handle_sign_tx_spec env.sha256 st hdata
      (UInt8.ofNat data.length) _tx _ui
    exact ⟨r, tx', ui', hr⟩
  · exact ⟨none, _tx, _ui, handle_sign_tx_length st h172 env.sha256 _tx _ui⟩

end Requests

/-- Whatever arrives, the handler returns, and throws nothing on. -/
theorem handleApdu_returns (env : Env) (st : Nat → Stale) (d : Device) (buffer : ApduBuffer)
    (rx : Nat) : ∃ d' reply, handleApdu env st d buffer rx = .ok ({ device := d' }, reply) := by
  cases hc : command buffer rx with
  | none => exact ⟨_, _, handleApdu_none st d hc⟩
  | some c =>
    obtain ⟨ins, data⟩ := c
    by_cases h1 : ins = INS_GET_CONF
    · subst h1; exact ⟨_, _, handleApdu_conf st d hc⟩
    by_cases h2 : ins = INS_GET_ADDR
    · subst h2
      by_cases h4 : data.length = 4
      · obtain ⟨_, _, _, -, -, hr⟩ := @handleApdu_addr env st d _ _ _ hc h4
        exact ⟨_, _, hr⟩
      · exact ⟨_, _, handleApdu_addr_refused st d hc h4⟩
    by_cases h3 : ins = INS_SIGN_TX
    · subst h3
      obtain ⟨r, _tx, _ui, hr⟩ := @handle_sign_tx_returns env st _ _ _ _ hc d._tx d._ui
      cases r with
      | none => exact ⟨_, _, handleApdu_sign_refused st d hc hr⟩
      | some steps => exact ⟨_, _, handleApdu_sign st d hc hr⟩
    · exact ⟨_, _, handleApdu_unknown st d hc h1 h2 h3⟩

/-- No turn of the loop is undefined. -/
theorem app_main_returns {env : Env} (h : env.Sound) (st : Nat → Stale) (d : Device) (e : Event) :
    ∃ o, app_main env st d e = .ok o := by
  cases e with
  | apdu buffer rx =>
    obtain ⟨d', reply, hr⟩ := handleApdu_returns env st { d with flags := false } buffer rx
    rw [app_main, hr]
    split
    · exact ⟨_, rfl⟩
    split
    · exact ⟨_, rfl⟩
    · exact ⟨_, rfl⟩
  | display step =>
    obtain ⟨o, ho⟩ := display_returns h st d step
    exact ⟨_, by rw [app_main, ho]; rfl⟩
  | validate step =>
    obtain ⟨o, ho⟩ := validate_returns h st d step
    exact ⟨_, by rw [app_main, ho]; rfl⟩
  | reset => exact ⟨_, rfl⟩

/-! ## Stale bytes -/

/-- Two buffers that agree on the bytes received are the same request. -/
theorem handleApdu_congr (env : Env) (st : Nat → Stale) (d : Device) {b b' : ApduBuffer} {rx : Nat}
    (h : b.toList.take rx = b'.toList.take rx) :
    handleApdu env st d b rx = handleApdu env st d b' rx := by
  have hcommand := command_congr h
  cases hc : command b rx with
  | none =>
    rw [hc] at hcommand
    rw [handleApdu_none st d hc, handleApdu_none st d hcommand.symm]
  | some c =>
    obtain ⟨ins, data⟩ := c
    rw [hc] at hcommand
    rw [handleApdu, handleApdu, dispatch_of_command st d hc, dispatch_of_command st d hcommand.symm]

/-- Stale bytes of the buffer never influence a command: what is behind the `rx` bytes
received changes neither the command nor the reply nor the state, the two handlers do
not read it, and a request whose length byte does not fit is answered with 0x6E00 and
changes nothing. -/
theorem stale_bytes_do_not_matter (env : Env) (st : Nat → Stale) (d : Device) {rx : Nat}
    (h1 : 1 ≤ rx) (h260 : rx ≤ 260) {b b' : ApduBuffer}
    (h : b.toList.take rx = b'.toList.take rx) :
    (handleApdu env st d b rx = handleApdu env st d b' rx ∧ command b rx = command b' rx) ∧
    (∀ ins data, command b rx = some (ins, data) →
      data = (b.toList.take rx).drop OFFSET_CDATA ∧
      (∃ o reply, handleApdu env st d b rx = .ok (o, reply)) ∧
      handle_get_address env st (b.toList.drop OFFSET_CDATA) b[4] d =
        handle_get_address env st data b[4] d ∧
      ∀ _tx _ui, parse_tx env.sha256 st (b.toList.drop OFFSET_CDATA) b[4] _tx _ui =
        parse_tx env.sha256 st data b[4] _tx _ui) ∧
    (rx < APDU_HEADER_LEN ∨ b[4].toNat ≠ rx - APDU_HEADER_LEN →
      handleApdu env st d b rx = .ok ({ device := d }, [0x6E, 0x00])) := by
  refine ⟨⟨handleApdu_congr env st d h, command_congr h⟩, ?_, ?_⟩
  · intro ins data hc
    obtain ⟨hlen, hrx, hdata⟩ := command_data hc
    have hlt := b[4].toNat_lt
    have hfit : b[4].toNat ≤ (b.toList.drop OFFSET_CDATA).length := by
      rw [List.length_drop, Vector.length_toList]
      unfold OFFSET_CDATA
      omega
    have hreceived : rx - OFFSET_CDATA = b[4].toNat := by
      rw [← hlen, hrx]
      exact Nat.add_sub_cancel _ _
    obtain ⟨d', reply, hr⟩ := handleApdu_returns env st d b rx
    refine ⟨by rw [List.drop_take, hreceived, hdata], ⟨_, _, hr⟩, ?_, fun _tx _ui => ?_⟩
    · rw [hdata, handle_get_address_take]
    · rw [hdata, parse_tx_take env.sha256 st hfit]
  · intro hbad
    refine handleApdu_none st d ?_
    rw [command, if_neg]
    rintro ⟨-, hlc⟩
    unfold APDU_HEADER_LEN at *
    omega

/-- A buffer with a request in it, and one byte over and over behind it. -/
def requestBuffer (ins : UInt8) (data : List UInt8) (h : data.length ≤ 255) (fill : UInt8) :
    ApduBuffer :=
  ⟨([CLA, ins, 0, 0, UInt8.ofNat data.length] ++ data ++
    List.replicate (255 - data.length) fill).toArray, by simp; omega⟩

theorem take_requestBuffer (ins : UInt8) {data : List UInt8} (h : data.length ≤ 255) (fill : UInt8) :
    (requestBuffer ins data h fill).toList.take (data.length + APDU_HEADER_LEN) =
      [CLA, ins, 0, 0, UInt8.ofNat data.length] ++ data :=
  List.take_left' (by rw [List.length_append, Nat.add_comm]; rfl)

theorem command_requestBuffer (ins : UInt8) {data : List UInt8} (h : data.length ≤ 255)
    (fill : UInt8) :
    command (requestBuffer ins data h fill) (data.length + APDU_HEADER_LEN) = some (ins, data) := by
  have hlen : (UInt8.ofNat data.length).toNat = data.length := by rw [UInt8.toNat_ofNat']; omega
  rw [command, if_pos ⟨rfl, congrArg (· + APDU_HEADER_LEN) hlen⟩]
  have hdata : ((requestBuffer ins data h fill).toList.drop OFFSET_CDATA).take
      (data.length + APDU_HEADER_LEN - APDU_HEADER_LEN) = data := List.take_left' rfl
  rw [hdata]
  rfl

/-- A sign request in a clean buffer and in a dirty one. -/
theorem stale_bytes_do_not_matter_unit :
    handleApdu unitEnv cleanStack .boot
        (requestBuffer INS_SIGN_TX unitRequest length_unitRequest_le 0) 177 =
      handleApdu unitEnv cleanStack .boot
        (requestBuffer INS_SIGN_TX unitRequest length_unitRequest_le 255) 177 :=
  (stale_bytes_do_not_matter unitEnv cleanStack .boot (by norm_num) (by norm_num) (by
    have hlen : unitRequest.length + APDU_HEADER_LEN = 177 := by rw [length_unitRequest]; rfl
    rw [← hlen, take_requestBuffer, take_requestBuffer])).1.1

end MinaLedger
