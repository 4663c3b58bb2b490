import UsbResponder.Host.Operations
import UsbResponder.Protocol.Command

/-!
# The command codec in both languages

A command request is encoded by the client and decoded by the device, a result is encoded by
the device and decoded by the client; `protocol.c` also decodes results. All three share the
layout of PROTOCOL.md §6, with a signed exit code, three bytes of padding and two parts of
variable length back to back (`command_codecs_agree`).

The device checks the length of a request in 32-bit arithmetic, which wraps. It wraps to
less than 16, so a payload that is long enough for the fields is accepted only if its length
field is right.

The round trips are computed field by field, with the lemmas about little-endian numbers;
the signed exit code is read from its four bytes in either half of the range. The decoder in
C is the one for a `size_t` of 64 bits; that of 32 bits, where another sum of lengths
passes, is in `Host.CommandMemory`.
-/

namespace UsbResponder

open LittleEndian CString

/-! ### The decoders of results -/

/-- `usb_responder_protocol_decode_command_result`, where `size_t` has 64 bits and the sum
of the lengths does not wrap; `none` is the result `false`. -/
def decodeCommandResult (payload : Bytes) : Option CommandResult :=
  if payload.length < 20 then none
  else
    let stdoutLen := (readLe32 (payload.drop 12)).toNat
    let stderrLen := (readLe32 (payload.drop 16)).toNat
    let total := 20 + stdoutLen + stderrLen
    if total ≠ payload.length then none
    else
      some {
        exitCode := (readLe32 payload).toInt32
        timedOut := (payload.drop 4).headD 0 ≠ 0
        durationMs := readLe32 (payload.drop 8)
        stdoutData := (payload.drop 20).take stdoutLen
        stderrData := (payload.drop (20 + stdoutLen)).take stderrLen }

namespace Host

/-- `CommandResult`. -/
structure CommandResult where
  exitCode : ℤ
  timedOut : Bool
  durationMs : ℕ
  stdout : Bytes
  stderr : Bytes
  deriving DecidableEq, Repr

/-- `struct.unpack("<i", b)`: the four bytes as a signed number in two's complement. -/
def unpackI32 (b : Bytes) : ℤ := if leNat b < 2 ^ 31 then leNat b else leNat b - 2 ^ 32

/-- `decode_command_result`. -/
def decodeCommandResult (data : Bytes) : Except PyError CommandResult :=
  if data.length < 20 then .error (.valueError "command result too short")
  else
    let exitCode := unpackI32 (data.take 4)
    let timedOut := leNat ((data.drop 4).take 1)
    let durationMs := leNat ((data.drop 8).take 4)
    let outLen := leNat ((data.drop 12).take 4)
    let errLen := leNat ((data.drop 16).take 4)
    let total := 20 + outLen + errLen
    if data.length ≠ total then .error (.valueError "command result length mismatch")
    else
      .ok {
        exitCode := exitCode
        timedOut := timedOut ≠ 0
        durationMs := durationMs
        stdout := (data.drop 20).take outLen
        stderr := data.drop (20 + outLen) }

/-- What the client reads of a result: the same fields, as unbounded numbers. -/
def CommandResult.ofDevice (result : UsbResponder.CommandResult) : CommandResult where
  exitCode := result.exitCode.toInt
  timedOut := result.timedOut
  durationMs := result.durationMs.toNat
  stdout := result.stdoutData
  stderr := result.stderrData

end Host

/-! ### Requests -/

/-- The wrapping sum of the check is the length of no payload that has room for the fields,
unless it has not wrapped. -/
private theorem cmdLen_add_eq_iff {cmdLen : UInt32} {n : ℕ} (h : 16 ≤ n) (hn : n < 2 ^ 32) :
    (16 + cmdLen).toNat = n ↔ cmdLen.toNat = n - 16 := by
  have hlt := cmdLen.toNat_lt
  rw [UInt32.toNat_add, show (16 : UInt32).toNat = 16 from rfl]
  omega

/-- **The check of a request.** The payload has room for the fields, and its length field is
the number of bytes behind them. -/
theorem decodeCommandRequest_isSome_iff {payload : Bytes} (h : payload.length < 2 ^ 32) :
    (decodeCommandRequest payload).isSome = true ↔
      16 ≤ payload.length ∧ (readLe32 (payload.drop 12)).toNat = payload.length - 16 := by
  rw [decodeCommandRequest]
  by_cases hshort : payload.length < 16
  · rw [if_pos hshort]
    exact iff_of_false (by simp) fun hlong => absurd hlong.1 (not_le.mpr hshort)
  · rw [if_neg hshort, and_iff_right (not_lt.mp hshort),
      ← cmdLen_add_eq_iff (not_lt.mp hshort) h]
    dsimp only
    split_ifs with hlen
    · exact iff_of_false (by simp) hlen
    · exact iff_of_true rfl (not_not.mp hlen)

/-- What the client encodes is decoded to the same request. -/
theorem decodeCommandRequest_encodeCommandExec (command : String)
    (timeoutMs maxStdout maxStderr : UInt32) (h : (utf8 command).length < 2 ^ 32 - 16) :
    ∃ raw, Host.encodeCommandExec command timeoutMs.toNat maxStdout.toNat maxStderr.toNat =
        .ok raw ∧
      decodeCommandRequest raw = some ⟨timeoutMs, maxStdout, maxStderr, utf8 command⟩ := by
  have hu32 : ∀ v : UInt32, (0 : ℤ) ≤ v.toNat ∧ (v.toNat : ℤ) < 2 ^ 32 := fun v =>
    ⟨Int.natCast_nonneg _, by exact_mod_cast v.toNat_lt⟩
  obtain ⟨cb, hcb⟩ : ∃ cb, cb = utf8 command := ⟨_, rfl⟩
  obtain ⟨len, hlen⟩ : ∃ len : UInt32, len.toNat = cb.length :=
    ⟨UInt32.ofNat cb.length, UInt32.toNat_ofNat_of_lt' (by
      rw [hcb]
      exact h.trans (by norm_num [UInt32.size]))⟩
  rw [← hcb] at h ⊢
  -- the payload with its fields as the device reads them
  obtain ⟨raw, hraw⟩ : ∃ raw, raw = writeLe32 timeoutMs ++ (writeLe32 maxStdout ++
    (writeLe32 maxStderr ++ (writeLe32 len ++ cb))) := ⟨_, rfl⟩
  refine ⟨raw, ?_, ?_⟩
  · rw [Host.encodeCommandExec, ← hcb, if_pos ⟨hu32 _, hu32 _, hu32 _, by omega⟩, hraw]
    simp only [Int.toNat_natCast, ← writeLe32_eq, ← hlen, List.append_assoc]
  · have hdrop4 : raw.drop 4 =
        writeLe32 maxStdout ++ (writeLe32 maxStderr ++ (writeLe32 len ++ cb)) := by
      rw [hraw]
      exact List.drop_left' rfl
    have hdrop8 : raw.drop 8 = writeLe32 maxStderr ++ (writeLe32 len ++ cb) := by
      rw [show 8 = 4 + 4 from rfl, ← List.drop_drop, hdrop4]
      exact List.drop_left' rfl
    have hdrop12 : raw.drop 12 = writeLe32 len ++ cb := by
      rw [show 12 = 8 + 4 from rfl, ← List.drop_drop, hdrop8]
      exact List.drop_left' rfl
    have hdrop16 : raw.drop 16 = cb := by
      rw [show 16 = 12 + 4 from rfl, ← List.drop_drop, hdrop12]
      exact List.drop_left' rfl
    have hlength : raw.length = 16 + cb.length := by
      rw [hraw]
      simp only [List.length_append, length_writeLe32]
      omega
    rw [decodeCommandRequest, if_neg (by omega)]
    dsimp only
    rw [hdrop4, hdrop8, hdrop12, hdrop16, readLe32_writeLe32_append, if_neg (not_not.mpr
      ((cmdLen_add_eq_iff (by omega) (by omega)).mpr (by omega))), hlen, List.take_length, hraw]
    simp only [readLe32_writeLe32_append]

/-! ### Results -/

section Results

variable (result : CommandResult)

/-- The fields of a result behind its exit code. -/
private theorem drop_encodeCommandResult :
    let p := encodeCommandResult result
    let parts := result.stdoutData ++ result.stderrData
    p.drop 4 = [if result.timedOut then 1 else 0, 0, 0, 0] ++ p.drop 8 ∧
      p.drop 8 = writeLe32 result.durationMs ++ p.drop 12 ∧
      p.drop 12 = writeLe32 (UInt32.ofNat result.stdoutData.length) ++ p.drop 16 ∧
      p.drop 16 = writeLe32 (UInt32.ofNat result.stderrData.length) ++ p.drop 20 ∧
      p.drop 20 = parts := by
  intro p parts
  exact ⟨rfl, rfl, rfl, rfl, rfl⟩

/-- **Results, device to C.** -/
theorem decodeCommandResult_encodeCommandResult
    (hout : result.stdoutData.length < 2 ^ 32) (herr : result.stderrData.length < 2 ^ 32) :
    decodeCommandResult (encodeCommandResult result) = some result := by
  obtain ⟨h4, h8, h12, h16, h20⟩ := drop_encodeCommandResult result
  have houtLen : (UInt32.ofNat result.stdoutData.length).toNat = result.stdoutData.length :=
    UInt32.toNat_ofNat_of_lt' hout
  have herrLen : (UInt32.ofNat result.stderrData.length).toNat = result.stderrData.length :=
    UInt32.toNat_ofNat_of_lt' herr
  have hlength := length_encodeCommandResult result
  have hexit : readLe32 (encodeCommandResult result) = result.exitCode.toUInt32 :=
    readLe32_writeLe32_append _ _
  have herrData : (encodeCommandResult result).drop (20 + result.stdoutData.length) =
      result.stderrData := by
    rw [← List.drop_drop, h20, List.drop_left]
  rw [decodeCommandResult, if_neg (by omega)]
  dsimp only
  rw [h12, h16, readLe32_writeLe32_append, readLe32_writeLe32_append, houtLen, herrLen,
    if_neg (by omega), h4, h8, readLe32_writeLe32_append, hexit, h20, herrData, List.take_left,
    List.take_length]
  cases result with
  | mk exitCode timedOut durationMs stdoutData stderrData => cases timedOut <;> rfl

/-- The signed reading of the four bytes of an exit code. -/
private theorem unpackI32_writeLe32 (v : Int32) : Host.unpackI32 (writeLe32 v.toUInt32) =
    v.toInt := by
  have hvalue : leNat (writeLe32 v.toUInt32) = v.toBitVec.toNat := by
    rw [writeLe32_eq, leNat_leBytes_of_lt v.toUInt32.toNat_lt]
    rfl
  have hint : v.toInt = if 2 * v.toBitVec.toNat < 2 ^ 32 then (v.toBitVec.toNat : ℤ)
      else v.toBitVec.toNat - 2 ^ 32 := by
    exact_mod_cast BitVec.toInt_eq_toNat_cond v.toBitVec
  rw [Host.unpackI32, hvalue, hint]
  split_ifs with h31 h32 h32
  · rfl
  · omega
  · omega
  · rfl

/-- **Results, device to client.** -/
theorem hostDecodeCommandResult_encodeCommandResult
    (hout : result.stdoutData.length < 2 ^ 32) (herr : result.stderrData.length < 2 ^ 32) :
    Host.decodeCommandResult (encodeCommandResult result) = .ok (.ofDevice result) := by
  obtain ⟨h4, h8, h12, h16, h20⟩ := drop_encodeCommandResult result
  have hword : ∀ (v : UInt32) (post : Bytes), leNat ((writeLe32 v ++ post).take 4) = v.toNat := by
    intro v post
    rw [List.take_left' (length_writeLe32 v), writeLe32_eq, leNat_leBytes_of_lt v.toNat_lt]
  have houtLen : (UInt32.ofNat result.stdoutData.length).toNat = result.stdoutData.length :=
    UInt32.toNat_ofNat_of_lt' hout
  have herrLen : (UInt32.ofNat result.stderrData.length).toNat = result.stderrData.length :=
    UInt32.toNat_ofNat_of_lt' herr
  have hlength := length_encodeCommandResult result
  have hexit : (encodeCommandResult result).take 4 = writeLe32 result.exitCode.toUInt32 := rfl
  have herrData : (encodeCommandResult result).drop (20 + result.stdoutData.length) =
      result.stderrData := by
    rw [← List.drop_drop, h20, List.drop_left]
  rw [Host.decodeCommandResult, if_neg (by omega)]
  dsimp only
  rw [h12, h16, hword, hword, houtLen, herrLen, if_neg (by omega), h4, h8, hword, hexit,
    unpackI32_writeLe32, h20, herrData, List.take_left]
  cases result with
  | mk exitCode timedOut durationMs stdoutData stderrData => cases timedOut <;> rfl

end Results

/-! ### The codecs agree -/

/-- **The command codec.** What the client encodes for a command without NUL is decoded by
the device to the same command and numbers. The device accepts exactly the payloads with
room for the fields whose length field is the number of bytes behind them. What it encodes
for a result is decoded by the client, and by the decoder in C, to the same result. -/
theorem command_codecs_agree :
    (∀ (command : String) (timeoutMs maxStdout maxStderr : UInt32), 0 ∉ utf8 command →
      (utf8 command).length < 2 ^ 32 - 16 →
      ∃ raw req, Host.encodeCommandExec command timeoutMs.toNat maxStdout.toNat maxStderr.toNat =
          .ok raw ∧
        decodeCommandRequest raw = some req ∧ cStr req.command = utf8 command ∧
        req.timeoutMs = timeoutMs ∧ req.maxStdout = maxStdout ∧ req.maxStderr = maxStderr) ∧
    (∀ payload : Bytes, payload.length < 2 ^ 32 →
      ((decodeCommandRequest payload).isSome = true ↔ 16 ≤ payload.length ∧
        (readLe32 (payload.drop 12)).toNat = payload.length - 16)) ∧
    ∀ result : CommandResult,
      result.stdoutData.length < 2 ^ 32 → result.stderrData.length < 2 ^ 32 →
      Host.decodeCommandResult (encodeCommandResult result) = .ok (.ofDevice result) ∧
        decodeCommandResult (encodeCommandResult result) = some result := by
  refine ⟨fun command timeoutMs maxStdout maxStderr hnul hlen => ?_,
    fun payload => decodeCommandRequest_isSome_iff, fun result hout herr => ⟨?_, ?_⟩⟩
  · obtain ⟨raw, hencode, hdecode⟩ :=
      decodeCommandRequest_encodeCommandExec command timeoutMs maxStdout maxStderr hlen
    exact ⟨raw, _, hencode, hdecode, cStr_eq_self hnul, rfl, rfl, rfl⟩
  · exact hostDecodeCommandResult_encodeCommandResult result hout herr
  · exact decodeCommandResult_encodeCommandResult result hout herr

/-- `command_codecs_agree` for a command that was killed after it had written a byte. -/
theorem command_codecs_agree_killed :
    let result : CommandResult := ⟨-9, true, 8000, [65], []⟩
    Host.decodeCommandResult (encodeCommandResult result) = .ok (.ofDevice result) ∧
      decodeCommandResult (encodeCommandResult result) = some result :=
  command_codecs_agree.2.2 _ (by decide) (by decide)

end UsbResponder
