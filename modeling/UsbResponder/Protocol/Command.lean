import UsbResponder.Base.CString

/-!
# Command payloads

The command codec of `protocol.c`, PROTOCOL.md §6, as far as the device runs it: it decodes
requests and encodes results. The other two directions belong to the host and are in
`Host.CommandCodec`, which has the round trips between the two.

A command line is stored with a NUL behind it, so what the device runs is its C string. The
length check of the decoder is made in 32-bit arithmetic, as in the source; `size_t` is
unbounded here. The result header keeps two lengths of 32 bits next to the data, and the
encoder truncates them silently. That the payloads a session really sends are below the
wrap-around is shown where the captures are bounded.

Allocation failures of the encoder are left out; a payload is a value.
-/

namespace UsbResponder

open LittleEndian

/-- `usb_responder_command_request_t`. The command is the bytes between the header and the
end of the payload; NULs in it are kept here, and cut it off when it is run. -/
structure CommandRequest where
  timeoutMs : UInt32
  maxStdout : UInt32
  maxStderr : UInt32
  command : Bytes
  deriving DecidableEq, Repr

/-- `usb_responder_command_result_t`. -/
structure CommandResult where
  exitCode : Int32
  timedOut : Bool
  durationMs : UInt32
  stdoutData : Bytes
  stderrData : Bytes
  deriving DecidableEq

/-- `usb_responder_protocol_decode_command_request`; `none` is the result `false`. The sum
`16u + cmd_len` is an `unsigned` and wraps around, the length it is compared with does not. -/
def decodeCommandRequest (payload : Bytes) : Option CommandRequest :=
  if payload.length < 16 then none
  else
    let cmdLen := readLe32 (payload.drop 12)
    if (16 + cmdLen).toNat ≠ payload.length then none
    else
      some {
        timeoutMs := readLe32 payload
        maxStdout := readLe32 (payload.drop 4)
        maxStderr := readLe32 (payload.drop 8)
        command := (payload.drop 16).take cmdLen.toNat }

/-- `usb_responder_protocol_encode_command_result`. The three bytes behind `timed_out` are
the padding that the layout reserves, and they are sent as zeros. -/
def encodeCommandResult (result : CommandResult) : Bytes :=
  writeLe32 result.exitCode.toUInt32 ++
    ([if result.timedOut then 1 else 0, 0, 0, 0] ++
      (writeLe32 result.durationMs ++
        (writeLe32 (UInt32.ofNat result.stdoutData.length) ++
          (writeLe32 (UInt32.ofNat result.stderrData.length) ++
            (result.stdoutData ++ result.stderrData)))))

@[simp]
theorem length_encodeCommandResult (result : CommandResult) :
    (encodeCommandResult result).length =
      20 + result.stdoutData.length + result.stderrData.length := by
  simp only [encodeCommandResult, List.length_append, length_writeLe32, List.length_cons,
    List.length_nil]
  omega

end UsbResponder
