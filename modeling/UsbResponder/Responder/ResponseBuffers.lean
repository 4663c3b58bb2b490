import UsbResponder.Host.ResponseSizes

/-!
# Buffers of encoded responses

The buffer into which `usb_responder_protocol_encode_frame` writes. Its size
`24u + payload_len` is computed in 32-bit arithmetic, while the handlers of `FILE_GET` and
`COMMAND_EXEC` let every payload pass whose size fits into 32 bits.

`response_buffer_exact` compares the two at the top of the range: the size is right, and
header and payload fit into the buffer, exactly for the payloads that are 24 bytes below the
wrap-around.

The encoder is run on a buffer that checks every write (`encodeFrameIn`), and a buffer of
the right size is filled exactly. What the handlers let pass is bounded for each of them:
most responses are lists of items, whose size is bounded by that of their fields, and the
two that are not have a check of their own. Whether there is memory for buffers of such a
size is not asked.
-/

namespace UsbResponder

open LittleEndian CString

variable {σ : Type}

/-! ### The encoder with its buffer -/

/-- `usb_responder_protocol_encode_frame` with the buffer it has allocated, which holds
anything at first. There is no result when a byte is written outside the buffer. -/
def encodeFrameIn (raw : Bytes) (frame : Frame) : Option Bytes :=
  let payload := frame.payload.take frame.header.payloadLen.toNat
  let header := { frame.header with
    magic := magic, version := version, payloadCrc32 := crc32 payload }
  (store raw 0 (headerBytes header)).bind fun raw =>
    if 0 < frame.header.payloadLen.toNat then store raw headerSize payload else some raw

/-- The size that the encoder allocates and returns is the size of the frame, and whatever
it writes is inside the buffer. -/
def EncodesInside (frame : Frame) : Prop :=
  (encodedSize frame.header.payloadLen).toNat = headerSize + frame.payload.length ∧
    ∀ raw : Bytes, raw.length = (encodedSize frame.header.payloadLen).toNat →
      encodeFrameIn raw frame = some (encodeFrame frame)

/-- A buffer of the right size is filled with the encoded frame. -/
private theorem encodeFrameIn_eq {frame : Frame} {raw : Bytes}
    (hlen : frame.header.payloadLen.toNat = frame.payload.length)
    (hsize : (encodedSize frame.header.payloadLen).toNat = headerSize + frame.payload.length)
    (hraw : raw.length = headerSize + frame.payload.length) :
    encodeFrameIn raw frame = some (encodeFrame frame) := by
  rw [encodeFrameIn, encodeFrame, hsize, hlen, List.take_length]
  dsimp only
  generalize hheader : headerBytes { frame.header with
    magic := magic, version := version, payloadCrc32 := crc32 frame.payload } = header
  have hlength : header.length = headerSize := by
    rw [← hheader]
    rfl
  have hbody : (raw.drop header.length).length = frame.payload.length := by
    rw [List.length_drop, hraw, hlength]
    omega
  have hfirst : store raw 0 header = some (header ++ raw.drop header.length) := by
    rw [store, if_pos (by omega), List.take_zero, List.nil_append, Nat.zero_add]
  rw [hfirst, Option.bind_some, List.take_of_length_le (by rw [List.length_append]; omega)]
  by_cases hpos : 0 < frame.payload.length
  · rw [if_pos hpos, store, if_pos (by rw [List.length_append]; omega), List.take_left' hlength,
      List.drop_of_length_le (by rw [List.length_append]; omega), List.append_nil]
  · rw [if_neg hpos]
    have hnil : frame.payload = [] := List.length_eq_zero_iff.mp (Nat.eq_zero_of_not_pos hpos)
    rw [hnil, List.length_nil] at hbody
    rw [hnil, List.length_eq_zero_iff.mp hbody]

/-- **The top of the range.** A frame whose payload size fits into 32 bits is encoded inside
its buffer exactly if the size of the whole frame does. Otherwise the buffer is smaller than
a header. -/
theorem encodesInside_iff {frame : Frame}
    (hlen : frame.header.payloadLen.toNat = frame.payload.length) :
    EncodesInside frame ↔ headerSize + frame.payload.length < UInt32.size := by
  have hlt := frame.header.payloadLen.toNat_lt
  rw [headerSize, UInt32.size]
  constructor
  · rintro ⟨hsize, -⟩
    have hfits := (encodedSize frame.header.payloadLen).toNat_lt
    rw [hsize, headerSize] at hfits
    omega
  · intro hfits
    have hsize : (encodedSize frame.header.payloadLen).toNat =
        headerSize + frame.payload.length := by
      rw [toNat_encodedSize (by omega), hlen]
    exact ⟨hsize, fun raw hraw => encodeFrameIn_eq hlen hsize (hraw.trans hsize)⟩

/-! ### What the handlers let pass -/

/-- A response whose payload size fits into 32 bits, as the checks of the handlers have it. -/
def RespondsBelow (os : Os σ) (reqId : UInt32) (dev : Device σ) (r : Bool × Device σ) : Prop :=
  ∃ type payload dev', dev.SameIo dev' ∧ r = writeFrame os (responseFrame type reqId payload) dev' ∧
    payload.length < UInt32.size

private theorem RepliesKv.respondsBelow {os : Os σ} {reqId : UInt32} {success : Option MsgType}
    {dev : Device σ} {r : Bool × Device σ} (h : RepliesKv os reqId success dev r) :
    RespondsBelow os reqId dev r := by
  obtain ⟨type, payload, dev', hsame, hr, hfits⟩ := h.fitsIff os dev (P := True) trivial
  have hmax := hfits.mpr trivial
  refine ⟨type, payload, dev', hsame, hr, ?_⟩
  rw [Host.maxPayload] at hmax
  rw [UInt32.size]
  omega

section Handlers

variable (os : Os σ) (shell : ExecShell σ) (frame : Frame) (dev : Device σ)

private theorem handleFileGet_respondsBelow :
    RespondsBelow os frame.header.requestId dev (handleFileGet os frame dev) := by
  have herror : ∀ (msg : Bytes) {dev' : Device σ}, dev.SameIo dev' →
      RespondsBelow os frame.header.requestId dev
        (sendError os frame.header.requestId msg dev') := by
    intro msg dev' hsame
    have hreply : RepliesKv os frame.header.requestId none dev _ :=
      sendError_repliesKv os _ msg hsame
    exact hreply.respondsBelow
  rw [handleFileGet]
  rcases decodeKv frame.payload maxKv with _ | kvs
  · exact herror _ (.refl dev)
  dsimp only
  rcases kvGet kvs (utf8 "path") with _ | path
  · exact herror _ (.refl dev)
  dsimp only
  have hsame := dev.op_sameIo (fileRead os path)
  rcases hop : dev.op (fileRead os path) with ⟨_ | data, dev'⟩
  · rw [hop] at hsame
    exact herror _ hsame
  · rw [hop] at hsame
    dsimp only
    split_ifs with htoo
    · exact herror _ hsame
    · exact ⟨.fileGet, data, dev', hsame, rfl, not_le.mp htoo⟩

private theorem handleCommandExec_respondsBelow :
    RespondsBelow os frame.header.requestId dev (handleCommandExec os shell frame dev) := by
  have herror : ∀ (msg : Bytes) (s : σ), RespondsBelow os frame.header.requestId dev
      (sendError os frame.header.requestId msg { dev with proc.os := s }) := by
    intro msg s
    have hsame : dev.SameIo { dev with proc.os := s } := ⟨rfl, rfl, rfl⟩
    have hreply : RepliesKv os frame.header.requestId none dev _ :=
      sendError_repliesKv os _ msg hsame
    exact hreply.respondsBelow
  rw [handleCommandExec]
  rcases decodeCommandRequest frame.payload with _ | req
  · exact herror _ dev.proc.os
  dsimp only
  rcases shell (cStr req.command) _ dev.proc.os with ⟨_ | r, s⟩
  · exact herror _ s
  dsimp only
  split_ifs with htoo
  · exact herror _ s
  · exact ⟨.commandResult, _, { dev with proc.os := s }, ⟨rfl, rfl, rfl⟩, rfl, not_le.mp htoo⟩

/-- Every response has a payload whose size fits into 32 bits. -/
private theorem handleFrame_respondsBelow :
    RespondsBelow os frame.header.requestId dev (handleFrame os shell frame dev) := by
  by_cases hget : MsgType.ofCode frame.header.type = some .fileGet
  · rw [handleFrame, hget]
    exact handleFileGet_respondsBelow os frame dev
  · by_cases hexec : MsgType.ofCode frame.header.type = some .commandExec
    · rw [handleFrame, hexec]
      exact handleCommandExec_respondsBelow os shell frame dev
    · exact (handleFrame_repliesKv os frame dev shell hget hexec).respondsBelow

end Handlers

/-- **Response buffers.** Whatever is requested and whatever the calls deliver, the payload
of the response passes the size checks of the handlers, and the response is encoded inside
its buffer exactly if its payload has at most `2 ^ 32 - 25` bytes. -/
theorem response_buffer_exact (os : Os σ) (shell : ExecShell σ) (frame : Frame) (dev : Device σ) :
    ∃ resp writes, (handleFrame os shell frame dev).2.log = dev.log ++ .sending resp :: writes ∧
      (∀ event ∈ writes, event.IsWrite) ∧ resp.payload.length < UInt32.size ∧
      resp.header.payloadLen.toNat = resp.payload.length ∧
      (EncodesInside resp ↔ resp.payload.length ≤ 2 ^ 32 - 25) := by
  obtain ⟨type, payload, dev', hsame, hr, hbelow⟩ := handleFrame_respondsBelow os shell frame dev
  obtain ⟨writes, hlog, hwrites⟩ := (writeFrame_onlyWrites os
    (responseFrame type frame.header.requestId payload) dev').log
  have hlen : (responseFrame type frame.header.requestId payload).header.payloadLen.toNat =
      payload.length := UInt32.toNat_ofNat_of_lt' hbelow
  refine ⟨responseFrame type frame.header.requestId payload, writes, ?_, hwrites, hbelow, hlen, ?_⟩
  · rw [hr, hlog, Device.record, hsame.log, List.append_assoc, List.singleton_append]
  · rw [encodesInside_iff hlen, headerSize, UInt32.size]
    show 24 + payload.length < _ ↔ payload.length ≤ _
    omega

/-- A file of `2 ^ 32 - 24` bytes passes the check of `handle_file_get`, and its response is
written outside a buffer of no bytes. -/
theorem not_response_buffer_exact :
    ¬∀ (os : Os Unit) (shell : ExecShell Unit) (frame : Frame) (dev : Device Unit) (resp : Frame)
      (writes : List IoEvent),
      (handleFrame os shell frame dev).2.log = dev.log ++ .sending resp :: writes →
        EncodesInside resp := by
  intro h
  obtain ⟨content, hcontent⟩ : ∃ content : Bytes, content.length = 2 ^ 32 - 24 :=
    ⟨List.replicate (2 ^ 32 - 24) 0, List.length_replicate⟩
  have hfull : content.length ≤ (content.take content.length).length := by
    rw [List.take_length]
  obtain ⟨data, p, hread, hdata⟩ := (exists_fileRead_iff (Os.serving content) (utf8 "a")
    bootDevice.proc content.length).mpr ⟨utf8 "/a", .nand, 3, (), (), (), (), by decide, rfl, rfl,
      rfl, rfl, fun _ => rfl, hfull⟩
  have hkvs : decodeKv getFrame.payload maxKv = some [⟨utf8 "path", utf8 "a"⟩] := by decide
  have hpath : kvGet [⟨utf8 "path", utf8 "a"⟩] (utf8 "path") = some (utf8 "a") := by decide
  have hget : MsgType.ofCode getFrame.header.type = some .fileGet := by decide
  have hop : bootDevice.op (fileRead (Os.serving content) (utf8 "a")) =
      (some data, { bootDevice with proc := p }) := by
    rw [Device.op, hread]
  have hrun : handleFrame (Os.serving content) noShell getFrame bootDevice =
      writeFrame (Os.serving content) (responseFrame .fileGet 1 data)
        { bootDevice with proc := p } := by
    rw [handleFrame, hget]
    dsimp only
    rw [handleFileGet, hkvs]
    dsimp only
    rw [hpath]
    dsimp only
    rw [hop]
    dsimp only
    rw [if_neg (by rw [UInt32.size]; omega)]
    rfl
  obtain ⟨writes, hlog, -⟩ := (writeFrame_onlyWrites (Os.serving content)
    (responseFrame .fileGet 1 data) { bootDevice with proc := p }).log
  have hinside := h (Os.serving content) noShell getFrame bootDevice
    (responseFrame .fileGet 1 data) writes (by rw [hrun, hlog]; rfl)
  -- the length fits into the field of the header, but with the header it does not fit `size_t`
  have hlen : (responseFrame .fileGet 1 data).header.payloadLen.toNat = data.length :=
    UInt32.toNat_ofNat_of_lt' (by rw [UInt32.size]; omega)
  have hfits := (encodesInside_iff hlen).mp hinside
  rw [headerSize, UInt32.size] at hfits
  have hsize : (responseFrame .fileGet 1 data).payload.length = 2 ^ 32 - 24 := hdata.trans hcontent
  omega

end UsbResponder
