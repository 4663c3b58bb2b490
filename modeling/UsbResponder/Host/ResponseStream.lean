import UsbResponder.Host.Client
import UsbResponder.Responder.Device

/-!
# The response stream from device to host

The device writes frames with `usb_responder_protocol_write_frame`, the bulk IN endpoint
hands the bytes it accepted to the host in chunks of any size, and the host collects frames
with `_recv_frame`. `responses_received_in_order` says that the host receives exactly the
frames the device wrote: on the device side every frame adds exactly its encoding to the
stream (`writeFrames_of_benign`), and on the host side the stream is one of encoded frames.

What lies between the two sides is the list of bytes accepted. It says nothing of packets,
so the chunks may be cut anywhere, also inside a header, and empty ones may be among them,
which is how a zero-length packet arrives. The host's side is the theorem of the library
about framed streams at the format of responses. A `write` that fails cuts a response off,
which is treated in `Responder.SessionStream`.
-/

namespace UsbResponder

open LittleEndian Framing

variable {σ : Type}

/-- A frame whose length field is the length of its payload, which is at most 8 MiB. The
device builds its responses so, but for their size. -/
def Frame.Sendable (frame : Frame) : Prop :=
  frame.header.payloadLen.toNat = frame.payload.length ∧ frame.payload.length ≤ Host.maxPayload

/-- Frames written one after another; whether all writes succeeded. -/
def writeFrames (os : Os σ) : List Frame → Device σ → Bool × Device σ
  | [], dev => (true, dev)
  | frame :: frames, dev =>
    match writeFrame os frame dev with
    | (false, dev) => (false, dev)
    | (true, dev) => writeFrames os frames dev

/-- When no `write` fails, writing frames adds exactly their encodings to the bytes sent. -/
theorem writeFrames_of_benign (os : Os σ) (frames : List Frame) {dev : Device σ}
    (h : dev.Benign) :
    (writeFrames os frames dev).1 = true ∧
      sentBytes (writeFrames os frames dev).2.log =
        sentBytes dev.log ++ frames.flatMap encodeFrame := by
  induction frames generalizing dev with
  | nil => exact ⟨rfl, by rw [writeFrames, List.flatMap_nil, List.append_nil]⟩
  | cons frame frames ih =>
    obtain ⟨dev', hrun, hwrote⟩ := writeFrame_of_benign h os frame
    obtain ⟨hok, hsent⟩ := ih (hwrote.benign h)
    obtain ⟨events, hlog, -, hevents⟩ := hwrote.log
    rw [writeFrames, hrun]
    refine ⟨hok, ?_⟩
    have hrecord : sentBytes (dev.record (.sending frame)).log = sentBytes dev.log := by
      rw [Device.record, sentBytes_append]
      exact List.append_nil _
    dsimp only
    rw [hsent, hlog, sentBytes_append, hevents, hrecord, List.flatMap_cons, List.append_assoc]

/-- At the front of a stream the host finds an encoded frame with its four contents,
whatever is behind it. -/
theorem next_encodeFrame {frame : Frame} (h : frame.Sendable) (rest : Bytes) :
    Host.responseFormat.next (encodeFrame frame ++ rest) =
      .item (Host.Frame.ofDevice frame) rest := by
  obtain ⟨hlen, hmax⟩ := h
  rw [Host.maxPayload] at hmax
  have hwire := encodeFrame_eq_wire hlen (by omega)
  have hlength : (encodeFrame frame).length = 24 + frame.payload.length := by
    rw [hwire, length_wire, headerSize]
  -- the length field is read from the first 24 bytes
  have hfield : leNat ((((encodeFrame frame ++ rest).take 24).drop 16).take 4) =
      frame.payload.length := by
    obtain ⟨header, hheader, heq⟩ : ∃ header : FrameHeader, header.payloadLen =
        UInt32.ofNat frame.payload.length ∧
        encodeFrame frame = headerBytes header ++ frame.payload :=
      ⟨_, rfl, hwire.trans (wire_eq_headerBytes_append (by omega))⟩
    obtain ⟨-, -, -, -, -, hplen, -⟩ :=
      Host.leNat_header (length_headerBytes header).ge
    have hread := readHeader_headerBytes_append header []
    rw [List.append_nil] at hread
    rw [heq, List.append_assoc, List.take_left' (length_headerBytes header), hplen, hread, hheader,
      UInt32.toNat_ofNat', Nat.mod_eq_of_lt (by omega)]
  have hdecode : Host.decodeFrame (encodeFrame frame) = .ok (Host.Frame.ofDevice frame) := by
    rw [Host.decodeFrame_eq_ok_iff (by omega), hwire, decodeFrame_wire (by omega)]
    exact ⟨_, rfl, rfl⟩
  have hheader : ¬(encodeFrame frame ++ rest).length < Host.responseFormat.headerSize := by
    rw [List.length_append, hlength, show Host.responseFormat.headerSize = 24 from rfl]
    omega
  rw [Format.next, if_neg hheader]
  have hsize : Host.responseFormat.frameSize ((encodeFrame frame ++ rest).take
      Host.responseFormat.headerSize) = some (encodeFrame frame).length := by
    simp only [Host.responseFormat, hfield, Host.maxPayload, hlength]
    exact if_neg (by omega)
  rw [hsize]
  dsimp only
  rw [if_neg (by rw [List.length_append]; omega), List.take_left, List.drop_left]
  simp only [Host.responseFormat, hdecode, Except.toOption]

/-- **The response stream is faithful end to end.** Take any response frames with payloads
of at most 8 MiB, written under any pattern of short and interrupted writes without error,
and any way the endpoint delivers the bytes it has accepted as chunks, empty ones included.
Then every frame is written, as many calls of `_recv_frame` return exactly these frames in
order, and no byte is left over, neither in the client's buffer nor on the way. -/
theorem responses_received_in_order (os : Os σ) (dev : Device σ) (hwrites : dev.Benign)
    (frames : List Frame) (hframes : ∀ frame ∈ frames, frame.Sendable) (chunks : List Bytes)
    (hchunks : sentBytes dev.log ++ chunks.flatten =
      sentBytes (writeFrames os frames dev).2.log) :
    (writeFrames os frames dev).1 = true ∧
    ∃ c, receive Host.Client.recv frames.length ⟨[], chunks⟩ =
        some (frames.map Host.Frame.ofDevice, c) ∧
      c.rxbuf = [] ∧ c.incoming.flatten = [] := by
  obtain ⟨hok, hsent⟩ := writeFrames_of_benign os frames hwrites
  rw [hsent, List.append_cancel_left_eq] at hchunks
  refine ⟨hok, ?_⟩
  -- the encoding of a frame is determined by its contents
  let enc : Host.Frame → Bytes := fun f => wire f.type f.flags f.requestId f.payload
  have hwire : ∀ frame ∈ frames, encodeFrame frame = enc (Host.Frame.ofDevice frame) := by
    intro frame hframe
    obtain ⟨hlen, hmax⟩ := hframes frame hframe
    rw [Host.maxPayload] at hmax
    exact encodeFrame_eq_wire hlen (by omega)
  have hunread : (Host.Client.mk [] chunks).reader.unread =
      (frames.map Host.Frame.ofDevice).flatMap enc := by
    rw [List.flatMap_map, ← List.flatMap_congr hwire, ← hchunks]
    rfl
  obtain ⟨c, hrun, hempty, -⟩ := Host.Client.recv_readBy.receive_flatMap (by
    intro f hf t
    obtain ⟨frame, hframe, rfl⟩ := List.mem_map.mp hf
    rw [← hwire frame hframe]
    exact next_encodeFrame (hframes frame hframe) t) trivial hunread
  rw [List.length_map] at hrun
  exact ⟨c, hrun, List.append_eq_nil_iff.mp hempty⟩

/-- A device whose first `write` takes three bytes and whose second one is interrupted. -/
def interruptedDevice : Device Unit where
  cfg := ⟨0, 0, 0⟩
  proc := ⟨fun _ => {}, [], ()⟩
  tx := [.accept 3, .eintr]
  log := []

/-- A response with two bytes of payload. -/
def shortResponse : Frame where
  header := { type := 2, requestId := 1, payloadLen := 2 }
  payload := [0, 0]

/-- `responses_received_in_order` for one response that arrives in two chunks with empty
ones between them. -/
theorem responses_received_in_order_short :
    (writeFrames (Os.failing Unit) [shortResponse] interruptedDevice).1 = true ∧
    ∃ c, receive Host.Client.recv 1
        ⟨[], [[], (encodeFrame shortResponse).take 10, [], (encodeFrame shortResponse).drop 10]⟩ =
        some ([Host.Frame.ofDevice shortResponse], c) ∧
      c.rxbuf = [] ∧ c.incoming.flatten = [] :=
  responses_received_in_order (Os.failing Unit) interruptedDevice
    (by simp [Device.Benign, interruptedDevice, WriteOutcome.Benign]) [shortResponse]
    (by simp [Frame.Sendable, shortResponse, Host.maxPayload])
    [[], (encodeFrame shortResponse).take 10, [], (encodeFrame shortResponse).drop 10]
    (by decide)

end UsbResponder
