import UsbResponder.Protocol.Crc32

/-!
# Frames of the device protocol

The frame codec of `protocol.c`. A frame on the wire is a 24-byte little-endian header
(magic, version, type, flags, request id, payload length, payload checksum) followed by the
payload.

`encodeFrame` and `decodeFrame` are the functions of the source, with its 32-bit arithmetic:
the header size is the `unsigned` constant `24u`, so `24u + payload_len` wraps modulo
`2 ^ 32` both where the encoder sizes its buffer and where the decoder checks the length of
what it was given. `wire` is the layout of PROTOCOL.md §2 written with unbounded integers,
and the results of this file are that the two functions are inverse to each other along it:

* `encodeFrame_eq_wire`: below the wrap-around the encoder writes the layout;
* `decodeFrame_eq_some_iff`: the decoder accepts exactly the layouts, for buffers of any
  length, and returns what was laid out. The wrapping length check never admits a wrong
  length, because a wrapped sum is below 24.

Later modules argue with the layout and these two results, not with byte positions; only the
receive buffer reads the length field of an incomplete frame by itself. Null pointers and
allocation failures are not modelled: a buffer is a value, the contents it is left with.
-/

namespace UsbResponder

open LittleEndian

/-- `USB_RESPONDER_MAGIC`. -/
def magic : UInt32 := 0x45504153

/-- `USB_RESPONDER_VERSION`. -/
def version : UInt16 := 1

/-- `USB_RESPONDER_HEADER_SIZE`. -/
def headerSize : ℕ := 24

/-- `usb_responder_frame_header_t`; the defaults are those of `memset`. -/
structure FrameHeader where
  magic : UInt32 := 0
  version : UInt16 := 0
  type : UInt16 := 0
  flags : UInt32 := 0
  requestId : UInt32 := 0
  payloadLen : UInt32 := 0
  payloadCrc32 : UInt32 := 0
  deriving DecidableEq, Repr

/-- `usb_responder_frame_t`. The payload is a block of its own, whose length is the field of
the header in a frame that was decoded. -/
structure Frame where
  header : FrameHeader := {}
  payload : Bytes := []
  deriving DecidableEq, Repr

/-! ### The codec of the source -/

/-- The 24 header bytes of a frame with the given checksum field. -/
def headerBytes (h : FrameHeader) : Bytes :=
  writeLe32 h.magic ++ (writeLe16 h.version ++ (writeLe16 h.type ++ (writeLe32 h.flags ++
    (writeLe32 h.requestId ++ (writeLe32 h.payloadLen ++ writeLe32 h.payloadCrc32)))))

/-- The size `24u + payload_len` of an encoded frame, in 32-bit arithmetic. For the 24
largest lengths it wraps around and is smaller than a header. -/
def encodedSize (payloadLen : UInt32) : UInt32 := 24 + payloadLen

/-- `usb_responder_protocol_encode_frame`: the bytes `out_raw[0 .. out_size)`. The header
fields `magic`, `version` and `payload_crc32` of the argument are not read. -/
def encodeFrame (frame : Frame) : Bytes :=
  let payload := frame.payload.take frame.header.payloadLen.toNat
  let header := { frame.header with
    magic := magic, version := version, payloadCrc32 := crc32 payload }
  (headerBytes header ++ payload).take (encodedSize frame.header.payloadLen).toNat

/-- The header fields in the first 24 bytes of a buffer. Nothing is checked here. -/
def readHeader (raw : Bytes) : FrameHeader where
  magic := readLe32 raw
  version := readLe16 (raw.drop 4)
  type := readLe16 (raw.drop 6)
  flags := readLe32 (raw.drop 8)
  requestId := readLe32 (raw.drop 12)
  payloadLen := readLe32 (raw.drop 16)
  payloadCrc32 := readLe32 (raw.drop 20)

/-- `usb_responder_protocol_decode_frame`; `none` is the result `false`. -/
def decodeFrame (raw : Bytes) : Option Frame :=
  if raw.length < headerSize then none
  else
    let header := readHeader raw
    if header.magic ≠ magic ∨ header.version ≠ version then none
    else if (encodedSize header.payloadLen).toNat ≠ raw.length then none
    else
      let payload := (raw.drop headerSize).take header.payloadLen.toNat
      if header.payloadCrc32 ≠ crc32 payload then none
      else some ⟨header, payload⟩

/-! ### The layout -/

/-- The layout of a frame, PROTOCOL.md §2: seven fields with the checksum as the last one,
and the payload. -/
def wire (type flags requestId : ℕ) (payload : Bytes) : Bytes :=
  leBytes 4 0x45504153 ++ (leBytes 2 1 ++ (leBytes 2 type ++ (leBytes 4 flags ++
    (leBytes 4 requestId ++ (leBytes 4 payload.length ++
      (leBytes 4 (crc32 payload).toNat ++ payload))))))

@[simp]
theorem length_wire (type flags requestId : ℕ) (payload : Bytes) :
    (wire type flags requestId payload).length = headerSize + payload.length := by
  simp only [wire, headerSize, List.length_append, length_leBytes]
  omega

/-- The frame with the given contents and all derived header fields filled in. These are the
frames that the decoder returns, and `encodeFrame` maps each of them to its layout. -/
def frameOf (type : UInt16) (flags requestId : UInt32) (payload : Bytes) : Frame where
  header :=
    { magic := magic, version := version, type := type, flags := flags, requestId := requestId
      payloadLen := UInt32.ofNat payload.length, payloadCrc32 := crc32 payload }
  payload := payload

@[simp] theorem length_headerBytes (h : FrameHeader) : (headerBytes h).length = 24 := rfl

/-- Reading a header back. What is behind it does not matter. -/
@[simp]
theorem readHeader_headerBytes_append (h : FrameHeader) (p : Bytes) :
    readHeader (headerBytes h ++ p) = h := by
  have hmagic : readLe32 (headerBytes h ++ p) = h.magic := readLe32_writeLe32_append _ _
  have hversion : readLe16 ((headerBytes h ++ p).drop 4) = h.version :=
    readLe16_writeLe16_append _ _
  have htype : readLe16 ((headerBytes h ++ p).drop 6) = h.type := readLe16_writeLe16_append _ _
  have hflags : readLe32 ((headerBytes h ++ p).drop 8) = h.flags := readLe32_writeLe32_append _ _
  have hid : readLe32 ((headerBytes h ++ p).drop 12) = h.requestId :=
    readLe32_writeLe32_append _ _
  have hlen : readLe32 ((headerBytes h ++ p).drop 16) = h.payloadLen :=
    readLe32_writeLe32_append _ _
  have hcrc : readLe32 ((headerBytes h ++ p).drop 20) = h.payloadCrc32 :=
    readLe32_writeLe32_append _ _
  rw [readHeader, hmagic, hversion, htype, hflags, hid, hlen, hcrc]

/-- The first 24 bytes of a long enough buffer are the header read from it. With the
converse, `readHeader_headerBytes_append`, a header and its 24 bytes can be exchanged for
each other. -/
theorem headerBytes_readHeader {raw : Bytes} (h : 24 ≤ raw.length) :
    headerBytes (readHeader raw) = raw.take 24 := by
  rw [headerBytes, readHeader]
  simp only
  rw [writeLe32_readLe32 (by omega), writeLe16_readLe16 (by rw [List.length_drop]; omega),
    writeLe16_readLe16 (by rw [List.length_drop]; omega),
    writeLe32_readLe32 (by rw [List.length_drop]; omega),
    writeLe32_readLe32 (by rw [List.length_drop]; omega),
    writeLe32_readLe32 (by rw [List.length_drop]; omega),
    writeLe32_readLe32 (by rw [List.length_drop]; omega),
    show (24 : ℕ) = 20 + 4 from rfl, List.take_add, show (20 : ℕ) = 16 + 4 from rfl,
    List.take_add, show (16 : ℕ) = 12 + 4 from rfl, List.take_add,
    show (12 : ℕ) = 8 + 4 from rfl, List.take_add, show (8 : ℕ) = 6 + 2 from rfl, List.take_add,
    show (6 : ℕ) = 4 + 2 from rfl, List.take_add]
  simp only [List.append_assoc]

/-- A layout is the header bytes of its frame in front of the payload. -/
theorem wire_eq_headerBytes_append {type : UInt16} {flags requestId : UInt32} {payload : Bytes}
    (h : payload.length < 2 ^ 32) :
    wire type.toNat flags.toNat requestId.toNat payload =
      headerBytes (frameOf type flags requestId payload).header ++ payload := by
  have hlen : (UInt32.ofNat payload.length).toNat = payload.length := by
    rw [UInt32.toNat_ofNat', Nat.mod_eq_of_lt h]
  rw [headerBytes, frameOf, wire]
  simp only
  rw [writeLe32_eq, writeLe16_eq, writeLe16_eq, writeLe32_eq, writeLe32_eq, writeLe32_eq,
    writeLe32_eq, hlen]
  simp only [List.append_assoc]
  rfl

/-- Below the wrap-around the 32-bit size is the size of the frame. -/
theorem toNat_encodedSize {n : UInt32} (h : n.toNat ≤ 2 ^ 32 - 25) :
    (encodedSize n).toNat = headerSize + n.toNat := by
  rw [encodedSize, UInt32.toNat_add, headerSize]
  exact Nat.mod_eq_of_lt (by simp; omega)

/-- A wrapped size is smaller than a header. This is why the wrapping check of the decoder
refuses every buffer with such a length field, after the check that a header is there. -/
theorem toNat_encodedSize_lt {n : UInt32} (h : 2 ^ 32 - 25 < n.toNat) :
    (encodedSize n).toNat < headerSize := by
  have hn := n.toNat_lt
  have h24 : (24 : UInt32).toNat = 24 := rfl
  rw [encodedSize, UInt32.toNat_add, headerSize, h24]
  omega

/-- Below the wrap-around the encoder writes the layout of the frame's contents. -/
theorem encodeFrame_eq_wire {frame : Frame}
    (hlen : frame.header.payloadLen.toNat = frame.payload.length)
    (hmax : frame.payload.length ≤ 2 ^ 32 - 25) :
    encodeFrame frame = wire frame.header.type.toNat frame.header.flags.toNat
      frame.header.requestId.toNat frame.payload := by
  have hofNat : frame.header.payloadLen = UInt32.ofNat frame.payload.length := by
    rw [← hlen, UInt32.ofNat_toNat]
  rw [encodeFrame, hlen, List.take_length, toNat_encodedSize (by omega), hlen,
    wire_eq_headerBytes_append (by omega), frameOf, ← hofNat]
  exact List.take_of_length_le (by rw [List.length_append, length_headerBytes, headerSize])

/-- The decoder returns what a layout lays out, with the length and the checksum filled in. -/
theorem decodeFrame_wire {type : UInt16} {flags requestId : UInt32} {payload : Bytes}
    (h : payload.length ≤ 2 ^ 32 - 25) :
    decodeFrame (wire type.toNat flags.toNat requestId.toNat payload) =
      some (frameOf type flags requestId payload) := by
  have hofNat : (UInt32.ofNat payload.length).toNat = payload.length := by
    rw [UInt32.toNat_ofNat', Nat.mod_eq_of_lt (by omega)]
  have hlong : ¬(wire type.toNat flags.toNat requestId.toNat payload).length < headerSize := by
    rw [length_wire]
    omega
  have hlen : (frameOf type flags requestId payload).header.payloadLen.toNat = payload.length :=
    hofNat
  have hsize : (encodedSize (frameOf type flags requestId payload).header.payloadLen).toNat =
      headerSize + payload.length := by
    rw [toNat_encodedSize (by omega), hlen]
  rw [decodeFrame, if_neg hlong, length_wire, wire_eq_headerBytes_append (by omega),
    readHeader_headerBytes_append]
  have hdrop : (headerBytes (frameOf type flags requestId payload).header ++ payload).drop
      headerSize = payload := rfl
  simp only [hsize, hdrop, hlen, List.take_length]
  rw [if_neg (by simp [frameOf]), if_neg (by simp), if_neg (by simp [frameOf])]
  rfl

/-- **The decoder accepts exactly the layouts.** This needs no bound on the buffer: a
wrapped length field makes the expected size smaller than a header. -/
theorem decodeFrame_eq_some_iff {raw : Bytes} {frame : Frame} :
    decodeFrame raw = some frame ↔
      ∃ (type : UInt16) (flags requestId : UInt32) (payload : Bytes),
        payload.length ≤ 2 ^ 32 - 25 ∧
        raw = wire type.toNat flags.toNat requestId.toNat payload ∧
        frame = frameOf type flags requestId payload := by
  constructor
  · intro h
    simp only [decodeFrame] at h
    split_ifs at h with hshort hmagic hsize hcrc
    simp only [not_or, not_not] at hmagic hsize hcrc
    obtain ⟨hmagic, hversion⟩ := hmagic
    -- a length that wraps asks for fewer bytes than the header has
    have hmax : (readHeader raw).payloadLen.toNat ≤ 2 ^ 32 - 25 := by
      by_contra hgt
      have := toNat_encodedSize_lt (not_le.mp hgt)
      omega
    rw [toNat_encodedSize hmax] at hsize
    set payload := (raw.drop headerSize).take (readHeader raw).payloadLen.toNat with hpayload
    have hfull : payload = raw.drop headerSize := by
      rw [hpayload]
      exact List.take_of_length_le (by rw [List.length_drop]; omega)
    have hlen : payload.length = (readHeader raw).payloadLen.toNat := by
      rw [hfull, List.length_drop]
      omega
    have hframe : frameOf (readHeader raw).type (readHeader raw).flags
        (readHeader raw).requestId payload = ⟨readHeader raw, payload⟩ := by
      rw [frameOf, hlen, UInt32.ofNat_toNat, ← hcrc, ← hmagic, ← hversion]
    refine ⟨(readHeader raw).type, (readHeader raw).flags, (readHeader raw).requestId, payload,
      by omega, ?_, ?_⟩
    · rw [wire_eq_headerBytes_append (by omega), hframe]
      simp only
      rw [headerBytes_readHeader (by rw [headerSize] at hshort; omega), hfull]
      exact (List.take_append_drop 24 raw).symm
    · rw [hframe]
      exact (Option.some_injective _ h).symm
  · rintro ⟨type, flags, requestId, payload, hlen, rfl, rfl⟩
    exact decodeFrame_wire hlen

/-- The bytes a frame was decoded from are its encoding. So nothing of the frame is lost in
the decoder, and no two buffers decode to the same frame. -/
theorem encodeFrame_of_decodeFrame {raw : Bytes} {frame : Frame}
    (h : decodeFrame raw = some frame) : encodeFrame frame = raw := by
  obtain ⟨type, flags, requestId, payload, hmax, rfl, rfl⟩ := decodeFrame_eq_some_iff.mp h
  have hlen : (frameOf type flags requestId payload).header.payloadLen.toNat = payload.length := by
    rw [frameOf, UInt32.toNat_ofNat', Nat.mod_eq_of_lt (by omega)]
  exact encodeFrame_eq_wire hlen hmax

end UsbResponder
