import UsbResponder.Protocol.Frame
import UsbResponder.Protocol.KeyValue

/-!
# The host's codec

`protocol.py` of the Python client: frames and KV payloads as `struct` packs and unpacks
them. Python integers are natural numbers here and `struct.pack` refuses what does not fit
its field; a text is encoded with UTF-8. An exception is a `PyError`, with the message of
the source.

The main result is `frame_codecs_agree`: the encoders and decoders of the two languages are
one bijection between frame contents and their encodings. It is reached over the layout:
each encoder writes it, and each decoder accepts it and nothing else, so the two sides are
never compared function by function. The one place where they differ is the check of the
length, which wraps in C; `length_check_iff` says that both checks accept the same buffers
below `2 ^ 32` bytes.

Negative integers, which `struct` refuses as well, are left out here; the arguments of
`command_exec` may be negative and are treated in `Host.CommandService`.
-/

namespace UsbResponder

open LittleEndian

namespace Host

/-- The exceptions raised by the codec: `ValueError` with its message, `struct.error`, and
the `OverflowError` of `to_bytes`. Their texts are what a caller sees. -/
inductive PyError
  | valueError (msg : String)
  | structError
  | overflowError
  deriving DecidableEq, Repr

/-- `Frame`. Its fields are unbounded, as Python's are; what does not fit is refused when it
is encoded. -/
structure Frame where
  type : ℕ
  requestId : ℕ
  flags : ℕ := 0
  payload : Bytes := []
  deriving DecidableEq, Repr

/-- `struct.pack("<IHHIIII", ...)`, which raises where a field does not fit its width. -/
def packHeader (magic ver typ flags reqId plen crc : ℕ) : Except PyError Bytes :=
  if magic < 2 ^ 32 ∧ ver < 2 ^ 16 ∧ typ < 2 ^ 16 ∧ flags < 2 ^ 32 ∧ reqId < 2 ^ 32 ∧
      plen < 2 ^ 32 ∧ crc < 2 ^ 32 then
    .ok (leBytes 4 magic ++ leBytes 2 ver ++ leBytes 2 typ ++ leBytes 4 flags ++
      leBytes 4 reqId ++ leBytes 4 plen ++ leBytes 4 crc)
  else .error .structError

/-- `crc32_payload`. The mask is Python's way to a word of 32 bits, and changes nothing
here. -/
def crc32Payload (data : Bytes) : ℕ := zlibCrc32 data % 2 ^ 32

/-- `Frame.encode`. The fields are packed in the order of the header, so the first one that
does not fit raises the exception. -/
def Frame.encode (f : Frame) : Except PyError Bytes := do
  let hdr ← packHeader 0x45504153 1 f.type f.flags f.requestId f.payload.length
    (crc32Payload f.payload)
  return hdr ++ f.payload

/-- `decode_frame`. The checks come in the order of the source, so the first that fails
tells the exception. -/
def decodeFrame (buf : Bytes) : Except PyError Frame :=
  if buf.length < 24 then .error (.valueError "frame too short")
  else
    let magic := leNat (buf.take 4)
    let ver := leNat ((buf.drop 4).take 2)
    let typ := leNat ((buf.drop 6).take 2)
    let flags := leNat ((buf.drop 8).take 4)
    let reqId := leNat ((buf.drop 12).take 4)
    let plen := leNat ((buf.drop 16).take 4)
    let pcrc := leNat ((buf.drop 20).take 4)
    if magic ≠ 0x45504153 ∨ ver ≠ 1 then .error (.valueError "bad magic or version")
    else if buf.length ≠ 24 + plen then .error (.valueError "length mismatch")
    else
      let payload := buf.drop 24
      if crc32Payload payload ≠ pcrc then .error (.valueError "crc mismatch")
      else .ok { type := typ, requestId := reqId, flags := flags, payload := payload }

/-- `struct.pack("<H", v)`. -/
def packU16 (v : ℕ) : Except PyError Bytes :=
  if v < 2 ^ 16 then .ok (leBytes 2 v) else .error .structError

/-- The loop of `encode_kv` over the items. A key or value too long for its length field
raises. -/
def encodeKvItems : List (String × String) → Except PyError Bytes
  | [] => return []
  | (k, v) :: items => do
    let kb := utf8 k
    let vb := utf8 v
    let klen ← packU16 kb.length
    let vlen ← packU16 vb.length
    let rest ← encodeKvItems items
    return klen ++ vlen ++ kb ++ vb ++ rest

/-- `encode_kv`, which puts the number of items in front. -/
def encodeKv (items : List (String × String)) : Except PyError Bytes := do
  let count ← packU16 items.length
  let body ← encodeKvItems items
  return count ++ body

/-! ### Frames against the layout -/

private theorem crc32Payload_eq (data : Bytes) : crc32Payload data = (crc32 data).toNat := by
  rw [crc32Payload, zlibCrc32_eq, Nat.mod_eq_of_lt (crc32 data).toNat_lt]

/-- The host's encoder writes the layout of the frame's contents. -/
theorem Frame.encode_eq_wire {f : Frame} (htype : f.type < 2 ^ 16) (hflags : f.flags < 2 ^ 32)
    (hid : f.requestId < 2 ^ 32) (hlen : f.payload.length < 2 ^ 32) :
    f.encode = .ok (wire f.type f.flags f.requestId f.payload) := by
  have hcrc : crc32Payload f.payload < 2 ^ 32 := Nat.mod_lt _ (by norm_num)
  rw [Frame.encode, packHeader, if_pos ⟨by norm_num, by norm_num, htype, hflags, hid, hlen, hcrc⟩,
    wire, crc32Payload_eq]
  simp only [bind, Except.bind, pure, Except.pure, List.append_assoc]

/-- A frame is encoded exactly when its fields fit, and then to its layout. -/
theorem Frame.encode_eq_ok_iff {f : Frame} {raw : Bytes} :
    f.encode = .ok raw ↔ f.type < 2 ^ 16 ∧ f.flags < 2 ^ 32 ∧ f.requestId < 2 ^ 32 ∧
      f.payload.length < 2 ^ 32 ∧ raw = wire f.type f.flags f.requestId f.payload := by
  constructor
  · intro h
    by_cases hfit : f.type < 2 ^ 16 ∧ f.flags < 2 ^ 32 ∧ f.requestId < 2 ^ 32 ∧
        f.payload.length < 2 ^ 32
    · obtain ⟨htype, hflags, hid, hlen⟩ := hfit
      rw [Frame.encode_eq_wire htype hflags hid hlen] at h
      exact ⟨htype, hflags, hid, hlen, (Except.ok.inj h).symm⟩
    · rw [Frame.encode, packHeader, if_neg (fun hall => hfit ⟨hall.2.2.1, hall.2.2.2.1,
        hall.2.2.2.2.1, hall.2.2.2.2.2.1⟩)] at h
      exact absurd h (by simp [bind, Except.bind])
  · rintro ⟨htype, hflags, hid, hlen, rfl⟩
    exact Frame.encode_eq_wire htype hflags hid hlen

/-- The bytes of a frame, by the layout. They are its encoding where its fields fit. -/
def Frame.raw (f : Frame) : Bytes := wire f.type f.flags f.requestId f.payload

theorem Frame.length_raw (f : Frame) : f.raw.length = headerSize + f.payload.length :=
  length_wire ..

theorem Frame.eq_raw_of_encode {f : Frame} {raw : Bytes} (h : f.encode = .ok raw) : raw = f.raw :=
  (Frame.encode_eq_ok_iff.mp h).2.2.2.2

/-- The fields the host reads from a long enough buffer are those of the C header. -/
theorem leNat_header {buf : Bytes} (h : 24 ≤ buf.length) :
    leNat (buf.take 4) = (readHeader buf).magic.toNat ∧
    leNat ((buf.drop 4).take 2) = (readHeader buf).version.toNat ∧
    leNat ((buf.drop 6).take 2) = (readHeader buf).type.toNat ∧
    leNat ((buf.drop 8).take 4) = (readHeader buf).flags.toNat ∧
    leNat ((buf.drop 12).take 4) = (readHeader buf).requestId.toNat ∧
    leNat ((buf.drop 16).take 4) = (readHeader buf).payloadLen.toNat ∧
    leNat ((buf.drop 20).take 4) = (readHeader buf).payloadCrc32.toNat := by
  simp only [readHeader]
  refine ⟨?_, ?_, ?_, ?_, ?_, ?_, ?_⟩
  · rw [toNat_readLe32 (by omega)]
  · rw [toNat_readLe16 (by rw [List.length_drop]; omega)]
  · rw [toNat_readLe16 (by rw [List.length_drop]; omega)]
  all_goals rw [toNat_readLe32 (by rw [List.length_drop]; omega)]

/-- What the host reads from a frame the device sent or received. The checksum and the
length are not kept, as they follow from the payload. -/
def Frame.ofDevice (f : UsbResponder.Frame) : Frame where
  type := f.header.type.toNat
  requestId := f.header.requestId.toNat
  flags := f.header.flags.toNat
  payload := f.payload

/-- The device's view of a frame. It is what the decoder of the device returns of its
encoding. -/
def Frame.toDevice (f : Frame) : UsbResponder.Frame :=
  frameOf (UInt16.ofNat f.type) (UInt32.ofNat f.flags) (UInt32.ofNat f.requestId) f.payload

theorem Frame.ofDevice_toDevice {f : Frame} (htype : f.type < 2 ^ 16) (hflags : f.flags < 2 ^ 32)
    (hid : f.requestId < 2 ^ 32) : Frame.ofDevice f.toDevice = f := by
  rw [Frame.ofDevice, Frame.toDevice, frameOf, UInt16.toNat_ofNat_of_lt' htype,
    UInt32.toNat_ofNat_of_lt' hflags, UInt32.toNat_ofNat_of_lt' hid]

/-- The device decodes what the host encodes, and gets its own view of the same frame. -/
theorem Frame.decodeFrame_of_encode {f : Frame} {raw : Bytes} (h : f.encode = .ok raw)
    (hmax : f.payload.length ≤ 2 ^ 32 - 25) : UsbResponder.decodeFrame raw = some f.toDevice := by
  obtain ⟨htype, hflags, hid, -, rfl⟩ := Frame.encode_eq_ok_iff.mp h
  have hdecode : UsbResponder.decodeFrame (wire (UInt16.ofNat f.type).toNat
      (UInt32.ofNat f.flags).toNat (UInt32.ofNat f.requestId).toNat f.payload) =
      some f.toDevice := decodeFrame_wire hmax
  rwa [UInt16.toNat_ofNat_of_lt' htype, UInt32.toNat_ofNat_of_lt' hflags,
    UInt32.toNat_ofNat_of_lt' hid] at hdecode

/-- The host's encoding of a frame of the device is that of the device. -/
theorem Frame.encode_ofDevice {frame : UsbResponder.Frame}
    (hlen : frame.header.payloadLen.toNat = frame.payload.length)
    (hmax : frame.payload.length ≤ 2 ^ 32 - 25) :
    (Frame.ofDevice frame).encode = .ok (encodeFrame frame) := by
  rw [encodeFrame_eq_wire hlen hmax]
  refine Frame.encode_eq_wire ?_ ?_ ?_ ?_
  · exact UInt16.toNat_lt _
  · exact UInt32.toNat_lt _
  · exact UInt32.toNat_lt _
  · exact hmax.trans_lt (by norm_num)

/-- Comparing with the unbounded sum accepts the same buffers as comparing with the wrapping
one: a wrapped sum is below 24, and the sum it comes from is beyond every 32-bit length. -/
private theorem length_check_iff {len : ℕ} (hmin : 24 ≤ len) (hmax : len < 2 ^ 32) (n : UInt32) :
    len = 24 + n.toNat ↔ (encodedSize n).toNat = len := by
  by_cases hn : n.toNat ≤ 2 ^ 32 - 25
  · rw [toNat_encodedSize hn, headerSize]
    exact eq_comm
  · have hlt := toNat_encodedSize_lt (not_le.mp hn)
    rw [headerSize] at hlt
    omega

/-- **The decoders agree.** On a buffer of less than `2 ^ 32` bytes the host accepts what
the device's decoder accepts and returns the same contents. -/
theorem decodeFrame_eq_ok_iff {buf : Bytes} (hmax : buf.length < 2 ^ 32) {f : Frame} :
    decodeFrame buf = .ok f ↔
      ∃ g, UsbResponder.decodeFrame buf = some g ∧ f = Frame.ofDevice g := by
  by_cases hshort : buf.length < 24
  · have hdev : UsbResponder.decodeFrame buf = none := by
      rw [UsbResponder.decodeFrame, headerSize, if_pos hshort]
    simp [decodeFrame, hshort, hdev]
  obtain ⟨hmagic, hversion, htype, hflags, hid, hlen, hcrc⟩ := leNat_header (not_lt.mp hshort)
  have hlong : ¬ buf.length < headerSize := hshort
  rw [UsbResponder.decodeFrame, if_neg hlong]
  simp only [decodeFrame, if_neg hshort, headerSize, hmagic, hversion, htype, hflags, hid, hlen,
    hcrc, crc32Payload_eq]
  have hheader : (readHeader buf).magic.toNat ≠ 0x45504153 ∨ (readHeader buf).version.toNat ≠ 1 ↔
      (readHeader buf).magic ≠ magic ∨ (readHeader buf).version ≠ version :=
    or_congr (not_congr (UInt32.toNat_inj (b := magic)))
      (not_congr (UInt16.toNat_inj (b := version)))
  -- both decoders make the same checks in the same order
  by_cases hbad : (readHeader buf).magic ≠ magic ∨ (readHeader buf).version ≠ version
  · rw [if_pos (hheader.mpr hbad), if_pos hbad]
    simp
  rw [if_neg (mt hheader.mp hbad), if_neg hbad]
  have hcheck := length_check_iff (not_lt.mp hshort) hmax (readHeader buf).payloadLen
  by_cases hwrong : buf.length = 24 + (readHeader buf).payloadLen.toNat
  swap
  · rw [if_pos hwrong, if_pos (mt hcheck.mpr hwrong)]
    simp
  have hpayload : (buf.drop 24).take (readHeader buf).payloadLen.toNat = buf.drop 24 :=
    List.take_of_length_le (by rw [List.length_drop]; omega)
  rw [if_neg (not_not.mpr hwrong), if_neg (not_not.mpr (hcheck.mp hwrong))]
  simp only [hpayload]
  by_cases hsum : crc32 (buf.drop 24) = (readHeader buf).payloadCrc32
  · rw [if_neg (by simp [hsum]), if_neg (by simp [hsum])]
    simp [Frame.ofDevice, eq_comm]
  · rw [if_pos (fun h => hsum (UInt32.toNat_inj.mp h)), if_pos (Ne.symm hsum)]
    simp

/-- The host decodes what it encodes. -/
theorem Frame.decodeFrame_raw {f : Frame} (h : f.encode = .ok f.raw)
    (hmax : f.payload.length ≤ 2 ^ 32 - 25) : decodeFrame f.raw = .ok f := by
  obtain ⟨htype, hflags, hid, -, -⟩ := Frame.encode_eq_ok_iff.mp h
  have hlen : f.raw.length < 2 ^ 32 := by
    rw [Frame.length_raw, headerSize]
    omega
  rw [decodeFrame_eq_ok_iff hlen]
  exact ⟨f.toDevice, Frame.decodeFrame_of_encode h hmax,
    (Frame.ofDevice_toDevice htype hflags hid).symm⟩

/-! ### KV payloads against the layout -/

/-- An item of a KV payload. -/
def kvOf (item : String × String) : Kv := ⟨utf8 item.1, utf8 item.2⟩

@[simp] theorem kvOf_key (item : String × String) : (kvOf item).key = utf8 item.1 := rfl

@[simp] theorem kvOf_value (item : String × String) : (kvOf item).value = utf8 item.2 := rfl

theorem packU16_eq_ok_iff {v : ℕ} {bs : Bytes} :
    packU16 v = .ok bs ↔ v < 2 ^ 16 ∧ bs = leBytes 2 v := by
  rw [packU16]
  split_ifs with hfit
  · rw [Except.ok.injEq, eq_comm, and_iff_right hfit]
  · exact iff_of_false (by simp) fun h => hfit h.1

/-- In a computation that raises no exception every step delivers a value. Proofs about
encoders take them apart with it. -/
theorem bind_eq_ok_iff {α β : Type} {x : Except PyError α} {f : α → Except PyError β} {b : β} :
    x >>= f = .ok b ↔ ∃ a, x = .ok a ∧ f a = .ok b := by
  cases x with
  | error e => simp [bind, Except.bind]
  | ok a => simp [bind, Except.bind]

/-- Items that are encoded fit, and are written as the layout has it. -/
private theorem encodeKvItems_eq_ok {items : List (String × String)} {body : Bytes}
    (h : encodeKvItems items = .ok body) :
    (∀ item ∈ items.map kvOf, item.Fits) ∧ body = (items.map kvOf).flatMap kvLayoutRecord := by
  induction items generalizing body with
  | nil =>
    obtain rfl : [] = body := Except.ok.inj h
    exact ⟨by simp, rfl⟩
  | cons item items ih =>
    rw [encodeKvItems] at h
    simp only [bind_eq_ok_iff, packU16_eq_ok_iff] at h
    obtain ⟨_, ⟨hk, rfl⟩, _, ⟨hv, rfl⟩, rest, hrest, hbody⟩ := h
    obtain ⟨hfits, rfl⟩ := ih hrest
    constructor
    · intro kv hkv
      obtain rfl | hkv := List.mem_cons.mp hkv
      · exact ⟨hk, hv⟩
      · exact hfits kv hkv
    · rw [← Except.ok.inj hbody, List.map_cons, List.flatMap_cons, kvLayoutRecord]
      simp only [kvOf, List.append_assoc]

/-- The host's KV encoder writes the layout of items that fit. -/
theorem encodeKv_eq_ok {items : List (String × String)} {payload : Bytes}
    (h : encodeKv items = .ok payload) :
    (∀ item ∈ items.map kvOf, item.Fits) ∧ payload = kvLayout (items.map kvOf) := by
  rw [encodeKv] at h
  simp only [bind_eq_ok_iff, packU16_eq_ok_iff] at h
  obtain ⟨_, ⟨-, rfl⟩, body, hbody, hpayload⟩ := h
  obtain ⟨hfits, rfl⟩ := encodeKvItems_eq_ok hbody
  refine ⟨hfits, ?_⟩
  rw [← Except.ok.inj hpayload, kvLayout, List.length_map]

end Host

/-! ### One bijection -/

/-- A frame as the senders of the device build it: all fields zeroed but the type, the
flags, the request id and the payload with its length. -/
def outgoing (type : UInt16) (flags requestId : UInt32) (payload : Bytes) : Frame where
  header := { type, flags, requestId, payloadLen := UInt32.ofNat payload.length }
  payload := payload

private theorem encodeFrame_outgoing {type : UInt16} {flags requestId : UInt32} {payload : Bytes}
    (h : payload.length ≤ 2 ^ 32 - 25) :
    encodeFrame (outgoing type flags requestId payload) =
      wire type.toNat flags.toNat requestId.toNat payload :=
  encodeFrame_eq_wire (by
    rw [outgoing, UInt32.toNat_ofNat', Nat.mod_eq_of_lt (by omega)]) h

/-- The frame contents that `raw` is the encoding of. There is at most one such contents for
any bytes. -/
def IsEncodingOf (raw : Bytes) (type : UInt16) (flags requestId : UInt32) (payload : Bytes) :
    Prop :=
  payload.length ≤ 2 ^ 32 - 25 ∧ raw = encodeFrame (outgoing type flags requestId payload)

/-- **One bijection.** The two encoders write the same bytes. On every buffer below `2 ^ 32`
bytes each decoder accepts exactly the encodings, and returns the contents that were
encoded. -/
theorem frame_codecs_agree :
    (∀ (type : UInt16) (flags requestId : UInt32) (payload : Bytes),
      payload.length ≤ 2 ^ 32 - 25 →
        (Host.Frame.mk type.toNat requestId.toNat flags.toNat payload).encode =
          .ok (encodeFrame (outgoing type flags requestId payload))) ∧
    ∀ raw : Bytes, raw.length < 2 ^ 32 →
      ((∃ g, decodeFrame raw = some g) ↔
        ∃ type flags requestId payload, IsEncodingOf raw type flags requestId payload) ∧
      ((∃ f, Host.decodeFrame raw = .ok f) ↔
        ∃ type flags requestId payload, IsEncodingOf raw type flags requestId payload) ∧
      ∀ type flags requestId payload, IsEncodingOf raw type flags requestId payload →
        (∃ g, decodeFrame raw = some g ∧ g.header.type = type ∧ g.header.flags = flags ∧
          g.header.requestId = requestId ∧ g.payload = payload) ∧
        Host.decodeFrame raw =
          .ok ⟨type.toNat, requestId.toNat, flags.toNat, payload⟩ := by
  have hencoding : ∀ {raw : Bytes} {type : UInt16} {flags requestId : UInt32} {payload : Bytes},
      IsEncodingOf raw type flags requestId payload →
        decodeFrame raw = some (frameOf type flags requestId payload) := by
    rintro raw type flags requestId payload ⟨hlen, rfl⟩
    rw [encodeFrame_outgoing hlen, decodeFrame_wire hlen]
  -- what the device accepts has been encoded from what it returns
  have haccept : ∀ {raw : Bytes} {g : Frame}, decodeFrame raw = some g →
      ∃ type flags requestId payload, IsEncodingOf raw type flags requestId payload := by
    intro raw g hg
    obtain ⟨type, flags, requestId, payload, hlen, hraw, -⟩ := decodeFrame_eq_some_iff.mp hg
    exact ⟨type, flags, requestId, payload, hlen, by rw [hraw, encodeFrame_outgoing hlen]⟩
  refine ⟨fun type flags requestId payload hlen => ?_, fun raw hmax => ⟨?_, ?_, ?_⟩⟩
  · rw [Host.Frame.encode_eq_wire type.toNat_lt flags.toNat_lt requestId.toNat_lt
      (by simp only; omega), encodeFrame_outgoing hlen]
  · refine ⟨fun ⟨g, hg⟩ => haccept hg, ?_⟩
    rintro ⟨type, flags, requestId, payload, h⟩
    exact ⟨_, hencoding h⟩
  · refine ⟨fun ⟨f, hf⟩ => ?_, ?_⟩
    · obtain ⟨g, hg, -⟩ := (Host.decodeFrame_eq_ok_iff hmax).mp hf
      exact haccept hg
    · rintro ⟨type, flags, requestId, payload, h⟩
      exact ⟨_, (Host.decodeFrame_eq_ok_iff hmax).mpr ⟨_, hencoding h, rfl⟩⟩
  · intro type flags requestId payload h
    refine ⟨⟨_, hencoding h, rfl, rfl, rfl, rfl⟩, ?_⟩
    exact (Host.decodeFrame_eq_ok_iff hmax).mpr ⟨_, hencoding h, rfl⟩

end UsbResponder
