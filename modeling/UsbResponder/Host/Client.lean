import UsbResponder.Base.Framing
import UsbResponder.Host.Codec

/-!
# The host's client

The transport of `client.py`. A request is written in pieces of at most 16 KiB, and a
zero-length write follows when its length is a multiple of the packet size of the endpoint.
Responses are collected in `_rxbuf`, chunk by chunk, until it holds a frame; zero-length
reads are skipped.

A chunk is what one `read` of the bulk IN endpoint returns. When the chunks to come are used
up the client waits for the device, which is the result `none`.

The receiving side is a buffered reader like that of the device, and reads a format of its
own, `responseFormat` (`Client.recv_readBy`). It looks at the payload length before the
frame is complete and at nothing else, so a frame that is refused is refused as a whole, and
the buffer keeps it. What the library says about formats then holds of the responses too.

The endpoints are opened and found by the client's library, which is not under the source;
its writes are taken to be whole, and its time-outs are left out.
-/

namespace UsbResponder.Host

open LittleEndian Framing

/-- `MAX_PAYLOAD`. The client refuses a header that announces more, before it reads on. -/
def maxPayload : ℕ := 8 * 1024 * 1024

/-- `USB_REQUEST_CHUNK`, the most that one transfer of the client carries. -/
def usbRequestChunk : ℕ := 16 * 1024

/-! ### Receiving -/

/-- The receiving side of `UsbResponderClient`: `_rxbuf`, and the chunks still to come. The
chunks are all that the client will ever get. -/
structure Client where
  rxbuf : Bytes
  incoming : List Bytes

/-- `_read_some`. -/
def Client.readSome (rxbuf : Bytes) : List Bytes → Option Client
  | [] => none
  | chunk :: incoming =>
    if chunk = [] then Client.readSome rxbuf incoming else some ⟨rxbuf ++ chunk, incoming⟩

/-- The loops of `_recv_frame` that wait for `n` bytes. Every round uses up a chunk, so
`fuel` above their number is never used up. -/
def Client.readUntil (n : ℕ) : ℕ → Client → Option Client
  | 0, _ => none
  | fuel + 1, c =>
    if c.rxbuf.length < n then
      match Client.readSome c.rxbuf c.incoming with
      | none => none
      | some c => Client.readUntil n fuel c
    else some c

/-- `_recv_frame`. A payload that is too long, and a frame that is not decoded, raise an
exception. -/
def Client.recvFrame (c : Client) : Option (Except PyError Frame × Client) :=
  match Client.readUntil 24 (c.incoming.length + 1) c with
  | none => none
  | some c =>
    let hdr := c.rxbuf.take 24
    let plen := leNat ((hdr.drop 16).take 4)
    if maxPayload < plen then some (.error (.valueError "payload too large"), c)
    else
      let frameSize := 24 + plen
      match Client.readUntil frameSize (c.incoming.length + 1) c with
      | none => none
      | some c =>
        some (decodeFrame (c.rxbuf.take frameSize), { c with rxbuf := c.rxbuf.drop frameSize })

/-! ### Sending -/

/-- The slices `_write_exact` writes, each of which the endpoint takes whole. -/
def writeExact : ℕ → Bytes → List Bytes
  | _, [] => []
  | 0, _ => []
  | fuel + 1, data => data.take usbRequestChunk :: writeExact fuel (data.drop usbRequestChunk)

/-- The writes of `_send_frame` for an encoded frame, on an endpoint with the given
`wMaxPacketSize`. The last one is empty when the device could not tell otherwise that the
transfer is over. -/
def sendWrites (wMaxPacketSize : ℕ) (raw : Bytes) : List Bytes :=
  writeExact raw.length raw ++ if raw.length % wMaxPacketSize = 0 then [[]] else []

/-- `_send_frame`: its writes, or the exception the encoder raises. -/
def sendFrame (wMaxPacketSize : ℕ) (f : Frame) : Except PyError (List Bytes) := do
  let raw ← f.encode
  return sendWrites wMaxPacketSize raw

/-- The writes of frames sent one after another. A frame that cannot be encoded ends the
sending. -/
def sendFrames (wMaxPacketSize : ℕ) : List Frame → Except PyError (List Bytes)
  | [] => return []
  | f :: fs => do
    let writes ← sendFrame wMaxPacketSize f
    let rest ← sendFrames wMaxPacketSize fs
    return writes ++ rest

/-! ### The client as a buffered reader -/

/-- The receive buffer in front of the chunks still to come. -/
def Client.reader (c : Client) : Reader UInt8 := ⟨c.rxbuf, c.incoming⟩

/-- Reading once skips empty chunks and takes the next one. -/
private theorem Client.readSome_cases (rxbuf : Bytes) (incoming : List Bytes) :
    (incoming.flatten = [] ∧ Client.readSome rxbuf incoming = none) ∨
    ∃ c, Client.readSome rxbuf incoming = some c ∧ c.incoming.length < incoming.length ∧
      ∀ n, rxbuf.length < n →
        Reader.fill n rxbuf incoming = Reader.fill n c.rxbuf c.incoming := by
  induction incoming with
  | nil => exact .inl ⟨rfl, rfl⟩
  | cons chunk incoming ih =>
    rw [Client.readSome]
    split_ifs with hempty
    · obtain ⟨hnone, hread⟩ | ⟨c, hread, hlen, hfill⟩ := ih
      · exact .inl ⟨by rw [List.flatten_cons, hempty, hnone, List.nil_append], hread⟩
      · refine .inr ⟨c, hread, hlen.trans (Nat.lt_succ_self _), fun n hn => ?_⟩
        rw [Reader.fill, if_neg (by omega), hempty, List.append_nil, hfill n hn]
    · refine .inr ⟨_, rfl, Nat.lt_succ_self _, fun n hn => ?_⟩
      rw [Reader.fill, if_neg (by omega)]

/-- Waiting for `n` bytes is the refill of a buffered reader. -/
private theorem Client.readUntil_eq_fill {n fuel : ℕ} {c : Client} (h : c.incoming.length < fuel) :
    (Client.readUntil n fuel c).map Client.reader = Reader.fill n c.rxbuf c.incoming := by
  induction fuel generalizing c with
  | zero => omega
  | succ fuel ih =>
    rw [Client.readUntil]
    split_ifs with hshort
    · obtain ⟨hnone, hread⟩ | ⟨c', hread, hlen, hfill⟩ :=
        Client.readSome_cases c.rxbuf c.incoming
      · rw [hread, Option.map_none, eq_comm, Reader.fill_eq_none_iff, hnone, List.append_nil]
        exact hshort
      · rw [hread, hfill n hshort]
        exact ih (by omega)
    · cases hincoming : c.incoming with
      | nil => rw [Reader.fill, if_pos (by omega), Option.map_some, Client.reader, hincoming]
      | cons chunk incoming =>
        rw [Reader.fill, if_pos (by omega), Option.map_some, Client.reader, hincoming]

/-- Responses as a length-prefixed format: only the payload length is looked at before the
frame is complete. Magic, version and checksum are for the decoder. -/
def responseFormat : Format UInt8 Frame where
  headerSize := 24
  frameSize hdr :=
    let plen := leNat ((hdr.drop 16).take 4)
    if maxPayload < plen then none else some (24 + plen)
  decode raw := (decodeFrame raw).toOption
  headerSize_pos := by decide
  headerSize_le := by
    intro h n hn
    dsimp only at hn
    split_ifs at hn
    obtain rfl := Option.some.inj hn
    exact Nat.le_add_right ..

/-- A receive that drops the text of an exception. -/
def Client.recv (c : Client) : Option (Option Frame × Client) :=
  c.recvFrame.map fun r => (r.1.toOption, r.2)

/-- One receive of the client is one receive of the format. -/
private theorem Client.recv_eq_recv (c : Client) :
    c.recv.map (fun r => (r.1, r.2.reader)) = responseFormat.recv c.reader := by
  rw [Format.recv, Client.recv, Client.recvFrame]
  have hfill := Client.readUntil_eq_fill (n := 24) (c := c) (Nat.lt_succ_self _)
  rw [show Reader.fill responseFormat.headerSize c.reader.buf c.reader.pending = _ from hfill.symm]
  cases Client.readUntil 24 (c.incoming.length + 1) c with
  | none => rfl
  | some c₁ =>
    dsimp only [Option.map_some]
    have hsize : responseFormat.frameSize (c₁.reader.buf.take responseFormat.headerSize) =
        if maxPayload < leNat (((c₁.rxbuf.take 24).drop 16).take 4) then none
        else some (24 + leNat (((c₁.rxbuf.take 24).drop 16).take 4)) := rfl
    rw [hsize]
    split_ifs with hbig
    · rfl
    · have hfill₂ := Client.readUntil_eq_fill
        (n := 24 + leNat (((c₁.rxbuf.take 24).drop 16).take 4)) (c := c₁) (Nat.lt_succ_self _)
      dsimp only
      rw [show Reader.fill _ c₁.reader.buf c₁.reader.pending = _ from hfill₂.symm]
      cases Client.readUntil (24 + leNat (((c₁.rxbuf.take 24).drop 16).take 4))
        (c₁.incoming.length + 1) c₁ with
      | none => rfl
      | some c₂ => rfl

/-- `_recv_frame` reads the format of responses. -/
theorem Client.recv_readBy :
    responseFormat.ReadBy Client.recv (fun c => c.reader.unread) fun _ => True where
  more := by
    intro c _ hn
    have hrecv := responseFormat.recv_readBy.more trivial hn
    rw [← Client.recv_eq_recv, Option.map_eq_none_iff] at hrecv
    exact hrecv
  reject := by
    intro c _ hn
    obtain ⟨r, hrecv⟩ := responseFormat.recv_readBy.reject trivial hn
    rw [← Client.recv_eq_recv, Option.map_eq_some_iff] at hrecv
    obtain ⟨⟨result, c'⟩, hrun, heq⟩ := hrecv
    obtain ⟨rfl, -⟩ := Prod.mk.inj heq
    exact ⟨c', hrun⟩
  item := by
    intro c frame rest _ hn
    obtain ⟨r, hrecv, hunread, -⟩ := responseFormat.recv_readBy.item trivial hn
    rw [← Client.recv_eq_recv, Option.map_eq_some_iff] at hrecv
    obtain ⟨⟨result, c'⟩, hrun, heq⟩ := hrecv
    obtain ⟨rfl, rfl⟩ := Prod.mk.inj heq
    exact ⟨c', hrun, hunread, trivial⟩

/-! ### The front of the response stream -/

/-- The length field of a frame at the front of a stream. -/
theorem Frame.leNat_raw_append {f : Frame} (hlen : f.payload.length < 2 ^ 32) (t : Bytes) :
    leNat ((((f.raw ++ t).take 24).drop 16).take 4) = f.payload.length := by
  have hfields : f.raw ++ t = (leBytes 4 0x45504153 ++ leBytes 2 1 ++ leBytes 2 f.type ++
      leBytes 4 f.flags ++ leBytes 4 f.requestId) ++ (leBytes 4 f.payload.length ++
      (leBytes 4 (crc32 f.payload).toNat ++ f.payload ++ t)) := by
    simp only [Frame.raw, wire, List.append_assoc]
  rw [List.drop_take, List.take_take, hfields, List.drop_left' (by simp),
    List.take_left' (by simp), leNat_leBytes_of_lt (by omega)]

/-- `_recv_frame` without another read: the buffer holds a frame, or is refused, or the
client waits. -/
theorem Client.recvFrame_nil (buf : Bytes) :
    Client.recvFrame ⟨buf, []⟩ =
      if buf.length < 24 then none
      else
        let plen := leNat (((buf.take 24).drop 16).take 4)
        if maxPayload < plen then some (.error (.valueError "payload too large"), ⟨buf, []⟩)
        else if buf.length < 24 + plen then none
        else some (decodeFrame (buf.take (24 + plen)), ⟨buf.drop (24 + plen), []⟩) := by
  have huntil : ∀ n, Client.readUntil n (([] : List Bytes).length + 1) ⟨buf, []⟩ =
      if buf.length < n then none else some ⟨buf, []⟩ := fun _ => rfl
  rw [Client.recvFrame, huntil]
  by_cases hshort : buf.length < 24
  · rw [if_pos hshort, if_pos hshort]
  rw [if_neg hshort, if_neg hshort]
  dsimp only
  by_cases hbig : maxPayload < leNat (((buf.take 24).drop 16).take 4)
  · rw [if_pos hbig, if_pos hbig]
  rw [if_neg hbig, if_neg hbig, huntil]
  by_cases hlong : buf.length < 24 + leNat (((buf.take 24).drop 16).take 4)
  · rw [if_pos hlong, if_pos hlong]
  · rw [if_neg hlong, if_neg hlong]

/-- What `_recv_frame` makes of a buffer that ends somewhere in a stream: the frame at the
front, or an exception that leaves the buffer as it is. If the frame is not complete, it
waits. -/
theorem Client.recvFrame_of_stream {f : Frame} (h : f.encode = .ok f.raw) {buf t : Bytes}
    (hbuf : buf <+: f.raw ++ t) {r : Except PyError Frame} {c : Client}
    (hrecv : Client.recvFrame ⟨buf, []⟩ = some (r, c)) :
    (r = .ok f ∧ buf = f.raw ++ c.rxbuf) ∨ ((∃ e, r = .error e) ∧ c.rxbuf = buf) := by
  obtain ⟨-, -, -, hlen, -⟩ := Frame.encode_eq_ok_iff.mp h
  have hlength : f.raw.length = 24 + f.payload.length := by
    rw [Frame.raw, length_wire, headerSize]
  rw [Client.recvFrame_nil] at hrecv
  split_ifs at hrecv with hshort
  -- the header in the buffer is that of the frame
  have hheader : buf.take 24 = (f.raw ++ t).take 24 := by
    obtain ⟨rest, hrest⟩ := hbuf
    rw [← hrest, List.take_append_of_le_length (by omega)]
  rw [hheader, Frame.leNat_raw_append hlen] at hrecv
  dsimp only at hrecv
  split_ifs at hrecv with hbig hlong
  · obtain ⟨rfl, rfl⟩ := Prod.mk.inj (Option.some.inj hrecv)
    exact .inr ⟨⟨_, rfl⟩, rfl⟩
  · obtain ⟨rfl, rfl⟩ := Prod.mk.inj (Option.some.inj hrecv)
    have hfront : f.raw <+: buf :=
      List.prefix_of_prefix_length_le (List.prefix_append _ _) hbuf (by omega)
    obtain ⟨rest, rfl⟩ := hfront
    refine .inl ⟨?_, ?_⟩
    · rw [← hlength, List.take_left, Frame.decodeFrame_raw h (by rw [maxPayload] at hbig; omega)]
    · rw [← hlength, List.drop_left]

end UsbResponder.Host
