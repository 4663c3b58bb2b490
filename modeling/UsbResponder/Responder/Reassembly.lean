import UsbResponder.Responder.Receive

/-!
# Reassembly of request frames

`requestFormat` is the format of requests as a stream of bytes: a header of 24 bytes with
the right magic and version announces a payload of at most 8 MiB, and the checksum of the
payload decides. `read_frame_buffered` reads this format. The receive buffer with the pieces
still to come is a buffered reader, the refill loops of the source are `Reader.fill`
(`rxFill_eq_fill`), and one call is one receive of the format (`readFrameBuffered_eq_recv`),
so the reassembly theorem of the library applies.

The greedy parse of a byte string is the reference: it takes one frame after another off the
front, and ends when the bytes run out, in the middle of a frame or between two, or when a
header or a checksum is refused. That the delivery in pieces does not matter is proved in
the library for any format; what is particular here is that a refused header is found as
soon as it is complete, and the same in the parse.

A delivery has no empty piece, because a read of no bytes is the end of the stream for the
responder. Streams with such reads are treated in `Responder.HostTransfers`.
-/

namespace UsbResponder

open LittleEndian Framing

variable {σ : Type}

/-! ### The format of requests -/

/-- Requests as a length-prefixed format. A payload of more than 8 MiB is refused with the
header, before any of it is read. -/
def requestFormat : Format UInt8 Frame where
  headerSize := headerSize
  frameSize h :=
    if (readHeader h).magic = magic ∧ (readHeader h).version = version ∧
        (readHeader h).payloadLen.toNat ≤ maxPayload then
      some (headerSize + (readHeader h).payloadLen.toNat)
    else none
  decode raw :=
    if (readHeader raw).payloadCrc32 = crc32 (raw.drop headerSize) then
      some ⟨readHeader raw, raw.drop headerSize⟩
    else none
  headerSize_pos := by decide
  headerSize_le := by
    intro h n hn
    split_ifs at hn
    obtain rfl := Option.some.inj hn
    exact Nat.le_add_right ..

/-- The header is read from its first 24 bytes. -/
theorem readHeader_take {buf : Bytes} (h : headerSize ≤ buf.length) :
    readHeader (buf.take headerSize) = readHeader buf := by
  have hread := readHeader_headerBytes_append (readHeader buf) []
  rwa [List.append_nil, headerBytes_readHeader h] at hread

/-- On the bytes of one frame with an accepted header, the decoder of the source decides as
the format does: by the checksum alone. -/
theorem decodeFrame_eq_decode (raw : Bytes) (hmagic : (readHeader raw).magic = magic)
    (hversion : (readHeader raw).version = version)
    (hmax : (readHeader raw).payloadLen.toNat ≤ maxPayload)
    (hlen : raw.length = headerSize + (readHeader raw).payloadLen.toNat) :
    decodeFrame raw = requestFormat.decode raw := by
  have hsize : (encodedSize (readHeader raw).payloadLen).toNat = raw.length := by
    rw [toNat_encodedSize (by rw [maxPayload] at hmax; omega), hlen]
  have hpayload : (raw.drop headerSize).take (readHeader raw).payloadLen.toNat =
      raw.drop headerSize :=
    List.take_of_length_le (by rw [List.length_drop]; omega)
  have hlong : ¬raw.length < headerSize := by omega
  have hok : ¬((readHeader raw).magic ≠ magic ∨ (readHeader raw).version ≠ version) := by
    rw [hmagic, hversion]
    simp
  simp only [decodeFrame, if_neg hlong, if_neg hok, if_neg (not_not.mpr hsize), hpayload, ite_not,
    requestFormat]

/-- At the front of a stream the format finds a frame that was laid out there. -/
theorem requestFormat_next_wire (type : UInt16) (flags requestId : UInt32) {payload : Bytes}
    (h : payload.length ≤ maxPayload) (rest : Bytes) :
    requestFormat.next (wire type.toNat flags.toNat requestId.toNat payload ++ rest) =
      .item (frameOf type flags requestId payload) rest := by
  obtain ⟨raw, hraw⟩ : ∃ raw, raw = wire type.toNat flags.toNat requestId.toNat payload :=
    ⟨_, rfl⟩
  obtain ⟨frame, hframe⟩ : ∃ frame, frame = frameOf type flags requestId payload := ⟨_, rfl⟩
  have hlen : raw.length = headerSize + payload.length := by rw [hraw, length_wire]
  rw [maxPayload] at h
  -- the header that was laid out is read back, from the start of the stream too
  have hheader : readHeader raw = frame.header := by
    rw [hraw, hframe, wire_eq_headerBytes_append (by omega), readHeader_headerBytes_append]
  have hpayload : frame.header.payloadLen.toNat = payload.length := by
    rw [hframe, frameOf, UInt32.toNat_ofNat', Nat.mod_eq_of_lt (by omega)]
  have hheader' : readHeader ((raw ++ rest).take headerSize) = frame.header := by
    rw [List.take_append_of_le_length (by omega), readHeader_take (by omega), hheader]
  have hsize : requestFormat.frameSize ((raw ++ rest).take requestFormat.headerSize) =
      some raw.length := by
    have hok : frame.header.magic = magic ∧ frame.header.version = version ∧
        frame.header.payloadLen.toNat ≤ maxPayload := by
      refine ⟨by rw [hframe, frameOf], by rw [hframe, frameOf], ?_⟩
      rw [hpayload, maxPayload]
      exact h
    rw [show requestFormat.headerSize = headerSize from rfl]
    simp only [requestFormat, hheader', hpayload, hlen] at hok ⊢
    exact if_pos hok
  have hdecode : requestFormat.decode raw = some frame := by
    rw [← decodeFrame_eq_decode raw (by rw [hheader, hframe, frameOf])
      (by rw [hheader, hframe, frameOf]) (by rw [hheader, hpayload, maxPayload]; exact h)
      (by rw [hheader, hpayload, hlen]), hraw, hframe]
    exact decodeFrame_wire (by omega)
  have hlong : ¬(raw ++ rest).length < requestFormat.headerSize := by
    rw [List.length_append, show requestFormat.headerSize = headerSize from rfl]
    omega
  rw [← hraw, ← hframe, Format.next, if_neg hlong, hsize]
  dsimp only
  rw [if_neg (by rw [List.length_append]; omega), List.take_left, List.drop_left, hdecode]

/-! ### Deliveries -/

/-- An outcome that delivers bytes or only makes the responder try again. -/
def RxOutcome.Delivers : RxOutcome → Prop
  | .data bytes => bytes ≠ [] ∧ bytes.length ≤ ioChunk
  | .pollTimeout | .pollEintr | .readEintr => True
  | .pollError _ | .pollHangup | .readError _ => False

/-- The bytes an outcome delivers. -/
def RxOutcome.piece? : RxOutcome → Option Bytes
  | .data bytes => some bytes
  | _ => none

/-- A way of delivering a byte string in non-empty pieces of at most 16 KiB each, with
timeouts and interrupted calls anywhere in between. -/
structure Delivery where
  script : List RxOutcome
  delivers : ∀ outcome ∈ script, outcome.Delivers

/-- The pieces delivered. How they are cut is up to the host and the bus. -/
def pieces (script : List RxOutcome) : List Bytes := script.filterMap RxOutcome.piece?

/-- The byte string delivered, in which the cuts can no longer be seen. -/
def Delivery.bytes (d : Delivery) : Bytes := (pieces d.script).flatten

/-- The receive buffer in front of the pieces still to come. What was read and what will be
read are one stream. -/
def Runtime.reader (rt : Runtime σ) : Reader UInt8 := ⟨rt.rxBuf, pieces rt.rx⟩

/-- A read takes the next piece, or waits when there is none. -/
private theorem rxReadLoop_of_delivers (os : Os σ) {script : List RxOutcome}
    (h : ∀ outcome ∈ script, outcome.Delivers) (rt : Runtime σ) :
    (pieces script = [] ∧ rxReadLoop os script rt = none) ∨
    ∃ bytes rt', pieces script = bytes :: pieces rt'.rx ∧
      rxReadLoop os script rt = some (true, rt') ∧ rt'.rxBuf = rt.rxBuf ++ bytes ∧
      (∀ outcome ∈ rt'.rx, outcome.Delivers) ∧ rt'.rx.length < script.length := by
  induction script with
  | nil => exact .inl ⟨rfl, rfl⟩
  | cons outcome script ih =>
    have hrest : ∀ o ∈ script, o.Delivers := fun o ho => h o (by simp [ho])
    -- an outcome without data is waited out
    have hskip : (pieces script = [] ∧ rxReadLoop os script rt = none) ∨
        ∃ bytes rt', pieces script = bytes :: pieces rt'.rx ∧
          rxReadLoop os script rt = some (true, rt') ∧ rt'.rxBuf = rt.rxBuf ++ bytes ∧
          (∀ o ∈ rt'.rx, o.Delivers) ∧ rt'.rx.length < (outcome :: script).length := by
      obtain hnone | ⟨bytes, rt', hpieces, hrun, hbuf, hdel, hlen⟩ := ih hrest
      · exact .inl hnone
      · exact .inr ⟨bytes, rt', hpieces, hrun, hbuf, hdel, hlen.trans (Nat.lt_succ_self _)⟩
    have hout := h outcome (by simp)
    cases outcome with
    | pollTimeout => exact hskip
    | pollEintr => exact hskip
    | readEintr => exact hskip
    | pollError e => exact hout.elim
    | pollHangup => exact hout.elim
    | readError e => exact hout.elim
    | data bytes =>
      have hread : rxReadLoop os (.data bytes :: script) rt = some (true,
          { rxReserve ({ rt with rx := script }.record (.received bytes))
            (rt.rxBuf.length + bytes.length) with rxBuf := rt.rxBuf ++ bytes }) := by
        rw [rxReadLoop]
        dsimp only
        rw [if_neg hout.1]
        rfl
      exact .inr ⟨bytes, _, rfl, hread, rfl, hrest, Nat.lt_succ_self script.length⟩

/-- **The refill loop** of the source is the refill of a buffered reader. -/
theorem rxFill_eq_fill (os : Os σ) {n fuel : ℕ} {rt : Runtime σ}
    (h : ∀ outcome ∈ rt.rx, outcome.Delivers) (hfuel : rt.rx.length < fuel) :
    (Reader.fill n rt.rxBuf (pieces rt.rx) = none ∧ rxFill os n fuel rt = none) ∨
    ∃ rt', Reader.fill n rt.rxBuf (pieces rt.rx) = some rt'.reader ∧
      rxFill os n fuel rt = some (true, rt') ∧ ∀ outcome ∈ rt'.rx, outcome.Delivers := by
  induction fuel generalizing rt with
  | zero => omega
  | succ fuel ih =>
    rw [rxFill]
    split_ifs with hshort
    · rw [rxReadSome]
      obtain ⟨hpieces, hread⟩ | ⟨bytes, rt', hpieces, hread, hbuf, hdel, hlen⟩ :=
        rxReadLoop_of_delivers os h rt
      · left
        rw [hpieces, hread, Reader.fill, if_neg (not_le.mpr hshort)]
        exact ⟨rfl, rfl⟩
      · rw [hpieces, hread, Reader.fill, if_neg (not_le.mpr hshort), ← hbuf]
        exact ih hdel (by omega)
    · right
      refine ⟨rt, ?_, rfl, h⟩
      cases hpieces : pieces rt.rx with
      | nil => rw [Reader.fill, if_pos (not_lt.mp hshort), Runtime.reader, hpieces]
      | cons c cs => rw [Reader.fill, if_pos (not_lt.mp hshort), Runtime.reader, hpieces]

/-- The size of a frame, from the header at the front of a buffer. -/
theorem requestFormat_frameSize {buf : Bytes} (hlen : headerSize ≤ buf.length) :
    requestFormat.frameSize (buf.take requestFormat.headerSize) =
      if (readHeader buf).magic = magic ∧ (readHeader buf).version = version ∧
          (readHeader buf).payloadLen.toNat ≤ maxPayload then
        some (headerSize + (readHeader buf).payloadLen.toNat)
      else none := by
  have hheader : readHeader (buf.take requestFormat.headerSize) = readHeader buf :=
    readHeader_take hlen
  rw [← hheader]
  rfl

/-- The header is still at the front of a longer buffer. So reading more never changes what
a frame is. -/
theorem readHeader_take_append {buf tail : Bytes} (hlen : headerSize ≤ buf.length) (n : ℕ) :
    readHeader ((buf ++ tail).take (headerSize + n)) = readHeader buf := by
  have htake : ((buf ++ tail).take (headerSize + n)).take headerSize = buf.take headerSize := by
    rw [List.take_take, min_eq_left (Nat.le_add_right ..), List.take_append_of_le_length hlen]
  have hlong : headerSize ≤ ((buf ++ tail).take (headerSize + n)).length := by
    rw [List.length_take, List.length_append]
    exact le_min (Nat.le_add_right ..) (hlen.trans (Nat.le_add_right ..))
  rw [← readHeader_take hlong, htake, readHeader_take hlen]

/-- **One receive** of the source is one receive of the format. Where the format waits for
more, so does the source, and where it refuses, the source returns `false`. -/
theorem readFrameBuffered_eq_recv (os : Os σ) {rt : Runtime σ}
    (h : ∀ outcome ∈ rt.rx, outcome.Delivers) :
    (requestFormat.recv rt.reader = none ∧ readFrameBuffered os rt = none) ∨
    (∃ r rt', requestFormat.recv rt.reader = some (none, r) ∧
      readFrameBuffered os rt = some (none, rt')) ∨
    ∃ frame rt', requestFormat.recv rt.reader = some (some frame, rt'.reader) ∧
      readFrameBuffered os rt = some (some frame, rt') ∧
      ∀ outcome ∈ rt'.rx, outcome.Delivers := by
  rw [Format.recv, readFrameBuffered]
  -- first the header is filled, then it is checked, and then the payload is filled
  obtain ⟨hfill, hrun⟩ | ⟨rt₁, hfill, hrun, hdel⟩ :=
    rxFill_eq_fill os (n := headerSize) h (Nat.lt_succ_self _)
  · exact .inl ⟨by rw [show Reader.fill requestFormat.headerSize rt.reader.buf rt.reader.pending =
      none from hfill], by rw [hrun]⟩
  rw [show Reader.fill requestFormat.headerSize rt.reader.buf rt.reader.pending = _ from hfill,
    hrun]
  have hlen₁ : headerSize ≤ rt₁.rxBuf.length := (Reader.fill_eq_some hfill).1
  dsimp only
  rw [show rt₁.reader.buf = rt₁.rxBuf from rfl, requestFormat_frameSize hlen₁]
  by_cases hbad : readLe32 rt₁.rxBuf ≠ magic ∨ readLe16 (rt₁.rxBuf.drop 4) ≠ version
  · have hrefused : ¬((readHeader rt₁.rxBuf).magic = magic ∧
        (readHeader rt₁.rxBuf).version = version ∧
        (readHeader rt₁.rxBuf).payloadLen.toNat ≤ maxPayload) := by
      rintro ⟨hm, hv, -⟩
      exact hbad.elim (absurd hm) (absurd hv)
    rw [if_pos hbad, if_neg hrefused]
    exact .inr (.inl ⟨_, _, rfl, rfl⟩)
  obtain ⟨hmagic, hversion⟩ := not_or.mp hbad
  rw [not_not] at hmagic hversion
  rw [if_neg hbad]
  by_cases hbig : maxPayload < (readLe32 (rt₁.rxBuf.drop 16)).toNat
  · have hrefused : ¬((readHeader rt₁.rxBuf).magic = magic ∧
        (readHeader rt₁.rxBuf).version = version ∧
        (readHeader rt₁.rxBuf).payloadLen.toNat ≤ maxPayload) :=
      fun hall => absurd hall.2.2 (not_le.mpr hbig)
    rw [if_pos hbig, if_neg hrefused]
    exact .inr (.inl ⟨_, _, rfl, rfl⟩)
  have haccepted : (readHeader rt₁.rxBuf).magic = magic ∧
      (readHeader rt₁.rxBuf).version = version ∧
      (readHeader rt₁.rxBuf).payloadLen.toNat ≤ maxPayload := ⟨hmagic, hversion, not_lt.mp hbig⟩
  rw [if_neg hbig, if_pos haccepted]
  have hsize : headerSize + (readLe32 (rt₁.rxBuf.drop 16)).toNat =
      headerSize + (readHeader rt₁.rxBuf).payloadLen.toNat := rfl
  rw [hsize]
  dsimp only
  obtain ⟨hfill₂, hrun₂⟩ | ⟨rt₂, hfill₂, hrun₂, hdel₂⟩ := rxFill_eq_fill os
    (n := headerSize + (readHeader rt₁.rxBuf).payloadLen.toNat) hdel (Nat.lt_succ_self _)
  · exact .inl ⟨by rw [show Reader.fill _ rt₁.rxBuf rt₁.reader.pending = _ from hfill₂], by
      rw [hrun₂]⟩
  rw [show Reader.fill _ rt₁.rxBuf rt₁.reader.pending = _ from hfill₂, hrun₂]
  dsimp only
  have hlen₂ : headerSize + (readHeader rt₁.rxBuf).payloadLen.toNat ≤ rt₂.rxBuf.length :=
    (Reader.fill_eq_some hfill₂).1
  obtain ⟨tail, htail⟩ := (Reader.fill_eq_some hfill₂).2.2
  have hbuf : rt₂.rxBuf = rt₁.rxBuf ++ tail := htail.symm
  -- the header that was checked is the header of the frame that is decoded
  have hraw : readHeader (rt₂.rxBuf.take (headerSize + (readHeader rt₁.rxBuf).payloadLen.toNat)) =
      readHeader rt₁.rxBuf := hbuf ▸ readHeader_take_append hlen₁ _
  have hdecode := decodeFrame_eq_decode
    (rt₂.rxBuf.take (headerSize + (readHeader rt₁.rxBuf).payloadLen.toNat))
    (by rw [hraw]; exact hmagic)
    (by rw [hraw]; exact hversion) (by rw [hraw]; exact haccepted.2.2) (by
      rw [hraw, List.length_take]
      exact min_eq_left hlen₂)
  rw [hdecode, show rt₂.reader.buf = rt₂.rxBuf from rfl]
  cases requestFormat.decode
    (rt₂.rxBuf.take (headerSize + (readHeader rt₁.rxBuf).payloadLen.toNat)) with
  | none => exact .inr (.inl ⟨_, _, rfl, rfl⟩)
  | some frame => exact .inr (.inr ⟨frame, _, rfl, rfl, hdel₂⟩)

/-- `read_frame_buffered` reads the format of requests: it is a reader in the sense of the
library of framing. -/
theorem readFrameBuffered_readBy (os : Os σ) :
    requestFormat.ReadBy (readFrameBuffered os) (fun rt => rt.reader.unread)
      fun rt => ∀ outcome ∈ rt.rx, outcome.Delivers where
  more := by
    intro rt hdel hn
    have hrecv := requestFormat.recv_readBy.more trivial hn
    obtain ⟨-, h⟩ | ⟨r, rt', h, -⟩ | ⟨frame, rt', h, -⟩ := readFrameBuffered_eq_recv os hdel
    · exact h
    · rw [h] at hrecv
      simp at hrecv
    · rw [h] at hrecv
      simp at hrecv
  reject := by
    intro rt hdel hn
    obtain ⟨r, hrecv⟩ := requestFormat.recv_readBy.reject trivial hn
    obtain ⟨h, -⟩ | ⟨r, rt', -, h⟩ | ⟨frame, rt', h, -⟩ := readFrameBuffered_eq_recv os hdel
    · rw [h] at hrecv
      simp at hrecv
    · exact ⟨rt', h⟩
    · rw [h] at hrecv
      simp at hrecv
  item := by
    intro rt frame rest hdel hn
    obtain ⟨r, hrecv, hunread, -⟩ := requestFormat.recv_readBy.item trivial hn
    obtain ⟨h, -⟩ | ⟨r, rt', h, -⟩ | ⟨frame', rt', h, hrun, hdel'⟩ :=
      readFrameBuffered_eq_recv os hdel
    · rw [h] at hrecv
      simp at hrecv
    · rw [h] at hrecv
      simp at hrecv
    · rw [h] at hrecv
      obtain ⟨hframe, hr⟩ := Prod.mk.inj (Option.some.inj hrecv)
      rw [Option.some.inj hframe] at hrun
      rw [← hr] at hunread
      exact ⟨rt', hrun, hunread, hdel'⟩

/-- **Reassembly does not depend on how the stream is split.** From an empty receive buffer,
for every byte string and every delivery of it, calling `read_frame_buffered` until it fails
or waits for more returns exactly the frames of the greedy parse of the byte string, ends
the way the parse does, and after every frame the receive buffer followed by the pieces not
delivered yet is the suffix the parse has left. A call budget above the length of the byte
string is never used up. -/
theorem reassembly_eq_parse (os : Os σ) (rt : Runtime σ) (d : Delivery) (extra : ℕ) :
    let run := drain (readFrameBuffered os) (d.bytes.length + 1 + extra)
      { rt with rxBuf := [], rx := d.script }
    (run.1.map fun p => (p.1, p.2.rxBuf ++ (pieces p.2.rx).flatten)) =
      (requestFormat.parse d.bytes).1 ∧
    run.2 = (requestFormat.parse d.bytes).2 :=
  (readFrameBuffered_readBy os).drain_eq_parse (s := { rt with rxBuf := [], rx := d.script })
    d.delivers (Nat.lt_of_lt_of_le (Nat.lt_succ_self _) (Nat.le_add_right ..))

end UsbResponder
