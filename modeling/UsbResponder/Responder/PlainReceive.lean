import UsbResponder.Responder.Reassembly

/-!
# Receiving frames without a buffer

`usb_responder_protocol_read_frame` reads the header of a frame and then its payload with
`usb_responder_read_full`, each with as many `read` calls as it takes, and never more bytes
than the frame has. It keeps no buffer between two frames, and it looks at the magic and the
version only when the whole frame is there.

It reads a format of its own, `plainFormat` (`protocolReadFrame_readBy`). That format finds
the same frames as `requestFormat`, which `read_frame_buffered` reads, but may wait for a
frame whose header `requestFormat` has refused (`plainFormat_next`). The result is
`plain_receives_as_buffered`.

The comparison of the two receivers is thereby one of two formats: a stream is read by each
of them in the way its format says, whatever the sizes of the reads, and the library of
framing turns an agreement at one frame into an agreement along the stream. Only the
difference in the end remains, and it is a real one, since a header with a wrong magic may
announce a payload that never comes.

Errors of the descriptor end both receivers, at a point that depends on the reads; they are
not compared.
-/

namespace UsbResponder

open LittleEndian CString Framing

variable {σ : Type}

/-! ### `usb_responder_read_full` -/

/-- What a `read` call does: it is interrupted, fails, or returns bytes, none at the end of
the file. -/
inductive ReadOutcome
  | eintr
  | error (e : Errno)
  | data (bytes : Bytes)
  deriving DecidableEq, Repr

/-- A descriptor that is read, with the outcomes of the next `read` calls, and the last
error. When there are no outcomes left, a read waits. -/
structure PlainFd where
  reads : List ReadOutcome
  lastError : Bytes

/-- The loop of `usb_responder_read_full` with the bytes `out` read so far. What a read
could have returned beyond `size` is left for the next one. The result `none` is a read that
waits. -/
def readFullLoop (os : Os σ) (size : ℕ) (lastError : Bytes) :
    Bytes → List ReadOutcome → Option (Option Bytes × PlainFd)
  | out, [] => if out.length < size then none else some (some out, ⟨[], lastError⟩)
  | out, outcome :: reads =>
    if out.length < size then
      match outcome with
      | .eintr => readFullLoop os size lastError out reads
      | .error e => some (none, ⟨reads, snprintf 256 (utf8 "read: " ++ os.strerror e)⟩)
      | .data bytes =>
        if bytes = [] then some (none, ⟨reads, utf8 "unexpected EOF"⟩)
        else if bytes.length ≤ size - out.length then
          readFullLoop os size lastError (out ++ bytes) reads
        else
          some (some (out ++ bytes.take (size - out.length)),
            ⟨.data (bytes.drop (size - out.length)) :: reads, lastError⟩)
    else some (some out, ⟨outcome :: reads, lastError⟩)

/-- `usb_responder_read_full`: the bytes, or `none` for `false`. -/
def readFull (os : Os σ) (size : ℕ) (fd : PlainFd) : Option (Option Bytes × PlainFd) :=
  readFullLoop os size fd.lastError [] fd.reads

/-- `usb_responder_protocol_read_frame`, for limits with which the size of a frame does not
wrap. -/
def protocolReadFrame (os : Os σ) (maxPayload : ℕ) (fd : PlainFd) :
    Option (Option Frame × PlainFd) :=
  match readFull os headerSize fd with
  | none => none
  | some (none, fd) => some (none, fd)
  | some (some hdr, fd) =>
    let payloadLen := (readLe32 (hdr.drop 16)).toNat
    if maxPayload < payloadLen then some (none, fd)
    else if payloadLen = 0 then some (decodeFrame hdr, fd)
    else
      match readFull os payloadLen fd with
      | none => none
      | some (none, fd) => some (none, fd)
      | some (some payload, fd) => some (decodeFrame (hdr ++ payload), fd)

/-! ### What one call reads -/

/-- A read that returns bytes or only has to be made again. -/
def ReadOutcome.Delivers : ReadOutcome → Prop
  | .eintr => True
  | .error _ => False
  | .data bytes => bytes ≠ []

/-- The bytes of a read. -/
def ReadOutcome.bytes : ReadOutcome → Bytes
  | .data bytes => bytes
  | _ => []

/-- The bytes not read yet, which the descriptor will deliver in this order. -/
def PlainFd.unread (fd : PlainFd) : Bytes := fd.reads.flatMap ReadOutcome.bytes

/-- All reads to come deliver: each has a byte, or is interrupted and made again. -/
def PlainFd.Delivers (fd : PlainFd) : Prop := ∀ outcome ∈ fd.reads, outcome.Delivers

/-- The loop takes what is missing off the front of the bytes to come, or waits when they
are too few. -/
private theorem readFullLoop_of_delivers (os : Os σ) {size : ℕ} (lastError : Bytes) {out : Bytes}
    {reads : List ReadOutcome} (h : ∀ outcome ∈ reads, outcome.Delivers)
    (hout : out.length ≤ size) :
    ((out ++ reads.flatMap ReadOutcome.bytes).length < size ∧
      readFullLoop os size lastError out reads = none) ∨
    ∃ fd, readFullLoop os size lastError out reads =
        some (some ((out ++ reads.flatMap ReadOutcome.bytes).take size), fd) ∧
      size ≤ (out ++ reads.flatMap ReadOutcome.bytes).length ∧
      fd.unread = (out ++ reads.flatMap ReadOutcome.bytes).drop size ∧ fd.Delivers := by
  induction reads generalizing out with
  | nil =>
    rw [readFullLoop, List.flatMap_nil, List.append_nil]
    split_ifs with hshort
    · exact .inl ⟨hshort, rfl⟩
    · have hfull : out.length = size := by omega
      refine .inr ⟨⟨[], lastError⟩, by rw [← hfull, List.take_length], hfull.ge, ?_, h⟩
      rw [← hfull, List.drop_length]
      rfl
  | cons outcome reads ih =>
    have hrest : ∀ o ∈ reads, o.Delivers := fun o ho => h o (List.mem_cons_of_mem _ ho)
    have hfirst : outcome.Delivers := h outcome List.mem_cons_self
    rw [readFullLoop.eq_def, List.flatMap_cons]
    dsimp only
    split_ifs with hshort
    swap
    · have hfull : out.length = size := by omega
      refine .inr ⟨⟨outcome :: reads, lastError⟩, by rw [← hfull, List.take_left], ?_, ?_, h⟩
      · rw [List.length_append]
        omega
      · rw [← hfull, List.drop_left]
        rfl
    cases outcome with
    | eintr => exact ih hrest hout
    | error e => exact hfirst.elim
    | data bytes =>
      rw [show ReadOutcome.bytes (.data bytes) = bytes from rfl]
      dsimp only
      rw [if_neg hfirst]
      split_ifs with hfits
      · rw [← List.append_assoc]
        exact ih hrest (by rw [List.length_append]; omega)
      · -- the read has more than what is missing
        have hlong : size - out.length ≤ bytes.length := by omega
        refine .inr ⟨⟨.data (bytes.drop (size - out.length)) :: reads, lastError⟩, ?_, ?_, ?_, ?_⟩
        · rw [List.take_append, List.take_of_length_le hout, List.take_append_of_le_length hlong]
        · rw [List.length_append, List.length_append]
          omega
        · rw [List.drop_append, List.drop_of_length_le hout, List.nil_append,
            List.drop_append_of_le_length hlong]
          rfl
        · intro o ho
          obtain rfl | hmem := List.mem_cons.mp ho
          · show bytes.drop (size - out.length) ≠ []
            rw [ne_eq, List.drop_eq_nil_iff]
            omega
          · exact hrest o hmem

/-- `usb_responder_read_full` takes its bytes off the front of what is to come, or waits. -/
private theorem readFull_of_delivers (os : Os σ) (size : ℕ) {fd : PlainFd} (h : fd.Delivers) :
    (fd.unread.length < size ∧ readFull os size fd = none) ∨
    ∃ fd', readFull os size fd = some (some (fd.unread.take size), fd') ∧
      size ≤ fd.unread.length ∧ fd'.unread = fd.unread.drop size ∧ fd'.Delivers :=
  @readFullLoop_of_delivers _ os size fd.lastError [] fd.reads h (Nat.zero_le size)

/-! ### The format -/

/-- Frames with a payload of at most `maxPayload` bytes, of which only the size is read
before they are complete. The other header fields are judged with the payload. -/
def plainFormat (maxPayload : ℕ) : Format UInt8 Frame where
  headerSize := headerSize
  frameSize h :=
    if (readHeader h).payloadLen.toNat ≤ maxPayload then
      some (headerSize + (readHeader h).payloadLen.toNat)
    else none
  decode := decodeFrame
  headerSize_pos := requestFormat.headerSize_pos
  headerSize_le := by
    intro h n hn
    split_ifs at hn
    obtain rfl := Option.some.inj hn
    exact Nat.le_add_right ..

/-- The front of a stream that holds a header, by the size of the payload. -/
private theorem plainFormat_next_of_le {maxPayload n : ℕ} {s : Bytes} (hlen : headerSize ≤ s.length)
    (hn : n = (readHeader (s.take headerSize)).payloadLen.toNat) :
    (plainFormat maxPayload).next s =
      if maxPayload < n then .reject
      else if s.length < headerSize + n then .more
      else
        (decodeFrame (s.take (headerSize + n))).elim .reject fun frame =>
          .item frame (s.drop (headerSize + n)) := by
  have hsize : (plainFormat maxPayload).frameSize (s.take headerSize) =
      if n ≤ maxPayload then some (headerSize + n) else none := by
    rw [hn]
    rfl
  rw [Format.next, show (plainFormat maxPayload).headerSize = headerSize from rfl,
    if_neg (not_lt.mpr hlen), hsize]
  by_cases hbig : maxPayload < n
  · rw [if_pos hbig, if_neg (not_le.mpr hbig)]
  · rw [if_neg hbig, if_pos (not_lt.mp hbig), show (plainFormat maxPayload).decode = decodeFrame
      from rfl]
    dsimp only
    congr 1
    cases decodeFrame (s.take (headerSize + n)) with
    | none => rfl
    | some frame => rfl

/-- One call, by the size of the payload that the header announces. -/
private theorem protocolReadFrame_of_delivers (os : Os σ) (maxPayload : ℕ) {fd : PlainFd}
    (h : fd.Delivers) :
    ((plainFormat maxPayload).next fd.unread = .more ∧ protocolReadFrame os maxPayload fd = none) ∨
    ((plainFormat maxPayload).next fd.unread = .reject ∧
      ∃ fd', protocolReadFrame os maxPayload fd = some (none, fd')) ∨
    ∃ frame fd', (plainFormat maxPayload).next fd.unread = .item frame fd'.unread ∧
      protocolReadFrame os maxPayload fd = some (some frame, fd') ∧ fd'.Delivers := by
  rw [protocolReadFrame]
  obtain ⟨hshort, hread⟩ | ⟨fd₁, hread, hlen, hunread, hdel⟩ := readFull_of_delivers os headerSize h
  · rw [hread, Format.next,
      if_pos (show fd.unread.length < (plainFormat maxPayload).headerSize from hshort)]
    exact .inl ⟨rfl, rfl⟩
  obtain ⟨n, hn⟩ : ∃ n, n = (readLe32 ((fd.unread.take headerSize).drop 16)).toNat := ⟨_, rfl⟩
  rw [hread, plainFormat_next_of_le hlen hn]
  dsimp only
  rw [← hn]
  by_cases hbig : maxPayload < n
  · rw [if_pos hbig, if_pos hbig]
    exact .inr (.inl ⟨rfl, fd₁, rfl⟩)
  rw [if_neg hbig, if_neg hbig]
  by_cases hempty : n = 0
  · -- the header is the whole frame
    rw [if_pos hempty, hempty, Nat.add_zero, if_neg (not_lt.mpr hlen)]
    cases hdecode : decodeFrame (fd.unread.take headerSize) with
    | none => exact .inr (.inl ⟨rfl, fd₁, rfl⟩)
    | some frame => exact .inr (.inr ⟨frame, fd₁, by rw [hunread]; rfl, rfl, hdel⟩)
  rw [if_neg hempty]
  obtain ⟨hshort, hread₂⟩ | ⟨fd₂, hread₂, hlen₂, hunread₂, hdel₂⟩ := readFull_of_delivers os n hdel
  · rw [hunread, List.length_drop] at hshort
    rw [hread₂, if_pos (by omega)]
    exact .inl ⟨rfl, rfl⟩
  rw [hunread, List.length_drop] at hlen₂
  rw [hunread, List.drop_drop] at hunread₂
  rw [hread₂, if_neg (by omega), hunread]
  dsimp only
  rw [← List.take_add]
  cases hdecode : decodeFrame (fd.unread.take (headerSize + n)) with
  | none => exact .inr (.inl ⟨rfl, fd₂, rfl⟩)
  | some frame => exact .inr (.inr ⟨frame, fd₂, by rw [hunread₂]; rfl, rfl, hdel₂⟩)

/-- `usb_responder_protocol_read_frame` reads this format. -/
theorem protocolReadFrame_readBy (os : Os σ) (maxPayload : ℕ) :
    (plainFormat maxPayload).ReadBy (protocolReadFrame os maxPayload) PlainFd.unread
      PlainFd.Delivers where
  more := by
    intro fd h hn
    obtain ⟨-, hread⟩ | ⟨hreject, -⟩ | ⟨frame, fd', hitem, -⟩ :=
      protocolReadFrame_of_delivers os maxPayload h
    · exact hread
    · simp [hn] at hreject
    · simp [hn] at hitem
  reject := by
    intro fd h hn
    obtain ⟨hmore, -⟩ | ⟨-, hread⟩ | ⟨frame, fd', hitem, -⟩ :=
      protocolReadFrame_of_delivers os maxPayload h
    · simp [hn] at hmore
    · exact hread
    · simp [hn] at hitem
  item := by
    intro fd frame rest h hn
    obtain ⟨hmore, -⟩ | ⟨hreject, -⟩ | ⟨frame', fd', hitem, hread, hdel⟩ :=
      protocolReadFrame_of_delivers os maxPayload h
    · simp [hn] at hmore
    · simp [hn] at hreject
    · obtain ⟨rfl, rfl⟩ := Parsed.item.inj (hn.symm.trans hitem)
      exact ⟨fd', hread, rfl, hdel⟩

/-! ### Both receivers -/

/-- The plain format goes on as the format of requests does, or waits for a frame whose
header is refused there. It never finds a frame where the other does not. -/
theorem plainFormat_next (s : Bytes) :
    (plainFormat maxPayload).next s = requestFormat.next s ∨
      requestFormat.next s = .reject ∧ (plainFormat maxPayload).next s = .more := by
  by_cases hshort : s.length < headerSize
  · left
    rw [Format.next, Format.next, if_pos (show s.length < (plainFormat maxPayload).headerSize
      from hshort), if_pos (show s.length < requestFormat.headerSize from hshort)]
  have hlen : headerSize ≤ s.length := not_lt.mp hshort
  obtain ⟨n, hn⟩ : ∃ n, n = (readHeader (s.take headerSize)).payloadLen.toNat := ⟨_, rfl⟩
  have hsize := requestFormat_frameSize hlen
  rw [plainFormat_next_of_le hlen hn, Format.next,
    if_neg (show ¬s.length < requestFormat.headerSize from hshort)]
  rw [readHeader_take hlen] at hn
  rw [← hn] at hsize
  by_cases hbig : maxPayload < n
  · left
    rw [if_neg (fun hall => absurd hall.2.2 (not_le.mpr hbig))] at hsize
    rw [hsize, if_pos hbig]
  have hraw : readHeader (s.take (headerSize + n)) = readHeader s := by
    simpa using @readHeader_take_append s [] hlen n
  rw [if_neg hbig]
  by_cases hok : (readHeader s).magic = magic ∧ (readHeader s).version = version
  · rw [if_pos ⟨hok.1, hok.2, not_lt.mp hbig⟩] at hsize
    rw [hsize]
    left
    dsimp only
    by_cases hpart : s.length < headerSize + n
    · rw [if_pos hpart, if_pos hpart]
    rw [if_neg hpart, if_neg hpart, decodeFrame_eq_decode _ (by rw [hraw]; exact hok.1)
      (by rw [hraw]; exact hok.2) (by rw [hraw, ← hn]; exact not_lt.mp hbig) (by
        rw [hraw, ← hn, List.length_take]
        omega)]
    cases requestFormat.decode (s.take (headerSize + n)) with
    | none => rfl
    | some frame => rfl
  · -- the magic and the version are looked at when the frame is complete
    rw [if_neg (fun hall => hok ⟨hall.1, hall.2.1⟩)] at hsize
    rw [hsize]
    by_cases hpart : s.length < headerSize + n
    · rw [if_pos hpart]
      exact .inr ⟨rfl, rfl⟩
    · left
      have hrefused : decodeFrame (s.take (headerSize + n)) = none := by
        have hbad : (readHeader s).magic ≠ magic ∨ (readHeader s).version ≠ version := by
          simpa only [not_and_or] using hok
        simp only [decodeFrame, hraw, if_pos hbad, ite_self]
      rw [if_neg hpart, hrefused]
      rfl

/-- **Both receivers return the same frames.** For every byte string, well-formed or
hostile, delivered to `usb_responder_protocol_read_frame` by reads of any sizes with
interrupted calls in between, and to `read_frame_buffered` by any delivery of its own:
called until it fails or waits, each returns the same frames, with the same bytes not
consumed after each. They end alike, but that the plain receiver may still wait for the rest
of a frame whose header the buffered one has refused. -/
theorem plain_receives_as_buffered (os : Os σ) (rt : Runtime σ) (d : Delivery) {fd : PlainFd}
    (hdelivers : fd.Delivers) (hbytes : fd.unread = d.bytes) {calls : ℕ}
    (hcalls : d.bytes.length < calls) :
    let plain := drain (protocolReadFrame os maxPayload) calls fd
    let buffered := drain (readFrameBuffered os) calls { rt with rxBuf := [], rx := d.script }
    (plain.1.map fun p => (p.1, p.2.unread)) =
        (buffered.1.map fun p => (p.1, p.2.rxBuf ++ (pieces p.2.rx).flatten)) ∧
      (plain.2 = buffered.2 ∨ buffered.2 = .failed ∧ plain.2 = .blocked) := by
  intro plain buffered
  obtain ⟨hplain, hplainStop⟩ := (protocolReadFrame_readBy os maxPayload).drain_eq_parse hdelivers
    (show fd.unread.length < calls by rwa [hbytes])
  obtain ⟨hbuffered, hbufferedStop⟩ := (readFrameBuffered_readBy os).drain_eq_parse
    (s := { rt with rxBuf := [], rx := d.script }) d.delivers hcalls
  obtain ⟨hframes, hstop⟩ := Format.parse_of_refuses_later plainFormat_next d.bytes
  rw [hbytes] at hplain hplainStop
  constructor
  · exact hplain.trans (hframes.trans hbuffered.symm)
  · rw [show plain.2 = _ from hplainStop, show buffered.2 = _ from hbufferedStop]
    exact hstop

/-- A HELLO frame that arrives in two parts. -/
def helloParts : PlainFd :=
  ⟨[.data ((wire 1 0 7 []).take 10), .eintr, .data ((wire 1 0 7 []).drop 10)], []⟩

/-- The same frame at once. -/
def helloAtOnce : Delivery where
  script := [.pollTimeout, .data (wire 1 0 7 [])]
  delivers := by
    simp [RxOutcome.Delivers, ioChunk, ← List.length_eq_zero_iff, headerSize]

/-- `plain_receives_as_buffered` for one frame. -/
theorem plain_receives_as_buffered_hello :
    let rt : Runtime Unit :=
      ⟨⟨⟨0, 0, 0⟩, ⟨fun _ => {}, [], ()⟩, [], []⟩, none, none, [], 0, false, []⟩
    let plain := drain (protocolReadFrame (Os.failing Unit) maxPayload) 25 helloParts
    let buffered := drain (readFrameBuffered (Os.failing Unit)) 25
      { rt with rxBuf := [], rx := helloAtOnce.script }
    (plain.1.map fun p => (p.1, p.2.unread)) =
        (buffered.1.map fun p => (p.1, p.2.rxBuf ++ (pieces p.2.rx).flatten)) ∧
      (plain.2 = buffered.2 ∨ buffered.2 = .failed ∧ plain.2 = .blocked) :=
  plain_receives_as_buffered _ _ helloAtOnce
    (by simp [helloParts, PlainFd.Delivers, ReadOutcome.Delivers, ← List.length_eq_zero_iff,
      headerSize])
    (by rw [helloParts, PlainFd.unread, List.flatMap_cons]; exact List.take_append_drop 10 _)
    (by decide)

end UsbResponder
