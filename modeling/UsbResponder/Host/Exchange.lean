import UsbResponder.Host.ResponseStream
import UsbResponder.Responder.DirectCalls

/-!
# A request and its response

What a client finds to receive after it has sent a frame. `receiveTransfers` takes the whole
way: the writes of the host, the reads of the device and the rounds of its loop, on a link
that delays and cuts what it carries.

`exchange` is a single request without the way. A frame is handled in the round that has
read it, whether or not an empty read comes after it and ends the session, and what the
device writes reaches the client before the empty packet that may follow. So nothing of the
way shows in a single response (`exchange_eq`). Between two requests it does: that is the
subject of `UsbResponder.Host.Dialog`.

A link is given by functions on what it carries, and `Link.Faithful` says of them that they
lose and add nothing. The loop is given as many rounds as there can be something to read,
which is a bound and not an assumption: a round that finds nothing waits. Transfers that
fail, and packets that are damaged, are left to the bus.
-/

namespace UsbResponder

open LittleEndian CString Framing BulkTransfer

variable {σ : Type}

namespace Host

/-- How bytes pass between the client and the device: the packet size of the endpoints, what
happens to the reads of the device until they have returned what was sent, and the chunks in
which the client gets what was written. -/
structure Link where
  mps : ℕ
  arrive : List Bytes → List RxOutcome
  deliver : Bytes → List Bytes

/-- Nothing is lost on a link of either speed, and nothing added. What is delayed arrives in
the end. -/
structure Link.Faithful (link : Link) : Prop where
  mps : link.mps = 64 ∨ link.mps = 512
  quiet : ∀ reads, ∀ outcome ∈ link.arrive reads, outcome.Quiet
  pieces : ∀ reads, UsbResponder.pieces (link.arrive reads) = reads
  deliver : ∀ bs, (link.deliver bs).flatten = bs

end Host

/-! ### The way of a request -/

section Model

open Host

variable (os : Os σ) (shell : ExecShell σ) (link : Link)

/-- What the loop does when transfers arrive: as many rounds as there can be something to
read. Each round is one in which the bulk OUT endpoint is readable. -/
def receiveTransfers (writes : List Bytes) (loop : LoopState σ) : LoopState σ :=
  let rx := loop.rt.rx ++
    link.arrive (reads ioChunk link.mps [] (writes.flatMap (packets link.mps)))
  afterRounds os shell (rx.length + 1) { loop with rt := { loop.rt with rx := rx } }

/-- What the host finds to receive after it has sent an encoded request: the device handles
the frame, and the bytes it writes are delivered in chunks. -/
def exchange (deliver : Bytes → List Bytes) (raw : Bytes) (dev : Device σ) : Option Host.Client :=
  (decodeFrame raw).map fun frame =>
    let dev' := (handleFrame os shell frame dev).2
    ⟨[], deliver ((sentBytes dev'.log).drop (sentBytes dev.log).length)⟩

end Model

section Transfers

open Host

variable {os : Os σ} {shell : ExecShell σ} {link : Link} {f : Host.Frame} {writes : List Bytes}
  {loop : LoopState σ}

/-- A loop that waits, and is sent a frame, expects it. -/
private theorem expects_of_sendFrame (hlink : link.Faithful)
    (hsend : sendFrame link.mps f = .ok writes)
    (hmax : f.payload.length ≤ maxPayload) (hwaits : loop.Expects []) :
    LoopState.Expects { loop with rt := { loop.rt with
      rx := loop.rt.rx ++
        link.arrive (reads ioChunk link.mps [] (writes.flatMap (packets link.mps))) } } [f] := by
  have hsends : sendFrames link.mps [f] = .ok (writes ++ []) := by
    rw [sendFrames, hsend]
    rfl
  obtain ⟨hfits, hreads⟩ := reads_of_sendFrames hlink.mps hsends
  rw [List.append_nil] at hreads
  have hnone : UsbResponder.pieces loop.rt.rx = [] := hwaits.pieces
  constructor
  · exact ⟨hwaits.connected.enabled, hwaits.connected.epIn, hwaits.connected.epOut⟩
  · exact hwaits.rxBuf
  · exact List.forall_mem_append.mpr ⟨hwaits.quiet, hlink.quiet _⟩
  · rw [UsbResponder.pieces, List.filterMap_append, ← UsbResponder.pieces, ← UsbResponder.pieces,
      hnone, hlink.pieces, List.nil_append, hreads]
  · exact hfits
  · exact List.forall_mem_singleton.mpr hmax

/-- A frame that arrives is handled, and then the loop waits again, unless the length of the
frame is a multiple of 16 KiB. The state is that of a direct call, as far as the host can
see. -/
theorem receiveTransfers_eq (hlink : link.Faithful) (hsend : sendFrame link.mps f = .ok writes)
    (hmax : f.payload.length ≤ maxPayload) (hlen : ¬ioChunk ∣ headerSize + f.payload.length)
    (hwaits : loop.Expects []) :
    (receiveTransfers os shell link writes loop).Expects [] ∧
      (handleFrame os shell f.toDevice loop.rt.dev).2.Alike
        (receiveTransfers os shell link writes loop).rt.dev := by
  have hraw : ∀ g ∈ [f], ¬ioChunk ∣ g.raw.length := List.forall_mem_singleton.mpr (by
    rwa [Frame.length_raw])
  exact (expects_of_sendFrame hlink hsend hmax hwaits).direct os shell hraw (Nat.le_add_left 1 _)

/-- **What is sent for a frame** is what its handler sends, whatever its length: an empty
read after it only closes the endpoints. -/
theorem sentBytes_receiveTransfers (hlink : link.Faithful)
    (hsend : sendFrame link.mps f = .ok writes) (hmax : f.payload.length ≤ maxPayload)
    (hwaits : loop.Expects []) :
    sentBytes (receiveTransfers os shell link writes loop).rt.dev.log =
      sentBytes (handleFrame os shell f.toDevice loop.rt.dev).2.log := by
  have hbytes : ∀ {dev dev' : Device σ}, dev.Alike dev' →
      sentBytes dev'.log = sentBytes dev.log := by
    intro dev dev' halike
    rw [← (sentFrames_responseEvents dev'.log).2, halike.responses,
      (sentFrames_responseEvents dev.log).2]
  obtain ⟨st', hstep, hconn, hbuf, hquiet, hpieces, halike⟩ :=
    (expects_of_sendFrame hlink hsend hmax hwaits).step_alike os shell
  by_cases hdvd : ioChunk ∣ f.raw.length
  · rw [if_pos hdvd, List.flatMap_nil, List.append_nil] at hpieces
    obtain ⟨st'', hstep', hoff, hsilent⟩ := ioStep_of_empty_read os shell hconn hbuf hquiet hpieces
    rw [receiveTransfers, afterRounds_next hstep, ← hbytes halike]
    rcases (loop.rt.rx ++ link.arrive _).length with _ | n
    · rfl
    · rw [afterRounds_next hstep', afterRounds_of_disabled os shell hoff]
      exact hsilent.sentBytes
  · rw [Frame.length_raw] at hdvd
    exact hbytes (receiveTransfers_eq hlink hsend hmax hdvd hwaits).2

/-- **A single request** gets what it gets without the way. -/
theorem exchange_eq (hlink : link.Faithful) (hencode : f.encode = .ok f.raw)
    (hmax : f.payload.length ≤ maxPayload) (hwaits : loop.Expects []) :
    exchange os shell link.deliver f.raw loop.rt.dev = some ⟨[], link.deliver
      ((sentBytes (receiveTransfers os shell link (sendWrites link.mps f.raw) loop).rt.dev.log).drop
        (sentBytes loop.rt.dev.log).length)⟩ := by
  have hsend : sendFrame link.mps f = .ok (sendWrites link.mps f.raw) := by
    rw [sendFrame, hencode]
    rfl
  have hdecode := Frame.decodeFrame_of_encode hencode (by rw [maxPayload] at hmax; omega)
  rw [exchange, hdecode, Option.map_some, sentBytes_receiveTransfers hlink hsend hmax hwaits]

end Transfers

/-! ### One response -/

/-- When no `write` fails, the bytes of a response are delivered as one frame. -/
theorem recvFrame_of_writeFrame (os : Os σ) {deliver : Bytes → List Bytes}
    (hdeliver : ∀ bs, (deliver bs).flatten = bs) (dev : Device σ) {dev' : Device σ}
    (hwrites : dev'.Benign) (hlog : dev'.log = dev.log) {resp : Frame} (hresp : resp.Sendable) :
    ∃ c, Host.Client.recvFrame ⟨[], deliver
        ((sentBytes (writeFrame os resp dev').2.log).drop (sentBytes dev.log).length)⟩ =
      some (.ok (Host.Frame.ofDevice resp), c) := by
  obtain ⟨dev₁, hrun, hwrote⟩ := writeFrame_of_benign hwrites os resp
  obtain ⟨events, hevents, -, hsent⟩ := hwrote.log
  have hbytes : (sentBytes (writeFrame os resp dev').2.log).drop (sentBytes dev.log).length =
      encodeFrame resp := by
    have hrecord : sentBytes (dev'.record (.sending resp)).log = sentBytes dev.log := by
      rw [Device.record, sentBytes_append, hlog]
      exact List.append_nil _
    rw [hrun, hevents, sentBytes_append, hrecord, hsent, List.drop_left]
  have hnext : Host.responseFormat.next
      (Host.Client.mk [] (deliver (encodeFrame resp))).reader.unread =
        .item (Host.Frame.ofDevice resp) [] := by
    have hunread : (Host.Client.mk [] (deliver (encodeFrame resp))).reader.unread =
        encodeFrame resp ++ [] := by
      rw [List.append_nil]
      exact hdeliver _
    rw [hunread, next_encodeFrame hresp]
  obtain ⟨c, hrecv, -⟩ := Host.Client.recv_readBy.item trivial hnext
  rw [Host.Client.recv, Option.map_eq_some_iff] at hrecv
  obtain ⟨⟨_ | fr, c'⟩, hrecv, hfr⟩ := hrecv
  · simp [Except.toOption] at hfr
  · obtain ⟨hfr, -⟩ := Prod.mk.inj hfr
    obtain rfl : fr = Host.Frame.ofDevice resp := Option.some.inj hfr
    rw [hbytes]
    exact ⟨c', hrecv⟩

end UsbResponder
