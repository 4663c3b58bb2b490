import UsbResponder.Base.Correlation
import UsbResponder.Host.Operations
import UsbResponder.Host.ResponseStream
import UsbResponder.Responder.Responses

/-!
# Requests of a client and the responses in flight

One instance of the client calls one operation after another, and any of them may be left by
an exception while responses to it are on their way. A `Session` is the state of both sides:
the fields of the client, the frames of the operation in progress, the frames sent and
answered so far, and the bytes of responses the client has not read. A `Step` is one thing
that happens: a call, a frame sent, a frame answered by the device, bytes read by
`_read_some`, a frame received, an exception.

The invariant is `Session.Safe`. While the request ids have not wrapped around, every
operation has an id of its own, and within an upload, whose frames share one, the frame sent
last is the only one of them whose response the client has not received.
`accepted_response_answers_last_frame` is the result, for responses that are accepted and
for errors that are raised (`Call.Takes`). `Step.answer_of_handleFrame` connects a step of
the device with `handle_frame`.

Each kind of step has a lemma that keeps the invariant, and the bookkeeping of what was
sent, answered and received is that of the library of exchanges, which knows nothing of
frames. Steps may come in any order that the two sides allow; in particular the client may
give up an operation at any point. A device that answers out of order, or twice, is excluded
by `one_answer_per_request`.
-/

namespace UsbResponder.Host

open LittleEndian Framing Correlation

/-! ### Steps -/

/-- An operation in progress: its request id, the frames it still has to send, and the frame
whose response it waits for. -/
structure Call where
  op : ClientOp
  rid : ℕ
  unsent : List Frame
  awaiting : Option Frame

/-- A client and a device: `_req`, `_rxbuf`, the operation in progress, the number of
operations called, the bytes the device has written and the client has not read, and the
frames sent, answered and received. -/
structure Session where
  req : ℕ
  rxbuf : Bytes
  call : Option Call
  issued : ℕ
  epIn : Bytes
  link : Exchange Frame Frame

/-- A new client, and a device that has nothing to answer. No request id has been used. -/
def Session.init : Session := ⟨0, [], none, 0, [], .empty⟩

/-- An operation is called. It takes the next request id, and keeps it for all of its
frames. -/
def Session.start (s : Session) (op : ClientOp) : Session :=
  match op.start s.req with
  | (req, .error _) => { s with req := req, issued := s.issued + 1 }
  | (req, .ok frames) =>
    { s with req := req, issued := s.issued + 1, call := some ⟨op, req, frames, none⟩ }

/-- What an operation does with a frame it has received: an exception ends it, and so does
the response to its last frame. -/
def Call.received (call : Call) (fr : Frame) : Option Call :=
  match call.op.check call.rid fr with
  | .error _ => none
  | .ok _ => if call.unsent = [] then none else some { call with awaiting := none }

/-- The operation takes a frame for the response to its request: it accepts it, or it raises
the error that the frame tells. -/
def Call.Takes (call : Call) (fr : Frame) : Prop :=
  (∃ payload, call.op.check call.rid fr = .ok payload) ∨ fr.type = 3 ∧ fr.requestId = call.rid

theorem Call.Takes.requestId {call : Call} {fr : Frame} (h : call.Takes fr) :
    fr.requestId = call.rid := by
  obtain ⟨payload, hcheck⟩ | ⟨-, hid⟩ := h
  · exact ClientOp.requestId_of_check hcheck
  · exact hid

/-- One step of client or device. The exception that ends an operation is a step of its own,
and may come at any time. -/
inductive Step : Session → Session → Prop
  /-- The client calls an operation. -/
  | start {s : Session} (op : ClientOp) (hcall : s.call = none) : Step s (s.start op)
  /-- The operation sends its next frame. -/
  | send {s : Session} {call : Call} {f : Frame} {fs : List Frame} {raw : Bytes}
    (hcall : s.call = some call) (hawaiting : call.awaiting = none)
    (hunsent : call.unsent = f :: fs) (hencode : f.encode = .ok raw) :
    Step s { s with
      call := some { call with unsent := fs, awaiting := some f }
      link := s.link.send f }
  /-- The device answers the next frame. -/
  | answer {s : Session} {f fr : Frame} {raw : Bytes} (hpending : s.link.pending = some f)
    (hid : fr.requestId = f.requestId) (hencode : fr.encode = .ok raw) :
    Step s { s with epIn := s.epIn ++ raw, link := s.link.respond fr }
  /-- `_recv_frame` has not got a whole frame, and reads. -/
  | read {s : Session} {call : Call} {f : Frame} {chunk rest : Bytes} (hcall : s.call = some call)
    (hawaiting : call.awaiting = some f) (hshort : Client.recvFrame ⟨s.rxbuf, []⟩ = none)
    (hepIn : s.epIn = chunk ++ rest) :
    Step s { s with rxbuf := s.rxbuf ++ chunk, epIn := rest }
  /-- `_recv_frame` returns a frame. -/
  | receive {s : Session} {call : Call} {f fr : Frame} {c : Client} (hcall : s.call = some call)
    (hawaiting : call.awaiting = some f)
    (hrecv : Client.recvFrame ⟨s.rxbuf, []⟩ = some (.ok fr, c)) :
    Step s { s with rxbuf := c.rxbuf, call := call.received fr, link := s.link.take }
  /-- `_recv_frame` raises an exception. -/
  | receiveError {s : Session} {call : Call} {f : Frame} {e : PyError} {c : Client}
    (hcall : s.call = some call) (hawaiting : call.awaiting = some f)
    (hrecv : Client.recvFrame ⟨s.rxbuf, []⟩ = some (.error e, c)) :
    Step s { s with rxbuf := c.rxbuf, call := none }
  /-- Any other exception, such as a timeout of a read, ends the operation. -/
  | abort {s : Session} {call : Call} (hcall : s.call = some call) : Step s { s with call := none }

/-- The states of a run. Where an exception has ended operations, old responses may still be
on their way. -/
def Session.Reachable (s : Session) : Prop := Relation.ReflTransGen Step .init s

/-! ### The invariant -/

/-- A response has the id of its request. It is all that a client can tell a response by. -/
def SameId (f fr : Frame) : Prop := fr.requestId = f.requestId

/-- No response to a frame with the id of an operation is outstanding but the one it waits
for. So a response with this id can only be that one. -/
structure Call.Safe (link : Exchange Frame Frame) (req : ℕ) (call : Call) : Prop where
  rid : call.rid = req
  unsent : ∀ f ∈ call.unsent, f.requestId = req
  fresh : call.awaiting = none → link.Fresh Frame.requestId req
  awaits : ∀ f, call.awaiting = some f → f.requestId = req ∧ link.Awaits Frame.requestId f

/-- The invariant of a run: ids are new when they are taken, and the operation in progress
is safe. -/
structure Session.Safe (s : Session) : Prop where
  req_le : s.req ≤ s.issued
  ids_le : ∀ f ∈ s.link.requests, f.requestId ≤ s.req
  inOrder : s.link.InOrder SameId
  encodes : ∀ fr ∈ s.link.responses, fr.encode = .ok fr.raw
  taken_le : s.link.taken ≤ s.link.responses.length
  stream : s.rxbuf ++ s.epIn = (s.link.responses.drop s.link.taken).flatMap Frame.raw
  call : ∀ call, s.call = some call → call.Safe s.link s.req

private theorem nextId_of_lt {req : ℕ} (h : req + 1 < 2 ^ 32) : nextId req = req + 1 := by
  rw [nextId, Nat.mod_eq_of_lt h]
  exact if_neg (Nat.succ_ne_zero req)

namespace Session.Safe

variable {s : Session} {call : Call} {f fr : Frame} {raw : Bytes}

theorem init : Session.init.Safe where
  req_le := le_rfl
  ids_le := by simp [Session.init, Exchange.empty]
  inOrder := Exchange.inOrder_empty
  encodes := by simp [Session.init, Exchange.empty]
  taken_le := le_rfl
  stream := rfl
  call := by simp [Session.init]

/-- A session without an operation in progress. Ending an operation breaks nothing. -/
theorem idle (h : s.Safe) : { s with call := none }.Safe where
  req_le := h.req_le
  ids_le := h.ids_le
  inOrder := h.inOrder
  encodes := h.encodes
  taken_le := h.taken_le
  stream := h.stream
  call := by simp

/-- A new operation takes an id no frame has, as long as the ids do not wrap around. -/
theorem start (h : s.Safe) (hissued : s.issued + 1 < 2 ^ 32) (op : ClientOp)
    (hcall : s.call = none) : (s.start op).Safe := by
  have hlt : s.req + 1 < 2 ^ 32 := lt_of_le_of_lt (Nat.succ_le_succ h.req_le) hissued
  have hreq : (op.start s.req).1 = s.req ∨ (op.start s.req).1 = s.req + 1 := by
    have hfst := op.start_fst s.req
    rwa [nextId_of_lt hlt] at hfst
  have hids : ∀ f ∈ s.link.requests, f.requestId ≤ (op.start s.req).1 := by
    intro f hf
    have hle := h.ids_le f hf
    omega
  have hle : (op.start s.req).1 ≤ s.issued + 1 := by
    have hle := h.req_le
    omega
  rw [Session.start]
  rcases hstart : op.start s.req with ⟨req, e | frames⟩
  · rw [hstart] at hids hle
    exact ⟨hle, hids, h.inOrder, h.encodes, h.taken_le, h.stream, fun _ hnone => by simp_all⟩
  · rw [hstart] at hids hle
    dsimp only
    refine ⟨hle, hids, h.inOrder, h.encodes, h.taken_le, h.stream, ?_⟩
    obtain ⟨rfl, hframes⟩ := ClientOp.requestId_of_start hstart
    rintro call hsome
    obtain rfl := Option.some.inj hsome
    refine ⟨rfl, hframes, fun _ => ?_, fun f hf => by simp at hf⟩
    refine Exchange.Fresh.of_unused fun f hf => ?_
    have hle : f.requestId ≤ s.req := h.ids_le f hf
    have hnext := nextId_of_lt hlt
    dsimp only
    omega

/-- A frame is sent when no other one with its id is outstanding. -/
theorem send {fs : List Frame} (h : s.Safe) (hcall : s.call = some call)
    (hawaiting : call.awaiting = none) (hunsent : call.unsent = f :: fs) :
    { s with
      call := some { call with unsent := fs, awaiting := some f }
      link := s.link.send f }.Safe := by
  obtain ⟨hrid, hids, hfresh, -⟩ := h.call call hcall
  have hf : f.requestId = s.req := hids f (by simp [hunsent])
  refine ⟨h.req_le, ?_, h.inOrder.send f, h.encodes, h.taken_le, h.stream, ?_⟩
  · intro g hg
    obtain hg | hg := List.mem_append.mp hg
    · exact h.ids_le g hg
    · obtain rfl := List.mem_singleton.mp hg
      exact hf.le
  · rintro call' hsome
    obtain rfl := Option.some.inj hsome
    refine ⟨hrid, fun g hg => hids g (by simp [hunsent, hg]), fun hnone => by simp at hnone, ?_⟩
    intro g hg
    obtain rfl := Option.some.inj hg
    refine ⟨hf, Exchange.Fresh.send ?_⟩
    rw [hf]
    exact hfresh hawaiting

/-- The device adds its response to the stream. -/
theorem answer (h : s.Safe) (hpending : s.link.pending = some f) (hid : SameId f fr)
    (hencode : fr.encode = .ok raw) :
    { s with epIn := s.epIn ++ raw, link := s.link.respond fr }.Safe := by
  obtain rfl := Frame.eq_raw_of_encode hencode
  refine ⟨h.req_le, h.ids_le, h.inOrder.respond hpending hid, ?_, ?_, ?_, ?_⟩
  · intro g hg
    obtain hg | hg := List.mem_append.mp hg
    · exact h.encodes g hg
    · obtain rfl := List.mem_singleton.mp hg
      exact hencode
  · exact h.taken_le.trans (by simp [Exchange.respond])
  · have hdrop : (s.link.responses ++ [fr]).drop s.link.taken =
        s.link.responses.drop s.link.taken ++ [fr] :=
      List.drop_append_of_le_length h.taken_le
    rw [Exchange.respond, hdrop, List.flatMap_append, ← h.stream, List.flatMap_singleton,
      List.append_assoc]
  · intro call hcall
    obtain ⟨hrid, hids, hfresh, hawaits⟩ := h.call call hcall
    exact ⟨hrid, hids, hfresh, hawaits⟩

/-- A read moves bytes into the buffer. Together with what has not been read they stay the
stream. -/
theorem read {chunk rest : Bytes} (h : s.Safe) (hepIn : s.epIn = chunk ++ rest) :
    { s with rxbuf := s.rxbuf ++ chunk, epIn := rest }.Safe := by
  refine ⟨h.req_le, h.ids_le, h.inOrder, h.encodes, h.taken_le, ?_, h.call⟩
  rw [List.append_assoc, ← hepIn]
  exact h.stream

/-- A buffer from which a receive takes something begins with the next response. -/
theorem arriving (h : s.Safe) {r : Except PyError Frame × Client}
    (hrecv : Client.recvFrame ⟨s.rxbuf, []⟩ = some r) :
    ∃ fr, s.link.arriving = some fr ∧ fr.encode = .ok fr.raw ∧
      s.rxbuf ++ s.epIn =
        fr.raw ++ (s.link.responses.drop (s.link.taken + 1)).flatMap Frame.raw := by
  have hstream := h.stream
  rcases hdrop : s.link.responses.drop s.link.taken with _ | ⟨fr, rest⟩
  · -- nothing is on its way, so the buffer is empty
    rw [hdrop] at hstream
    obtain ⟨hempty, -⟩ := List.append_eq_nil_iff.mp hstream
    rw [hempty, Client.recvFrame_nil] at hrecv
    simp at hrecv
  · have hfr : s.link.arriving = some fr := by
      rw [Exchange.arriving, ← Nat.add_zero s.link.taken, ← List.getElem?_drop, hdrop]
      rfl
    refine ⟨fr, hfr, h.encodes fr (List.mem_of_getElem? hfr), ?_⟩
    rw [hstream, hdrop, List.flatMap_cons, ← List.drop_drop, hdrop]
    rfl

/-- A frame that is received is the next response, and is taken from the stream. -/
private theorem arriving_of_ok (h : s.Safe) {c : Client}
    (hrecv : Client.recvFrame ⟨s.rxbuf, []⟩ = some (.ok fr, c)) :
    s.link.arriving = some fr ∧ c.rxbuf ++ s.epIn =
      (s.link.responses.drop (s.link.taken + 1)).flatMap Frame.raw := by
  obtain ⟨fr', harriving, hencode, hstream⟩ := h.arriving hrecv
  obtain ⟨hok, hbuf⟩ | ⟨⟨e, he⟩, -⟩ :=
    Client.recvFrame_of_stream hencode ⟨s.epIn, hstream⟩ hrecv
  · obtain rfl := Except.ok.inj hok
    rw [hbuf, List.append_assoc, List.append_cancel_left_eq] at hstream
    exact ⟨harriving, hstream⟩
  · simp at he

/-- An exception of a receive leaves the stream as it is. -/
private theorem rxbuf_of_error (h : s.Safe) {e : PyError} {c : Client}
    (hrecv : Client.recvFrame ⟨s.rxbuf, []⟩ = some (.error e, c)) : c.rxbuf = s.rxbuf := by
  obtain ⟨fr', -, hencode, hstream⟩ := h.arriving hrecv
  obtain ⟨hok, -⟩ | ⟨-, hbuf⟩ := Client.recvFrame_of_stream hencode ⟨s.epIn, hstream⟩ hrecv
  · simp at hok
  · exact hbuf

/-- The response with the id of the operation is the one to the frame it sent last. -/
theorem credited (h : s.Safe) (hcall : s.call = some call) (hawaiting : call.awaiting = some f)
    {c : Client} (hrecv : Client.recvFrame ⟨s.rxbuf, []⟩ = some (.ok fr, c))
    (hid : fr.requestId = call.rid) :
    ∃ earlier, s.link.requests = earlier ++ [f] ∧ s.link.taken = earlier.length := by
  obtain ⟨hrid, -, -, hawaits⟩ := h.call call hcall
  obtain ⟨hf, hlast⟩ := hawaits f hawaiting
  obtain ⟨harriving, -⟩ := h.arriving_of_ok hrecv
  obtain ⟨earlier, hrequests, htaken, -⟩ :=
    h.inOrder.credited (fun _ _ hsame => hsame) hlast harriving (by rw [hid, hrid, hf])
  exact ⟨earlier, hrequests, htaken⟩

/-- After an accepted response nothing with the id of the operation is outstanding. -/
theorem receive (h : s.Safe) (hcall : s.call = some call) (hawaiting : call.awaiting = some f)
    {c : Client} (hrecv : Client.recvFrame ⟨s.rxbuf, []⟩ = some (.ok fr, c)) :
    { s with rxbuf := c.rxbuf, call := call.received fr, link := s.link.take }.Safe := by
  obtain ⟨harriving, hstream⟩ := h.arriving_of_ok hrecv
  obtain ⟨hlt, -⟩ := List.getElem?_eq_some_iff.mp harriving
  refine ⟨h.req_le, h.ids_le, h.inOrder, h.encodes, hlt, hstream, ?_⟩
  intro call' hreceived
  rw [Call.received] at hreceived
  rcases hcheck : call.op.check call.rid fr with e | payload
  · simp [hcheck] at hreceived
  rw [hcheck] at hreceived
  dsimp only at hreceived
  split_ifs at hreceived with hend
  obtain rfl := Option.some.inj hreceived
  obtain ⟨hrid, hids, -, -⟩ := h.call call hcall
  obtain ⟨earlier, hrequests, htaken⟩ :=
    h.credited hcall hawaiting hrecv (ClientOp.requestId_of_check hcheck)
  exact ⟨hrid, hids, fun _ => Exchange.fresh_take_of_last hrequests htaken s.req,
    fun g hg => by simp at hg⟩

end Session.Safe

/-! ### Runs -/

/-- No operation is uncalled. -/
private theorem Step.issued_le {s s' : Session} (h : Step s s') : s.issued ≤ s'.issued := by
  rcases h with op | _ | _ | _ | _ | _ | _
  case start =>
    rw [Session.start]
    rcases op.start s.req with ⟨req, e | frames⟩ <;> exact Nat.le_succ _
  all_goals exact le_rfl

/-- Every step keeps the invariant as long as the ids do not wrap around, which is what the
number of operations called is bounded for. -/
theorem Session.Safe.step {s s' : Session} (h : s.Safe) (hstep : Step s s')
    (hissued : s'.issued < 2 ^ 32) : s'.Safe := by
  cases hstep with
  | start op hcall =>
    have hsucc : (s.start op).issued = s.issued + 1 := by
      rw [Session.start]
      rcases op.start s.req with ⟨req, e | frames⟩ <;> rfl
    exact h.start (by omega) op hcall
  | send hcall hawaiting hunsent hencode => exact h.send hcall hawaiting hunsent
  | answer hpending hid hencode => exact h.answer hpending hid hencode
  | read hcall hawaiting hshort hepIn => exact h.read hepIn
  | receive hcall hawaiting hrecv => exact h.receive hcall hawaiting hrecv
  | receiveError hcall hawaiting hrecv =>
    rw [h.rxbuf_of_error hrecv]
    exact h.idle
  | abort hcall => exact h.idle

/-- The invariant of every run, by induction on its steps from the new client. -/
theorem Session.Reachable.safe {s : Session} (h : s.Reachable) (hissued : s.issued < 2 ^ 32) :
    s.Safe := by
  induction h with
  | refl => exact .init
  | tail _ hstep ih => exact (ih (hstep.issued_le.trans_lt hissued)).step hstep hissued

/-- What the host reads of a response is a frame with the id of the request. -/
private theorem encode_ofDevice_of_answers {req resp : UsbResponder.Frame} (h : Answers req resp)
    (hsize : resp.payload.length < 2 ^ 32 - 24) :
    (Frame.ofDevice resp).requestId = req.header.requestId.toNat ∧
      (Frame.ofDevice resp).encode = .ok (encodeFrame resp) := by
  obtain ⟨type, payload, -, rfl⟩ := h
  have hmax : payload.length ≤ 2 ^ 32 - 25 := by
    have hlt : payload.length < 2 ^ 32 - 24 := hsize
    omega
  refine ⟨rfl, Frame.encode_ofDevice ?_ hmax⟩
  rw [responseFrame, UInt32.toNat_ofNat', Nat.mod_eq_of_lt (by omega)]

/-- **The device's step.** The device decodes the frame it answers next, and when no `write`
fails `handle_frame` sends the bytes of exactly one response, which is a step of the
session. -/
theorem Step.answer_of_handleFrame {σ : Type} {s : Session} {f : Frame} {raw : Bytes}
    (hpending : s.link.pending = some f) (hencode : f.encode = .ok raw)
    (hsize : f.payload.length ≤ 2 ^ 32 - 25) (os : Os σ) (shell : ExecShell σ) {dev : Device σ}
    (hbenign : dev.Benign) :
    UsbResponder.decodeFrame raw = some f.toDevice ∧
    ∃ resp, sentBytes (handleFrame os shell f.toDevice dev).2.log =
        sentBytes dev.log ++ encodeFrame resp ∧
      (resp.payload.length < 2 ^ 32 - 24 → Step s { s with
        epIn := s.epIn ++ encodeFrame resp
        link := s.link.respond (Frame.ofDevice resp) }) := by
  refine ⟨Frame.decodeFrame_of_encode hencode hsize, ?_⟩
  obtain ⟨type, payload, dev₁, htype, hsame, hr⟩ :=
    handleFrame_responds os f.toDevice dev shell
  have hbenign₁ : dev₁.Benign := by
    rw [Device.Benign, hsame.tx]
    exact hbenign
  obtain ⟨dev₂, hrun, hwrote⟩ := writeFrame_of_benign hbenign₁ os
    (responseFrame type f.toDevice.header.requestId payload)
  obtain ⟨writes, hlog, -, hsent⟩ := hwrote.log
  refine ⟨responseFrame type f.toDevice.header.requestId payload, ?_, fun hresp => ?_⟩
  · have hrecord : ∀ resp, sentBytes (dev₁.record (.sending resp)).log = sentBytes dev.log := by
      intro resp
      rw [Device.record, sentBytes_append, hsame.log]
      exact List.append_nil _
    rw [hr, hrun]
    dsimp only
    rw [hlog, sentBytes_append, hsent, hrecord]
  · obtain ⟨hid, hencode'⟩ :=
      encode_ofDevice_of_answers (⟨type, payload, htype, rfl⟩ : Answers f.toDevice _) hresp
    obtain ⟨-, -, hlt, -⟩ := Frame.encode_eq_ok_iff.mp hencode
    refine Step.answer hpending (hid.trans ?_) hencode'
    exact UInt32.toNat_ofNat_of_lt' hlt

/-- **No response is credited to the wrong request.** In every state of a run in which a
client has called fewer than `2 ^ 32 - 1` operations, whatever exceptions ended them: when
an operation that waits for the response to `f` receives a frame and accepts it, or raises
the error that it tells, `f` is the last frame sent, and the frame received is the device's
answer to it, the response at the place of `f`. -/
theorem accepted_response_answers_last_frame {s : Session} (hs : s.Reachable)
    (hissued : s.issued < 2 ^ 32 - 1) {call : Call} (hcall : s.call = some call) {f : Frame}
    (hawaiting : call.awaiting = some f) {fr : Frame} {c : Client}
    (hrecv : Client.recvFrame ⟨s.rxbuf, []⟩ = some (.ok fr, c)) (htakes : call.Takes fr) :
    ∃ earlier, s.link.requests = earlier ++ [f] ∧
      s.link.responses[earlier.length]? = some fr ∧ s.link.taken = earlier.length := by
  have hsafe := hs.safe (by omega)
  obtain ⟨earlier, hrequests, htaken⟩ :=
    hsafe.credited hcall hawaiting hrecv htakes.requestId
  obtain ⟨harriving, -⟩ := hsafe.arriving_of_ok hrecv
  rw [Exchange.arriving, htaken] at harriving
  exact ⟨earlier, hrequests, harriving, htaken⟩

deriving instance DecidableEq for Client

/-- A `HELLO` with request id 1, and a response to it without items. -/
def helloRequest : Frame := { type := 1, requestId := 1 }

/-- The response of a device to `helloRequest`. -/
def helloResponse : Frame := { type := 2, requestId := 1, payload := [0, 0] }

/-- A client that has read the response to its first operation, a `HELLO`. -/
def helloSession : Session where
  req := 1
  rxbuf := helloResponse.raw
  call := some ⟨.hello, 1, [], some helloRequest⟩
  issued := 1
  epIn := []
  link := ⟨[helloRequest], [helloResponse], 0⟩

/-- The session is reached by a call, a frame sent, its answer, and a read of all bytes. -/
private theorem helloSession_reachable : helloSession.Reachable := by
  have hrequest : helloRequest.encode = .ok helloRequest.raw := by decide +kernel
  have hresponse : helloResponse.encode = .ok helloResponse.raw := by decide +kernel
  let started : Session :=
    ⟨1, [], some ⟨.hello, 1, [helloRequest], none⟩, 1, [], .empty⟩
  let sent : Session := { helloSession with rxbuf := [], link := ⟨[helloRequest], [], 0⟩ }
  let answered : Session := { helloSession with rxbuf := [], epIn := helloResponse.raw }
  have hstart : Step .init started := .start .hello rfl
  have hsend : Step started sent :=
    @Step.send started ⟨.hello, 1, [helloRequest], none⟩ helloRequest [] _ rfl rfl rfl hrequest
  have hanswer : Step sent answered :=
    @Step.answer sent helloRequest helloResponse _ rfl rfl hresponse
  have hread : Step answered helloSession :=
    .read rfl rfl (by decide +kernel) (List.append_nil _).symm
  exact (((Relation.ReflTransGen.single hstart).tail hsend).tail hanswer).tail hread

/-- `accepted_response_answers_last_frame` for the first operation of a client. -/
theorem accepted_response_answers_last_frame_hello :
    ∃ earlier, helloSession.link.requests = earlier ++ [helloRequest] ∧
      helloSession.link.responses[earlier.length]? = some helloResponse ∧
      helloSession.link.taken = earlier.length :=
  accepted_response_answers_last_frame helloSession_reachable (by decide) rfl rfl
    (by decide +kernel : _ = some (Except.ok helloResponse, (⟨[], []⟩ : Client)))
    (.inl ⟨[0, 0], show ClientOp.check 1 helloResponse .hello = .ok [0, 0] from by
      decide +kernel⟩)

end UsbResponder.Host
