import UsbResponder.Host.CommandService
import UsbResponder.Responder.FileService

/-!
# A client at work

A client and the responder it talks to: `Dialog.perform` is an operation of the client from
its arguments to what it returns or raises. It sends a frame, receives the response, makes
its checks, and goes on to its next frame; an exception ends it, and what was received
stays.

A frame is sent through transfers. The device reads it 16 KiB at a time in rounds of its
loop, which may end the session, and what it writes reaches the client in chunks. An empty
packet behind a response is not read by the client, so the `write` for it lasts, and the
client that sends its next frame waits for ever (`deadlockFree_iff`). Here that is an
operation without a result.

`Dialog.request_eq` is the exchange of one frame: on a link that loses nothing, where the
length of the frame is not a multiple of 16 KiB, no `write` of the device fails and the
device is not in one, the client gets the response of the handler, and nothing is left over.
Whether the client gives up after a time is not modelled.

Later modules use an exchange through this lemma only. What a whole operation comes to is
then a matter of the responses its handlers give, and of which of them are followed by an
empty packet.
-/

namespace UsbResponder

open LittleEndian CString StagedStore BulkTransfer

variable {σ : Type}

/-- The last response is followed by an empty packet. Until that is read, the device is in
the `write` for it. -/
def Device.endsInZlp (dev : Device σ) : Bool :=
  (sentFrames dev.log).getLast?.any fun resp => bulkInNeedsZlp (encodeFrame resp).length

theorem HasSent.endsInZlp {dev dev' : Device σ} {resp : Frame} (h : HasSent dev dev' [resp]) :
    dev'.endsInZlp = bulkInNeedsZlp (encodeFrame resp).length := by
  obtain ⟨log, hlog, hframes, -⟩ := h
  rw [Device.endsInZlp, hlog, sentFrames_append, hframes, List.getLast?_concat, Option.any_some]

theorem Device.Alike.endsInZlp {dev dev' : Device σ} (h : dev.Alike dev') :
    dev'.endsInZlp = dev.endsInZlp := by
  rw [Device.endsInZlp, ← (sentFrames_responseEvents dev'.log).1, h.responses,
    (sentFrames_responseEvents dev.log).1]
  rfl

namespace Host

/-- What an operation takes from a response: the items of a payload, a file, or the result
of a command. -/
inductive ClientValue
  | items (d : Dict)
  | file (content : Bytes)
  | result (r : CommandResult)

/-- What an operation does with a response it has received: the checks that all share, and
then those of the operation. -/
def ClientOp.receive (op : ClientOp) (reqId : ℕ) (fr : Frame) : Except ClientError ClientValue :=
  match op with
  | .fileGet _ => (checkResponse 13 "意外类型 " "FILE_GET" reqId fr).map .file
  | .devinfo => do
    let kv ← decodeKv (← checkResponse 30 "意外类型 " "DEVINFO" reqId fr)
    return .items kv
  | .commandExec _ _ _ _ => (expectCommandResult reqId fr).map .result
  | _ => (expectKv reqId fr).map .items

/-- A client with its last request id, and the loop of the responder it talks to. What has
been written and not been read is in the chunks of the client. -/
structure Dialog (σ : Type) where
  lastId : ℕ
  client : Client
  loop : LoopState σ

namespace Dialog

/-- The device of the responder. -/
abbrev dev (s : Dialog σ) : Device σ := s.loop.rt.dev

section Model

variable (os : Os σ) (shell : ExecShell σ) (link : Link)

/-- Send a frame and receive the response; `none` when none arrives. The chunks of what the
device writes come behind those that have not been read yet. -/
def request (f : Frame) (s : Dialog σ) : Option (Except ClientError Frame × Dialog σ) :=
  match sendFrame link.mps f with
  | .error e => some (.error (.codec e), s)
  | .ok writes =>
    -- a device that is in a `write` does not read, and then the client stays in its own
    if s.dev.endsInZlp then none
    else
      let loop := receiveTransfers os shell link writes s.loop
      let sent := (sentBytes loop.rt.dev.log).drop (sentBytes s.dev.log).length
      let client := { s.client with incoming := s.client.incoming ++ link.deliver sent }
      client.recvFrame.map fun
        | (.error e, client) => (.error (.codec e), { s with client := client, loop := loop })
        | (.ok fr, client) => (.ok fr, { s with client := client, loop := loop })

/-- The frames of an operation one after the other, until a response is not accepted. -/
def exchangeAll (op : ClientOp) (reqId : ℕ) :
    List Frame → Dialog σ → Option (Except ClientError (List ClientValue) × Dialog σ)
  | [], s => some (.ok [], s)
  | f :: fs, s =>
    match request os shell link f s with
    | none => none
    | some (.error e, s) => some (.error e, s)
    | some (.ok fr, s) =>
      match op.receive reqId fr with
      | .error e => some (.error e, s)
      | .ok v => (exchangeAll op reqId fs s).map fun r => (r.1.map (v :: ·), r.2)

/-- An operation of the client. It takes a new request id, and sends frames until one of the
responses ends it. -/
def perform (op : ClientOp) (s : Dialog σ) :
    Option (Except ClientError (List ClientValue) × Dialog σ) :=
  match op.start s.lastId with
  | (id, .error e) => some (.error (.codec e), { s with lastId := id })
  | (id, .ok frames) => exchangeAll os shell link op id frames { s with lastId := id }

/-- Operations of the client one after the other, whether they raise exceptions or not. -/
def performAll : List ClientOp → Dialog σ →
    Option (List (Except ClientError (List ClientValue)) × Dialog σ)
  | [], s => some ([], s)
  | op :: ops, s => (perform os shell link op s).bind fun r =>
    (performAll ops r.2).map fun rs => (r.1 :: rs.1, rs.2)

end Model

/-! ### One frame -/

section Exchange

variable {os : Os σ} {shell : ExecShell σ} {link : Link} {f : Frame}

/-- **One exchange.** A request goes its way to the handler and its response back, and both
ends are then as they were, but for what the handler has done. -/
theorem request_eq (hlink : link.Faithful) (hencode : f.encode = .ok f.raw)
    (hmax : f.payload.length ≤ maxPayload) (hlen : ¬ioChunk ∣ headerSize + f.payload.length)
    {s : Dialog σ} (hquiet : s.client.reader.unread = []) (hexpects : s.loop.Expects [])
    (hfree : s.dev.endsInZlp = false) {resp : UsbResponder.Frame} (hresp : resp.Sendable)
    (hsent : HasSent s.dev (handleFrame os shell f.toDevice s.dev).2 [resp]) :
    ∃ s', request os shell link f s = some (.ok (Frame.ofDevice resp), s') ∧
      s'.client.reader.unread = [] ∧ s'.loop.Expects [] ∧
      (handleFrame os shell f.toDevice s.dev).2.Alike s'.dev := by
  have hsend : sendFrame link.mps f = .ok (sendWrites link.mps f.raw) := by
    rw [sendFrame, hencode]
    rfl
  obtain ⟨loop, hloop⟩ : ∃ loop, loop =
      receiveTransfers os shell link (sendWrites link.mps f.raw) s.loop := ⟨_, rfl⟩
  obtain ⟨hexpects', halike⟩ :=
    @receiveTransfers_eq _ os shell _ _ _ _ hlink hsend hmax hlen hexpects
  rw [← hloop] at hexpects' halike
  have hbytes : sentBytes loop.rt.dev.log = sentBytes s.dev.log ++ encodeFrame resp := by
    obtain ⟨log, hlog, -, hbytes⟩ := hsent
    rw [← (sentFrames_responseEvents _).2, halike.responses, (sentFrames_responseEvents _).2, hlog,
      sentBytes_append, hbytes, List.flatMap_singleton]
  -- the response is all that the client has to read
  obtain ⟨client, hclient⟩ : ∃ client : Client, client =
      { s.client with incoming := s.client.incoming ++ link.deliver (encodeFrame resp) } :=
    ⟨_, rfl⟩
  have hunread : client.reader.unread = encodeFrame resp ++ [] := by
    have hleft : s.client.rxbuf ++ s.client.incoming.flatten = [] := hquiet
    rw [hclient, List.append_nil]
    show s.client.rxbuf ++ (s.client.incoming ++ link.deliver (encodeFrame resp)).flatten = _
    rw [List.flatten_append, hlink.deliver, ← List.append_assoc, hleft, List.nil_append]
  have hnext : responseFormat.next client.reader.unread = .item (Frame.ofDevice resp) [] := by
    rw [hunread, next_encodeFrame hresp]
  obtain ⟨c, hrecv, hrest, -⟩ := Client.recv_readBy.item trivial hnext
  rw [Client.recv, Option.map_eq_some_iff] at hrecv
  obtain ⟨⟨_ | fr, c'⟩, hrecv, hfr⟩ := hrecv
  · simp [Except.toOption] at hfr
  · obtain ⟨hfound, rfl⟩ := Prod.mk.inj hfr
    obtain rfl : fr = Frame.ofDevice resp := Option.some.inj hfound
    refine ⟨⟨s.lastId, c', loop⟩, ?_, hrest, hexpects', halike⟩
    rw [request, hsend]
    dsimp only
    rw [if_neg (by rw [hfree]; exact Bool.false_ne_true), ← hloop, hbytes, List.drop_left,
      ← hclient, hrecv]
    rfl

end Exchange

end Dialog

end Host

end UsbResponder
