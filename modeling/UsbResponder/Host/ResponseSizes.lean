import UsbResponder.Host.ResponseStream
import UsbResponder.Responder.Responses

/-!
# Responses the host can take

The host refuses a response whose payload is longer than 8 MiB, and so would the responder's
own receiver. Key-value responses stay far below: they have at most 32 items, with 16-bit
lengths. A file and the output of a command are sent in one frame whatever their size, as
long as the size fits into 32 bits.

`response_receivable_iff` is the exact condition: a response can be received unless it holds
a file or the output of a command of more than 8 MiB.

For each handler the size of its response is compared with the limit (`FitsIff`), under a
condition on the request and the outside; it is the false one for all handlers but two. A
payload whose size does not fit into 32 bits is answered with an error by these two, which
is small. That a response within the limit is not refused holds for every way in which its
bytes arrive.

A shell that returns more than it was asked for is not excluded here. With the limits of the
device, which are part of its options, the output stays below.
-/

namespace UsbResponder

open LittleEndian CString Framing

variable {σ : Type}

/-! ### Key-value responses -/

private theorem length_encodeKvRecord_le (item : Kv) :
    (encodeKvRecord item).length < 2 ^ 17 + 4 := by
  have hk := (UInt16.ofNat (strlen item.key)).toNat_lt
  have hv := (UInt16.ofNat (strlen item.value)).toNat_lt
  rw [encodeKvRecord]
  simp only [List.length_append, length_writeLe16, List.length_take]
  omega

theorem length_flatMap_encodeKvRecord_le (kvs : List Kv) :
    (kvs.flatMap encodeKvRecord).length ≤ kvs.length * (2 ^ 17 + 3) := by
  induction kvs with
  | nil => simp
  | cons item kvs ih =>
    have hitem := length_encodeKvRecord_le item
    rw [List.flatMap_cons, List.length_append, List.length_cons]
    omega

/-- A key-value payload is about half as long as a payload may be. -/
private theorem length_encodeKv_le {kvs : List Kv} {payload : Bytes}
    (h : encodeKv kvs = some payload) : payload.length ≤ Host.maxPayload := by
  have hrecords := length_flatMap_encodeKvRecord_le kvs
  rw [encodeKv] at h
  split_ifs at h with hcount
  obtain rfl := Option.some.inj h
  rw [maxKv] at hcount
  rw [List.length_append, length_writeLe16, Host.maxPayload]
  omega

/-! ### Requests with oversize responses -/

/-- The request is for a file of more than 8 MiB whose size fits into 32 bits, and that can
be read. -/
def OversizeFile (os : Os σ) (frame : Frame) (s : σ) : Prop :=
  MsgType.ofCode frame.header.type = some .fileGet ∧
    ∃ kvs path n, decodeKv frame.payload maxKv = some kvs ∧ kvGet kvs (utf8 "path") = some path ∧
      ReadsSize os path s n ∧ Host.maxPayload < n ∧ n < UInt32.size

/-- The options a command is run with: those of the request, or where one is zero that of
the configuration. -/
def execOptions (cfg : Config) (req : CommandRequest) : ShellExecOptions where
  timeoutMs := orDefault req.timeoutMs cfg.defaultTimeoutMs
  maxStdout := orDefault req.maxStdout cfg.maxStdout
  maxStderr := orDefault req.maxStderr cfg.maxStderr

/-- The request is for a command whose output has, with the 20 bytes in front of it, more
than 8 MiB, but a size that fits into 32 bits. -/
def OversizeOutput (shell : ExecShell σ) (frame : Frame) (cfg : Config) (s : σ) : Prop :=
  MsgType.ofCode frame.header.type = some .commandExec ∧
    ∃ req r s', decodeCommandRequest frame.payload = some req ∧
      shell (cStr req.command) (execOptions cfg req) s = (some r, s') ∧
      Host.maxPayload < 20 + r.stdoutData.length + r.stderrData.length ∧
      20 + r.stdoutData.length + r.stderrData.length < UInt32.size

/-! ### Sizes of responses -/

/-- The handler that turned `dev` into `r` has written one response, whose payload has at
most 8 MiB exactly if `P` holds. -/
def FitsIff (os : Os σ) (reqId : UInt32) (dev : Device σ) (r : Bool × Device σ) (P : Prop) : Prop :=
  ∃ type payload dev', dev.SameIo dev' ∧ r = writeFrame os (responseFrame type reqId payload) dev' ∧
    (payload.length ≤ Host.maxPayload ↔ P)

section Handlers

variable (os : Os σ) (frame : Frame) (dev : Device σ) (shell : ExecShell σ)

/-- Key-value items always fit: 32 items of 64 KiB are far below the limit of the client. -/
theorem RepliesKv.fitsIff {reqId : UInt32} {success : Option MsgType} {r : Bool × Device σ}
    {P : Prop} (h : RepliesKv os reqId success dev r) (hP : P) : FitsIff os reqId dev r P := by
  obtain ⟨type, kvs, dev', -, hcount, hsame, rfl⟩ := h
  obtain ⟨payload, hpayload⟩ : ∃ payload, encodeKv kvs = some payload :=
    ⟨_, if_neg (not_lt.mpr hcount)⟩
  refine ⟨type, payload, dev', hsame, ?_, iff_of_true (length_encodeKv_le hpayload) hP⟩
  rw [sendKvResponse, hpayload]

private theorem handleFileGet_fitsIff (htype : MsgType.ofCode frame.header.type = some .fileGet) :
    FitsIff os frame.header.requestId dev (handleFileGet os frame dev)
      ¬OversizeFile os frame dev.proc.os := by
  have herror : ∀ (msg : Bytes) {dev' : Device σ}, dev.SameIo dev' →
      ¬OversizeFile os frame dev.proc.os → FitsIff os frame.header.requestId dev
        (sendError os frame.header.requestId msg dev') ¬OversizeFile os frame dev.proc.os := by
    intro msg dev' hsame hsmall
    have hreply : RepliesKv os frame.header.requestId none dev
        (sendError os frame.header.requestId msg dev') := sendError_repliesKv os _ msg hsame
    exact hreply.fitsIff os dev hsmall
  rw [handleFileGet]
  rcases hkvs : decodeKv frame.payload maxKv with _ | kvs
  · refine herror _ (.refl dev) fun hover => ?_
    obtain ⟨-, kvs', path', n, hkvs', -⟩ := hover
    simp [hkvs] at hkvs'
  dsimp only
  rcases hpath : kvGet kvs (utf8 "path") with _ | path
  · refine herror _ (.refl dev) fun hover => ?_
    obtain ⟨-, kvs', path', n, hkvs', hpath', -⟩ := hover
    obtain rfl := Option.some.inj (hkvs.symm.trans hkvs')
    simp [hpath] at hpath'
  dsimp only
  -- what the file has decides, in one direction or the other
  have hoversize : OversizeFile os frame dev.proc.os ↔ ∃ data dev',
      dev.op (fileRead os path) = (some data, dev') ∧ Host.maxPayload < data.length ∧
        data.length < UInt32.size := by
    constructor
    · rintro ⟨-, kvs', path', n, hkvs', hpath', hreads, hmax, hfits⟩
      obtain rfl := Option.some.inj (hkvs.symm.trans hkvs')
      obtain rfl := Option.some.inj (hpath.symm.trans hpath')
      obtain ⟨data, p', hrun, rfl⟩ := (exists_fileRead_iff os path dev.proc n).mpr hreads
      exact ⟨data, { dev with proc := p' }, by rw [Device.op, hrun], hmax, hfits⟩
    · rintro ⟨data, dev', hop, hmax, hfits⟩
      rw [Device.op, Prod.mk.injEq] at hop
      exact ⟨htype, kvs, path, data.length, hkvs, hpath, (exists_fileRead_iff os path dev.proc
        data.length).mp ⟨data, _, Prod.ext hop.1 rfl, rfl⟩, hmax, hfits⟩
  have hsame := dev.op_sameIo (fileRead os path)
  rcases hop : dev.op (fileRead os path) with ⟨_ | data, dev'⟩
  · rw [hop] at hsame
    refine herror _ hsame fun hover => ?_
    obtain ⟨data, dev'', hop', -⟩ := hoversize.mp hover
    simp [hop] at hop'
  · rw [hop] at hsame
    dsimp only
    split_ifs with htoo
    · refine herror _ hsame fun hover => ?_
      obtain ⟨data', dev'', hop', -, hfits⟩ := hoversize.mp hover
      obtain ⟨rfl, -⟩ : data = data' ∧ dev' = dev'' := by simpa [hop] using hop'
      omega
    · refine ⟨.fileGet, data, dev', hsame, rfl, ?_⟩
      rw [← not_lt, not_iff_not, hoversize]
      constructor
      · exact fun hmax => ⟨data, dev', hop, hmax, not_le.mp htoo⟩
      · rintro ⟨data', dev'', hop', hmax, -⟩
        obtain ⟨rfl, -⟩ : data = data' ∧ dev' = dev'' := by simpa [hop] using hop'
        exact hmax

private theorem handleCommandExec_fitsIff
    (htype : MsgType.ofCode frame.header.type = some .commandExec) :
    FitsIff os frame.header.requestId dev (handleCommandExec os shell frame dev)
      ¬OversizeOutput shell frame dev.cfg dev.proc.os := by
  have herror : ∀ (msg : Bytes) (s : σ), ¬OversizeOutput shell frame dev.cfg dev.proc.os →
      FitsIff os frame.header.requestId dev (sendError os frame.header.requestId msg
        { dev with proc.os := s }) ¬OversizeOutput shell frame dev.cfg dev.proc.os := by
    intro msg s hsmall
    have hreply : RepliesKv os frame.header.requestId none dev
        (sendError os frame.header.requestId msg { dev with proc.os := s }) :=
      sendError_repliesKv os _ msg ⟨rfl, rfl, rfl⟩
    exact hreply.fitsIff os dev hsmall
  rw [handleCommandExec]
  rcases hreq : decodeCommandRequest frame.payload with _ | req
  · refine herror _ dev.proc.os fun hover => ?_
    obtain ⟨-, req', r, s', hreq', -⟩ := hover
    simp [hreq] at hreq'
  have hopt : (⟨orDefault req.timeoutMs dev.cfg.defaultTimeoutMs,
      orDefault req.maxStdout dev.cfg.maxStdout, orDefault req.maxStderr dev.cfg.maxStderr⟩ :
        ShellExecOptions) = execOptions dev.cfg req := rfl
  dsimp only
  rw [hopt]
  rcases hshell : shell (cStr req.command) (execOptions dev.cfg req) dev.proc.os with ⟨_ | r, s⟩
  · refine herror _ s fun hover => ?_
    obtain ⟨-, req', r, s', hreq', hshell', -⟩ := hover
    obtain rfl := Option.some.inj (hreq.symm.trans hreq')
    simp [hshell] at hshell'
  have hoversize : OversizeOutput shell frame dev.cfg dev.proc.os ↔
      Host.maxPayload < 20 + r.stdoutData.length + r.stderrData.length ∧
        20 + r.stdoutData.length + r.stderrData.length < UInt32.size := by
    constructor
    · rintro ⟨-, req', r', s', hreq', hshell', hsize⟩
      obtain rfl := Option.some.inj (hreq.symm.trans hreq')
      obtain ⟨rfl, -⟩ : r = r' ∧ s = s' := by simpa [hshell] using hshell'
      exact hsize
    · exact fun hsize => ⟨htype, req, r, s, hreq, hshell, hsize⟩
  dsimp only
  rw [length_encodeCommandResult]
  dsimp only
  split_ifs with htoo
  · exact herror _ s fun hover => absurd (hoversize.mp hover).2 (not_lt.mpr htoo)
  · refine ⟨.commandResult, _, { dev with proc.os := s }, ⟨rfl, rfl, rfl⟩, rfl, ?_⟩
    rw [← not_lt, not_iff_not, hoversize, length_encodeCommandResult]
    exact (and_iff_left (not_le.mp htoo)).symm

/-- A response fits exactly if it is not to a request for something oversize. -/
theorem handleFrame_fitsIff :
    FitsIff os frame.header.requestId dev (handleFrame os shell frame dev)
      ¬(OversizeFile os frame dev.proc.os ∨ OversizeOutput shell frame dev.cfg dev.proc.os) := by
  by_cases hget : MsgType.ofCode frame.header.type = some .fileGet
  · have hother : ¬OversizeOutput shell frame dev.cfg dev.proc.os :=
      fun h => absurd (hget.symm.trans h.1) (by decide)
    rw [or_iff_left hother, handleFrame, hget]
    exact handleFileGet_fitsIff os frame dev hget
  · have hfile : ¬OversizeFile os frame dev.proc.os := fun h => hget h.1
    by_cases hexec : MsgType.ofCode frame.header.type = some .commandExec
    · rw [or_iff_right hfile, handleFrame, hexec]
      exact handleCommandExec_fitsIff os frame dev shell hexec
    · have hoversize : ¬OversizeOutput shell frame dev.cfg dev.proc.os := fun h => hexec h.1
      exact (handleFrame_repliesKv os frame dev shell hget hexec).fitsIff os dev
        (not_or.mpr ⟨hfile, hoversize⟩)

end Handlers

/-! ### Receiving a response -/

/-- A frame of at most 8 MiB at the front of what the client receives is never refused for
its size, however little of it has arrived. -/
private theorem recvFrame_ne_tooLarge {frame : Frame} (h : frame.Sendable) {c : Host.Client}
    {rest : Bytes}
    (hfront : c.rxbuf ++ c.incoming.flatten = encodeFrame frame ++ rest) (c' : Host.Client) :
    c.recvFrame ≠ some (.error (.valueError "payload too large"), c') := by
  intro hrefused
  obtain ⟨c₁, hrun, -⟩ := Host.Client.recv_readBy.item trivial
    (show Host.responseFormat.next c.reader.unread = _ from
      (congrArg _ hfront).trans (next_encodeFrame h rest))
  rw [Host.Client.recv, hrefused] at hrun
  simp [Except.toOption] at hrun

/-- **Responses can be received.** For every request frame, every behaviour of the file
system and every command output: the payload of the response has at most 8 MiB, and the
client does not refuse the response for its size however the endpoint delivers it, exactly
when the request is not for a file or the output of a command of more than 8 MiB (with a
size that fits into 32 bits). -/
theorem response_receivable_iff (os : Os σ) (shell : ExecShell σ) (frame : Frame)
    (dev : Device σ) :
    ∃ resp writes, (handleFrame os shell frame dev).2.log = dev.log ++ .sending resp :: writes ∧
      (∀ event ∈ writes, event.IsWrite) ∧
      ((resp.payload.length ≤ Host.maxPayload ∧
          ∀ (c c' : Host.Client) (rest : Bytes),
            c.rxbuf ++ c.incoming.flatten = encodeFrame resp ++ rest →
              c.recvFrame ≠ some (.error (.valueError "payload too large"), c')) ↔
        ¬(OversizeFile os frame dev.proc.os ∨
          OversizeOutput shell frame dev.cfg dev.proc.os)) := by
  obtain ⟨type, payload, dev', hsame, hr, hfits⟩ := handleFrame_fitsIff os frame dev shell
  obtain ⟨writes, hlog, hwrites⟩ := (writeFrame_onlyWrites os
    (responseFrame type frame.header.requestId payload) dev').log
  refine ⟨responseFrame type frame.header.requestId payload, writes, ?_, hwrites, ?_⟩
  · rw [hr, hlog, Device.record, hsame.log, List.append_assoc, List.singleton_append]
  · rw [← hfits]
    refine ⟨And.left, fun hmax => ⟨hmax, fun c c' rest hfront => ?_⟩⟩
    refine recvFrame_ne_tooLarge ⟨?_, hmax⟩ hfront c'
    rw [Host.maxPayload] at hmax
    show (UInt32.ofNat payload.length).toNat = payload.length
    rw [UInt32.toNat_ofNat', Nat.mod_eq_of_lt (by omega)]

/-- System calls under which every file has the given content. -/
def Os.serving (content : Bytes) : Os Unit where
  __ := Os.failing Unit
  allocates _ _ := true
  fopenRb _ s := (.ok 3, s)
  fseekEnd _ s := (none, s)
  fseekSet _ s := (none, s)
  ftell _ s := (.ok content.length, s)
  fread _ size s := ((content.take size, 0), s)

/-- A request for the file `/a`. -/
def getFrame : Frame where
  header := { type := MsgType.fileGet.code, requestId := 1, payloadLen := 11 }
  payload := [1, 0, 4, 0, 1, 0] ++ utf8 "patha"

/-- A file of 8 MiB and one byte is sent all the same, and the client refuses its header. -/
theorem not_response_receivable :
    ¬∀ (os : Os Unit) (shell : ExecShell Unit) (frame : Frame) (dev : Device Unit) (resp : Frame)
      (writes : List IoEvent),
      (handleFrame os shell frame dev).2.log = dev.log ++ .sending resp :: writes →
        resp.payload.length ≤ Host.maxPayload := by
  intro h
  obtain ⟨content, hcontent⟩ : ∃ content : Bytes, content.length = Host.maxPayload + 1 :=
    ⟨List.replicate (Host.maxPayload + 1) 0, List.length_replicate⟩
  obtain ⟨type, payload, dev', hsame, hr, hfits⟩ :=
    handleFrame_fitsIff (Os.serving content) getFrame bootDevice noShell
  obtain ⟨writes, hlog, -⟩ := (writeFrame_onlyWrites (Os.serving content)
    (responseFrame type getFrame.header.requestId payload) dev').log
  have hmax := h (Os.serving content) noShell getFrame bootDevice
    (responseFrame type getFrame.header.requestId payload) writes (by
      rw [hr, hlog, Device.record, hsame.log, List.append_assoc, List.singleton_append])
  refine absurd hmax (mt hfits.mp (not_not.mpr (.inl ?_)))
  refine ⟨by decide, [⟨utf8 "path", utf8 "a"⟩], utf8 "a", content.length, by decide, by decide,
    ⟨utf8 "/a", .nand, 3, (), (), (), (), by decide, rfl, rfl, rfl, rfl, fun _ => rfl, ?_⟩,
    by omega, ?_⟩
  · show content.length ≤ (content.take content.length).length
    rw [List.take_length]
  · rw [hcontent, Host.maxPayload]
    decide

end UsbResponder
