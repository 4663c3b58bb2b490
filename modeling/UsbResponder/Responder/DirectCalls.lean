import UsbResponder.Responder.HostTransfers
import UsbResponder.Responder.Rounds

/-!
# Frames over the wire and frames handled directly

The frames of a host reach `handle_frame` through transfers, reads of 16 KiB, the receive
buffer and rounds of the loop. `host_frames_handled_directly` says that none of this can be
told from the outside: the session leaves the process, the scripted writes and the writes
made exactly as calls of `handle_frame` on the frames one after another would, whatever the
operations, the commands and the `write` calls do.

The proof has two halves. A handler does not look at the log, which it only extends
(`LogBlind`), so what the loop records between two frames makes no difference to the
handlers; this is one lemma a handler, and they compose along the text of the handlers. On
the other side `LoopState.Expects.step_alike` is the round that receives a frame: it handles
this frame on a device that is `Alike` the one before the round, and the state after it
expects the next frame. An induction on the frames puts the two together.

The condition is that of `host_frames_handled_iff`: no frame has a length that is a multiple
of 16 KiB, since such a frame ends the session. Events of `ep0`, hang-ups and reads that
fail are left out, and so are frames of more than 8 MiB, which the receiver refuses.
-/

namespace UsbResponder

open BulkTransfer CString LittleEndian

variable {σ : Type}

/-! ### Handlers and the log -/

/-- The device with events before its log. Two devices that a handler cannot tell apart are
of this form. -/
def Device.logged (log : List IoEvent) (dev : Device σ) : Device σ :=
  { dev with log := log ++ dev.log }

/-- What is done with the device does not depend on its log: with events before the log, the
same happens, behind these events. -/
def LogBlind (h : Device σ → Bool × Device σ) : Prop :=
  ∀ log dev, h (dev.logged log) = ((h dev).1, (h dev).2.logged log)

@[simp] theorem Device.logged_proc (log : List IoEvent) (dev : Device σ) :
    (dev.logged log).proc = dev.proc := rfl

@[simp] theorem Device.logged_cfg (log : List IoEvent) (dev : Device σ) :
    (dev.logged log).cfg = dev.cfg := rfl

@[simp] theorem Device.logged_tx (log : List IoEvent) (dev : Device σ) :
    (dev.logged log).tx = dev.tx := rfl

private theorem Device.record_logged (log : List IoEvent) (dev : Device σ) (event : IoEvent) :
    (dev.logged log).record event = (dev.record event).logged log := by
  simp only [Device.record, Device.logged, List.append_assoc]

section Writes

variable (os : Os σ)

private theorem writeFullLoop_logBlind (script : List WriteOutcome) (data : Bytes) :
    LogBlind (writeFullLoop os script data) := by
  intro log dev
  induction script generalizing data dev with
  | nil =>
    cases data with
    | nil => rfl
    | cons b data =>
      rw [writeFullLoop, writeFullLoop, ← Device.record_logged]
      · rfl
      · simp
      · simp
  | cons outcome script ih =>
    cases data with
    | nil => rfl
    | cons b data =>
      cases outcome with
      | accept n =>
        rw [writeFullLoop, writeFullLoop]
        · split_ifs
          · rw [Device.record_logged]
            rfl
          · rw [Device.record_logged, ih]
        · simp
        · simp
      | eintr =>
        rw [writeFullLoop, writeFullLoop, Device.record_logged, ih]
        · simp
        · simp
      | error e =>
        rw [writeFullLoop, writeFullLoop, Device.record_logged]
        · rfl
        · simp
        · simp

private theorem writeZlpLoop_logBlind (script : List WriteOutcome) :
    LogBlind (writeZlpLoop os script) := by
  intro log dev
  induction script generalizing dev with
  | nil =>
    rw [writeZlpLoop, writeZlpLoop, ← Device.record_logged]
    rfl
  | cons outcome script ih =>
    cases outcome with
    | accept n =>
      rw [writeZlpLoop, writeZlpLoop, ← Device.record_logged]
      rfl
    | eintr => rw [writeZlpLoop, writeZlpLoop, Device.record_logged, ih]
    | error e =>
      rw [writeZlpLoop, writeZlpLoop, Device.record_logged]
      rfl

private theorem writeLimitedLoop_logBlind (fuel : ℕ) (data : Bytes) :
    LogBlind (writeLimitedLoop os fuel data) := by
  intro log dev
  induction fuel generalizing data dev with
  | zero => cases data <;> rfl
  | succ fuel ih =>
    cases data with
    | nil => rfl
    | cons b data =>
      have hfull : writeFull os ((b :: data).take ioChunk) (dev.logged log) = _ :=
        writeFullLoop_logBlind os dev.tx _ log dev
      rw [writeLimitedLoop, writeLimitedLoop, hfull]
      · rw [show writeFullLoop os dev.tx ((b :: data).take ioChunk) dev =
          writeFull os ((b :: data).take ioChunk) dev from rfl]
        rcases writeFull os ((b :: data).take ioChunk) dev with ⟨_ | _, dev₁⟩
        · rfl
        · exact ih _ _
      · simp
      · simp

private theorem writeFrame_logBlind (frame : Frame) : LogBlind (writeFrame os frame) := by
  intro log dev
  rw [writeFrame, writeFrame, Device.record_logged, writeLimited, writeLimited,
    writeLimitedLoop_logBlind]
  rcases writeLimitedLoop os (encodeFrame frame).length (encodeFrame frame)
    (dev.record (.sending frame)) with ⟨_ | _, dev₁⟩
  · rfl
  · dsimp only
    split_ifs
    · exact writeZlpLoop_logBlind os dev₁.tx log dev₁
    · rfl

end Writes

section Handlers

variable (os : Os σ) (shell : ExecShell σ) (frame : Frame)

private theorem sendKvResponse_logBlind (type : MsgType) (reqId : UInt32) (kvs : List Kv) :
    LogBlind (sendKvResponse os type reqId kvs) := by
  intro log dev
  rw [sendKvResponse, sendKvResponse]
  rcases encodeKv kvs with _ | payload
  · rfl
  · exact writeFrame_logBlind os _ log dev

private theorem sendError_logBlind (reqId : UInt32) (msg : Bytes) :
    LogBlind (sendError os reqId msg) :=
  sendKvResponse_logBlind os .error reqId _

private theorem sendLastError_logBlind (reqId : UInt32) (pre : Bytes) :
    LogBlind (sendLastError os reqId pre) := by
  intro log dev
  rw [sendLastError, sendLastError]
  exact sendError_logBlind os reqId _ log dev

private theorem sendOk_logBlind (reqId : UInt32) : LogBlind (sendOk os reqId) :=
  sendKvResponse_logBlind os .status reqId _

private theorem confirm_logBlind (reqId : UInt32) (pre : Bytes) (r : Option Unit) :
    LogBlind fun dev => confirm os reqId pre (r, dev) := by
  intro log dev
  cases r with
  | none => exact sendLastError_logBlind os reqId pre log dev
  | some _ => exact sendOk_logBlind os reqId log dev

private theorem confirm_opWith_logBlind (reqId : UInt32) (pre : Bytes) (value : Option Bytes)
    (x : Bytes → Op σ Unit) : LogBlind fun dev => confirm os reqId pre (dev.opWith value x) := by
  intro log dev
  cases value with
  | none => exact confirm_logBlind os reqId pre none log dev
  | some value => exact confirm_logBlind os reqId pre _ log (dev.op (x value)).2

private theorem handleFilePutBegin_logBlind : LogBlind (handleFilePutBegin os frame) := by
  intro log dev
  rw [handleFilePutBegin, handleFilePutBegin]
  rcases decodeKv frame.payload maxKv with _ | kvs
  · exact sendError_logBlind os _ _ log dev
  dsimp only
  rcases kvGet kvs (utf8 "path") with _ | path
  · exact sendError_logBlind os _ _ log dev
  dsimp only [Device.op, Device.logged_proc]
  rcases (fileBeginUpload os frame.header.requestId path (kvGet kvs (utf8 "desire_storage"))
    (kvGet kvs (utf8 "perm"))).run dev.proc with ⟨_ | _, p⟩
  · exact sendLastError_logBlind os _ _ log { dev with proc := p }
  · exact sendKvResponse_logBlind os .status _ _ log { dev with proc := p }

private theorem handleFileGet_logBlind : LogBlind (handleFileGet os frame) := by
  intro log dev
  rw [handleFileGet, handleFileGet]
  rcases decodeKv frame.payload maxKv with _ | kvs
  · exact sendError_logBlind os _ _ log dev
  dsimp only
  rcases kvGet kvs (utf8 "path") with _ | path
  · exact sendError_logBlind os _ _ log dev
  dsimp only [Device.op, Device.logged_proc]
  rcases (fileRead os path).run dev.proc with ⟨_ | data, p⟩
  · exact sendError_logBlind os _ _ log { dev with proc := p }
  · dsimp only
    split_ifs
    · exact sendError_logBlind os _ _ log { dev with proc := p }
    · exact writeFrame_logBlind os _ log { dev with proc := p }

private theorem handleFileList_logBlind : LogBlind (handleFileList os frame) := by
  intro log dev
  rw [handleFileList, handleFileList]
  rcases decodeKv frame.payload maxKv with _ | kvs
  · exact sendError_logBlind os _ _ log dev
  dsimp only [Device.op, Device.logged_proc]
  rcases (fileList os ((kvGet kvs (utf8 "path")).getD (utf8 "."))).run dev.proc with
    ⟨_ | ⟨files, dirs⟩, p⟩
  · exact sendLastError_logBlind os _ _ log { dev with proc := p }
  · exact sendKvResponse_logBlind os .status _ _ log { dev with proc := p }

private theorem handleFileDelete_logBlind : LogBlind (handleFileDelete os frame) := by
  intro log dev
  rw [handleFileDelete, handleFileDelete]
  rcases decodeKv frame.payload maxKv with _ | kvs
  · exact sendError_logBlind os _ _ log dev
  · exact confirm_opWith_logBlind os _ _ _ _ log dev

private theorem handleFileRename_logBlind : LogBlind (handleFileRename os frame) := by
  intro log dev
  rw [handleFileRename, handleFileRename]
  rcases decodeKv frame.payload maxKv with _ | kvs
  · exact sendError_logBlind os _ _ log dev
  dsimp only
  rcases kvGet kvs (utf8 "from") with _ | fromPath
  · exact sendLastError_logBlind os _ _ log dev
  · exact confirm_opWith_logBlind os _ _ _ _ log dev

private theorem handleFileMkdir_logBlind : LogBlind (handleFileMkdir os frame) := by
  intro log dev
  rw [handleFileMkdir, handleFileMkdir]
  rcases decodeKv frame.payload maxKv with _ | kvs
  · exact sendError_logBlind os _ _ log dev
  · exact confirm_opWith_logBlind os _ _ _ _ log dev

private theorem handleFileStat_logBlind : LogBlind (handleFileStat os frame) := by
  intro log dev
  rw [handleFileStat, handleFileStat]
  rcases decodeKv frame.payload maxKv with _ | kvs
  · exact sendError_logBlind os _ _ log dev
  dsimp only
  rcases kvGet kvs (utf8 "path") with _ | path
  · exact sendLastError_logBlind os _ _ log dev
  dsimp only [Device.opWith, Device.op, Device.logged_proc]
  rcases (fileStat os path).run dev.proc with ⟨_ | info, p⟩
  · exact sendLastError_logBlind os _ _ log { dev with proc := p }
  · exact sendKvResponse_logBlind os .status _ _ log { dev with proc := p }

private theorem handleCommandExec_logBlind : LogBlind (handleCommandExec os shell frame) := by
  intro log dev
  rw [handleCommandExec, handleCommandExec]
  rcases decodeCommandRequest frame.payload with _ | req
  · exact sendError_logBlind os _ _ log dev
  dsimp only [Device.logged_proc, Device.logged_cfg]
  rcases shell (cStr req.command) _ dev.proc.os with ⟨_ | r, s⟩
  · exact sendError_logBlind os _ _ log { dev with proc.os := s }
  · dsimp only
    split_ifs
    · exact sendError_logBlind os _ _ log { dev with proc.os := s }
    · exact writeFrame_logBlind os _ log { dev with proc.os := s }

private theorem handleDevinfo_logBlind : LogBlind (handleDevinfo os shell frame) := by
  intro log dev
  rw [handleDevinfo, handleDevinfo]
  exact sendKvResponse_logBlind os .devinfo _ _ log
    { dev with proc := (devinfoKvs os shell dev.proc).2 }

/-- **No handler looks at the log**: on devices that differ in nothing else it does the
same, and adds the same events. -/
theorem handleFrame_logBlind : LogBlind (handleFrame os shell frame) := by
  intro log dev
  have hunsupported := sendError_logBlind os frame.header.requestId
    (utf8 "unsupported message type") log dev
  rw [handleFrame, handleFrame]
  rcases MsgType.ofCode frame.header.type with _ | type
  · exact hunsupported
  cases type with
  | hello => exact sendKvResponse_logBlind os .status _ _ log dev
  | status => exact hunsupported
  | error => exact hunsupported
  | filePutBegin => exact handleFilePutBegin_logBlind os frame log dev
  | filePutChunk => exact confirm_logBlind os _ _ _ log (dev.op _).2
  | filePutEnd => exact confirm_logBlind os _ _ _ log (dev.op _).2
  | fileGet => exact handleFileGet_logBlind os frame log dev
  | fileList => exact handleFileList_logBlind os frame log dev
  | fileDelete => exact handleFileDelete_logBlind os frame log dev
  | fileRename => exact handleFileRename_logBlind os frame log dev
  | fileMkdir => exact handleFileMkdir_logBlind os frame log dev
  | fileStat => exact handleFileStat_logBlind os frame log dev
  | commandExec => exact handleCommandExec_logBlind os shell frame log dev
  | commandResult => exact hunsupported
  | devinfo => exact handleDevinfo_logBlind os shell frame log dev

end Handlers

/-! ### Devices that differ in what was received -/

/-- An event of a response. -/
def IoEvent.isResponse : IoEvent → Bool
  | .sending _ => true
  | .write _ _ => true
  | _ => false

/-- The responses in a log: the frames the responder began to send, and the writes. This is
what the host can see of a log. -/
def responseEvents (log : List IoEvent) : List IoEvent := log.filter IoEvent.isResponse

/-- Two devices that differ at most in what they have received, handled and been told by
`ep0`. Their responses are the same, in the same order. -/
structure Device.Alike (dev dev' : Device σ) : Prop where
  cfg : dev'.cfg = dev.cfg
  proc : dev'.proc = dev.proc
  tx : dev'.tx = dev.tx
  responses : responseEvents dev'.log = responseEvents dev.log

theorem Device.Alike.refl (dev : Device σ) : dev.Alike dev := ⟨rfl, rfl, rfl, rfl⟩

theorem Device.Alike.trans {dev₁ dev₂ dev₃ : Device σ} (h₁ : dev₁.Alike dev₂)
    (h₂ : dev₂.Alike dev₃) : dev₁.Alike dev₃ where
  cfg := h₂.cfg.trans h₁.cfg
  proc := h₂.proc.trans h₁.proc
  tx := h₂.tx.trans h₁.tx
  responses := h₂.responses.trans h₁.responses

private theorem responseEvents_append (log₁ log₂ : List IoEvent) :
    responseEvents (log₁ ++ log₂) = responseEvents log₁ ++ responseEvents log₂ :=
  List.filter_append ..

/-- The frames and the bytes of a log are those of its responses. -/
theorem sentFrames_responseEvents (log : List IoEvent) :
    sentFrames (responseEvents log) = sentFrames log ∧
      sentBytes (responseEvents log) = sentBytes log := by
  induction log with
  | nil => exact ⟨rfl, rfl⟩
  | cons event log ih =>
    obtain ⟨hframes, hbytes⟩ := ih
    rw [responseEvents] at hframes hbytes
    have hkeep : sentFrames (event :: log.filter IoEvent.isResponse) = sentFrames (event :: log) ∧
        sentBytes (event :: log.filter IoEvent.isResponse) = sentBytes (event :: log) := by
      simp only [sentFrames, sentBytes, List.filterMap_cons, List.flatMap_cons] at hframes hbytes ⊢
      rw [hframes, hbytes]
      exact ⟨rfl, rfl⟩
    cases event with
    | sending frame => exact hkeep
    | write data accepted => exact hkeep
    | _ => exact ⟨hframes, hbytes⟩

/-- A frame is handled alike by devices that are alike: the results are the same, and so are
the responses. -/
theorem Device.Alike.handleFrame {dev dev' : Device σ} (h : dev.Alike dev') (os : Os σ)
    (shell : ExecShell σ) (frame : Frame) :
    (UsbResponder.handleFrame os shell frame dev).2.Alike
      (UsbResponder.handleFrame os shell frame dev').2 := by
  obtain ⟨base, hbase⟩ : ∃ base : Device σ, base = { dev with log := [] } := ⟨_, rfl⟩
  have hdev : dev = base.logged dev.log := by
    rw [hbase, Device.logged, List.append_nil]
  have hdev' : dev' = base.logged dev'.log := by
    rw [hbase, Device.logged, List.append_nil, ← h.cfg, ← h.proc, ← h.tx]
  rw [hdev, hdev', handleFrame_logBlind, handleFrame_logBlind]
  refine ⟨rfl, rfl, rfl, ?_⟩
  show responseEvents (dev'.log ++ _) = responseEvents (dev.log ++ _)
  rw [responseEvents_append, responseEvents_append, h.responses]

/-! ### Receiving a frame -/

section Receive

variable {os : Os σ} {shell : ExecShell σ} {rt rt' : Runtime σ} {st st' : LoopState σ}

/-- A read that succeeds sets no error. -/
private theorem rxReadLoop_proc {script : List RxOutcome}
    (h : rxReadLoop os script rt = some (true, rt')) : rt'.dev.proc = rt.dev.proc := by
  induction script with
  | nil => simp [rxReadLoop] at h
  | cons outcome script ih =>
    cases outcome with
    | pollTimeout => exact ih h
    | pollEintr => exact ih h
    | readEintr => exact ih h
    | pollError e => simp [rxReadLoop] at h
    | pollHangup => simp [rxReadLoop] at h
    | readError e => simp [rxReadLoop] at h
    | data bytes =>
      rw [rxReadLoop] at h
      dsimp only at h
      split_ifs at h
      · simp at h
      · obtain rfl := (Prod.mk.inj (Option.some.inj h)).2
        rfl

private theorem rxFill_proc {n fuel : ℕ} (h : rxFill os n fuel rt = some (true, rt')) :
    rt'.dev.proc = rt.dev.proc := by
  induction fuel generalizing rt with
  | zero => simp [rxFill] at h
  | succ fuel ih =>
    rw [rxFill] at h
    split_ifs at h
    · rcases hread : rxReadSome os rt with _ | ⟨_ | _, rt₁⟩
      · simp [hread] at h
      · simp [hread] at h
      · rw [hread] at h
        exact (ih h).trans (rxReadLoop_proc hread)
    · obtain rfl := (Prod.mk.inj (Option.some.inj h)).2
      rfl

/-- A receive that returns a frame sets no error, and the frame is as the decoder makes it. -/
private theorem readFrameBuffered_proc {frame : Frame}
    (h : readFrameBuffered os rt = some (some frame, rt')) :
    rt'.dev.proc = rt.dev.proc ∧ ∃ raw, decodeFrame raw = some frame := by
  rw [readFrameBuffered] at h
  rcases hfill : rxFill os headerSize (rt.rx.length + 1) rt with _ | ⟨_ | _, rt₁⟩
  · simp [hfill] at h
  · simp [hfill] at h
  simp only [hfill] at h
  split_ifs at h
  · simp at h
  · simp at h
  rw [show headerSize + (readLe32 (rt₁.rxBuf.drop 16)).toNat = frameEnd rt₁.rxBuf from rfl] at h
  rcases hfill₂ : rxFill os (frameEnd rt₁.rxBuf) (rt₁.rx.length + 1) rt₁ with _ | ⟨_ | _, rt₂⟩
  · simp [hfill₂] at h
  · simp [hfill₂] at h
  rw [hfill₂] at h
  dsimp only at h
  rcases hdecode : decodeFrame (rt₂.rxBuf.take (frameEnd rt₁.rxBuf)) with _ | frame'
  · simp [hdecode] at h
  rw [hdecode] at h
  obtain ⟨rfl, rfl⟩ : frame' = frame ∧ _ = rt' := by simpa using h
  exact ⟨(rxFill_proc hfill₂).trans (rxFill_proc hfill), _, hdecode⟩

/-- A round that leaves the endpoints enabled has handled the frame it received, on a device
that is like the one before it. Its reads have set no error. -/
private theorem receiveRound_next (h : receiveRound os shell st = .next st')
    (henabled : st'.enabled) :
    ∃ frame dev, st.rt.dev.Alike dev ∧ (∃ raw, decodeFrame raw = some frame) ∧
      handledFrames dev.log = handledFrames st.rt.dev.log ++ [frame] ∧
      st'.rt.dev = (UsbResponder.handleFrame os shell frame dev).2 := by
  rw [receiveRound] at h
  rcases hread : readFrameBuffered os st.rt with _ | ⟨_ | frame, rt⟩
  · simp [hread] at h
  · rw [hread] at h
    obtain rfl := StepResult.next.inj h
    exact absurd henabled (by simp)
  · rw [hread] at h
    obtain rfl := StepResult.next.inj h
    obtain ⟨hproc, hraw⟩ := readFrameBuffered_proc hread
    have hreads := readFrameBuffered_afterReads hread
    obtain ⟨reads, hlog⟩ := hreads.log
    refine ⟨frame, (rt.record (.handling frame)).dev, ⟨hreads.cfg, hproc, hreads.tx, ?_⟩, hraw,
      ?_, rfl⟩
    · show responseEvents (rt.dev.log ++ [.handling frame]) = _
      have hnone : responseEvents (reads.map IoEvent.received) = [] :=
        List.filter_eq_nil_iff.mpr fun event hevent => by
          obtain ⟨data, -, rfl⟩ := List.mem_map.mp hevent
          simp [IoEvent.isResponse]
      rw [responseEvents_append, hlog, responseEvents_append, hnone, List.append_nil]
      exact List.append_nil _
    · show handledFrames (rt.dev.log ++ [.handling frame]) = _
      rw [handledFrames_append, hreads.silent.handledFrames]
      rfl

end Receive

/-! ### Sessions -/

section Session

variable (os : Os σ) (shell : ExecShell σ) {st : LoopState σ} {f : Host.Frame}
  {frames : List Host.Frame}

/-- The device after direct calls of `handle_frame`, on the frames as the device decodes
them. -/
def handleDirectly (os : Os σ) (shell : ExecShell σ) (frames : List Host.Frame) (dev : Device σ) :
    Device σ :=
  frames.foldl (fun dev f => (handleFrame os shell f.toDevice dev).2) dev

theorem Device.Alike.handleDirectly {dev dev' : Device σ} (h : dev.Alike dev') :
    (UsbResponder.handleDirectly os shell frames dev).Alike
      (UsbResponder.handleDirectly os shell frames dev') := by
  induction frames generalizing dev dev' with
  | nil => exact h
  | cons f frames ih => exact ih (h.handleFrame os shell f.toDevice)

/-- A frame that was decoded is the device's view of what the host reads of it. -/
private theorem Host.Frame.toDevice_ofDevice {frame : UsbResponder.Frame} {raw : Bytes}
    (h : UsbResponder.decodeFrame raw = some frame) :
    (Host.Frame.ofDevice frame).toDevice = frame := by
  obtain ⟨type, flags, requestId, payload, -, -, rfl⟩ := decodeFrame_eq_some_iff.mp h
  simp only [Host.Frame.ofDevice, Host.Frame.toDevice, frameOf, UInt16.ofNat_toNat,
    UInt32.ofNat_toNat]

/-- The round that receives a frame handles it on a device that is like the one before it,
whether or not the reads after it begin with an empty one. -/
theorem LoopState.Expects.step_alike (h : st.Expects (f :: frames)) :
    ∃ st', ioStep os shell readable st = .next st' ∧ st'.Connected ∧ st'.rt.rxBuf = [] ∧
      (∀ outcome ∈ st'.rt.rx, outcome.Quiet) ∧
      UsbResponder.pieces st'.rt.rx =
        (if ioChunk ∣ f.raw.length then [[]] else []) ++ frames.flatMap Host.Frame.reads ∧
      (handleFrame os shell f.toDevice st.rt.dev).2.Alike st'.rt.dev := by
  obtain ⟨st', hstep, hconn, hbuf, hquiet, hpieces, hhandled⟩ := h.step os shell
  refine ⟨st', hstep, hconn, hbuf, hquiet, hpieces, ?_⟩
  rw [ioStep_readable os shell h.connected] at hstep
  obtain ⟨frame, dev, halike, ⟨raw, hraw⟩, hframes, hdev⟩ :=
    receiveRound_next hstep hconn.enabled
  -- what was handled is the frame of the host
  have hframe : frame = f.toDevice := by
    rw [hdev, handleFrame_handledFrames os shell, hframes, List.map_append,
      List.append_cancel_left_eq] at hhandled
    rw [← Host.Frame.toDevice_ofDevice hraw, List.singleton_inj.mp hhandled]
  rw [hdev, hframe]
  exact halike.handleFrame os shell f.toDevice

/-- After a frame whose length is not a multiple of 16 KiB the next ones are expected. -/
private theorem LoopState.Expects.step_direct (h : st.Expects (f :: frames))
    (hlen : ¬ioChunk ∣ f.raw.length) :
    ∃ st', ioStep os shell readable st = .next st' ∧ st'.Expects frames ∧
      (handleFrame os shell f.toDevice st.rt.dev).2.Alike st'.rt.dev := by
  obtain ⟨st', hstep, hconn, hbuf, hquiet, hpieces, halike⟩ := h.step_alike os shell
  rw [if_neg hlen, List.nil_append] at hpieces
  exact ⟨st', hstep, ⟨hconn, hbuf, hquiet, hpieces, fun g hg => h.fits g (by simp [hg]),
    fun g hg => h.payload_le g (by simp [hg])⟩, halike⟩

/-- In as many rounds as there are frames, they are handled as direct calls would. The
induction is on the frames. -/
theorem LoopState.Expects.direct (h : st.Expects frames)
    (hlen : ∀ f ∈ frames, ¬ioChunk ∣ f.raw.length) {n : ℕ} (hn : frames.length ≤ n) :
    (afterRounds os shell n st).Expects [] ∧
      (handleDirectly os shell frames st.rt.dev).Alike (afterRounds os shell n st).rt.dev := by
  induction n generalizing st frames with
  | zero =>
    obtain rfl := List.length_eq_zero_iff.mp (Nat.le_zero.mp hn)
    exact ⟨h, .refl _⟩
  | succ n ih =>
    cases frames with
    | nil =>
      have hnone : UsbResponder.pieces st.rt.rx = [] := h.pieces
      have hdelivers : ∀ outcome ∈ st.rt.rx, outcome.Delivers :=
        delivers_of_quiet h.quiet fun piece hmem =>
          absurd hmem (List.eq_nil_iff_forall_not_mem.mp hnone piece)
      rw [afterRounds_waiting (ioStep_of_nothing os shell h.connected h.rxBuf hdelivers hnone)]
      exact ⟨h, .refl _⟩
    | cons f frames =>
      obtain ⟨st', hstep, hexpects, halike⟩ := h.step_direct os shell (hlen f (by simp))
      obtain ⟨hlast, halike'⟩ := ih hexpects (fun g hg => hlen g (by simp [hg]))
        (by rw [List.length_cons] at hn; omega)
      rw [afterRounds_next hstep]
      exact ⟨hlast, (halike.handleDirectly os shell).trans halike'⟩

end Session

/-- **The wire adds nothing.** Take frames with payloads of at most 8 MiB whose lengths are
not multiples of 16 KiB, sent one after another on an endpoint with packets of 64 or 512
bytes, and a responder with open endpoints whose reads of 16 KiB complete when they are full
or a short packet arrives, with time-outs and interrupted calls in between. After as many
rounds of the loop as there are frames, whatever the operations, the commands and the
`write` calls have done, the process, the `write` calls still to come and the responses that
were written are those of calls of `handle_frame` on the frames one after another. -/
theorem host_frames_handled_directly (os : Os σ) (shell : ExecShell σ) {mps : ℕ}
    (hmps : mps = 64 ∨ mps = 512) {frames : List Host.Frame}
    (hmax : ∀ f ∈ frames, f.payload.length ≤ Host.maxPayload)
    (hlen : ∀ f ∈ frames, ¬ioChunk ∣ headerSize + f.payload.length) {writes : List Bytes}
    (hsend : Host.sendFrames mps frames = .ok writes) {st : LoopState σ} (hconn : st.Connected)
    (hbuf : st.rt.rxBuf = []) (hquiet : ∀ outcome ∈ st.rt.rx, outcome.Quiet)
    (hreads : pieces st.rt.rx = reads ioChunk mps [] (writes.flatMap (packets mps))) {n : ℕ}
    (hn : frames.length ≤ n) :
    let dev := (afterRounds os shell n st).rt.dev
    let dev' := handleDirectly os shell frames st.rt.dev
    dev.proc = dev'.proc ∧ dev.tx = dev'.tx ∧ sentFrames dev.log = sentFrames dev'.log ∧
      sentBytes dev.log = sentBytes dev'.log := by
  intro dev dev'
  obtain ⟨hfits, heq⟩ := Host.reads_of_sendFrames hmps hsend
  have hexpects : st.Expects frames :=
    ⟨hconn, hbuf, hquiet, hreads.trans heq, hfits, hmax⟩
  obtain ⟨-, halike⟩ := hexpects.direct os shell
    (fun f hf => by rw [Host.Frame.length_raw]; exact hlen f hf) hn
  obtain ⟨hframes, hbytes⟩ := sentFrames_responseEvents dev.log
  obtain ⟨hframes', hbytes'⟩ := sentFrames_responseEvents dev'.log
  refine ⟨halike.proc, halike.tx, ?_, ?_⟩
  · rw [← hframes, ← hframes', halike.responses]
  · rw [← hbytes, ← hbytes', halike.responses]

/-- `host_frames_handled_directly` for a `HELLO` on a high-speed link. -/
theorem host_frames_handled_directly_hello :
    sentFrames (afterRounds (Os.failing Unit) (fun _ _ s => (none, s)) 1
        (enabledState (reads ioChunk 512 [] ((Host.sendWrites 512 hostHello.raw ++ []).flatMap
          (packets 512))))).rt.dev.log =
      sentFrames (handleDirectly (Os.failing Unit) (fun _ _ s => (none, s)) [hostHello]
        (enabledState (reads ioChunk 512 [] ((Host.sendWrites 512 hostHello.raw ++ []).flatMap
          (packets 512)))).rt.dev).log := by
  have hmax : ∀ f ∈ [hostHello], f.payload.length ≤ Host.maxPayload := by
    simp [hostHello]
  have hlen : ∀ f ∈ [hostHello], ¬ioChunk ∣ headerSize + f.payload.length := by
    simp [hostHello, ioChunk, headerSize]
  have hencode : hostHello.encode = .ok hostHello.raw :=
    Host.Frame.encode_eq_ok_iff.mpr ⟨by decide, by decide, by decide, by decide, rfl⟩
  have hsend := Host.sendFrames_singleton hencode 512
  have hexpects := enabledState_expects (.inr rfl) hmax hsend
  exact (host_frames_handled_directly (Os.failing Unit) (fun _ _ s => (none, s)) (.inr rfl) hmax
    hlen hsend hexpects.connected hexpects.rxBuf hexpects.quiet
    (hexpects.pieces.trans (Host.reads_of_sendFrames (.inr rfl) hsend).2.symm) le_rfl).2.2.1

end UsbResponder
