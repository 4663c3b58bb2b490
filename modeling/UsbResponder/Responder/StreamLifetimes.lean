import UsbResponder.FileOps.SessionStreams
import UsbResponder.Responder.Endpoints
import UsbResponder.Responder.UploadFrames

/-!
# The life of a stream

A stream is opened for an upload, which may go on over many frames and end in any of them,
or for one frame, by a handler that reads a file. Whatever the frames and the outcomes of
the calls, at every `poll` the open streams are exactly those of the upload sessions, and
when `usb_responder_run` returns none is open. No stream is used before it is opened or
after it is closed, and none is closed twice: the trace of `Os.tracing` keeps to the rule of
`openAfter`. The result is `streams_released`.

The handlers are followed with the rules of `System.StreamTrace`; the operations they run
are done in `FileOps.SessionStreams`, but for the reading of a text file, whose exits on a
failing allocation or a read error close the stream too (`readTextFile_keepsOpen`). A round
of the loop is silent apart from one handler, so the invariant goes from round to round, and
the shutdown closes what the sessions hold.

Streams of the shell's child, and of the library functions that look up names, are not the
responder's.
-/

namespace UsbResponder

open CString Handles

variable {σ α : Type}

/-! ### Handlers -/

/-- The shell on the traced outside. What a command does with its descriptors is not the
responder's. -/
def ExecShell.tracing (shell : ExecShell σ) : ExecShell (Traced σ) := fun command options =>
  Traced.lift (shell command options)

section Handlers

variable {os : Os σ} {dev : Device (Traced σ)}

/-- Writing a response is about no stream. -/
theorem SessionStreams.writeFrame (h : SessionStreams dev.proc) (frame : Frame) :
    SessionStreams (writeFrame os.tracing frame dev).2.proc := by
  have hwrites := writeFrame_onlyWrites os.tracing frame dev
  refine h.of_stream ?_ fun j => ?_
  · rw [hwrites.os]
    exact h.isOpen
  · rw [hwrites.sessions]
    rfl

private theorem SessionStreams.sendKv (h : SessionStreams dev.proc) (type : MsgType)
    (reqId : UInt32)
    (kvs : List Kv) : SessionStreams (sendKvResponse os.tracing type reqId kvs dev).2.proc := by
  rw [sendKvResponse]
  rcases encodeKv kvs with _ | payload
  · exact h
  · exact h.writeFrame _

theorem SessionStreams.opWith (h : SessionStreams dev.proc) (value : Option Bytes)
    {x : Bytes → Op (Traced σ) α} (hx : ∀ value, (x value).KeepsOpen) :
    SessionStreams (dev.opWith value x).2.proc := by
  rcases value with _ | value
  · exact h
  · exact h.op (hx value)

theorem SessionStreams.confirm {r : Option Unit × Device (Traced σ)}
    (h : SessionStreams r.2.proc) (reqId : UInt32) (pre : Bytes) :
    SessionStreams (confirm os.tracing reqId pre r).2.proc := by
  rcases r with ⟨_ | _, dev⟩
  · exact h.sendKv _ _ _
  · exact h.sendKv _ _ _

end Handlers

section Frames

variable (os : Os σ) (shell : ExecShell σ) (frame : Frame) {dev : Device (Traced σ)}

private theorem handleFileGet_streams (h : SessionStreams dev.proc) :
    SessionStreams (handleFileGet os.tracing frame dev).2.proc := by
  rw [handleFileGet]
  rcases decodeKv frame.payload maxKv with _ | kvs
  · exact h.sendKv _ _ _
  rcases hpath : kvGet kvs (utf8 "path") with _ | path
  · simp only [hpath]
    exact h.sendKv _ _ _
  simp only [hpath]
  have hread : SessionStreams (dev.op (fileRead os.tracing path)).2.proc :=
    h.op (fileRead_keepsOpen os path)
  rcases hrun : dev.op (fileRead os.tracing path) with ⟨_ | data, dev'⟩
  · rw [hrun] at hread
    exact hread.sendKv _ _ _
  · rw [hrun] at hread
    dsimp only
    split_ifs
    · exact hread.sendKv _ _ _
    · exact hread.writeFrame _

private theorem handleFileList_streams (h : SessionStreams dev.proc) :
    SessionStreams (handleFileList os.tracing frame dev).2.proc := by
  rw [handleFileList]
  rcases decodeKv frame.payload maxKv with _ | kvs
  · exact h.sendKv _ _ _
  have hlist : SessionStreams
      (dev.op (fileList os.tracing ((kvGet kvs (utf8 "path")).getD (utf8 ".")))).2.proc :=
    h.op (fileList_keepsOpen os _)
  dsimp only
  rcases hrun : dev.op (fileList os.tracing ((kvGet kvs (utf8 "path")).getD (utf8 "."))) with
    ⟨_ | ⟨files, dirs⟩, dev'⟩
  · rw [hrun] at hlist
    exact hlist.sendKv _ _ _
  · rw [hrun] at hlist
    exact hlist.sendKv _ _ _

private theorem handleFileStat_streams (h : SessionStreams dev.proc) :
    SessionStreams (handleFileStat os.tracing frame dev).2.proc := by
  rw [handleFileStat]
  rcases decodeKv frame.payload maxKv with _ | kvs
  · exact h.sendKv _ _ _
  have hstat : SessionStreams
      (dev.opWith (kvGet kvs (utf8 "path")) (fileStat os.tracing)).2.proc :=
    h.opWith _ (fileStat_keepsOpen os)
  dsimp only
  rcases hrun : dev.opWith (kvGet kvs (utf8 "path")) (fileStat os.tracing) with ⟨_ | st, dev'⟩
  · rw [hrun] at hstat
    exact hstat.sendKv _ _ _
  · rw [hrun] at hstat
    exact hstat.sendKv _ _ _

private theorem handleFileDelete_streams (h : SessionStreams dev.proc) :
    SessionStreams (handleFileDelete os.tracing frame dev).2.proc := by
  rw [handleFileDelete]
  rcases decodeKv frame.payload maxKv with _ | kvs
  · exact h.sendKv _ _ _
  · exact (h.opWith _ fun path => fileDelete_keepsOpen os path _).confirm _ _

private theorem handleFileMkdir_streams (h : SessionStreams dev.proc) :
    SessionStreams (handleFileMkdir os.tracing frame dev).2.proc := by
  rw [handleFileMkdir]
  rcases decodeKv frame.payload maxKv with _ | kvs
  · exact h.sendKv _ _ _
  · exact (h.opWith _ fun path => dirMkdir_keepsOpen os path _ _).confirm _ _

private theorem handleFileRename_streams (h : SessionStreams dev.proc) :
    SessionStreams (handleFileRename os.tracing frame dev).2.proc := by
  rw [handleFileRename]
  rcases decodeKv frame.payload maxKv with _ | kvs
  · exact h.sendKv _ _ _
  rcases hfrom : kvGet kvs (utf8 "from") with _ | fromPath
  · simp only [hfrom]
    exact h.sendKv _ _ _
  · simp only [hfrom]
    exact (h.opWith _ fun toPath => fileRename_keepsOpen os fromPath toPath _).confirm _ _

private theorem readTextLoop_closesOnFail (fp maxBytes fuel cap : ℕ) (buf : Bytes) :
    (readTextLoop os.tracing fp maxBytes fuel cap buf).ClosesOnFail fp := by
  induction fuel generalizing cap buf with
  | zero => exact Op.closesOnFail_pure fp buf
  | succ fuel ih =>
    -- a round that has its room reads, and goes on or comes back with what it has
    have hround : ∀ cap, (Op.sys (os.tracing.fread fp (cap - 1 - buf.length)) >>= fun read =>
        if (read.1.take (cap - 1 - buf.length)).length < cap - 1 - buf.length then
          pure (buf ++ read.1.take (cap - 1 - buf.length))
        else if maxBytes ≤ (buf ++ read.1.take (cap - 1 - buf.length)).length then
          pure (buf ++ read.1.take (cap - 1 - buf.length))
        else readTextLoop os.tracing fp maxBytes fuel cap
          (buf ++ read.1.take (cap - 1 - buf.length))).ClosesOnFail fp := by
      intro cap
      refine Op.ClosesOnFail.sys_bind (Op.uses_onStream fp fun fd => os.fread fd _) fun got => ?_
      split_ifs
      · exact Op.closesOnFail_pure fp _
      · exact Op.closesOnFail_pure fp _
      · exact ih _ _
    rw [readTextLoop]
    dsimp only
    split_ifs with hlimit hfull
    · exact Op.closesOnFail_pure fp buf
    · rw [readTextRoom, if_pos hfull]
      refine Op.ClosesOnFail.sys_bind ((Op.keepsOpen_lift (os.realloc _)).uses fp)
        fun granted => ?_
      split_ifs
      · exact hround _
      · exact Op.closesOnFail_failClosing os fp
    · rw [readTextRoom, if_neg hfull]
      exact hround cap

private theorem readTextFile_keepsOpen (path : Bytes) (maxBytes : ℕ) :
    (readTextFile os.tracing path maxBytes).KeepsOpen := by
  refine Op.keepsOpen_opening_bind (os.fopenRb path) (fun _ => Op.keepsOpen_fail) fun fp => ?_
  refine Op.Closes.sys_bind ((Op.keepsOpen_lift (os.malloc 1024)).uses fp) fun granted => ?_
  split_ifs
  · exact (readTextLoop_closesOnFail os fp maxBytes (maxBytes + 1) 1024 []).bind fun buf =>
      Op.closes_fclose_bind os fp fun _ => Op.keepsOpen_pure _
  · exact Op.closes_failClosing os fp

private theorem execCaptureTrim_keepsOpen (cmdline : Bytes) (timeoutMs : UInt32) :
    (execCaptureTrim shell.tracing cmdline timeoutMs).KeepsOpen := by
  refine (Op.keepsOpen_lift _).bind fun result => ?_
  rcases result with _ | r
  · exact Op.keepsOpen_fail
  · exact Op.keepsOpen_ite Op.keepsOpen_fail (Op.keepsOpen_pure _)

private theorem handleDevinfo_streams (h : SessionStreams dev.proc) :
    SessionStreams (handleDevinfo os.tracing shell.tracing frame dev).2.proc := by
  have hmodel := h.op (readTextFile_keepsOpen os (utf8 "/proc/device-tree/model") 4096)
  have hrelease := hmodel.op (Op.keepsOpen_lift os.uname)
  have hrootfs := hrelease.op (readTextFile_keepsOpen os (utf8 "/etc/os-release") 8192)
  have happ := hrootfs.op
    (execCaptureTrim_keepsOpen shell (utf8 "/root/epass_drm_app version") 3000)
  have hstorage := happ.op (storageInfoRead_keepsOpen os)
  exact SessionStreams.sendKv hstorage _ _ _

private theorem handleCommandExec_streams (h : SessionStreams dev.proc) :
    SessionStreams (handleCommandExec os.tracing shell.tracing frame dev).2.proc := by
  rw [handleCommandExec]
  rcases decodeCommandRequest frame.payload with _ | req
  · exact h.sendKv _ _ _
  dsimp only
  obtain ⟨opt, hopt⟩ : ∃ opt : ShellExecOptions, opt =
    { timeoutMs := orDefault req.timeoutMs dev.cfg.defaultTimeoutMs
      maxStdout := orDefault req.maxStdout dev.cfg.maxStdout
      maxStderr := orDefault req.maxStderr dev.cfg.maxStderr } := ⟨_, rfl⟩
  have hexec : SessionStreams
      { dev.proc with os := (shell.tracing (cStr req.command) opt dev.proc.os).2 } :=
    h.op (Op.keepsOpen_lift (shell (cStr req.command) opt))
  rw [← hopt]
  rcases hrun : shell.tracing (cStr req.command) opt dev.proc.os with ⟨_ | r, s⟩
  · rw [hrun] at hexec
    exact SessionStreams.sendKv hexec _ _ _
  · rw [hrun] at hexec
    dsimp only
    split_ifs
    · exact SessionStreams.sendKv hexec _ _ _
    · exact SessionStreams.writeFrame hexec _

/-- **Every frame keeps the invariant.** The handlers are gone through by the type of the
frame. -/
theorem SessionStreams.handleFrame (h : SessionStreams dev.proc) :
    SessionStreams (handleFrame os.tracing shell.tracing frame dev).2.proc := by
  rcases hcall : uploadCall? frame with _ | call
  swap
  · obtain ⟨payload, hrun⟩ := handleFrame_of_call os.tracing shell.tracing hcall dev
    rw [hrun]
    exact SessionStreams.writeFrame (h.call os call) _
  by_cases hframe : frame.IsUploadFrame
  · obtain ⟨payload, hrun⟩ := handleFrame_of_no_call os.tracing shell.tracing hframe hcall dev
    rw [hrun]
    exact h.writeFrame _
  rw [UsbResponder.handleFrame]
  rcases htype : MsgType.ofCode frame.header.type with _ | type
  · exact h.sendKv _ _ _
  have hcode := MsgType.ofCode_eq_some_iff.mp htype
  rcases type
  case filePutBegin => exact absurd (.inl hcode.symm) hframe
  case filePutChunk => exact absurd (.inr (.inl hcode.symm)) hframe
  case filePutEnd => exact absurd (.inr (.inr hcode.symm)) hframe
  case fileGet => exact handleFileGet_streams os frame h
  case fileList => exact handleFileList_streams os frame h
  case fileStat => exact handleFileStat_streams os frame h
  case fileDelete => exact handleFileDelete_streams os frame h
  case fileMkdir => exact handleFileMkdir_streams os frame h
  case fileRename => exact handleFileRename_streams os frame h
  case commandExec => exact handleCommandExec_streams os shell frame h
  case devinfo => exact handleDevinfo_streams os shell frame h
  all_goals exact h.sendKv _ _ _

end Frames

/-! ### The whole run -/

section Run

variable {os : Os σ} {shell : ExecShell σ}

theorem SessionStreams.silent {dev dev' : Device (Traced σ)} (h : SessionStreams dev.proc)
    (hsilent : dev.Silent dev') : SessionStreams dev'.proc := by
  refine h.of_stream ?_ fun j => ?_
  · rw [hsilent.os]
    exact h.isOpen
  · rw [hsilent.sessions]

/-- A round of the loop, however it ends. -/
theorem SessionStreams.ioStep {st : LoopState (Traced σ)} (h : SessionStreams st.rt.dev.proc)
    (input : LoopInput) :
    SessionStreams (ioStep os.tracing shell.tracing input st).state.rt.dev.proc := by
  obtain hsilent | ⟨dev, frame, hsilent, hdev⟩ := ioStep_cases os.tracing shell.tracing input st
  · exact h.silent hsilent
  · have hreceived : SessionStreams dev.proc := h.silent hsilent
    rw [hdev]
    exact SessionStreams.handleFrame os shell frame hreceived

/-- The state of `startState`, with nothing traced yet. No session is live, so no stream is
open. -/
def tracedStart (cfg : Config) (s : σ) (tx : List WriteOutcome) (rx : List RxOutcome) :
    LoopState (Traced σ) := startState cfg ⟨s, [], []⟩ tx rx

private theorem tracedStart_streams (cfg : Config) (s : σ) (tx : List WriteOutcome)
    (rx : List RxOutcome) : SessionStreams (tracedStart cfg s tx rx).rt.dev.proc := by
  have hnone : ∀ i, (fileOpsInit i).stream = none := fun _ => rfl
  have hempty : sessionStreams fileOpsInit = ∅ := by
    refine Finset.eq_empty_of_forall_notMem fun fp hfp => ?_
    obtain ⟨i, hi⟩ := mem_sessionStreams.mp hfp
    rw [hnone] at hi
    simp at hi
  refine ⟨⟨?_, fun fp hfp => ?_⟩, fun a b fp ha => ?_⟩
  · exact congrArg some hempty.symm
  · rw [show (tracedStart cfg s tx rx).rt.dev.proc.sessions = fileOpsInit from rfl, hempty] at hfp
    exact absurd hfp (Finset.notMem_empty fp)
  · rw [show (tracedStart cfg s tx rx).rt.dev.proc.sessions = fileOpsInit from rfl, hnone] at ha
    simp at ha

end Run

/-- **No stream is leaked.** For every sequence of inputs, whatever the frames and the
outcomes of all calls: in the state the loop has reached, every stream has been used only
while it was open, and the open streams are those of the upload sessions; and when
`usb_responder_run` returns, on whatever way, no stream is open, and each was closed as
often as it was opened. -/
theorem streams_released (os : Os σ) (shell : ExecShell σ) (cfg : Config) (s : σ)
    (tx : List WriteOutcome) (rx : List RxOutcome) (inputs : List LoopInput) :
    let start := tracedStart cfg s tx rx
    let proc := (runLoop os.tracing shell.tracing inputs start).2.rt.dev.proc
    openAfter proc.os.uses ∅ = some (sessionStreams proc.sessions) ∧
      ∀ setup ok rt, usbResponderRun os.tracing shell.tracing setup inputs start = some (ok, rt) →
        openAfter rt.dev.proc.os.uses ∅ = some ∅ ∧
          ∀ fp, rt.dev.proc.os.uses.count (.closed fp) =
            rt.dev.proc.os.uses.count (.opened fp) := by
  intro start proc
  have hstep : ∀ input (st : LoopState (Traced σ)), SessionStreams st.rt.dev.proc →
      SessionStreams (ioStep os.tracing shell.tracing input st).state.rt.dev.proc :=
    fun input _ h => h.ioStep input
  have hstart := tracedStart_streams cfg s tx rx
  have hrun : SessionStreams proc :=
    runLoop_induction os.tracing shell.tracing (P := fun st => SessionStreams st.rt.dev.proc)
      hstep inputs hstart
  refine ⟨hrun.isOpen.uses, fun setup ok rt hreturn => ?_⟩
  have hopen : openAfter rt.dev.proc.os.uses ∅ = some ∅ := by
    obtain ⟨⟨st, hst, rfl⟩, -⟩ := exists_of_usbResponderRun
      (P := fun st => SessionStreams st.rt.dev.proc) hstep hstart hreturn
    exact ((hst.silent (closeEps_silent st.rt)).shutdown os).uses
  exact ⟨hopen, count_closed_eq hopen⟩

end UsbResponder
