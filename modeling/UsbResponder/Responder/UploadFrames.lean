import UsbResponder.FileOps.SessionTable
import UsbResponder.Responder.Handlers
import UsbResponder.System.FileSystem

/-!
# The frames of an upload

`FILE_PUT_BEGIN`, `FILE_PUT_CHUNK` and `FILE_PUT_END` as calls of the session functions.
`uploadCall?` is the call a frame makes; a begin whose payload is not a list of items with a
path makes none. Handling such a frame is its call, and then one response that says whether
the call succeeded (`handleFrame_of_call`), or an error and nothing else
(`handleFrame_of_no_call`).

With these two, what holds of runs of calls holds of runs of frames, and the modules about
uploads do not look into the handlers. What becomes of the response is left open here unless
no `write` fails: a call has had its effect before the response is written, and keeps it
when the response cannot be.
-/

namespace UsbResponder

open CString

variable {σ : Type} (os : Os σ) (shell : ExecShell σ) {frame : Frame} {call : UploadCall}

/-! ### The call of a frame -/

/-- A frame of one of the three types. -/
def Frame.IsUploadFrame (frame : Frame) : Prop :=
  frame.header.type = MsgType.filePutBegin.code ∨ frame.header.type = MsgType.filePutChunk.code ∨
    frame.header.type = MsgType.filePutEnd.code

/-- The call of a begin. -/
def beginCall? (frame : Frame) : Option UploadCall :=
  match decodeKv frame.payload maxKv with
  | none => none
  | some kvs =>
    match kvGet kvs (utf8 "path") with
    | none => none
    | some path =>
      some (.begin frame.header.requestId path (kvGet kvs (utf8 "desire_storage"))
        (kvGet kvs (utf8 "perm")))

/-- The call of a session function that a frame makes. A chunk and an end always make one,
whatever their payload. -/
def uploadCall? (frame : Frame) : Option UploadCall :=
  match MsgType.ofCode frame.header.type with
  | some .filePutBegin => beginCall? frame
  | some .filePutChunk => some (.append (transferId frame) (chunkData frame))
  | some .filePutEnd => some (.finish (transferId frame))
  | _ => none

theorem uploadCall?_begin (h : frame.header.type = MsgType.filePutBegin.code) :
    uploadCall? frame = beginCall? frame := by
  rw [uploadCall?, MsgType.ofCode_eq_some_iff.mpr h.symm]

theorem uploadCall?_chunk (h : frame.header.type = MsgType.filePutChunk.code) :
    uploadCall? frame = some (.append (transferId frame) (chunkData frame)) := by
  rw [uploadCall?, MsgType.ofCode_eq_some_iff.mpr h.symm]

theorem uploadCall?_end (h : frame.header.type = MsgType.filePutEnd.code) :
    uploadCall? frame = some (.finish (transferId frame)) := by
  rw [uploadCall?, MsgType.ofCode_eq_some_iff.mpr h.symm]

/-! ### Handling -/

/-- The type of the response to a call. -/
def responseType : Option Unit → MsgType
  | some () => .status
  | none => .error

theorem sendError_eq (reqId : UInt32) (msg : Bytes) (dev : Device σ) :
    ∃ payload, sendError os reqId msg dev =
      writeFrame os (responseFrame .error reqId payload) dev :=
  sendKvResponse_eq os .error reqId (by simp [maxKv]) dev

theorem sendLastError_eq (reqId : UInt32) (pre : Bytes) (dev : Device σ) :
    ∃ payload, sendLastError os reqId pre dev =
      writeFrame os (responseFrame .error reqId payload) dev :=
  sendError_eq os reqId _ dev

private theorem sendOk_eq (reqId : UInt32) (dev : Device σ) :
    ∃ payload, sendOk os reqId dev = writeFrame os (responseFrame .status reqId payload) dev :=
  sendKvResponse_eq os .status reqId (by simp [maxKv]) dev

/-- A confirmation reports the result of its operation. -/
theorem confirm_op_eq (reqId : UInt32) (pre : Bytes) (x : Op σ Unit) (dev : Device σ) :
    ∃ payload, confirm os reqId pre (dev.op x) =
      writeFrame os (responseFrame (responseType (x.run dev.proc).1) reqId payload)
        { dev with proc := (x.run dev.proc).2 } := by
  rw [Device.op]
  rcases x.run dev.proc with ⟨_ | _, p⟩
  · exact sendLastError_eq os reqId pre _
  · exact sendOk_eq os reqId _

/-- **A frame with a call.** Handling it makes the call and reports its result. -/
theorem handleFrame_of_call (h : uploadCall? frame = some call) (dev : Device σ) :
    ∃ payload, handleFrame os shell frame dev =
      writeFrame os
        (responseFrame (responseType ((call.op os).run dev.proc).1) frame.header.requestId payload)
        { dev with proc := ((call.op os).run dev.proc).2 } := by
  rw [uploadCall?] at h
  split at h
  · rename_i htype
    rw [handleFrame, htype]
    dsimp only
    rw [beginCall?] at h
    rw [handleFilePutBegin]
    rcases hkvs : decodeKv frame.payload maxKv with _ | kvs
    · simp [hkvs] at h
    rcases hpath : kvGet kvs (utf8 "path") with _ | path
    · simp [hkvs, hpath] at h
    simp only [hkvs, hpath] at h
    obtain rfl := Option.some.inj h
    simp only [hpath, Device.op, UploadCall.op]
    rcases (fileBeginUpload os frame.header.requestId path (kvGet kvs (utf8 "desire_storage"))
      (kvGet kvs (utf8 "perm"))).run dev.proc with ⟨_ | _, p⟩
    · exact sendLastError_eq os _ _ _
    · exact sendKvResponse_eq os .status _ (by simp [maxKv]) _
  · rename_i htype
    obtain rfl := Option.some.inj h
    rw [handleFrame, htype]
    exact confirm_op_eq os _ _ _ dev
  · rename_i htype
    obtain rfl := Option.some.inj h
    rw [handleFrame, htype]
    exact confirm_op_eq os _ _ _ dev
  · simp at h

/-- The sessions and the outside world after a frame with a call are those after its call. -/
theorem handleFrame_of_call_proc (h : uploadCall? frame = some call) (dev : Device σ) :
    let dev' := (handleFrame os shell frame dev).2
    dev'.proc.sessions = ((call.op os).run dev.proc).2.sessions ∧
      dev'.proc.os = ((call.op os).run dev.proc).2.os := by
  intro dev'
  obtain ⟨payload, hrun⟩ := handleFrame_of_call os shell h dev
  have honly := writeFrame_onlyWrites os
    (responseFrame (responseType ((call.op os).run dev.proc).1) frame.header.requestId payload)
    { dev with proc := ((call.op os).run dev.proc).2 }
  rw [← hrun] at honly
  exact ⟨honly.sessions, honly.os⟩

/-- **A begin without a call.** It is answered with an error, and the process stays as it
is. -/
theorem handleFrame_of_no_call (hframe : frame.IsUploadFrame) (h : uploadCall? frame = none)
    (dev : Device σ) :
    ∃ payload, handleFrame os shell frame dev =
      writeFrame os (responseFrame .error frame.header.requestId payload) dev := by
  obtain htype | htype | htype := hframe
  · rw [uploadCall?_begin htype, beginCall?] at h
    rw [handleFrame, MsgType.ofCode_eq_some_iff.mpr htype.symm]
    dsimp only
    rw [handleFilePutBegin]
    rcases hkvs : decodeKv frame.payload maxKv with _ | kvs
    · exact sendError_eq os _ _ dev
    rcases hpath : kvGet kvs (utf8 "path") with _ | path
    · simp only [hpath]
      exact sendError_eq os _ _ dev
    · simp [hkvs, hpath] at h
  · rw [uploadCall?_chunk htype] at h
    simp at h
  · rw [uploadCall?_end htype] at h
    simp at h

/-- The sessions after a frame of an upload are those after its call, however the response
fares. A frame without a call leaves them as they are. -/
theorem handleFrame_sessions (hframe : frame.IsUploadFrame) (dev : Device σ) :
    (handleFrame os shell frame dev).2.proc.sessions =
      match uploadCall? frame with
      | none => dev.proc.sessions
      | some call => ((call.op os).run dev.proc).2.sessions := by
  cases hcall : uploadCall? frame with
  | none =>
    obtain ⟨payload, hrun⟩ := handleFrame_of_no_call os shell hframe hcall dev
    rw [hrun]
    exact (writeFrame_onlyWrites os _ dev).sessions
  | some call =>
    exact (handleFrame_of_call_proc os shell hcall dev).1

/-- When no `write` fails, the process after a frame is the process after its call, and its
response has been sent completely. -/
theorem handleFrame_of_call_of_benign (h : uploadCall? frame = some call) {dev : Device σ}
    (hb : dev.Benign) :
    ∃ payload dev', handleFrame os shell frame dev = (true, dev') ∧ dev'.Benign ∧
      dev'.proc = ((call.op os).run dev.proc).2 ∧
      ∃ writes, dev'.log = dev.log ++ .sending (responseFrame
          (responseType ((call.op os).run dev.proc).1) frame.header.requestId payload) :: writes ∧
        (∀ event ∈ writes, event.IsWrite) ∧
        sentBytes writes = encodeFrame (responseFrame
          (responseType ((call.op os).run dev.proc).1) frame.header.requestId payload) := by
  obtain ⟨payload, hrun⟩ := handleFrame_of_call os shell h dev
  obtain ⟨dev', hwrite, hwrote⟩ := writeFrame_of_benign
    (show ({ dev with proc := ((call.op os).run dev.proc).2 } : Device σ).Benign from hb) os
    (responseFrame (responseType ((call.op os).run dev.proc).1) frame.header.requestId payload)
  obtain ⟨writes, hlog, hwrites, hsent⟩ := hwrote.log
  refine ⟨payload, dev', hrun.trans hwrite, hwrote.benign hb, hwrote.proc, writes, ?_, hwrites,
    hsent⟩
  rw [hlog, Device.record, List.append_assoc]
  rfl

/-- A device on the empty file system with an empty session table. -/
def idleDevice : Device Fs where
  cfg := ⟨0, 0, 0⟩
  proc := ⟨fileOpsInit, [], Fs.empty⟩
  tx := []
  log := []

end UsbResponder
