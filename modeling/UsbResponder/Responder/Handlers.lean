import Mathlib.Data.List.DropRight
import UsbResponder.FileOps.Tree
import UsbResponder.FileOps.Upload
import UsbResponder.Protocol.Command
import UsbResponder.Protocol.KeyValue
import UsbResponder.Responder.Device

/-!
# The handlers of requests

`handle_frame` of `responder.c` and the handlers it dispatches to. A handler decodes the
payload of its request, runs an operation and writes one response. The payload of a request
is all of `payload`: a frame from the decoder holds as many bytes as its length field says.

The handlers are near-identical, and each keeps its own definition under its name, in the
order of its checks. What they share are small functions for the ways a handler ends:
`sendOk`, `sendError`, `sendLastError`, and `confirm` for an operation without a result. A
missing parameter is a value that `kv_get` does not find; some handlers then report the last
error, which they have not set, and this is kept.

`usb_responder_exec_shell` is a parameter, a function that may read and change the state
outside the process; the function itself is in `Responder.ShellExec`. The responses of the
handlers are freed by their callers in the source, which is not followed, and the growing
buffer of `read_text_file` is a capacity here and cells in `Responder.TextFiles`.
-/

namespace UsbResponder

open LittleEndian CString

variable {σ α : Type}

/-! ### Message types -/

/-- `usb_responder_msg_type_t`, with the constructors in the order of their values. -/
inductive MsgType
  | hello
  | status
  | error
  | filePutBegin
  | filePutChunk
  | filePutEnd
  | fileGet
  | fileList
  | fileDelete
  | fileRename
  | fileMkdir
  | fileStat
  | commandExec
  | commandResult
  | devinfo
  deriving DecidableEq, Repr

/-- The value of a message type in a frame. Requests, responses and the error have values
from one enumeration. -/
def MsgType.code : MsgType → UInt16
  | .hello => 1
  | .status => 2
  | .error => 3
  | .filePutBegin => 10
  | .filePutChunk => 11
  | .filePutEnd => 12
  | .fileGet => 13
  | .fileList => 14
  | .fileDelete => 15
  | .fileRename => 16
  | .fileMkdir => 17
  | .fileStat => 18
  | .commandExec => 20
  | .commandResult => 21
  | .devinfo => 30

/-- All message types, in the order of their values. -/
def MsgType.all : List MsgType :=
  [.hello, .status, .error, .filePutBegin, .filePutChunk, .filePutEnd, .fileGet, .fileList,
    .fileDelete, .fileRename, .fileMkdir, .fileStat, .commandExec, .commandResult, .devinfo]

/-- The message type with a given value, none for a value that no type has. -/
def MsgType.ofCode (code : UInt16) : Option MsgType := MsgType.all.find? fun t => t.code = code

/-- A type is found by its value. -/
theorem MsgType.ofCode_eq_some_iff {code : UInt16} {t : MsgType} :
    MsgType.ofCode code = some t ↔ t.code = code := by
  have hall : ∀ t : MsgType, MsgType.ofCode t.code = some t := by
    intro t
    cases t <;> decide
  constructor
  · intro h
    simpa using List.find?_some h
  · rintro rfl
    exact hall t

/-! ### Shell commands -/

/-- `usb_responder_shell_exec_options_t`: the time limit, and how much output is kept. -/
structure ShellExecOptions where
  timeoutMs : UInt32
  maxStdout : UInt32
  maxStderr : UInt32
  deriving DecidableEq, Repr

/-- `usb_responder_shell_exec_result_t`, with the two buffers as their contents. -/
structure ShellExecResult where
  exitCode : Int32
  timedOut : Bool
  durationMs : UInt32
  stdoutData : Bytes
  stderrData : Bytes
  deriving DecidableEq

/-- A function that runs a command in a shell, `none` for `return false`. It stands for
`usb_responder_exec_shell` and may do anything to the outside. -/
abbrev ExecShell (σ : Type) := Bytes → ShellExecOptions → σ → Option ShellExecResult × σ

/-! ### Responses -/

/-- A response; the header fields that are not set are those of `memset`. -/
def responseFrame (type : MsgType) (reqId : UInt32) (payload : Bytes) : Frame where
  header := { type := type.code, requestId := reqId, payloadLen := UInt32.ofNat payload.length }
  payload := payload

/-- `send_kv_response`. More items than a payload can hold are an error, which no handler
runs into. -/
def sendKvResponse (os : Os σ) (type : MsgType) (reqId : UInt32) (kvs : List Kv)
    (dev : Device σ) : Bool × Device σ :=
  match encodeKv kvs with
  | none => (false, dev)
  | some payload => writeFrame os (responseFrame type reqId payload) dev

/-- A list of items that fits into a payload is always sent. -/
theorem sendKvResponse_eq (os : Os σ) (type : MsgType) (reqId : UInt32) {kvs : List Kv}
    (hcount : kvs.length ≤ maxKv) (dev : Device σ) :
    ∃ payload, sendKvResponse os type reqId kvs dev =
      writeFrame os (responseFrame type reqId payload) dev := by
  obtain ⟨payload, hpayload⟩ : ∃ payload, encodeKv kvs = some payload :=
    ⟨_, if_neg (not_lt.mpr hcount)⟩
  refine ⟨payload, ?_⟩
  rw [sendKvResponse, hpayload]

/-- `send_error`: a response of type `ERROR` with the text as its only item. -/
def sendError (os : Os σ) (reqId : UInt32) (msg : Bytes) (dev : Device σ) : Bool × Device σ :=
  sendKvResponse os .error reqId [⟨utf8 "message", msg⟩] dev

/-- `send_last_error`. It reads the last error, whoever has set it. -/
def sendLastError (os : Os σ) (reqId : UInt32) (pre : Bytes) (dev : Device σ) :
    Bool × Device σ :=
  let detail := dev.proc.lastError
  sendError os reqId (snprintf 512 (if detail ≠ [] then pre ++ utf8 ": " ++ detail else pre)) dev

/-- The response `status=ok` of the handlers whose operation delivers nothing to be sent. -/
def sendOk (os : Os σ) (reqId : UInt32) (dev : Device σ) : Bool × Device σ :=
  sendKvResponse os .status reqId [⟨utf8 "status", utf8 "ok"⟩] dev

/-- Run an operation on the process. The endpoints take no part in it. -/
def Device.op (dev : Device σ) (x : Op σ α) : Option α × Device σ :=
  let r := x.run dev.proc
  (r.1, { dev with proc := r.2 })

/-- The end of a handler that confirms an operation without a result, or reports its error.
It is written out in each of these handlers. -/
def confirm (os : Os σ) (reqId : UInt32) (pre : Bytes) :
    Option Unit × Device σ → Bool × Device σ
  | (none, dev) => sendLastError os reqId pre dev
  | (some (), dev) => sendOk os reqId dev

/-! ### Uploads -/

/-- `handle_file_put_begin`. The request id of the frame becomes the id of the transfer. -/
def handleFilePutBegin (os : Os σ) (frame : Frame) (dev : Device σ) : Bool × Device σ :=
  let reqId := frame.header.requestId
  match decodeKv frame.payload maxKv with
  | none => sendError os reqId (utf8 "invalid kv payload") dev
  | some kvs =>
    match kvGet kvs (utf8 "path") with
    | none => sendError os reqId (utf8 "missing path") dev
    | some path =>
      match dev.op (fileBeginUpload os reqId path (kvGet kvs (utf8 "desire_storage"))
        (kvGet kvs (utf8 "perm"))) with
      | (none, dev) => sendLastError os reqId (utf8 "begin upload failed") dev
      | (some (), dev) =>
        sendKvResponse os .status reqId
          [⟨utf8 "status", utf8 "ok"⟩, ⟨utf8 "transfer_id", utf8 "request_id"⟩] dev

/-- The transfer id of a chunk or an end: its first four bytes, or the request id when the
payload is shorter. A payload of four bytes or more always gives its first four, whatever
they were meant to be. -/
def transferId (frame : Frame) : UInt32 :=
  if 4 ≤ frame.payload.length then readLe32 frame.payload else frame.header.requestId

/-- The data of a chunk: what follows the transfer id, or everything when the payload is
shorter. -/
def chunkData (frame : Frame) : Bytes :=
  if 4 ≤ frame.payload.length then frame.payload.drop 4 else frame.payload

/-- `handle_file_put_chunk`. Every chunk has its own response, and one that is refused does
not end the upload. -/
def handleFilePutChunk (os : Os σ) (frame : Frame) (dev : Device σ) : Bool × Device σ :=
  confirm os frame.header.requestId (utf8 "append upload failed")
    (dev.op (fileAppendUploadChunk os (transferId frame) (chunkData frame)))

/-- `handle_file_put_end`. Its response is the only one that confirms the file. -/
def handleFilePutEnd (os : Os σ) (frame : Frame) (dev : Device σ) : Bool × Device σ :=
  confirm os frame.header.requestId (utf8 "finish upload failed")
    (dev.op (fileFinishUpload os (transferId frame)))

/-! ### Files and directories -/

/-- `handle_file_get`. A file that is too long for a frame is an error after it has been
read. -/
def handleFileGet (os : Os σ) (frame : Frame) (dev : Device σ) : Bool × Device σ :=
  let reqId := frame.header.requestId
  match decodeKv frame.payload maxKv with
  | none => sendError os reqId (utf8 "invalid kv payload") dev
  | some kvs =>
    match kvGet kvs (utf8 "path") with
    | none => sendError os reqId (utf8 "missing path") dev
    | some path =>
      match dev.op (fileRead os path) with
      | (none, dev) => sendError os reqId (utf8 "read file failed") dev
      | (some data, dev) =>
        if UInt32.size ≤ data.length then sendError os reqId (utf8 "file too large") dev
        else writeFrame os (responseFrame .fileGet reqId data) dev

/-- `handle_file_list`. A request without a path lists the root. -/
def handleFileList (os : Os σ) (frame : Frame) (dev : Device σ) : Bool × Device σ :=
  let reqId := frame.header.requestId
  match decodeKv frame.payload maxKv with
  | none => sendError os reqId (utf8 "invalid kv payload") dev
  | some kvs =>
    match dev.op (fileList os ((kvGet kvs (utf8 "path")).getD (utf8 "."))) with
    | (none, dev) => sendLastError os reqId (utf8 "list failed") dev
    | (some (files, dirs), dev) =>
      sendKvResponse os .status reqId [⟨utf8 "files", files⟩, ⟨utf8 "dirs", dirs⟩] dev

/-- An operation on the value of a key that must be present. Where it is not, no operation
is run, and the last error stays what it was. -/
def Device.opWith (dev : Device σ) (value : Option Bytes) (x : Bytes → Op σ α) :
    Option α × Device σ :=
  match value with
  | none => (none, dev)
  | some value => dev.op (x value)

/-- `handle_file_delete`. A directory is deleted with everything in it. -/
def handleFileDelete (os : Os σ) (frame : Frame) (dev : Device σ) : Bool × Device σ :=
  let reqId := frame.header.requestId
  match decodeKv frame.payload maxKv with
  | none => sendError os reqId (utf8 "invalid kv payload") dev
  | some kvs =>
    confirm os reqId (utf8 "delete failed") (dev.opWith (kvGet kvs (utf8 "path")) fun path =>
      fileDelete os path (kvGet kvs (utf8 "desire_storage")))

/-- `handle_file_rename`. Without one of the two paths no operation is run. -/
def handleFileRename (os : Os σ) (frame : Frame) (dev : Device σ) : Bool × Device σ :=
  let reqId := frame.header.requestId
  match decodeKv frame.payload maxKv with
  | none => sendError os reqId (utf8 "invalid kv payload") dev
  | some kvs =>
    match kvGet kvs (utf8 "from") with
    | none => sendLastError os reqId (utf8 "rename failed") dev
    | some fromPath =>
      confirm os reqId (utf8 "rename failed") (dev.opWith (kvGet kvs (utf8 "to")) fun toPath =>
        fileRename os fromPath toPath (kvGet kvs (utf8 "desire_storage")))

/-- The values of `parents` that ask for missing parents. Upper and lower case are the same,
and any other value is a no. -/
def isParentsValue (value : Bytes) : Bool :=
  value = utf8 "1" || eqIgnoreCase value (utf8 "true") || eqIgnoreCase value (utf8 "yes")

/-- `handle_file_mkdir`. Without `parents` only the last directory is made. -/
def handleFileMkdir (os : Os σ) (frame : Frame) (dev : Device σ) : Bool × Device σ :=
  let reqId := frame.header.requestId
  match decodeKv frame.payload maxKv with
  | none => sendError os reqId (utf8 "invalid kv payload") dev
  | some kvs =>
    let parents := (kvGet kvs (utf8 "parents")).any isParentsValue
    confirm os reqId (utf8 "mkdir failed") (dev.opWith (kvGet kvs (utf8 "path")) fun path =>
      dirMkdir os path parents (kvGet kvs (utf8 "desire_storage")))

/-- `handle_file_stat`. All figures are sent as text, the permission in octal digits. -/
def handleFileStat (os : Os σ) (frame : Frame) (dev : Device σ) : Bool × Device σ :=
  let reqId := frame.header.requestId
  match decodeKv frame.payload maxKv with
  | none => sendError os reqId (utf8 "invalid kv payload") dev
  | some kvs =>
    match dev.opWith (kvGet kvs (utf8 "path")) (fileStat os) with
    | (none, dev) => sendLastError os reqId (utf8 "stat failed") dev
    | (some st, dev) =>
      sendKvResponse os .status reqId
        [⟨utf8 "owner", st.owner⟩, ⟨utf8 "perm", st.perm⟩, ⟨utf8 "size", st.size⟩,
          ⟨utf8 "type", st.type⟩] dev

/-! ### Device information and commands -/

/-- A byte `read_text_file` and `exec_capture_trim` cut off at the end: a newline, a
carriage return, a space or a tab. -/
def isTrailing (b : UInt8) : Bool := b = 10 || b = 13 || b = 32 || b = 9

/-- The room of a round of `read_text_file`: a full buffer is enlarged. -/
def readTextRoom (os : Os σ) (full : Prop) [Decidable full] (newCap : ℕ) : Op σ Bool :=
  if full then Op.sys (os.realloc newCap) else pure true

/-- The loop of `read_text_file`: the capacity of the buffer and what was read so far. Every
round that goes on reads a byte, so `fuel` above `maxBytes` is never used up. The stream is
closed on each of its exits. -/
def readTextLoop (os : Os σ) (fp maxBytes : ℕ) : ℕ → ℕ → Bytes → Op σ Bytes
  | 0, _, buf => pure buf
  | fuel + 1, cap, buf =>
    let full := cap ≤ buf.length + 1
    let newCap := min (cap * 2) (maxBytes + 1)
    if full ∧ newCap = cap then pure buf
    else do
      if ← readTextRoom os full newCap then do
        let cap := if full then newCap else cap
        let want := cap - 1 - buf.length
        let (data, _) ← Op.sys (os.fread fp want)
        let got := data.take want
        let buf := buf ++ got
        if got.length < want then pure buf
        else if maxBytes ≤ buf.length then pure buf
        else readTextLoop os fp maxBytes fuel cap buf
      else Op.failClosing os fp

/-- `read_text_file`, with the text it delivers and without its buffer, whose sizes are
modelled in `Responder.TextFiles`. -/
def readTextFile (os : Os σ) (path : Bytes) (maxBytes : ℕ) : Op σ Bytes := do
  match ← Op.sys (os.fopenRb path) with
  | .error _ => Op.fail
  | .ok fp =>
    if ← Op.sys (os.malloc 1024) then do
      let buf ← readTextLoop os fp maxBytes (maxBytes + 1) 1024 []
      let _ ← Op.sys (os.fclose fp)
      return (cStr buf).rdropWhile isTrailing
    else Op.failClosing os fp

/-- `exec_capture_trim`. A command that is killed or fails has no output, whatever it has
written. -/
def execCaptureTrim (shell : ExecShell σ) (cmdline : Bytes) (timeoutMs : UInt32) :
    Op σ Bytes := do
  match ← Op.sys (shell cmdline ⟨timeoutMs, 4096, 4096⟩) with
  | none => Op.fail
  | some r =>
    if r.timedOut ∨ r.exitCode ≠ 0 then Op.fail
    else return r.stdoutData.rdropWhile isTrailing

/-- The nine items `handle_devinfo` collects, and the process after that. Each is collected
whether the ones before it could be found out or not. -/
def devinfoKvs (os : Os σ) (shell : ExecShell σ) (p : Proc σ) : List Kv × Proc σ :=
  let (model, p) := (readTextFile os (utf8 "/proc/device-tree/model") 4096).run p
  let (release, p) := (Op.sys os.uname).run p
  let (rootfs, p) := (readTextFile os (utf8 "/etc/os-release") 8192).run p
  let (app, p) := (execCaptureTrim shell (utf8 "/root/epass_drm_app version") 3000).run p
  let (storage, p) := (storageInfoRead os).run p
  let figure (f : StorageInfo → ℕ) : Bytes :=
    (storage.map fun s => snprintf 32 (formatNat 10 0 (f s))).getD (utf8 "0")
  ([⟨utf8 "model", model.getD []⟩,
    ⟨utf8 "kernel", (release.join.map (snprintf 128)).getD []⟩,
    ⟨utf8 "rootfs", rootfs.getD []⟩,
    ⟨utf8 "app", app.getD []⟩,
    ⟨utf8 "sd_mounted", figure fun s => if s.sdMounted then 1 else 0⟩,
    ⟨utf8 "nand_total_bytes", figure fun s => s.nandTotalBytes.toNat⟩,
    ⟨utf8 "nand_free_bytes", figure fun s => s.nandFreeBytes.toNat⟩,
    ⟨utf8 "sd_total_bytes", figure fun s => s.sdTotalBytes.toNat⟩,
    ⟨utf8 "sd_free_bytes", figure fun s => s.sdFreeBytes.toNat⟩], p)

/-- `handle_devinfo`. What cannot be found out is left empty, or zero for a figure. -/
def handleDevinfo (os : Os σ) (shell : ExecShell σ) (frame : Frame) (dev : Device σ) :
    Bool × Device σ :=
  let r := devinfoKvs os shell dev.proc
  sendKvResponse os .devinfo frame.header.requestId r.1 { dev with proc := r.2 }

/-- `a ? a : b` on numbers, by which a zero in a request asks for the default of the device. -/
def orDefault (a b : UInt32) : UInt32 := if a ≠ 0 then a else b

/-- `handle_command_exec`. The command ends at its first NUL, and a result that does not fit
into a frame is reported as an error after the command has run. -/
def handleCommandExec (os : Os σ) (shell : ExecShell σ) (frame : Frame) (dev : Device σ) :
    Bool × Device σ :=
  let reqId := frame.header.requestId
  match decodeCommandRequest frame.payload with
  | none => sendError os reqId (utf8 "invalid command payload") dev
  | some req =>
    let opt : ShellExecOptions :=
      { timeoutMs := orDefault req.timeoutMs dev.cfg.defaultTimeoutMs
        maxStdout := orDefault req.maxStdout dev.cfg.maxStdout
        maxStderr := orDefault req.maxStderr dev.cfg.maxStderr }
    match shell (cStr req.command) opt dev.proc.os with
    | (none, s) =>
      sendError os reqId (utf8 "shell exec failed") { dev with proc.os := s }
    | (some r, s) =>
      let payload := encodeCommandResult
        { exitCode := r.exitCode, timedOut := r.timedOut, durationMs := r.durationMs
          stdoutData := r.stdoutData, stderrData := r.stderrData }
      if UInt32.size ≤ payload.length then
        sendError os reqId (utf8 "command result too large") { dev with proc.os := s }
      else writeFrame os (responseFrame .commandResult reqId payload) { dev with proc.os := s }

/-! ### Dispatch -/

/-- `handle_frame`. Types that are no requests, and unknown ones, get an error response. -/
def handleFrame (os : Os σ) (shell : ExecShell σ) (frame : Frame) (dev : Device σ) :
    Bool × Device σ :=
  match MsgType.ofCode frame.header.type with
  | some .hello =>
    sendKvResponse os .status frame.header.requestId
      [⟨utf8 "service", utf8 "usb_responder"⟩, ⟨utf8 "version", utf8 "1"⟩] dev
  | some .filePutBegin => handleFilePutBegin os frame dev
  | some .filePutChunk => handleFilePutChunk os frame dev
  | some .filePutEnd => handleFilePutEnd os frame dev
  | some .fileGet => handleFileGet os frame dev
  | some .fileList => handleFileList os frame dev
  | some .fileDelete => handleFileDelete os frame dev
  | some .fileRename => handleFileRename os frame dev
  | some .fileMkdir => handleFileMkdir os frame dev
  | some .fileStat => handleFileStat os frame dev
  | some .commandExec => handleCommandExec os shell frame dev
  | some .devinfo => handleDevinfo os shell frame dev
  | _ => sendError os frame.header.requestId (utf8 "unsupported message type") dev

end UsbResponder
