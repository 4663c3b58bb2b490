import UsbResponder.FileOps.Reporting
import UsbResponder.Responder.Responses

/-!
# Responses and history

What a request is answered must depend on the request, the sessions and the outside, and not
on what the process has done before. The one thing that can carry history into a response is
the last error: `send_last_error` reads it, and five handlers can reach it although their
request has not set it. Three of them and a rename look at a missing parameter first, and a
list does not say why its directory cannot be opened; `borrowedReport` is the condition.

`response_ignores_history_iff` compares two histories that end with the same sessions and
the same outside: the next frame is answered alike exactly when its handler does not report
an error it has not set, or both histories have left the same one.

One direction is a matter of the handlers: where nothing is borrowed, a handler sends the
same from all devices that agree but for the last error (`SendsOne`), which follows from its
operation reporting its own failures. For the other, two reports are the same bytes only if
they show the same last error, and this needs to know what texts the buffer can hold.
`Device.Reached` are the devices a history can lead to, and the buffer holds an `ErrorText`
in all of them.

Commands and device information are excluded, since what they answer depends on the shell.
-/

namespace UsbResponder

open LittleEndian CString

variable {σ α β : Type}

/-! ### Reports -/

/-- The text of `send_last_error`: a prefix of the handler, and the last error behind it. -/
def reportText (pre detail : Bytes) : Bytes :=
  snprintf 512 (if detail ≠ [] then pre ++ utf8 ": " ++ detail else pre)

/-- The response with an error message. -/
def errorReport (reqId : UInt32) (msg : Bytes) : Frame :=
  responseFrame .error reqId (writeLe16 1 ++ encodeKvRecord ⟨utf8 "message", msg⟩)

theorem sendError_eq_report (os : Os σ) (reqId : UInt32) (msg : Bytes) (dev : Device σ) :
    sendError os reqId msg dev = writeFrame os (errorReport reqId msg) dev := by
  have hpayload : encodeKv [⟨utf8 "message", msg⟩] =
      some (writeLe16 1 ++ encodeKvRecord ⟨utf8 "message", msg⟩) := by
    have hcount : ¬maxKv < ([⟨utf8 "message", msg⟩] : List Kv).length := by simp [maxKv]
    rw [encodeKv, if_neg hcount, List.flatMap_cons, List.flatMap_nil, List.append_nil]
    rfl
  rw [sendError, sendKvResponse, hpayload, errorReport]

/-! ### Handlers that answer alike -/

/-- The run `r` of a handler from `dev` sends `resp`, and leaves a text of the buffer as the
last error if it has found one. The second part carries the invariant of the buffer along. -/
def Sends (os : Os σ) (dev : Device σ) (resp : Frame) (r : Bool × Device σ) : Prop :=
  ∃ dev', dev'.log = dev.log ∧
    (ErrorText dev.proc.lastError → ErrorText dev'.proc.lastError) ∧ r = writeFrame os resp dev'

/-- A handler sends the same from all devices for which `P` holds. The response is one and
the same frame, so it is independent of what else the devices differ in. -/
def SendsOne (os : Os σ) (P : Device σ → Prop) (handler : Device σ → Bool × Device σ) : Prop :=
  ∃ resp, ∀ dev, P dev → Sends os dev resp (handler dev)

/-- The process of a device is `p` but for the last error. The log and the script of `write`
calls are not compared. -/
def Device.Agrees (p : Proc σ) (dev : Device σ) : Prop := ∃ e, dev.proc = { p with lastError := e }

section Handlers

variable (os : Os σ) (reqId : UInt32) {P : Device σ → Prop} (p : Proc σ) (frame : Frame)

private theorem sendsOne_sendKv (type : MsgType) {kvs : List Kv} (hcount : kvs.length ≤ maxKv) :
    SendsOne os P (sendKvResponse os type reqId kvs) := by
  obtain ⟨payload, hpayload⟩ : ∃ payload, encodeKv kvs = some payload :=
    ⟨_, if_neg (not_lt.mpr hcount)⟩
  refine ⟨responseFrame type reqId payload, fun dev _ => ⟨dev, rfl, id, ?_⟩⟩
  rw [sendKvResponse, hpayload]

private theorem sendsOne_sendError (msg : Bytes) : SendsOne os P (sendError os reqId msg) :=
  ⟨errorReport reqId msg, fun dev _ => ⟨dev, rfl, id, sendError_eq_report os reqId msg dev⟩⟩

private theorem sendsOne_sendOk : SendsOne os P (sendOk os reqId) :=
  sendsOne_sendKv os reqId .status (by simp [maxKv])

/-- The last error is reported alike where it is the same. -/
private theorem sendsOne_sendLastError (pre : Bytes) {msg : Bytes}
    (h : ∀ dev, P dev → dev.proc.lastError = msg) : SendsOne os P (sendLastError os reqId pre) := by
  refine ⟨errorReport reqId (reportText pre msg), fun dev hdev => ⟨dev, rfl, id, ?_⟩⟩
  rw [← h dev hdev, ← sendError_eq_report]
  rfl

/-- A handler that goes on with an operation that reports its failures. -/
private theorem sendsOne_op {p : Proc σ} {x : Op σ α} (hx : x.ReportsAt False p)
    (k : Option α × Device σ → Bool × Device σ)
    (hnone : ∀ msg, SendsOne os (fun dev => dev.proc.lastError = msg) fun dev => k (none, dev))
    (hsome : ∀ a, SendsOne os (fun _ => True) fun dev => k (some a, dev)) :
    SendsOne os (Device.Agrees p) fun dev => k (dev.op x) := by
  obtain ⟨⟨result, q, error⟩, hrun, htext, hmute⟩ := hx
  have hop : ∀ (dev : Device σ) (e : Bytes), dev.proc = { p with lastError := e } →
      dev.op x = (result, { dev with proc := { q with lastError := error.getD e } }) := by
    intro dev e hdev
    rw [Device.op, hdev, hrun e]
    rfl
  have hkept : ∀ {e : Bytes}, ErrorText e → ErrorText (error.getD e) := by
    intro e he
    rcases error with _ | msg
    · exact he
    · exact htext msg rfl
  rcases result with _ | a
  · obtain ⟨msg, rfl⟩ := Option.ne_none_iff_exists'.mp fun herror => hmute rfl herror
    obtain ⟨resp, hresp⟩ := hnone msg
    refine ⟨resp, fun dev hdev => ?_⟩
    obtain ⟨e, he⟩ := hdev
    obtain ⟨dev', hlog, herror, hr⟩ := hresp { dev with proc := { q with lastError := msg } } rfl
    exact ⟨dev', hlog, fun _ => herror (htext msg rfl), (congrArg k (hop dev e he)).trans hr⟩
  · obtain ⟨resp, hresp⟩ := hsome a
    refine ⟨resp, fun dev hdev => ?_⟩
    obtain ⟨e, he⟩ := hdev
    obtain ⟨dev', hlog, herror, hr⟩ :=
      hresp { dev with proc := { q with lastError := error.getD e } } trivial
    refine ⟨dev', hlog, fun hfound => herror (hkept ?_), (congrArg k (hop dev e he)).trans hr⟩
    rwa [he] at hfound

private theorem sendsOne_confirm {p : Proc σ} {x : Op σ Unit} (hx : x.ReportsAt False p)
    (pre : Bytes) : SendsOne os (Device.Agrees p) fun dev => confirm os reqId pre (dev.op x) :=
  sendsOne_op os hx (confirm os reqId pre)
    (fun _ => sendsOne_sendLastError os reqId pre fun _ => id) fun _ => sendsOne_sendOk os reqId

/-- The end of a handler that answers with what an operation delivers, or reports its error. -/
def reply (pre : Bytes) (kvs : α → List Kv) : Option α × Device σ → Bool × Device σ
  | (none, dev) => sendLastError os reqId pre dev
  | (some a, dev) => sendKvResponse os .status reqId (kvs a) dev

private theorem sendsOne_reply {p : Proc σ} {x : Op σ α} (hx : x.ReportsAt False p) (pre : Bytes)
    (kvs : α → List Kv) (hcount : ∀ a, (kvs a).length ≤ maxKv)
    {handler : Device σ → Bool × Device σ}
    (hreply : ∀ dev, handler dev = reply os reqId pre kvs (dev.op x)) :
    SendsOne os (Device.Agrees p) handler := by
  rw [funext hreply]
  exact sendsOne_op os hx (reply os reqId pre kvs)
    (fun _ => sendsOne_sendLastError os reqId pre fun _ => id)
    fun a => sendsOne_sendKv os reqId .status (hcount a)

private theorem handleFilePutBegin_sendsOne :
    SendsOne os (Device.Agrees p) (handleFilePutBegin os frame) := by
  unfold handleFilePutBegin
  rcases decodeKv frame.payload maxKv with _ | kvs
  · exact sendsOne_sendError os _ _
  · rcases hpath : kvGet kvs (utf8 "path") with _ | path
    · simp only [hpath]
      exact sendsOne_sendError os _ _
    · simp only [hpath]
      refine sendsOne_reply os frame.header.requestId (fileBeginUpload_reports os
        frame.header.requestId path (kvGet kvs (utf8 "desire_storage")) (kvGet kvs (utf8 "perm")) p)
        (utf8 "begin upload failed")
        (fun _ => [⟨utf8 "status", utf8 "ok"⟩, ⟨utf8 "transfer_id", utf8 "request_id"⟩])
        (fun _ => by simp [maxKv]) fun dev => ?_
      rcases dev.op (fileBeginUpload os frame.header.requestId path _ _) with ⟨_ | _, _⟩ <;> rfl

/-- The end of `handle_file_get`. -/
def replyFile : Option Bytes × Device σ → Bool × Device σ
  | (none, dev) => sendError os reqId (utf8 "read file failed") dev
  | (some data, dev) =>
    if UInt32.size ≤ data.length then sendError os reqId (utf8 "file too large") dev
    else writeFrame os (responseFrame .fileGet reqId data) dev

private theorem handleFileGet_sendsOne :
    SendsOne os (Device.Agrees p) (handleFileGet os frame) := by
  unfold handleFileGet
  rcases decodeKv frame.payload maxKv with _ | kvs
  · exact sendsOne_sendError os _ _
  · rcases hpath : kvGet kvs (utf8 "path") with _ | path
    · simp only [hpath]
      exact sendsOne_sendError os _ _
    · simp only [hpath]
      refine sendsOne_op os (fileRead_reports os path p)
        (replyFile os frame.header.requestId) ?_ ?_
      · exact fun _ => sendsOne_sendError os _ _
      · intro data
        unfold replyFile
        dsimp only
        split_ifs
        · exact sendsOne_sendError os _ _
        · exact ⟨_, fun dev _ => ⟨dev, rfl, id, rfl⟩⟩

end Handlers

/-! ### Borrowed reports -/

/-- The report about a parameter that a request lacks, none where the parameter is there. -/
def lacks (kvs : List Kv) (key report : Bytes) : Option Bytes :=
  match kvGet kvs key with
  | none => some report
  | some _ => none

/-- The report a handler makes although its request has not set the last error: of a request
that is decoded but lacks a parameter, and of a list whose directory cannot be opened. The
value is the text put before the last error. -/
def borrowedReport (os : Os σ) (frame : Frame) (s : σ) : Option Bytes :=
  match decodeKv frame.payload maxKv with
  | none => none
  | some kvs =>
    match MsgType.ofCode frame.header.type with
    | some .fileDelete => lacks kvs (utf8 "path") (utf8 "delete failed")
    | some .fileMkdir => lacks kvs (utf8 "path") (utf8 "mkdir failed")
    | some .fileStat => lacks kvs (utf8 "path") (utf8 "stat failed")
    | some .fileRename =>
      (lacks kvs (utf8 "from") (utf8 "rename failed")).or
        (lacks kvs (utf8 "to") (utf8 "rename failed"))
    | some .fileList =>
      match buildPath ((kvGet kvs (utf8 "path")).getD (utf8 ".")) pathMaxLen with
      | (_, .error _) => none
      | (dirpath, .ok _) =>
        match (os.opendir dirpath s).1 with
        | .error _ => some (utf8 "list failed")
        | .ok _ => none
    | _ => none

private theorem exists_of_lacks {kvs : List Kv} {key report : Bytes}
    (h : lacks kvs key report = none) : ∃ value, kvGet kvs key = some value := by
  rw [lacks] at h
  rcases hget : kvGet kvs key with _ | value
  · simp [hget] at h
  · exact ⟨value, rfl⟩

private theorem eq_of_lacks {kvs : List Kv} {key report pre : Bytes}
    (h : lacks kvs key report = some pre) : kvGet kvs key = none ∧ report = pre := by
  rw [lacks] at h
  rcases hget : kvGet kvs key with _ | value
  · simpa [hget] using h
  · simp [hget] at h

section Borrowed

variable (os : Os σ) (shell : ExecShell σ) {frame : Frame} {p : Proc σ}

private theorem handleFileList_sendsOne (hnone : borrowedReport os frame p.os = none)
    (htype : MsgType.ofCode frame.header.type = some .fileList) :
    SendsOne os (Device.Agrees p) (handleFileList os frame) := by
  unfold handleFileList
  rcases hkvs : decodeKv frame.payload maxKv with _ | kvs
  · exact sendsOne_sendError os _ _
  · obtain ⟨o, hrun, htext, hmute⟩ := fileList_reportsAt os
      ((kvGet kvs (utf8 "path")).getD (utf8 ".")) p
    refine sendsOne_reply os frame.header.requestId ⟨o, hrun, htext, fun hresult herror => ?_⟩
      (utf8 "list failed")
      (fun lists => [⟨utf8 "files", lists.1⟩, ⟨utf8 "dirs", lists.2⟩]) (fun _ => by simp [maxKv])
      fun dev => ?_
    · obtain ⟨dirpath, storage, e, hpath, hopen⟩ := hmute hresult herror
      simp [borrowedReport, hkvs, htype, hpath, hopen] at hnone
    · dsimp only
      rcases dev.op (fileList os _) with ⟨_ | _, _⟩ <;> rfl

private theorem handleFileDelete_sendsOne (hnone : borrowedReport os frame p.os = none)
    (htype : MsgType.ofCode frame.header.type = some .fileDelete) :
    SendsOne os (Device.Agrees p) (handleFileDelete os frame) := by
  unfold handleFileDelete
  rcases hkvs : decodeKv frame.payload maxKv with _ | kvs
  · exact sendsOne_sendError os _ _
  · simp only [borrowedReport, hkvs, htype] at hnone
    obtain ⟨path, hpath⟩ := exists_of_lacks hnone
    simp only [hpath, Device.opWith]
    exact sendsOne_confirm os _ (fileDelete_reports os path _ p) _

private theorem handleFileMkdir_sendsOne (hnone : borrowedReport os frame p.os = none)
    (htype : MsgType.ofCode frame.header.type = some .fileMkdir) :
    SendsOne os (Device.Agrees p) (handleFileMkdir os frame) := by
  unfold handleFileMkdir
  rcases hkvs : decodeKv frame.payload maxKv with _ | kvs
  · exact sendsOne_sendError os _ _
  · simp only [borrowedReport, hkvs, htype] at hnone
    obtain ⟨path, hpath⟩ := exists_of_lacks hnone
    simp only [hpath, Device.opWith]
    exact sendsOne_confirm os _ (dirMkdir_reports os path _ _ p) _

private theorem handleFileRename_sendsOne (hnone : borrowedReport os frame p.os = none)
    (htype : MsgType.ofCode frame.header.type = some .fileRename) :
    SendsOne os (Device.Agrees p) (handleFileRename os frame) := by
  unfold handleFileRename
  rcases hkvs : decodeKv frame.payload maxKv with _ | kvs
  · exact sendsOne_sendError os _ _
  · simp only [borrowedReport, hkvs, htype] at hnone
    obtain ⟨hfrom, hto⟩ := Option.or_eq_none_iff.mp hnone
    obtain ⟨fromPath, hfrom⟩ := exists_of_lacks hfrom
    obtain ⟨toPath, hto⟩ := exists_of_lacks hto
    simp only [hfrom, hto, Device.opWith]
    exact sendsOne_confirm os _ (fileRename_reports os fromPath toPath _ p) _

private theorem handleFileStat_sendsOne (hnone : borrowedReport os frame p.os = none)
    (htype : MsgType.ofCode frame.header.type = some .fileStat) :
    SendsOne os (Device.Agrees p) (handleFileStat os frame) := by
  unfold handleFileStat
  rcases hkvs : decodeKv frame.payload maxKv with _ | kvs
  · exact sendsOne_sendError os _ _
  · simp only [borrowedReport, hkvs, htype] at hnone
    obtain ⟨path, hpath⟩ := exists_of_lacks hnone
    simp only [hpath, Device.opWith]
    refine sendsOne_reply os frame.header.requestId (fileStat_reports os path p)
      (utf8 "stat failed")
      (fun st => [⟨utf8 "owner", st.owner⟩, ⟨utf8 "perm", st.perm⟩, ⟨utf8 "size", st.size⟩,
        ⟨utf8 "type", st.type⟩]) (fun _ => by simp [maxKv]) fun dev => ?_
    rcases dev.op (fileStat os path) with ⟨_ | _, _⟩ <;> rfl

/-- **Nothing borrowed.** Where no report is borrowed, requests other than commands and
device information are answered alike whatever the last error is. -/
theorem handleFrame_sendsOne (hnone : borrowedReport os frame p.os = none)
    (hexec : MsgType.ofCode frame.header.type ≠ some .commandExec)
    (hdevinfo : MsgType.ofCode frame.header.type ≠ some .devinfo) :
    SendsOne os (Device.Agrees p) (handleFrame os shell frame) := by
  unfold handleFrame
  rcases htype : MsgType.ofCode frame.header.type with _ | type
  · exact sendsOne_sendError os _ _
  · rcases type with _ | _ | _ | _ | _ | _ | _ | _ | _ | _ | _ | _ | _ | _ | _
    case commandExec => exact absurd htype hexec
    case devinfo => exact absurd htype hdevinfo
    all_goals dsimp only
    case filePutBegin => exact handleFilePutBegin_sendsOne os p frame
    case filePutChunk => exact sendsOne_confirm os _ (fileAppendUploadChunk_reports os _ _ p) _
    case filePutEnd => exact sendsOne_confirm os _ (fileFinishUpload_reports os _ p) _
    case fileGet => exact handleFileGet_sendsOne os p frame
    case fileList => exact handleFileList_sendsOne os hnone htype
    case fileDelete => exact handleFileDelete_sendsOne os hnone htype
    case fileRename => exact handleFileRename_sendsOne os hnone htype
    case fileMkdir => exact handleFileMkdir_sendsOne os hnone htype
    case fileStat => exact handleFileStat_sendsOne os hnone htype
    case hello => exact sendsOne_sendKv os _ _ (by simp [maxKv])
    all_goals exact sendsOne_sendError os _ _

/-- A report of the last error as the handler has found it. -/
private theorem sends_sendLastError {dev dev' : Device σ} (reqId : UInt32) (pre : Bytes)
    (hlog : dev'.log = dev.log) (herror : dev'.proc.lastError = dev.proc.lastError) :
    Sends os dev (errorReport reqId (reportText pre dev.proc.lastError))
      (sendLastError os reqId pre dev') := by
  refine ⟨dev', hlog, fun h => herror ▸ h, ?_⟩
  rw [← sendError_eq_report, ← herror]
  rfl

private theorem handleFileRename_borrowed {dev : Device σ} {kvs : List Kv}
    (hkvs : decodeKv frame.payload maxKv = some kvs)
    (h : kvGet kvs (utf8 "from") = none ∨ kvGet kvs (utf8 "to") = none) :
    handleFileRename os frame dev =
      sendLastError os frame.header.requestId (utf8 "rename failed") dev := by
  rw [handleFileRename, hkvs]
  dsimp only
  rcases hfrom : kvGet kvs (utf8 "from") with _ | fromPath
  · rfl
  · rw [h.resolve_left (by simp [hfrom])]
    rfl

private theorem handleFileList_borrowed {dev : Device σ} {kvs : List Kv}
    (hkvs : decodeKv frame.payload maxKv = some kvs) {dirpath : Bytes} {storage : Storage}
    (hpath : buildPath ((kvGet kvs (utf8 "path")).getD (utf8 ".")) pathMaxLen =
      (dirpath, .ok storage)) {e : Errno} {s : σ}
    (hopen : os.opendir dirpath dev.proc.os = (.error e, s)) :
    handleFileList os frame dev =
      sendLastError os frame.header.requestId (utf8 "list failed") { dev with proc.os := s } := by
  have hop : dev.op (fileList os ((kvGet kvs (utf8 "path")).getD (utf8 "."))) =
      (none, { dev with proc.os := s }) := by
    rw [Device.op, fileList_of_unopened hpath hopen]
  rw [handleFileList, hkvs]
  dsimp only
  rw [hop]

/-- **A borrowed report.** Its text is the last error the handler has found, behind a
constant prefix. -/
theorem handleFrame_borrowed {dev : Device σ} {pre : Bytes}
    (h : borrowedReport os frame dev.proc.os = some pre) :
    Sends os dev (errorReport frame.header.requestId (reportText pre dev.proc.lastError))
      (handleFrame os shell frame dev) ∧ pre.length < 64 ∧ 0 ∉ pre := by
  have hsend : ∀ pre, Sends os dev
      (errorReport frame.header.requestId (reportText pre dev.proc.lastError))
      (sendLastError os frame.header.requestId pre dev) :=
    fun pre => sends_sendLastError os frame.header.requestId pre rfl rfl
  rw [borrowedReport] at h
  rcases hkvs : decodeKv frame.payload maxKv with _ | kvs
  · simp [hkvs] at h
  · rcases htype : MsgType.ofCode frame.header.type with _ | type
    · simp [hkvs, htype] at h
    · rw [handleFrame, htype]
      rcases type with _ | _ | _ | _ | _ | _ | _ | _ | _ | _ | _ | _ | _ | _ | _
      -- only five kinds of requests have a borrowed report
      all_goals simp only [hkvs, htype, reduceCtorEq] at h
      case fileDelete =>
        obtain ⟨hpath, rfl⟩ := eq_of_lacks h
        simp only [handleFileDelete, hkvs, hpath, Device.opWith, confirm]
        exact ⟨hsend _, by decide, by decide⟩
      case fileMkdir =>
        obtain ⟨hpath, rfl⟩ := eq_of_lacks h
        simp only [handleFileMkdir, hkvs, hpath, Device.opWith, confirm]
        exact ⟨hsend _, by decide, by decide⟩
      case fileStat =>
        obtain ⟨hpath, rfl⟩ := eq_of_lacks h
        simp only [handleFileStat, hkvs, hpath, Device.opWith]
        exact ⟨hsend _, by decide, by decide⟩
      case fileRename =>
        have hlacks : (kvGet kvs (utf8 "from") = none ∨ kvGet kvs (utf8 "to") = none) ∧
            utf8 "rename failed" = pre := by
          obtain hfrom | ⟨-, hto⟩ := Option.or_eq_some_iff.mp h
          · exact ⟨.inl (eq_of_lacks hfrom).1, (eq_of_lacks hfrom).2⟩
          · exact ⟨.inr (eq_of_lacks hto).1, (eq_of_lacks hto).2⟩
        obtain ⟨hlacks, rfl⟩ := hlacks
        dsimp only
        rw [handleFileRename_borrowed os hkvs hlacks]
        exact ⟨hsend _, by decide, by decide⟩
      case fileList =>
        rcases hpath : buildPath ((kvGet kvs (utf8 "path")).getD (utf8 ".")) pathMaxLen with
          ⟨dirpath, msg | storage⟩
        · simp [hpath] at h
        · rcases hopen : os.opendir dirpath dev.proc.os with ⟨e | names, s⟩
          · obtain rfl : utf8 "list failed" = pre := by simpa [hpath, hopen] using h
            dsimp only
            rw [handleFileList_borrowed os hkvs hpath hopen]
            exact ⟨sends_sendLastError os _ _ rfl rfl, by decide, by decide⟩
          · simp [hpath, hopen] at h

end Borrowed

/-! ### The last error over a history -/

/-- The text of `errno` behind a prefix is a text of the buffer. -/
private theorem errorText_errno (os : Os σ) {pre : Bytes} (h : Speaks pre) (e : Errno)
    (p : Proc σ) : ErrorText (p.setErrnoError os pre e).lastError := by
  have htext := h.errorText_file 256 (by decide) (utf8 ": " ++ os.strerror e)
  rwa [← List.append_assoc] at htext

private theorem writeFullLoop_errorText (os : Os σ) (script : List WriteOutcome) (data : Bytes)
    {dev : Device σ} (h : ErrorText dev.proc.lastError) :
    ErrorText (writeFullLoop os script data dev).2.proc.lastError := by
  induction script generalizing data dev with
  | nil => rcases data with _ | ⟨b, data⟩ <;> exact h
  | cons outcome script ih =>
    rcases data with _ | ⟨b, data⟩
    · exact h
    · rcases outcome with n | _ | e
      · rw [writeFullLoop]
        · split_ifs
          · exact Speaks.errorText (by decide)
          · exact ih _ h
        · simp
      · rw [writeFullLoop]
        · exact ih _ h
        · simp
      · rw [writeFullLoop]
        · exact errorText_errno os (by decide) e _
        · simp

private theorem writeZlpLoop_errorText (os : Os σ) (script : List WriteOutcome) {dev : Device σ}
    (h : ErrorText dev.proc.lastError) :
    ErrorText (writeZlpLoop os script dev).2.proc.lastError := by
  induction script generalizing dev with
  | nil => exact h
  | cons outcome script ih =>
    rcases outcome with n | _ | e
    · exact h
    · exact ih h
    · exact errorText_errno os (by decide) e _

private theorem writeLimitedLoop_errorText (os : Os σ) (fuel : ℕ) (data : Bytes) {dev : Device σ}
    (h : ErrorText dev.proc.lastError) :
    ErrorText (writeLimitedLoop os fuel data dev).2.proc.lastError := by
  induction fuel generalizing data dev with
  | zero => rcases data with _ | ⟨b, data⟩ <;> exact h
  | succ fuel ih =>
    rcases data with _ | ⟨b, data⟩
    · exact h
    · have hfull : ErrorText (writeFull os ((b :: data).take ioChunk) dev).2.proc.lastError :=
        writeFullLoop_errorText os _ _ h
      rw [writeLimitedLoop]
      · rcases hrun : writeFull os ((b :: data).take ioChunk) dev with ⟨_ | _, dev₁⟩
        · rwa [hrun] at hfull
        · rw [hrun] at hfull
          exact ih _ hfull
      · simp

/-- Sending a response sets the last error to texts of the buffer only. -/
private theorem writeFrame_errorText (os : Os σ) (frame : Frame) {dev : Device σ}
    (h : ErrorText dev.proc.lastError) : ErrorText (writeFrame os frame dev).2.proc.lastError := by
  have hloop : ErrorText (writeLimitedLoop os (encodeFrame frame).length (encodeFrame frame)
      (dev.record (.sending frame))).2.proc.lastError := writeLimitedLoop_errorText os _ _ h
  rw [writeFrame, writeLimited]
  rcases hrun : writeLimitedLoop os (encodeFrame frame).length (encodeFrame frame)
    (dev.record (.sending frame)) with ⟨_ | _, dev₁⟩
  · rwa [hrun] at hloop
  · rw [hrun] at hloop
    dsimp only
    split_ifs
    · exact writeZlpLoop_errorText os _ hloop
    · exact hloop

/-- An operation that reports sets the last error to texts of the buffer only. -/
theorem Op.Reports.errorText {mute : Prop} {x : Op σ α} (hx : x.Reports mute) {p : Proc σ}
    (h : ErrorText p.lastError) : ErrorText (x.run p).2.lastError := by
  obtain ⟨⟨result, q, error⟩, hrun, htext, -⟩ := hx p
  rw [show x.run p = _ from hrun p.lastError]
  rcases error with _ | msg
  · exact h
  · exact htext msg rfl

section Devinfo

variable (os : Os σ) {mute : Prop}

private theorem readTextRoom_reports (full : Prop) [Decidable full] (newCap : ℕ) :
    (readTextRoom os full newCap).Reports mute := by
  rw [readTextRoom]
  split_ifs
  · exact Op.reports_sys _
  · exact Op.reports_pure _

private theorem readTextLoop_reports (fp maxBytes fuel cap : ℕ) (buf : Bytes) :
    (readTextLoop os fp maxBytes fuel cap buf).Reports True := by
  induction fuel generalizing cap buf with
  | zero => exact Op.reports_pure _
  | succ fuel ih =>
    rw [readTextLoop]
    dsimp only
    split_ifs
    · exact Op.reports_pure _
    all_goals
      refine (readTextRoom_reports os _ _).bind fun granted => ?_
      split_ifs
      · refine (Op.reports_sys _).bind fun read => ?_
        split_ifs
        · exact Op.reports_pure _
        · exact Op.reports_pure _
        · exact ih _ _
      · exact Op.reports_failClosing os fp trivial

private theorem readTextFile_reports (path : Bytes) (maxBytes : ℕ) :
    (readTextFile os path maxBytes).Reports True := by
  refine (Op.reports_sys _).bind fun opened => ?_
  rcases opened with e | fp
  · exact Op.reports_fail trivial
  · refine (Op.reports_sys _).bind fun granted => ?_
    split_ifs
    · exact (readTextLoop_reports os fp maxBytes _ _ _).bind fun _ =>
        (Op.reports_sys _).bind fun _ => Op.reports_pure _
    · exact Op.reports_failClosing os fp trivial

private theorem execCaptureTrim_reports (shell : ExecShell σ) (cmdline : Bytes)
    (timeoutMs : UInt32) : (execCaptureTrim shell cmdline timeoutMs).Reports True := by
  refine (Op.reports_sys _).bind fun ran => ?_
  rcases ran with _ | r
  · exact Op.reports_fail trivial
  · dsimp only
    split_ifs
    · exact Op.reports_fail trivial
    · exact Op.reports_pure _

private theorem storageStatvfsOrZero_reports (path : Bytes) :
    (storageStatvfsOrZero os path).Reports mute := by
  refine (Op.reports_sys _).bind fun found => ?_
  rcases found with _ | sv
  · exact Op.reports_pure _
  · exact Op.reports_pure _

private theorem storageInfoRead_reports : (storageInfoRead os).Reports mute := by
  refine (storageStatvfsOrZero_reports os _).bind fun nand => ?_
  refine (isSdMounted_reports os).bind fun mounted => ?_
  dsimp only
  split_ifs
  · exact (storageStatvfsOrZero_reports os _).bind fun _ => Op.reports_pure _
  · exact Op.reports_pure _

private theorem devinfoKvs_errorText (shell : ExecShell σ) {p : Proc σ}
    (h : ErrorText p.lastError) : ErrorText (devinfoKvs os shell p).2.lastError := by
  have hmodel := (readTextFile_reports os (utf8 "/proc/device-tree/model") 4096).errorText h
  have hrootfs := (readTextFile_reports os (utf8 "/etc/os-release") 8192).errorText
    (p := ((Op.sys os.uname).run
      ((readTextFile os (utf8 "/proc/device-tree/model") 4096).run p).2).2) hmodel
  have happ := (execCaptureTrim_reports shell (utf8 "/root/epass_drm_app version") 3000).errorText
    hrootfs
  have hstorage : (storageInfoRead os).Reports True := storageInfoRead_reports os
  exact hstorage.errorText happ

end Devinfo

/-- Whatever the frame, its handler sends one response, and leaves a text of the buffer as
the last error if it has found one. -/
private theorem handleFrame_sends (os : Os σ) (shell : ExecShell σ) (frame : Frame)
    (dev : Device σ) : ∃ resp, Sends os dev resp (handleFrame os shell frame dev) := by
  by_cases hexec : MsgType.ofCode frame.header.type = some .commandExec
  · rw [handleFrame, hexec]
    dsimp only
    rw [handleCommandExec]
    rcases decodeCommandRequest frame.payload with _ | req
    · exact ⟨_, dev, rfl, id, sendError_eq_report ..⟩
    · dsimp only
      rcases shell (cStr req.command) _ dev.proc.os with ⟨_ | r, s⟩
      · exact ⟨_, { dev with proc.os := s }, rfl, id, sendError_eq_report ..⟩
      · dsimp only
        split_ifs
        · exact ⟨_, { dev with proc.os := s }, rfl, id, sendError_eq_report ..⟩
        · exact ⟨_, { dev with proc.os := s }, rfl, id, rfl⟩
  by_cases hdevinfo : MsgType.ofCode frame.header.type = some .devinfo
  · rw [handleFrame, hdevinfo]
    dsimp only
    have hcount : (devinfoKvs os shell dev.proc).1.length ≤ maxKv := by
      simp [devinfoKvs, maxKv]
    obtain ⟨payload, hsend⟩ := sendKvResponse_eq os .devinfo frame.header.requestId hcount
      { dev with proc := (devinfoKvs os shell dev.proc).2 }
    exact ⟨_, { dev with proc := (devinfoKvs os shell dev.proc).2 }, rfl,
      devinfoKvs_errorText os shell, hsend⟩
  rcases hborrowed : borrowedReport os frame dev.proc.os with _ | pre
  · obtain ⟨resp, hresp⟩ := handleFrame_sendsOne os shell hborrowed hexec hdevinfo
    exact ⟨resp, hresp dev ⟨_, rfl⟩⟩
  · exact ⟨_, (handleFrame_borrowed os shell hborrowed).1⟩

/-- The devices a history can lead to. Between two frames the bulk IN endpoint and
everything outside the process may change, and the receiver may set the last error. The
process starts with the empty text. -/
inductive Device.Reached (os : Os σ) (shell : ExecShell σ) : Device σ → Prop
  | boot (cfg : Config) (s : σ) (tx : List WriteOutcome) :
    Device.Reached os shell ⟨cfg, ⟨fileOpsInit, [], s⟩, tx, []⟩
  | handle {dev : Device σ} (h : Device.Reached os shell dev) (frame : Frame) :
    Device.Reached os shell (handleFrame os shell frame dev).2
  | between {dev : Device σ} (h : Device.Reached os shell dev) (s : σ) (tx : List WriteOutcome) :
    Device.Reached os shell { dev with proc.os := s, tx := tx }
  | receiver {dev : Device σ} (h : Device.Reached os shell dev) {msg : Bytes}
    (hmsg : Speaks msg) : Device.Reached os shell (dev.setLastError msg)

/-- In every history the last error is a text of the buffer. -/
theorem Device.Reached.errorText {os : Os σ} {shell : ExecShell σ} {dev : Device σ}
    (h : dev.Reached os shell) : ErrorText dev.proc.lastError := by
  induction h with
  | boot cfg s tx => exact ⟨by simp, by simp⟩
  | @handle dev _ frame ih =>
    obtain ⟨resp, dev', -, herror, hr⟩ := handleFrame_sends os shell frame dev
    rw [hr]
    exact writeFrame_errorText os resp (herror ih)
  | between _ s tx ih => exact ih
  | receiver _ hmsg ih => exact hmsg.errorText

/-! ### Equal reports -/

/-- A text without NUL is followed by what is seen of the rest. -/
theorem cStr_append {s : Bytes} (h : 0 ∉ s) (rest : Bytes) : cStr (s ++ rest) = s ++ cStr rest := by
  rw [cStr, List.takeWhile_append_of_pos, cStr]
  intro b hb
  simpa using fun h0 : b = 0 => h (h0 ▸ hb)

/-- A report shows the prefix, and behind it what the buffer of the last error shows. The
buffer of the report is longer than both together, so nothing is cut. -/
private theorem cStr_reportText {pre detail : Bytes} (hlen : pre.length < 64) (hnul : 0 ∉ pre)
    (h : ErrorText detail) :
    cStr (reportText pre detail) =
      pre ++ if cStr detail = [] then [] else utf8 ": " ++ cStr detail := by
  have hempty : cStr detail = [] ↔ detail = [] := by
    rcases detail with _ | ⟨b, detail⟩
    · exact iff_of_true rfl rfl
    · have hb : b ≠ 0 := fun hb => h.head (by rw [hb]; rfl)
      simp [cStr, hb]
  rw [reportText, snprintf_eq_self]
  · by_cases hdetail : detail = []
    · rw [if_neg (not_not.mpr hdetail), if_pos (hempty.mpr hdetail), List.append_nil,
        cStr_eq_self hnul]
    · rw [if_pos hdetail, if_neg (mt hempty.mp hdetail), List.append_assoc, cStr_append hnul,
        cStr_append (by decide)]
  · have hfits := h.fits
    have hcolon : (utf8 ": ").length = 2 := by decide
    split_ifs
    · rw [List.length_append, List.length_append]
      omega
    · omega

private theorem cStr_reportText_inj {pre detail₁ detail₂ : Bytes} (hlen : pre.length < 64)
    (hnul : 0 ∉ pre) (h₁ : ErrorText detail₁) (h₂ : ErrorText detail₂) :
    cStr (reportText pre detail₁) = cStr (reportText pre detail₂) ↔
      cStr detail₁ = cStr detail₂ := by
  rw [cStr_reportText hlen hnul h₁, cStr_reportText hlen hnul h₂, List.append_cancel_left_eq]
  constructor
  · intro h
    split_ifs at h with hempty₁ hempty₂ hempty₂
    · rw [hempty₁, hempty₂]
    · exact absurd h (by simp [utf8])
    · exact absurd h (by simp [utf8])
    · exact List.append_cancel_left h
  · intro h
    rw [h]

/-- What an error response holds of its message. -/
private theorem encodeKvRecord_message {msg : Bytes} (h : msg.length < 2 ^ 16) :
    encodeKvRecord ⟨utf8 "message", msg⟩ =
      writeLe16 7 ++
        (writeLe16 (UInt16.ofNat (cStr msg).length) ++ (utf8 "message" ++ cStr msg)) := by
  have hlen : (UInt16.ofNat (cStr msg).length).toNat = (cStr msg).length :=
    UInt16.toNat_ofNat_of_lt' (lt_of_le_of_lt (length_cStr_le msg) h)
  have htake : msg.take (cStr msg).length = cStr msg :=
    (List.prefix_iff_eq_take.mp (List.takeWhile_prefix _)).symm
  rw [encodeKvRecord]
  dsimp only
  rw [strlen, strlen, hlen, htake]
  rfl

/-- Two error responses are the same bytes exactly when they show the same message. -/
private theorem encodeFrame_errorReport_inj (reqId : UInt32) {msg₁ msg₂ : Bytes}
    (h₁ : msg₁.length < 512) (h₂ : msg₂.length < 512) :
    encodeFrame (errorReport reqId msg₁) = encodeFrame (errorReport reqId msg₂) ↔
      cStr msg₁ = cStr msg₂ := by
  have hrecord : ∀ {msg : Bytes}, msg.length < 512 → _ :=
    fun hmsg => encodeKvRecord_message (lt_trans hmsg (by decide))
  constructor
  · intro heq
    have hdecode : ∀ {msg : Bytes}, msg.length < 512 →
        decodeFrame (encodeFrame (errorReport reqId msg)) =
          some (frameOf MsgType.error.code 0 reqId (errorReport reqId msg).payload) := by
      intro msg hmsg
      have hanswers : Answers { header := { requestId := reqId } } (errorReport reqId msg) :=
        ⟨.error, _, .inl rfl, rfl⟩
      refine hanswers.decodeFrame_encodeFrame ?_
      have hlen := length_cStr_le msg
      rw [errorReport, responseFrame, hrecord hmsg]
      simp only [List.length_append, length_writeLe16]
      rw [show (utf8 "message").length = 7 by decide]
      omega
    have hframe := (hdecode h₁).symm.trans ((congrArg decodeFrame heq).trans (hdecode h₂))
    have hpayload := congrArg Frame.payload (Option.some.inj hframe)
    simp only [frameOf, errorReport, responseFrame, hrecord h₁, hrecord h₂,
      List.append_cancel_left_eq] at hpayload
    exact List.append_cancel_left (List.append_inj hpayload rfl).2
  · intro hmsg
    rw [errorReport, errorReport, hrecord h₁, hrecord h₂, hmsg]

/-! ### The main result -/

/-- The frames a handler begins to send, encoded. These are what two histories are compared
by. -/
def responseFrames (os : Os σ) (shell : ExecShell σ) (frame : Frame) (dev : Device σ) :
    List Bytes :=
  (sentFrames ((handleFrame os shell frame dev).2.log.drop dev.log.length)).map encodeFrame

/-- Sending a response begins to send nothing else. -/
theorem sentFrames_writeFrame (os : Os σ) (resp : Frame) {dev dev' : Device σ}
    (hlog : dev'.log = dev.log) :
    sentFrames ((writeFrame os resp dev').2.log.drop dev.log.length) = [resp] := by
  obtain ⟨writes, hwritten, hwrites⟩ := (writeFrame_onlyWrites os resp dev').log
  have hsent : (writeFrame os resp dev').2.log = dev.log ++ (.sending resp :: writes) := by
    rw [hwritten, Device.record, hlog, List.append_assoc]
    rfl
  rw [hsent, List.drop_left]
  show resp :: sentFrames writes = _
  rw [(frames_of_writes hwrites).2]

private theorem Sends.responseFrames {os : Os σ} {shell : ExecShell σ} {frame resp : Frame}
    {dev : Device σ} (h : Sends os dev resp (handleFrame os shell frame dev)) :
    responseFrames os shell frame dev = [encodeFrame resp] := by
  obtain ⟨dev', hlog, -, hr⟩ := h
  rw [UsbResponder.responseFrames, hr, sentFrames_writeFrame os resp hlog]
  rfl

/-- **Responses and history.** Let two histories end with the same sessions and the same
outside. The next frame, unless it is a command or asks for device information, is answered
with the same bytes exactly when its handler borrows no report, or both histories have left
the same error. -/
theorem response_ignores_history_iff (os : Os σ) (shell : ExecShell σ) {dev₁ dev₂ : Device σ}
    (h₁ : dev₁.Reached os shell) (h₂ : dev₂.Reached os shell)
    (hsessions : dev₁.proc.sessions = dev₂.proc.sessions) (hos : dev₁.proc.os = dev₂.proc.os)
    {frame : Frame} (hexec : MsgType.ofCode frame.header.type ≠ some .commandExec)
    (hdevinfo : MsgType.ofCode frame.header.type ≠ some .devinfo) :
    responseFrames os shell frame dev₁ = responseFrames os shell frame dev₂ ↔
      (borrowedReport os frame dev₁.proc.os = none ∨
        cStr dev₁.proc.lastError = cStr dev₂.proc.lastError) := by
  rcases hborrowed : borrowedReport os frame dev₁.proc.os with _ | pre
  · obtain ⟨resp, hresp⟩ := handleFrame_sendsOne os shell hborrowed hexec hdevinfo
    have hagrees : Device.Agrees dev₁.proc dev₂ :=
      ⟨dev₂.proc.lastError, by rw [hsessions, hos]⟩
    refine iff_of_true ?_ (.inl rfl)
    rw [(hresp dev₁ ⟨dev₁.proc.lastError, rfl⟩).responseFrames, (hresp dev₂ hagrees).responseFrames]
  · obtain ⟨hsends₁, hlen, hnul⟩ := handleFrame_borrowed os shell hborrowed
    rw [hos] at hborrowed
    obtain ⟨hsends₂, -, -⟩ := handleFrame_borrowed os shell hborrowed
    have htext : ∀ detail, (reportText pre detail).length < 512 := fun detail =>
      lt_of_le_of_lt (length_snprintf_le 512 _) (by decide)
    rw [hsends₁.responseFrames, hsends₂.responseFrames, List.cons_eq_cons, and_iff_left rfl,
      encodeFrame_errorReport_inj _ (htext _) (htext _),
      cStr_reportText_inj hlen hnul h₁.errorText h₂.errorText]
    simp

/-- A request to delete `/a`. -/
def deleteFrame : Frame where
  header := { type := MsgType.fileDelete.code, requestId := 1, payloadLen := 11 }
  payload := [1, 0, 4, 0, 1, 0] ++ utf8 "patha"

/-- A request to inspect a path, without the path. -/
def bareStatFrame : Frame where
  header := { type := MsgType.fileStat.code, requestId := 2, payloadLen := 2 }
  payload := [0, 0]

/-- Two histories with the same end but for the last error: nothing has happened, or a
request to delete a file has failed. A request to inspect nothing is answered with the error
of the deletion in the second one. -/
theorem not_response_ignores_history :
    ¬∀ dev₁ dev₂ : Device Unit, dev₁.Reached (Os.failing Unit) noShell →
      dev₂.Reached (Os.failing Unit) noShell → dev₁.proc.sessions = dev₂.proc.sessions →
      dev₁.proc.os = dev₂.proc.os → ∀ frame : Frame,
      MsgType.ofCode frame.header.type ≠ some .commandExec →
      MsgType.ofCode frame.header.type ≠ some .devinfo →
      responseFrames (Os.failing Unit) noShell frame dev₁ =
        responseFrames (Os.failing Unit) noShell frame dev₂ := by
  intro h
  have hboot : bootDevice.Reached (Os.failing Unit) noShell := .boot ..
  refine absurd (h bootDevice _ hboot (hboot.handle deleteFrame) (by decide +kernel)
    (Subsingleton.elim _ _) bareStatFrame (by decide) (by decide)) ?_
  decide +kernel

/-- `response_ignores_history_iff` for these two histories. -/
theorem response_ignores_history_iff_stat :
    responseFrames (Os.failing Unit) noShell bareStatFrame bootDevice =
        responseFrames (Os.failing Unit) noShell bareStatFrame
          (handleFrame (Os.failing Unit) noShell deleteFrame bootDevice).2 ↔
      (borrowedReport (Os.failing Unit) bareStatFrame bootDevice.proc.os = none ∨
        cStr bootDevice.proc.lastError = cStr (handleFrame (Os.failing Unit) noShell deleteFrame
          bootDevice).2.proc.lastError) :=
  response_ignores_history_iff (Os.failing Unit) noShell (.boot ..)
    (Device.Reached.handle (.boot ..) deleteFrame) (by decide +kernel) (Subsingleton.elim _ _)
    (by decide) (by decide)

end UsbResponder
