import UsbResponder.FileOps.FailingCalls
import UsbResponder.Host.KeyValues
import UsbResponder.Responder.History

/-!
# Error responses as texts

The host decodes the message of an error response as UTF-8. The message is put together from
ASCII and, where a library function has failed, its path, and the buffer of the last error
holds 255 bytes of that, wherever a character of the path ends. So an error response can be
decoded if and only if the message is not cut inside a character of the path.

`asked` is what a request comes to, an operation, an error for want of a parameter, or
something whose errors are constant, and `handleFrame_askedAnswer` is the handlers in these
terms. The condition is about the request, the sessions and the last error before it;
`error_response_decodes_iff` shows that in all worlds together it is exact, since every call
of an operation can fail (`FileTask.failedAt`) and no error tells of anything else
(`FileTask.told`).

The two directions are proved apart. Enough (`errorsDecode_of`) holds in each world by
itself, for any outcomes of the calls. For the converse a world is built from the call whose
message is cut, and the handler is run in it. Texts of `errno` in other languages than ASCII
would be a third way to break a message; they are excluded by a hypothesis, which the C
locale satisfies.
-/

namespace UsbResponder

open CString TextLines Utf8

variable {σ : Type}

/-! ### Messages -/

/-- The first 255 bytes of the name of the function and the path end with a character, so
that the end of the buffer does not cut one. -/
def ReportedCall.CutClean (call : ReportedCall) : Prop :=
  IsText (cStr ((call.name ++ utf8 " " ++ call.path).take 255))

/-- Whether a text about a call can be decoded does not depend on the text of `errno`. -/
private theorem ReportedCall.isText_cStr_text_iff (call : ReportedCall) {os : Os σ} {e : Errno}
    (hascii : IsAscii (os.strerror e)) : IsText (cStr (call.text os e)) ↔ call.CutClean := by
  have hrest : IsAscii ((utf8 ": " ++ os.strerror e).take
      (255 - (call.name ++ utf8 " " ++ call.path).length)) := by
    intro b hb
    obtain hcolon | herrno := List.mem_append.mp (List.mem_of_mem_take hb)
    · exact (show IsAscii (utf8 ": ") by decide) b hcolon
    · exact hascii b herrno
  -- the text is cut where the name and the path are, or in the ASCII behind them
  have htext : call.text os e = (call.name ++ utf8 " " ++ call.path).take 255 ++
      (utf8 ": " ++ os.strerror e).take (255 - (call.name ++ utf8 " " ++ call.path).length) := by
    rw [ReportedCall.text, snprintf, snprintf, List.take_take, ← List.take_append]
    simp only [List.append_assoc]
    rfl
  rw [htext, isText_cStr_append_ascii_iff hrest, ReportedCall.CutClean]

/-- A short message in ASCII, so that its encoding is its text and it fits anywhere. -/
def IsMessage (msg : Bytes) : Prop := IsAscii msg ∧ 0 ∉ msg ∧ msg.length < 64

instance (msg : Bytes) : Decidable (IsMessage msg) :=
  inferInstanceAs (Decidable (IsAscii msg ∧ 0 ∉ msg ∧ msg.length < 64))

/-- A prefix in ASCII does not matter. -/
private theorem isText_cStr_reportText_iff {pre detail : Bytes} (h : IsMessage pre)
    (hdetail : detail.length < 256) :
    IsText (cStr (reportText pre detail)) ↔ IsText (cStr detail) := by
  obtain ⟨hpre, hnul, hlen⟩ := h
  have hcolon : (utf8 ": ").length = 2 := by decide
  rw [reportText, snprintf_eq_self]
  · by_cases hempty : detail = []
    · rw [if_neg (not_not.mpr hempty), hempty, cStr_eq_self hnul]
      exact iff_of_true hpre.isText isText_nil
    · rw [if_pos hempty, List.append_assoc, cStr_append hnul, cStr_append (by decide),
        isText_ascii_append_iff hpre, isText_ascii_append_iff (by decide)]
  · split_ifs
    · rw [List.length_append, List.length_append]
      omega
    · omega

/-- The payload of an error response is decoded exactly if its message is a text. -/
private theorem decodeKv_errorReport_iff (reqId : UInt32) {msg : Bytes}
    (hlen : msg.length < 2 ^ 16) :
    (∃ d, Host.decodeKv (errorReport reqId msg).payload = .ok d) ↔ IsText (cStr msg) := by
  have hkept : Kv.kept ⟨utf8 "message", msg⟩ = ⟨utf8 "message", cStr msg⟩ := by
    have hstrlen : strlen msg % 2 ^ 16 = (cStr msg).length :=
      Nat.mod_eq_of_lt ((length_cStr_le msg).trans_lt hlen)
    have htake : msg.take (cStr msg).length = cStr msg :=
      (List.prefix_iff_eq_take.mp (List.takeWhile_prefix _)).symm
    rw [Kv.kept]
    dsimp only
    rw [hstrlen, htake]
    rfl
  have hpayload : (errorReport reqId msg).payload = kvLayout [⟨utf8 "message", cStr msg⟩] := by
    have hencode : encodeKv [⟨utf8 "message", msg⟩] =
        some (kvLayout [⟨utf8 "message", cStr msg⟩]) := by
      rw [encodeKv_eq_kvLayout_kept (by simp [maxKv]), List.map_singleton, hkept]
    rw [encodeKv, if_neg (by simp [maxKv]), List.flatMap_singleton] at hencode
    exact Option.some.inj hencode
  have hfits : ∀ item ∈ [(⟨utf8 "message", cStr msg⟩ : Kv)], item.Fits := by
    intro item hitem
    rw [List.mem_singleton.mp hitem, ← hkept]
    exact Kv.kept_fits _
  rw [hpayload, Host.decodeKv_kvLayout hfits (by simp [maxKv])]
  constructor
  · rintro ⟨d, hd⟩
    obtain ⟨pairs, hpairs, -⟩ := Host.assignItems_eq_ok_iff.mp hd
    obtain ⟨pair, rest, -, hitem, -⟩ := List.map_eq_cons_iff.mp hpairs.symm
    exact ⟨pair.2, congrArg Kv.value hitem⟩
  · rintro ⟨s, hs⟩
    refine ⟨[("message", s)], Host.assignItems_eq_ok_iff.mpr ⟨[("message", s)], ?_, rfl⟩⟩
    rw [List.map_singleton, Host.kvOf, hs]

/-! ### What a request comes to -/

/-- What a request comes to: an operation that reports its error, an error although a
parameter is missing and nothing has been done, or something whose errors are constant. In
the second case the error is that of an earlier request. -/
inductive Asked
  | task (task : FileTask)
  | lacking
  | other

/-- The prefix of the error of an operation, as the handler of the request has it. -/
def FileTask.report : FileTask → Bytes
  | .beginUpload .. => utf8 "begin upload failed"
  | .appendUploadChunk .. => utf8 "append upload failed"
  | .finishUpload .. => utf8 "finish upload failed"
  | .list .. => utf8 "list failed"
  | .delete .. => utf8 "delete failed"
  | .rename .. => utf8 "rename failed"
  | .mkdir .. => utf8 "mkdir failed"
  | .stat .. => utf8 "stat failed"

private theorem FileTask.isMessage_report (task : FileTask) : IsMessage task.report := by
  cases task <;> (rw [report]; decide)

/-- What a request comes to when its payload is decoded. -/
def askedKv (frame : Frame) (f : List Kv → Asked) : Asked :=
  match decodeKv frame.payload maxKv with
  | none => .other
  | some kvs => f kvs

/-- An operation on the value of a key that must be present. -/
def askedWith (value : Option Bytes) (f : Bytes → FileTask) : Asked :=
  match value with
  | none => .lacking
  | some value => .task (f value)

/-- What a request comes to. Frames of types that are no requests come to a constant error. -/
def asked (frame : Frame) : Asked :=
  match MsgType.ofCode frame.header.type with
  | some .filePutBegin => askedKv frame fun kvs =>
    match kvGet kvs (utf8 "path") with
    | none => .other
    | some path => .task (.beginUpload frame.header.requestId path
      (kvGet kvs (utf8 "desire_storage")) (kvGet kvs (utf8 "perm")))
  | some .filePutChunk => .task (.appendUploadChunk (transferId frame) (chunkData frame))
  | some .filePutEnd => .task (.finishUpload (transferId frame))
  | some .fileList => askedKv frame fun kvs =>
    .task (.list ((kvGet kvs (utf8 "path")).getD (utf8 ".")))
  | some .fileDelete => askedKv frame fun kvs => askedWith (kvGet kvs (utf8 "path")) fun path =>
    .delete path (kvGet kvs (utf8 "desire_storage"))
  | some .fileRename => askedKv frame fun kvs =>
    match kvGet kvs (utf8 "from") with
    | none => .lacking
    | some fromPath => askedWith (kvGet kvs (utf8 "to")) fun toPath =>
      .rename fromPath toPath (kvGet kvs (utf8 "desire_storage"))
  | some .fileMkdir => askedKv frame fun kvs => askedWith (kvGet kvs (utf8 "path")) fun path =>
    .mkdir path ((kvGet kvs (utf8 "parents")).any isParentsValue)
      (kvGet kvs (utf8 "desire_storage"))
  | some .fileStat => askedKv frame fun kvs => askedWith (kvGet kvs (utf8 "path")) .stat
  | _ => .other

/-- The response of a handler that has brought `dev` to `dev'`: an error with the message
`msg`, or a response that is none. -/
inductive Responded (os : Os σ) (frame : Frame) (dev' : Device σ) :
    Option Bytes → Bool × Device σ → Prop
  | error (msg : Bytes) :
    Responded os frame dev' (some msg)
      (writeFrame os (errorReport frame.header.requestId msg) dev')
  | success (type : MsgType) (payload : Bytes) (htype : type ≠ .error) :
    Responded os frame dev' none
      (writeFrame os (responseFrame type frame.header.requestId payload) dev')

section Handlers

variable (os : Os σ) (shell : ExecShell σ) {frame : Frame} (dev : Device σ)

private theorem responded_sendError (msg : Bytes) :
    Responded os frame dev (some msg) (sendError os frame.header.requestId msg dev) := by
  rw [sendError_eq_report]
  exact .error msg

private theorem responded_sendLastError (pre : Bytes) :
    Responded os frame dev (some (reportText pre dev.proc.lastError))
      (sendLastError os frame.header.requestId pre dev) :=
  responded_sendError os dev _

private theorem responded_sendKv {type : MsgType} (htype : type ≠ .error) {kvs : List Kv}
    (hcount : kvs.length ≤ maxKv) :
    Responded os frame dev none (sendKvResponse os type frame.header.requestId kvs dev) := by
  obtain ⟨payload, hsend⟩ := sendKvResponse_eq os type frame.header.requestId hcount dev
  rw [hsend]
  exact .success type payload htype

/-- The message of an operation's error, if it has failed. -/
def failureText {α : Type} (pre : Bytes) (r : Option α × Proc σ) : Option Bytes :=
  match r.1 with
  | none => some (reportText pre r.2.lastError)
  | some _ => none

/-- The answer that goes with what a request comes to: the operation is run once and its
error reported; or the last error is reported as it is; or an error is in ASCII. -/
inductive AskedAnswer (os : Os σ) (frame : Frame) (dev : Device σ) :
    Asked → Bool × Device σ → Prop
  | task {task : FileTask} {r : Bool × Device σ}
    (h : Responded os frame { dev with proc := ((task.op os).run dev.proc).2 }
      (failureText task.report ((task.op os).run dev.proc)) r) :
    AskedAnswer os frame dev (.task task) r
  | lacking {pre : Bytes} {r : Bool × Device σ} (hpre : IsMessage pre)
    (h : Responded os frame dev (some (reportText pre dev.proc.lastError)) r) :
    AskedAnswer os frame dev .lacking r
  | other {dev' : Device σ} {msg : Option Bytes} {r : Bool × Device σ} (hlog : dev'.log = dev.log)
    (hmsg : ∀ text ∈ msg, IsMessage text) (h : Responded os frame dev' msg r) :
    AskedAnswer os frame dev .other r

private theorem askedAnswer_sendError {dev' : Device σ} (hlog : dev'.log = dev.log) {msg : Bytes}
    (hmsg : IsMessage msg) :
    AskedAnswer os frame dev .other (sendError os frame.header.requestId msg dev') := by
  refine .other hlog ?_ (responded_sendError os dev' msg)
  intro text htext
  obtain rfl := Option.some.inj htext
  exact hmsg

private theorem askedAnswer_sendLastError {pre : Bytes} (hpre : IsMessage pre) :
    AskedAnswer os frame dev .lacking (sendLastError os frame.header.requestId pre dev) :=
  .lacking hpre (responded_sendLastError os dev pre)

/-- A response that is no error, after changes to the process only. -/
private theorem askedAnswer_success {dev dev' : Device σ} {r : Bool × Device σ}
    (h : Responded os frame dev' none r) (hlog : dev'.log = dev.log) :
    AskedAnswer os frame dev .other r :=
  .other hlog (by simp) h

/-- The payload of a request is decoded first. -/
private theorem askedAnswer_kv {f : List Kv → Asked} {handler : List Kv → Bool × Device σ}
    (h : ∀ kvs, decodeKv frame.payload maxKv = some kvs →
      AskedAnswer os frame dev (f kvs) (handler kvs)) :
    AskedAnswer os frame dev (askedKv frame f)
      (match decodeKv frame.payload maxKv with
        | none => sendError os frame.header.requestId (utf8 "invalid kv payload") dev
        | some kvs => handler kvs) := by
  rw [askedKv]
  rcases hkvs : decodeKv frame.payload maxKv with _ | kvs
  · exact askedAnswer_sendError os dev rfl (by decide)
  · exact h kvs hkvs

/-- The end of a handler that answers with what the operation delivers. -/
private theorem askedAnswer_reply {α : Type} {task : FileTask} {x : Op σ α} {kvs : α → List Kv}
    (hop : (task.op os).run dev.proc =
      ((x.run dev.proc).1.map fun _ => (), (x.run dev.proc).2))
    (hcount : ∀ a, (kvs a).length ≤ maxKv) :
    AskedAnswer os frame dev (.task task)
      (reply os frame.header.requestId task.report kvs (dev.op x)) := by
  refine .task ?_
  rw [hop, Device.op]
  rcases x.run dev.proc with ⟨_ | a, p'⟩
  · exact responded_sendLastError os _ task.report
  · exact responded_sendKv os _ (by decide) (hcount a)

private theorem run_eq_map_unit (x : Op σ Unit) (p : Proc σ) :
    x.run p = ((x.run p).1.map fun _ => (), (x.run p).2) := by
  rcases x.run p with ⟨_ | _, p'⟩
  · rfl
  · rfl

private theorem askedAnswer_confirm {task : FileTask} :
    AskedAnswer os frame dev (.task task)
      (confirm os frame.header.requestId task.report (dev.op (task.op os))) := by
  have hreply : ∀ r, confirm os frame.header.requestId task.report r =
      reply os frame.header.requestId task.report (fun _ => [⟨utf8 "status", utf8 "ok"⟩]) r := by
    rintro ⟨_ | _, dev'⟩
    · rfl
    · rfl
  rw [hreply]
  exact askedAnswer_reply os dev (run_eq_map_unit _ _) fun _ => by simp [maxKv]

/-- The same for an operation on the value of a key that must be present. -/
private theorem askedAnswer_opWith (f : Bytes → FileTask) {pre : Bytes}
    (hreport : ∀ value, (f value).report = pre) (value : Option Bytes) :
    AskedAnswer os frame dev (askedWith value f)
      (confirm os frame.header.requestId pre (dev.opWith value fun value => (f value).op os)) := by
  rcases value with _ | value
  · exact askedAnswer_sendLastError os dev (hreport [] ▸ (f []).isMessage_report)
  · rw [← hreport value]
    exact askedAnswer_confirm os dev

private theorem run_bind_pure {α : Type} (x : Op σ α) (p : Proc σ) :
    (x >>= fun _ => pure () : Op σ Unit).run p = ((x.run p).1.map fun _ => (), (x.run p).2) := by
  rcases hrun : x.run p with ⟨_ | a, p'⟩
  · exact Op.run_bind_of_none hrun
  · exact Op.run_bind_of_some hrun

private theorem handleFilePutBegin_askedAnswer
    (htype : MsgType.ofCode frame.header.type = some .filePutBegin) :
    AskedAnswer os frame dev (asked frame) (handleFilePutBegin os frame dev) := by
  rw [handleFilePutBegin, asked, htype]
  refine askedAnswer_kv os dev fun kvs _ => ?_
  rcases kvGet kvs (utf8 "path") with _ | path
  · exact askedAnswer_sendError os dev rfl (by decide)
  have hanswer : AskedAnswer os frame dev
      (.task (.beginUpload frame.header.requestId path (kvGet kvs (utf8 "desire_storage"))
        (kvGet kvs (utf8 "perm"))))
      (reply os frame.header.requestId (utf8 "begin upload failed")
        (fun _ => [⟨utf8 "status", utf8 "ok"⟩, ⟨utf8 "transfer_id", utf8 "request_id"⟩])
        (dev.op (fileBeginUpload os frame.header.requestId path
          (kvGet kvs (utf8 "desire_storage")) (kvGet kvs (utf8 "perm"))))) :=
    askedAnswer_reply os dev (run_eq_map_unit _ _) fun _ => by simp [maxKv]
  dsimp only
  rcases hop : dev.op (fileBeginUpload os frame.header.requestId path
    (kvGet kvs (utf8 "desire_storage")) (kvGet kvs (utf8 "perm"))) with ⟨_ | _, dev'⟩
  · rwa [hop] at hanswer
  · rwa [hop] at hanswer

private theorem handleFileGet_askedAnswer
    (htype : MsgType.ofCode frame.header.type = some .fileGet) :
    AskedAnswer os frame dev (asked frame) (handleFileGet os frame dev) := by
  rw [handleFileGet, asked, htype]
  dsimp only
  rcases decodeKv frame.payload maxKv with _ | kvs
  · exact askedAnswer_sendError os dev rfl (by decide)
  dsimp only
  rcases kvGet kvs (utf8 "path") with _ | path
  · exact askedAnswer_sendError os dev rfl (by decide)
  have hsame := dev.op_sameIo (fileRead os path)
  dsimp only
  rcases hop : dev.op (fileRead os path) with ⟨_ | data, dev'⟩
  all_goals rw [hop] at hsame
  · exact askedAnswer_sendError os dev hsame.log (by decide)
  · dsimp only
    split_ifs
    · exact askedAnswer_sendError os dev hsame.log (by decide)
    · exact askedAnswer_success os (.success .fileGet data (by decide)) hsame.log

private theorem handleFileList_askedAnswer
    (htype : MsgType.ofCode frame.header.type = some .fileList) :
    AskedAnswer os frame dev (asked frame) (handleFileList os frame dev) := by
  rw [handleFileList, asked, htype]
  refine askedAnswer_kv os dev fun kvs _ => ?_
  have hanswer : AskedAnswer os frame dev
      (.task (.list ((kvGet kvs (utf8 "path")).getD (utf8 "."))))
      (reply os frame.header.requestId (utf8 "list failed")
        (fun lists => [⟨utf8 "files", lists.1⟩, ⟨utf8 "dirs", lists.2⟩])
        (dev.op (fileList os ((kvGet kvs (utf8 "path")).getD (utf8 "."))))) :=
    askedAnswer_reply os dev (run_bind_pure _ _) fun _ => by simp [maxKv]
  rcases hop : dev.op (fileList os ((kvGet kvs (utf8 "path")).getD (utf8 "."))) with ⟨_ | _, dev'⟩
  · rwa [hop] at hanswer
  · rwa [hop] at hanswer

private theorem handleFileStat_askedAnswer
    (htype : MsgType.ofCode frame.header.type = some .fileStat) :
    AskedAnswer os frame dev (asked frame) (handleFileStat os frame dev) := by
  rw [handleFileStat, asked, htype]
  refine askedAnswer_kv os dev fun kvs _ => ?_
  rcases kvGet kvs (utf8 "path") with _ | path
  · exact askedAnswer_sendLastError os dev (by decide)
  have hanswer : AskedAnswer os frame dev (.task (.stat path))
      (reply os frame.header.requestId (utf8 "stat failed")
        (fun st => [⟨utf8 "owner", st.owner⟩, ⟨utf8 "perm", st.perm⟩, ⟨utf8 "size", st.size⟩,
          ⟨utf8 "type", st.type⟩]) (dev.op (fileStat os path))) :=
    askedAnswer_reply os dev (run_bind_pure _ _) fun _ => by simp [maxKv]
  dsimp only [Device.opWith]
  rcases hop : dev.op (fileStat os path) with ⟨_ | _, dev'⟩
  · rwa [hop] at hanswer
  · rwa [hop] at hanswer

private theorem handleCommandExec_askedAnswer
    (htype : MsgType.ofCode frame.header.type = some .commandExec) :
    AskedAnswer os frame dev (asked frame) (handleCommandExec os shell frame dev) := by
  rw [handleCommandExec, asked, htype]
  dsimp only
  rcases decodeCommandRequest frame.payload with _ | req
  · exact askedAnswer_sendError os dev rfl (by decide)
  dsimp only
  rcases shell (cStr req.command) _ dev.proc.os with ⟨_ | r, s⟩
  all_goals have hkept : ({ dev with proc.os := s } : Device σ).log = dev.log := rfl
  · exact askedAnswer_sendError os dev hkept (by decide)
  · dsimp only
    split_ifs
    · exact askedAnswer_sendError os dev hkept (by decide)
    · exact askedAnswer_success os (.success .commandResult _ (by decide)) hkept

/-- **What a handler answers** is what the request comes to. -/
theorem handleFrame_askedAnswer (frame : Frame) :
    AskedAnswer os frame dev (asked frame) (handleFrame os shell frame dev) := by
  rw [handleFrame]
  rcases htype : MsgType.ofCode frame.header.type with _ | type
  · rw [asked, htype]
    exact askedAnswer_sendError os dev rfl (by decide)
  · rcases type with _ | _ | _ | _ | _ | _ | _ | _ | _ | _ | _ | _ | _ | _ | _
    case filePutBegin => exact handleFilePutBegin_askedAnswer os dev htype
    case fileGet => exact handleFileGet_askedAnswer os dev htype
    case fileList => exact handleFileList_askedAnswer os dev htype
    case fileStat => exact handleFileStat_askedAnswer os dev htype
    case commandExec => exact handleCommandExec_askedAnswer os shell dev htype
    all_goals rw [asked, htype]
    case filePutChunk => exact askedAnswer_confirm os dev
    case filePutEnd => exact askedAnswer_confirm os dev
    case fileDelete =>
      exact askedAnswer_kv os dev fun kvs _ => askedAnswer_opWith os dev
        (fun path => .delete path (kvGet kvs (utf8 "desire_storage"))) (fun _ => rfl) _
    case fileRename =>
      refine askedAnswer_kv os dev fun kvs _ => ?_
      rcases kvGet kvs (utf8 "from") with _ | fromPath
      · exact askedAnswer_sendLastError os dev (by decide)
      · exact askedAnswer_opWith os dev
          (fun toPath => .rename fromPath toPath (kvGet kvs (utf8 "desire_storage")))
          (fun _ => rfl) _
    case fileMkdir =>
      exact askedAnswer_kv os dev fun kvs _ => askedAnswer_opWith os dev
        (fun path => .mkdir path ((kvGet kvs (utf8 "parents")).any isParentsValue)
          (kvGet kvs (utf8 "desire_storage"))) (fun _ => rfl) _
    case hello =>
      have hstatus : MsgType.status ≠ .error := by decide
      exact askedAnswer_success os (responded_sendKv os dev hstatus (by simp [maxKv])) rfl
    case devinfo =>
      have hdevinfo : MsgType.devinfo ≠ .error := by decide
      have hcount : (devinfoKvs os shell dev.proc).1.length ≤ maxKv := by
        simp [devinfoKvs, maxKv]
      exact askedAnswer_success os (responded_sendKv os _ hdevinfo hcount) rfl
    -- the rest are message types of responses, which are refused as unsupported
    all_goals exact askedAnswer_sendError os dev rfl (by decide)

end Handlers

/-! ### The main result -/

/-- The calls that the error of a request may be about; where no operation is run there are
none. -/
def Asked.calls (u : ℕ) (sessions : FileOps) : Asked → Set ReportedCall
  | .task t => t.calls u sessions
  | _ => ∅

/-- A request may be answered with a last error that it has not set. -/
def Asked.IsMute : Asked → Prop
  | .task t => t.IsMute
  | .lacking => True
  | .other => False

/-- The host decodes every error response to the frame, that is, everything the handler
sends that is one. -/
def ErrorsDecode (os : Os σ) (shell : ExecShell σ) (frame : Frame) (dev : Device σ) : Prop :=
  ∀ resp ∈ sentFrames ((handleFrame os shell frame dev).2.log.drop dev.log.length),
    resp.header.type = MsgType.error.code → ∃ d, Host.decodeKv resp.payload = .ok d

section Decode

variable {os : Os σ} {shell : ExecShell σ} {frame : Frame} {dev : Device σ}

private theorem errorsDecode_iff {dev' : Device σ} {msg : Option Bytes}
    (h : Responded os frame dev' msg (handleFrame os shell frame dev)) (hlog : dev'.log = dev.log)
    (hlen : ∀ text ∈ msg, text.length < 512) :
    ErrorsDecode os shell frame dev ↔ ∀ text ∈ msg, IsText (cStr text) := by
  rw [ErrorsDecode]
  generalize handleFrame os shell frame dev = r at h
  cases h with
  | error msg =>
    have hmsg : msg.length < 2 ^ 16 := (hlen msg rfl).trans (by norm_num)
    have htype : (errorReport frame.header.requestId msg).header.type = MsgType.error.code := rfl
    simp only [sentFrames_writeFrame os _ hlog, List.mem_singleton, forall_eq, Option.mem_some_iff,
      forall_eq', htype, forall_true_left]
    exact decodeKv_errorReport_iff frame.header.requestId hmsg
  | success type payload htype =>
    simp only [sentFrames_writeFrame os _ hlog, List.mem_singleton, forall_eq]
    refine iff_of_true (fun herror => absurd ?_ htype) (by simp)
    have hof := MsgType.ofCode_eq_some_iff.mpr (show type.code = MsgType.error.code from herror)
    rw [MsgType.ofCode_eq_some_iff.mpr rfl] at hof
    exact (Option.some.inj hof).symm

private theorem length_reportText_lt (pre detail : Bytes) : (reportText pre detail).length < 512 :=
  (length_snprintf_le 512 _).trans_lt (by norm_num)

private theorem ReportedCall.length_text_lt (call : ReportedCall) (os : Os σ) (e : Errno) :
    (call.text os e).length < 256 := (length_snprintf_le 256 _).trans_lt (by norm_num)

theorem Told.length_lt {calls : Set ReportedCall} {text : Bytes} (h : Told os calls text) :
    text.length < 256 := by
  cases h with
  | message hascii => exact (length_snprintf_le 256 _).trans_lt (by norm_num)
  | file hcall e => exact ReportedCall.length_text_lt _ os e

/-- A text that is told can be decoded when every call can. A message is ASCII, so where it
is cut does not matter. -/
theorem Told.isText {calls : Set ReportedCall} {text : Bytes} (h : Told os calls text)
    (hascii : ∀ e, IsAscii (os.strerror e)) (hclean : ∀ call ∈ calls, call.CutClean) :
    IsText (cStr text) := by
  cases h with
  | message hmsg => exact (IsAscii.cStr fun b hb => hmsg b (List.mem_of_mem_take hb)).isText
  | file hcall e =>
    exact (ReportedCall.isText_cStr_text_iff _ (hascii e)).mpr (hclean _ hcall)

/-- An operation that fails is answered with its error. -/
private theorem errorsDecode_of_failure {task : FileTask} (hasked : asked frame = .task task)
    {p' : Proc σ} (hrun : (task.op os).run dev.proc = (none, p'))
    (hlen : p'.lastError.length < 256) :
    ErrorsDecode os shell frame dev ↔ IsText (cStr p'.lastError) := by
  have hanswer := handleFrame_askedAnswer os shell dev frame
  rw [hasked] at hanswer
  cases hanswer with
  | task h =>
    rw [hrun] at h
    rw [errorsDecode_iff h rfl fun text htext => ?_]
    · simp only [failureText, Option.mem_some_iff, forall_eq']
      exact isText_cStr_reportText_iff task.isMessage_report hlen
    · rw [← Option.mem_some_iff.mp htext]
      exact length_reportText_lt _ _

private theorem errorsDecode_of_lacking (hasked : asked frame = .lacking)
    (hlen : dev.proc.lastError.length < 256) :
    ErrorsDecode os shell frame dev ↔ IsText (cStr dev.proc.lastError) := by
  have hanswer := handleFrame_askedAnswer os shell dev frame
  rw [hasked] at hanswer
  cases hanswer with
  | lacking hpre h =>
    rw [errorsDecode_iff h rfl fun text htext => ?_]
    · simp only [Option.mem_some_iff, forall_eq']
      exact isText_cStr_reportText_iff hpre hlen
    · rw [← Option.mem_some_iff.mp htext]
      exact length_reportText_lt _ _

/-- **Enough.** Where the condition holds, the error is decoded in every world. -/
theorem errorsDecode_of (hascii : ∀ e, IsAscii (os.strerror e))
    (hlen : dev.proc.lastError.length < 256)
    (hmute : (asked frame).IsMute → IsText (cStr dev.proc.lastError))
    (hclean : ∀ call ∈ (asked frame).calls os.ulongMax dev.proc.sessions, call.CutClean) :
    ErrorsDecode os shell frame dev := by
  rcases hasked : asked frame with task | _ | _
  · rw [hasked] at hmute hclean
    rcases hrun : (task.op os).run dev.proc with ⟨_ | _, p'⟩
    · -- the error is about a call of the task, or is the last error from before
      obtain htold | ⟨hismute, herror⟩ := task.told os hrun
      · exact (errorsDecode_of_failure hasked hrun htold.length_lt).mpr
          (htold.isText hascii hclean)
      · rw [errorsDecode_of_failure hasked hrun (herror ▸ hlen), herror]
        exact hmute hismute
    · have hanswer := handleFrame_askedAnswer os shell dev frame
      rw [hasked] at hanswer
      cases hanswer with
      | task h =>
        rw [hrun] at h
        exact (errorsDecode_iff h rfl (by simp [failureText])).mpr (by simp [failureText])
  · rw [hasked] at hmute
    exact (errorsDecode_of_lacking hasked hlen).mpr (hmute trivial)
  · have hanswer := handleFrame_askedAnswer os shell dev frame
    rw [hasked] at hanswer
    cases hanswer with
    | other hlog hmsg h =>
      refine (errorsDecode_iff h hlog fun text htext => ?_).mpr fun text htext => ?_
      · exact (hmsg text htext).2.2.trans (by norm_num)
      · exact (hmsg text htext).1.cStr.isText

end Decode

/-- **Error responses.** Whatever the library functions do, as long as the texts of `errno`
are ASCII, the host decodes the error responses to a frame, exactly if the message of no
call that the request may fail at is cut inside a character, and the last error, where the
request may report one that it has not set, is a text already. -/
theorem error_response_decodes_iff (u : ℕ) (frame : Frame) (sessions : FileOps) {lastError : Bytes}
    (hlen : lastError.length < 256) :
    (∀ (σ : Type) (os : Os σ) (shell : ExecShell σ) (dev : Device σ), os.ulongMax = u →
        (∀ e, IsAscii (os.strerror e)) → dev.proc.sessions = sessions →
        dev.proc.lastError = lastError → ErrorsDecode os shell frame dev) ↔
      ((asked frame).IsMute → IsText (cStr lastError)) ∧
        ∀ call ∈ (asked frame).calls u sessions, call.CutClean := by
  constructor
  · -- each part of the condition is read off a world in which the task fails that way
    intro hdecodes
    have hworld : ∀ (name : Bytes) (way : List Bytes), ErrorsDecode (Os.failingAt u name)
        (fun _ _ s => (none, s)) frame ⟨⟨0, 0, 0⟩, ⟨sessions, lastError, way⟩, [], []⟩ :=
      fun name way => hdecodes _ _ _ _ rfl isAscii_strerror_failingAt rfl rfl
    rcases hasked : asked frame with task | _ | _
    · constructor
      · intro hmute
        obtain ⟨name, hrun⟩ := FileTask.exists_mute hmute
        exact (errorsDecode_of_failure hasked hrun hlen).mp (hworld name [])
      · intro call hcall
        obtain ⟨name, way, hfailed⟩ : ∃ name way, FailedAt (Os.failingAt u name) call
          ((task.op (Os.failingAt u name)).run ⟨sessions, lastError, way⟩) :=
          FileTask.failedAt hcall
        rcases hrun : (task.op (Os.failingAt u name)).run ⟨sessions, lastError, way⟩ with
          ⟨result, p'⟩
        rw [hrun] at hfailed
        obtain ⟨hnone, herror : p'.lastError = call.text (Os.failingAt u name) 2⟩ := hfailed
        obtain rfl : result = none := hnone
        have htext := (errorsDecode_of_failure hasked hrun
          (herror ▸ call.length_text_lt _ _)).mp (hworld name way)
        rw [herror] at htext
        exact (call.isText_cStr_text_iff (isAscii_strerror_failingAt 2)).mp htext
    · exact ⟨fun _ => (errorsDecode_of_lacking hasked hlen).mp (hworld [] []),
        by simp [Asked.calls]⟩
    · exact ⟨False.elim, by simp [Asked.calls]⟩
  · rintro ⟨hmute, hclean⟩ σ os shell dev rfl hascii rfl rfl
    exact errorsDecode_of hascii hlen hmute hclean

/-- A path whose error message is cut inside its last character. -/
def longPath : Bytes := List.replicate 247 97 ++ utf8 "é"

/-- A request to inspect that path. -/
def longStatFrame : Frame where
  header := { type := MsgType.fileStat.code, requestId := 3, payloadLen := 259 }
  payload := [1, 0, 4, 0, 249, 0] ++ utf8 "path" ++ longPath

/-- `error_response_decodes_iff` for that request, whose path reaches the end of the buffer
of the last error. -/
theorem error_response_decodes_iff_long :
    (∀ (σ : Type) (os : Os σ) (shell : ExecShell σ) (dev : Device σ), os.ulongMax = 2 ^ 32 - 1 →
        (∀ e, IsAscii (os.strerror e)) → dev.proc.sessions = fileOpsInit →
        dev.proc.lastError = [] → ErrorsDecode os shell longStatFrame dev) ↔
      ((asked longStatFrame).IsMute → IsText (cStr [])) ∧
        ∀ call ∈ (asked longStatFrame).calls (2 ^ 32 - 1) fileOpsInit, call.CutClean :=
  error_response_decodes_iff (2 ^ 32 - 1) longStatFrame fileOpsInit (by decide)

private theorem not_isText_half : ¬IsText [195] := by
  rintro ⟨s, hs⟩
  have hdecode := decodeUtf8_utf8 s
  rw [hs, show decodeUtf8 [195] = none by decide] at hdecode
  simp at hdecode

/-- The error response about a missing file with that path cannot be decoded. -/
theorem not_error_response_decodes :
    ¬∀ (σ : Type) (os : Os σ) (shell : ExecShell σ) (frame : Frame) (dev : Device σ),
      (∀ e, IsAscii (os.strerror e)) →
      (∀ kvs, decodeKv frame.payload maxKv = some kvs →
        ∀ item ∈ kvs, IsText item.key ∧ IsText item.value) →
      ErrorsDecode os shell frame dev := by
  intro h
  have hascii : IsAscii (List.replicate 247 97) := by decide +kernel
  have hkvs : decodeKv longStatFrame.payload maxKv = some [⟨utf8 "path", longPath⟩] := by
    decide +kernel
  have htexts : ∀ kvs, decodeKv longStatFrame.payload maxKv = some kvs →
      ∀ item ∈ kvs, IsText item.key ∧ IsText item.value := by
    intro kvs hdecode item hitem
    rw [← Option.some.inj (hkvs.symm.trans hdecode), List.mem_singleton] at hitem
    obtain rfl := hitem
    exact ⟨isText_utf8 "path", hascii.isText.append (isText_utf8 "é")⟩
  have hasked : asked longStatFrame = .task (.stat longPath) := by
    rw [asked, show MsgType.ofCode longStatFrame.header.type = some .fileStat by decide]
    dsimp only
    rw [askedKv, hkvs]
    dsimp only
    rw [show kvGet [⟨utf8 "path", longPath⟩] (utf8 "path") = some longPath by decide +kernel]
    rfl
  have hpath : buildPath longPath pathMaxLen = (slash :: longPath, .ok .nand) := by
    decide +kernel
  have hrun : ((FileTask.stat longPath).op (Os.failing Unit)).run bootDevice.proc =
      (none, bootDevice.proc.setFileError (Os.failing Unit) (utf8 "lstat")
        (slash :: longPath) 2) := by
    rw [FileTask.op, run_bind_pure, fileStat, Op.run_bind_of_some (buildPathOp_run hpath _),
      Op.run_bind_of_some (Op.run_sys ..), Os.failing]
    rfl
  have hdecodes := h Unit (Os.failing Unit) noShell longStatFrame bootDevice
    (fun _ _ hb => absurd hb List.not_mem_nil) htexts
  -- the path is cut behind the first byte of its last character
  have herror : cStr (bootDevice.proc.setFileError (Os.failing Unit) (utf8 "lstat")
      (slash :: longPath) 2).lastError = (utf8 "lstat /" ++ List.replicate 247 97) ++ [195] := by
    decide +kernel
  have htext := (errorsDecode_of_failure hasked hrun
    ((length_snprintf_le 256 _).trans_lt (by norm_num))).mp hdecodes
  rw [herror, isText_ascii_append_iff (by decide +kernel)] at htext
  exact not_isText_half htext

end UsbResponder
