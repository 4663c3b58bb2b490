import UsbResponder.FileOps.FileRequests
import UsbResponder.Host.ResponseSizes
import UsbResponder.Responder.RawChunks
import UsbResponder.Responder.Responses

/-!
# The responder as a store

Frames about files as requests to the store of `UsbResponder.FileOps.FileStore`, and
responses as its answers. `storeRequest` is what a frame asks for, and `Says` what a
response tells: `STATUS` confirms, an `ERROR` refuses, a `FILE_GET` carries a value and a
`STATUS` with a size measures one.

`handleFrame_serves` is the step: handling a frame answers as the store does and leaves a
process that stands for the next store. The run over any frames of any clients is
`responder_refines_store`; with the history of the store it gives `get_returns_whole_file`:
what a `FILE_GET` returns is a file that was there at the start or one whole upload.

The step is put together from the operations, each of which does what it asks of the store,
and from the ways a handler ends: `serves_confirm` for those that confirm, `serves_setError`
for those that refuse with the error of an operation. A frame whose payload cannot be
decoded, or lacks a parameter, asks for nothing and is refused.

The frames are about paths of files (`FilePaths`), no two uploads to one path are in
progress, and system calls succeed. Requests that list or make directories, ask for device
information or run commands are left out; a store has none of these.
-/

namespace UsbResponder

open CString StagedStore

/-! ### Requests and answers -/

/-- A frame about files, or one that asks for nothing. The requests that are left out list
or make directories, ask for device information, or run commands. -/
def Frame.IsStoreFrame (frame : Frame) : Prop :=
  ∀ type ∈ [MsgType.fileList, .fileMkdir, .commandExec, .devinfo],
    MsgType.ofCode frame.header.type ≠ some type

/-- What a frame asks for by the items of its payload; without items, or without those that
are needed, nothing. -/
def itemsRequest (frame : Frame) (request : List Kv → Option FileRequest) : FileRequest :=
  ((decodeKv frame.payload maxKv).bind request).getD .skip

/-- What a `FILE_GET` asks for. -/
def getRequest (kvs : List Kv) : Option FileRequest :=
  (kvGet kvs (utf8 "path")).map (pathRequest .get)

/-- What a `FILE_STAT` asks for. -/
def statRequest (kvs : List Kv) : Option FileRequest :=
  (kvGet kvs (utf8 "path")).map (pathRequest .measure)

/-- What a `FILE_DELETE` asks for. -/
def removeRequest (mount : Option (List Bytes)) (kvs : List Kv) : Option FileRequest :=
  (kvGet kvs (utf8 "path")).map fun path =>
    deleteRequest mount path (kvGet kvs (utf8 "desire_storage"))

/-- What a `FILE_RENAME` asks for. -/
def moveRequest (mount : Option (List Bytes)) (kvs : List Kv) : Option FileRequest :=
  (kvGet kvs (utf8 "from")).bind fun fromPath => (kvGet kvs (utf8 "to")).map fun toPath =>
    renameRequest mount fromPath toPath (kvGet kvs (utf8 "desire_storage"))

/-- What a `FILE_PUT_BEGIN` asks for. -/
def putRequest (ulongMax : ℕ) (mount : Option (List Bytes)) (reqId : UInt32) (kvs : List Kv) :
    Option FileRequest :=
  (kvGet kvs (utf8 "path")).map fun path =>
    beginRequest ulongMax mount reqId path (kvGet kvs (utf8 "desire_storage"))
      (kvGet kvs (utf8 "perm"))

/-- What a frame asks of the store. It depends on the mount table, because a path on the
card is refused while no card is mounted. -/
def storeRequest (ulongMax : ℕ) (mount : Option (List Bytes)) (frame : Frame) : FileRequest :=
  match MsgType.ofCode frame.header.type with
  | some .hello => .ping
  | some .filePutBegin => itemsRequest frame (putRequest ulongMax mount frame.header.requestId)
  | some .filePutChunk => .add (transferId frame) (chunkData frame)
  | some .filePutEnd => .commit (transferId frame)
  | some .fileGet => itemsRequest frame getRequest
  | some .fileDelete => itemsRequest frame (removeRequest mount)
  | some .fileRename => itemsRequest frame (moveRequest mount)
  | some .fileStat => itemsRequest frame statRequest
  | _ => .skip

/-- The response tells the answer. An answer can be told in one way only, but for the text
of an error. -/
def Says (reqId : UInt32) (answer : FileAnswer) (resp : Frame) : Prop :=
  match answer with
  | .done => ∃ payload, resp = responseFrame .status reqId payload
  | .value v => resp = responseFrame .fileGet reqId v
  | .size n => ∃ owner perm payload,
      encodeKv [⟨utf8 "owner", owner⟩, ⟨utf8 "perm", perm⟩,
        ⟨utf8 "size", snprintf 32 (formatNat 10 0 n)⟩, ⟨utf8 "type", utf8 "file"⟩] =
          some payload ∧
      resp = responseFrame .status reqId payload
  | .refused => ∃ payload, resp = responseFrame .error reqId payload

section Step

variable {K : Set Bytes} {mount : Option (List Bytes)} {st : FileStore} {os : Os Fs}
  {shell : ExecShell Fs} {attrs : Bytes → Stat} {f : Faults} {frame : Frame} {dev : Device Fs}
  {reqId : UInt32} {request : FileRequest}

/-- A handler answers a request as the store does, and leaves what stands for the next
store. The response is the only thing written. -/
def Serves (K : Set Bytes) (mount : Option (List Bytes)) (st : FileStore) (os : Os Fs)
    (reqId : UInt32) (request : FileRequest) (dev : Device Fs) (r : Bool × Device Fs) : Prop :=
  ∃ resp p', r = writeFrame os resp { dev with proc := p' } ∧
    Says reqId (storeStep request st).1 resp ∧ Represents K mount (storeStep request st).2 p'

/-- An error refuses a request for nothing. -/
private theorem serves_sendError (h : Represents K mount st dev.proc) (os : Os Fs) (msg : Bytes) :
    Serves K mount st os reqId .skip dev (sendError os reqId msg dev) := by
  obtain ⟨payload, hrun⟩ := sendError_eq os reqId msg dev
  exact ⟨_, dev.proc, hrun, ⟨payload, rfl⟩, h⟩

/-- An error after an operation that has set the last error. -/
private theorem serves_setError (h : Represents K mount st dev.proc) (os : Os Fs) (e msg : Bytes) :
    Serves K mount st os reqId .skip dev
      (sendError os reqId msg { dev with proc := dev.proc.setLastError e }) := by
  obtain ⟨payload, hrun⟩ :=
    sendError_eq os reqId msg { dev with proc := dev.proc.setLastError e }
  exact ⟨_, _, hrun, ⟨payload, rfl⟩, h.of_eq rfl rfl⟩

/-- The end of a handler that confirms its operation. -/
private theorem serves_of_confirmed {r : Option Unit × Proc Fs} {payload : Bytes}
    (hconfirms : request.Confirms) (hdone : r.1 = some () ↔ (storeStep request st).1 = .done)
    (hrepr : Represents K mount (storeStep request st).2 r.2) :
    Serves K mount st os reqId request dev
      (writeFrame os (responseFrame (responseType r.1) reqId payload)
        { dev with proc := r.2 }) := by
  refine ⟨_, r.2, rfl, ?_, hrepr⟩
  obtain hanswer | hanswer := step_of_confirms hconfirms st
  · rw [show r.1 = some () from hdone.mpr hanswer, storeStep, hanswer]
    exact ⟨payload, rfl⟩
  · have hnone : r.1 = none := by
      by_contra hsome
      have hdone' := hdone.mp (Option.eq_some_of_isSome (Option.isSome_iff_ne_none.mpr hsome))
      rw [storeStep, hanswer] at hdone'
      simp at hdone'
    rw [hnone, storeStep, hanswer]
    exact ⟨payload, rfl⟩

/-- A handler that confirms an operation. -/
private theorem serves_confirm {x : Op Fs Unit} (pre : Bytes) (hconfirms : request.Confirms)
    (hdone : (x.run dev.proc).1 = some () ↔ (storeStep request st).1 = .done)
    (hrepr : Represents K mount (storeStep request st).2 (x.run dev.proc).2) :
    Serves K mount st os reqId request dev (confirm os reqId pre (dev.op x)) := by
  obtain ⟨payload, hrun⟩ := confirm_op_eq os reqId pre x dev
  rw [hrun]
  exact serves_of_confirmed hconfirms hdone hrepr

/-- A handler that starts with the items of its payload. -/
private theorem serves_items {request : List Kv → Option FileRequest} {r : Bool × Device Fs}
    (h : Represents K mount st dev.proc) (hadm : Admissible K st (itemsRequest frame request))
    (hnone : decodeKv frame.payload maxKv = none →
      r = sendError os reqId (utf8 "invalid kv payload") dev)
    (hsome : ∀ kvs, decodeKv frame.payload maxKv = some kvs →
      Admissible K st ((request kvs).getD .skip) →
        Serves K mount st os reqId ((request kvs).getD .skip) dev r) :
    Serves K mount st os reqId (itemsRequest frame request) dev r := by
  rcases hkvs : decodeKv frame.payload maxKv with _ | kvs
  · rw [itemsRequest, hkvs, hnone hkvs]
    exact serves_sendError h os _
  · rw [itemsRequest, hkvs, Option.bind_some] at hadm ⊢
    exact hsome kvs hkvs hadm

section Handlers

variable (h : Represents K mount st dev.proc) (hK : FilePaths attrs K)
include h hK

omit hK in
variable (os) in
/-- The frames of an upload. -/
private theorem handleFrame_serves_upload (hK : NoClash K) (hex : Exclusive st) (hf : f.AllOk)
    (hframe : frame.IsUploadFrame)
    (hadm : Admissible K st (storeRequest os.ulongMax mount frame)) :
    Serves K mount st (os.withFs f) frame.header.requestId (storeRequest os.ulongMax mount frame)
      dev (handleFrame (os.withFs f) shell frame dev) := by
  rcases hcall : uploadCall? frame with _ | call
  · obtain ⟨payload, hrun⟩ := handleFrame_of_no_call (os.withFs f) shell hframe hcall dev
    have hskip : storeRequest os.ulongMax mount frame = .skip := by
      obtain htype | htype | htype := hframe
      · rw [uploadCall?_begin htype, beginCall?] at hcall
        rw [storeRequest, MsgType.ofCode_eq_some_iff.mpr htype.symm]
        dsimp only
        rw [itemsRequest]
        rcases hkvs : decodeKv frame.payload maxKv with _ | kvs
        · rfl
        rcases hpath : kvGet kvs (utf8 "path") with _ | path
        · simp [putRequest, hpath]
        · simp [hkvs, hpath] at hcall
      · simp [uploadCall?_chunk htype] at hcall
      · simp [uploadCall?_end htype] at hcall
    rw [hrun, hskip]
    exact ⟨_, dev.proc, rfl, ⟨payload, rfl⟩, h⟩
  · obtain ⟨payload, hrun⟩ := handleFrame_of_call (os.withFs f) shell hcall dev
    rw [hrun]
    obtain htype | htype | htype := hframe
    · rw [uploadCall?_begin htype, beginCall?] at hcall
      rcases hkvs : decodeKv frame.payload maxKv with _ | kvs
      · simp [hkvs] at hcall
      rcases hpath : kvGet kvs (utf8 "path") with _ | path
      · simp [hkvs, hpath] at hcall
      simp only [hkvs, hpath, Option.some.injEq] at hcall
      have hrequest : storeRequest os.ulongMax mount frame =
          beginRequest os.ulongMax mount frame.header.requestId path
            (kvGet kvs (utf8 "desire_storage")) (kvGet kvs (utf8 "perm")) := by
        rw [storeRequest, MsgType.ofCode_eq_some_iff.mpr htype.symm]
        simp [itemsRequest, hkvs, putRequest, hpath]
      rw [hrequest] at hadm ⊢
      obtain ⟨hdone, hrepr⟩ := h.beginUpload hK hex hf hadm
      rw [← hcall]
      refine serves_of_confirmed ?_ hdone hrepr
      rw [beginRequest]
      split
      · exact trivial
      · exact trivial
    · rw [uploadCall?_chunk htype] at hcall
      obtain rfl := Option.some.inj hcall
      have hrequest : storeRequest os.ulongMax mount frame =
          .add (transferId frame) (chunkData frame) := by
        rw [storeRequest, MsgType.ofCode_eq_some_iff.mpr htype.symm]
      obtain ⟨hdone, hrepr⟩ := h.append hK hex hf (transferId frame) (chunkData frame)
      rw [hrequest]
      exact serves_of_confirmed trivial hdone hrepr
    · rw [uploadCall?_end htype] at hcall
      obtain rfl := Option.some.inj hcall
      have hrequest : storeRequest os.ulongMax mount frame = .commit (transferId frame) := by
        rw [storeRequest, MsgType.ofCode_eq_some_iff.mpr htype.symm]
      obtain ⟨hdone, hrepr⟩ := h.finish hK hex hf (transferId frame)
      rw [hrequest]
      exact serves_of_confirmed trivial hdone hrepr

private theorem handleFileGet_serves (hadm : Admissible K st (itemsRequest frame getRequest)) :
    Serves K mount st ((os.withReads attrs).withFs f) frame.header.requestId
      (itemsRequest frame getRequest) dev
      (handleFileGet ((os.withReads attrs).withFs f) frame dev) := by
  refine serves_items h hadm (fun hkvs => by rw [handleFileGet, hkvs]) fun kvs hkvs hadm => ?_
  rw [handleFileGet, hkvs]
  rw [getRequest] at hadm ⊢
  dsimp only
  cases hvalue : kvGet kvs (utf8 "path") with
  | none => exact serves_sendError h _ _
  | some relativePath =>
    rw [hvalue, Option.map_some, Option.getD_some, pathRequest] at hadm
    rw [Option.map_some, Option.getD_some, pathRequest]
    dsimp only [Device.op]
    rcases hpath : buildPath relativePath pathMaxLen with ⟨path, msg | storage⟩
    · have hrun : (fileRead ((os.withReads attrs).withFs f) relativePath).run dev.proc = _ :=
        buildPathOp_bind_of_error hpath _ dev.proc
      simp only [hrun]
      exact serves_setError h _ _ _
    · rw [hpath] at hadm
      obtain ⟨hread, hrepr⟩ := h.read os attrs f hK.noClash hadm hpath
      rcases hrun : (fileRead ((os.withReads attrs).withFs f) relativePath).run dev.proc with
        ⟨r, p'⟩
      rw [hrun] at hread hrepr
      dsimp only at hread hrepr ⊢
      rw [Serves, storeStep, step, ← hread]
      rcases r with _ | data
      · obtain ⟨payload, hsend⟩ := sendError_eq ((os.withReads attrs).withFs f)
          frame.header.requestId (utf8 "read file failed") { dev with proc := p' }
        exact ⟨_, p', hsend, ⟨payload, rfl⟩, hrepr⟩
      · dsimp only
        split_ifs with hlong hshort hshort
        · omega
        · obtain ⟨payload, hsend⟩ := sendError_eq ((os.withReads attrs).withFs f)
            frame.header.requestId (utf8 "file too large") { dev with proc := p' }
          exact ⟨_, p', hsend, ⟨payload, rfl⟩, hrepr⟩
        · exact ⟨_, p', rfl, rfl, hrepr⟩
        · omega

private theorem handleFileStat_serves (hadm : Admissible K st (itemsRequest frame statRequest)) :
    Serves K mount st ((os.withReads attrs).withFs f) frame.header.requestId
      (itemsRequest frame statRequest) dev
      (handleFileStat ((os.withReads attrs).withFs f) frame dev) := by
  refine serves_items h hadm (fun hkvs => by rw [handleFileStat, hkvs]) fun kvs hkvs hadm => ?_
  have hrefused : ∀ p', Represents K mount st p' → ∃ resp,
      sendLastError ((os.withReads attrs).withFs f) frame.header.requestId (utf8 "stat failed")
          { dev with proc := p' } =
        writeFrame ((os.withReads attrs).withFs f) resp { dev with proc := p' } ∧
      Says frame.header.requestId .refused resp := by
    intro p' _
    obtain ⟨payload, hsend⟩ := sendLastError_eq ((os.withReads attrs).withFs f)
      frame.header.requestId (utf8 "stat failed") { dev with proc := p' }
    exact ⟨_, hsend, payload, rfl⟩
  rw [handleFileStat, hkvs]
  rw [statRequest] at hadm ⊢
  dsimp only
  cases hvalue : kvGet kvs (utf8 "path") with
  | none =>
    obtain ⟨resp, hsend, hsays⟩ := hrefused dev.proc h
    exact ⟨resp, dev.proc, hsend, hsays, h⟩
  | some relativePath =>
    rw [hvalue, Option.map_some, Option.getD_some, pathRequest] at hadm
    rw [Option.map_some, Option.getD_some, pathRequest]
    dsimp only [Device.opWith, Device.op]
    rcases hpath : buildPath relativePath pathMaxLen with ⟨path, msg | storage⟩
    · have hrun : (fileStat ((os.withReads attrs).withFs f) relativePath).run dev.proc = _ :=
        buildPathOp_bind_of_error hpath _ dev.proc
      have hrepr : Represents K mount st (dev.proc.setLastError msg) := h.of_eq rfl rfl
      obtain ⟨resp, hsend, hsays⟩ := hrefused _ hrepr
      simp only [hrun]
      exact ⟨resp, _, hsend, hsays, hrepr⟩
    · rw [hpath] at hadm
      obtain ⟨hnone, hsome, hrepr⟩ := h.stat os attrs f hK hadm hpath
      rcases hrun : (fileStat ((os.withReads attrs).withFs f) relativePath).run dev.proc with
        ⟨r, p'⟩
      rw [hrun] at hnone hsome hrepr
      dsimp only at hnone hsome hrepr ⊢
      rw [Serves, storeStep, step]
      rcases hcommitted : st.committed path with _ | v
      · obtain ⟨resp, hsend, hsays⟩ := hrefused p' hrepr
        rw [hnone hcommitted]
        exact ⟨resp, p', hsend, hsays, hrepr⟩
      · obtain ⟨owner, perm, hinfo⟩ := hsome v hcommitted
        rw [hinfo]
        dsimp only
        obtain ⟨payload, hencode⟩ : ∃ payload, encodeKv [⟨utf8 "owner", owner⟩,
            ⟨utf8 "perm", perm⟩, ⟨utf8 "size", snprintf 32 (formatNat 10 0 v.length)⟩,
            ⟨utf8 "type", utf8 "file"⟩] = some payload := ⟨_, if_neg (by simp [maxKv])⟩
        rw [sendKvResponse, hencode]
        exact ⟨_, p', rfl, ⟨owner, perm, payload, hencode, rfl⟩, hrepr⟩

private theorem handleFileDelete_serves (hf : f.AllOk)
    (hadm : Admissible K st (itemsRequest frame (removeRequest mount))) :
    Serves K mount st ((os.withReads attrs).withFs f) frame.header.requestId
      (itemsRequest frame (removeRequest mount)) dev
      (handleFileDelete ((os.withReads attrs).withFs f) frame dev) := by
  refine serves_items h hadm (fun hkvs => by rw [handleFileDelete, hkvs]) fun kvs hkvs hadm => ?_
  rw [handleFileDelete, hkvs]
  rw [removeRequest] at hadm ⊢
  dsimp only
  cases hvalue : kvGet kvs (utf8 "path") with
  | none =>
    obtain ⟨payload, hsend⟩ := sendLastError_eq ((os.withReads attrs).withFs f)
      frame.header.requestId (utf8 "delete failed") dev
    exact ⟨_, dev.proc, hsend, ⟨payload, rfl⟩, h⟩
  | some relativePath =>
    rw [hvalue, Option.map_some, Option.getD_some] at hadm
    obtain ⟨hdone, hrepr⟩ := h.delete os attrs hK hf hadm
    rw [Option.map_some, Option.getD_some, Device.opWith]
    refine serves_confirm _ ?_ hdone hrepr
    rw [deleteRequest]
    split
    · exact trivial
    · exact trivial

variable (os) in
omit hK in
private theorem handleFileRename_serves (hK : NoClash K) (hf : f.AllOk)
    (hadm : Admissible K st (itemsRequest frame (moveRequest mount))) :
    Serves K mount st (os.withFs f) frame.header.requestId
      (itemsRequest frame (moveRequest mount)) dev (handleFileRename (os.withFs f) frame dev) := by
  refine serves_items h hadm (fun hkvs => by rw [handleFileRename, hkvs]) fun kvs hkvs hadm => ?_
  have hrefused : Serves K mount st (os.withFs f) frame.header.requestId .skip dev
      (sendLastError (os.withFs f) frame.header.requestId (utf8 "rename failed") dev) := by
    obtain ⟨payload, hsend⟩ := sendLastError_eq (os.withFs f) frame.header.requestId
      (utf8 "rename failed") dev
    exact ⟨_, dev.proc, hsend, ⟨payload, rfl⟩, h⟩
  rw [handleFileRename, hkvs]
  rw [moveRequest] at hadm ⊢
  dsimp only
  cases hfrom : kvGet kvs (utf8 "from") with
  | none => exact hrefused
  | some fromRelative =>
    rw [hfrom, Option.bind_some] at hadm
    rw [Option.bind_some]
    dsimp only
    cases hto : kvGet kvs (utf8 "to") with
    | none => exact hrefused
    | some toRelative =>
      rw [hto, Option.map_some, Option.getD_some] at hadm
      obtain ⟨hdone, hrepr⟩ := h.rename os hK hf hadm
      rw [Option.map_some, Option.getD_some, Device.opWith]
      refine serves_confirm _ ?_ hdone hrepr
      obtain hskip | ⟨fromPath, toPath, storage, -, -, hmove⟩ :=
        renameRequest_cases mount fromRelative toRelative (kvGet kvs (utf8 "desire_storage"))
      · rw [hskip]
        exact trivial
      · rw [hmove]
        exact trivial

variable (shell attrs) in
/-- **One frame** about files is answered as the store answers, and the process after it
stands for the next store. -/
theorem handleFrame_serves (hex : Exclusive st) (hf : f.AllOk) (hframe : frame.IsStoreFrame)
    (hadm : Admissible K st (storeRequest os.ulongMax mount frame)) :
    Serves K mount st ((os.withReads attrs).withFs f) frame.header.requestId
      (storeRequest os.ulongMax mount frame) dev
      (handleFrame ((os.withReads attrs).withFs f) shell frame dev) := by
  have hupload : ∀ type, type = MsgType.filePutBegin ∨ type = .filePutChunk ∨ type = .filePutEnd →
      MsgType.ofCode frame.header.type = some type →
        Serves K mount st ((os.withReads attrs).withFs f) frame.header.requestId
          (storeRequest os.ulongMax mount frame) dev
          (handleFrame ((os.withReads attrs).withFs f) shell frame dev) := by
    intro type hcases htype
    have hcode := (MsgType.ofCode_eq_some_iff.mp htype).symm
    refine handleFrame_serves_upload (os.withReads attrs) h hK.noClash hex hf ?_ hadm
    obtain rfl | rfl | rfl := hcases
    · exact .inl hcode
    · exact .inr (.inl hcode)
    · exact .inr (.inr hcode)
  have hother : ∀ os' : Os Fs, Serves K mount st os' frame.header.requestId .skip dev
      (sendError os' frame.header.requestId (utf8 "unsupported message type") dev) :=
    fun os' => serves_sendError h os' _
  rcases htype : MsgType.ofCode frame.header.type with _ | type
  · rw [storeRequest, htype, handleFrame, htype]
    exact hother _
  · cases type with
    | hello =>
      rw [storeRequest, htype, handleFrame, htype]
      obtain ⟨payload, hsend⟩ : ∃ payload, sendKvResponse ((os.withReads attrs).withFs f) .status
          frame.header.requestId [⟨utf8 "service", utf8 "usb_responder"⟩,
            ⟨utf8 "version", utf8 "1"⟩] dev = writeFrame ((os.withReads attrs).withFs f)
              (responseFrame .status frame.header.requestId payload) dev :=
        sendKvResponse_eq _ .status _ (by simp [maxKv]) dev
      exact ⟨_, dev.proc, hsend, ⟨payload, rfl⟩, h⟩
    | status =>
      rw [storeRequest, htype, handleFrame, htype]
      exact hother _
    | error =>
      rw [storeRequest, htype, handleFrame, htype]
      exact hother _
    | filePutBegin => exact hupload _ (.inl rfl) htype
    | filePutChunk => exact hupload _ (.inr (.inl rfl)) htype
    | filePutEnd => exact hupload _ (.inr (.inr rfl)) htype
    | fileGet =>
      rw [storeRequest, htype] at hadm ⊢
      rw [handleFrame, htype]
      exact handleFileGet_serves h hK hadm
    | fileList => exact absurd htype (hframe _ (by simp))
    | fileDelete =>
      rw [storeRequest, htype] at hadm ⊢
      rw [handleFrame, htype]
      exact handleFileDelete_serves h hK hf hadm
    | fileRename =>
      rw [storeRequest, htype] at hadm ⊢
      rw [handleFrame, htype]
      exact handleFileRename_serves (os.withReads attrs) h hK.noClash hf hadm
    | fileMkdir => exact absurd htype (hframe _ (by simp))
    | fileStat =>
      rw [storeRequest, htype] at hadm ⊢
      rw [handleFrame, htype]
      exact handleFileStat_serves h hK hadm
    | commandExec => exact absurd htype (hframe _ (by simp))
    | commandResult =>
      rw [storeRequest, htype, handleFrame, htype]
      exact hother _
    | devinfo => exact absurd htype (hframe _ (by simp))

end Handlers

end Step

/-! ### Runs -/

/-- The files of a file system as a store without transfers. -/
def Fs.store (fs : Fs) : FileStore where
  committed := fs.files
  staged _ := none

section Run

variable {K : Set Bytes} {mount : Option (List Bytes)} {st : FileStore} {os : Os Fs}
  {shell : ExecShell Fs} {attrs : Bytes → Stat} {dev : Device Fs} {calls : List FrameCall}

/-- From `dev` to `dev'` exactly the given frames have been sent. -/
def HasSent {σ : Type} (dev dev' : Device σ) (resps : List Frame) : Prop :=
  ∃ log, dev'.log = dev.log ++ log ∧ sentFrames log = resps ∧
    sentBytes log = resps.flatMap encodeFrame

theorem HasSent.trans {dev₁ dev₂ dev₃ : Device Fs} {resps resps' : List Frame}
    (h₁ : HasSent dev₁ dev₂ resps) (h₂ : HasSent dev₂ dev₃ resps') :
    HasSent dev₁ dev₃ (resps ++ resps') := by
  obtain ⟨log₁, hlog₁, hframes₁, hbytes₁⟩ := h₁
  obtain ⟨log₂, hlog₂, hframes₂, hbytes₂⟩ := h₂
  refine ⟨log₁ ++ log₂, by rw [hlog₂, hlog₁, List.append_assoc], ?_, ?_⟩
  · rw [sentFrames, List.filterMap_append, ← sentFrames, ← sentFrames, hframes₁, hframes₂]
  · rw [sentBytes_append, hbytes₁, hbytes₂, List.flatMap_append]

/-- A frame that has been written has been sent. -/
theorem Device.Wrote.sent {dev' dev'' : Device Fs} {resp : Frame}
    (h : (dev'.record (.sending resp)).Wrote dev'' (encodeFrame resp))
    (hlog : dev'.log = dev.log) : HasSent dev dev'' [resp] := by
  obtain ⟨writes, hwritten, hwrites, hbytes⟩ := h.log
  refine ⟨.sending resp :: writes, ?_, ?_, ?_⟩
  · rw [hwritten, Device.record, hlog, List.append_assoc]
    rfl
  · show resp :: sentFrames writes = _
    rw [(frames_of_writes hwrites).2]
  · show [] ++ sentBytes writes = _
    rw [hbytes, List.nil_append, List.flatMap_cons, List.flatMap_nil, List.append_nil]

/-- When no `write` fails, the response to one frame is sent, and the process is what the
store says. -/
theorem Serves.sent {reqId : UInt32} {request : FileRequest} {os : Os Fs}
    {r : Bool × Device Fs} (h : Serves K mount st os reqId request dev r) (hbenign : dev.Benign) :
    ∃ resp, Says reqId (storeStep request st).1 resp ∧ HasSent dev r.2 [resp] ∧ r.2.Benign ∧
      Represents K mount (storeStep request st).2 r.2.proc := by
  obtain ⟨resp, p', hr, hsays, hrepr⟩ := h
  obtain ⟨dev', hwrite, hwrote⟩ := writeFrame_of_benign
    (show ({ dev with proc := p' } : Device Fs).Benign from hbenign) os resp
  rw [hr, hwrite]
  exact ⟨resp, hsays, hwrote.sent rfl, hwrote.benign hbenign, hwrote.proc ▸ hrepr⟩

/-- What has been sent is determined by the two states. -/
theorem HasSent.inj {dev dev' : Device Fs} {resps resps' : List Frame} (h : HasSent dev dev' resps)
    (h' : HasSent dev dev' resps') : resps = resps' := by
  obtain ⟨log, hlog, rfl, -⟩ := h
  obtain ⟨log', hlog', rfl, -⟩ := h'
  rw [List.append_cancel_left (hlog.symm.trans hlog')]

/-- The host can receive the response to a frame, unless it carries a file that is too long. -/
theorem HasSent.sendable {f : Faults} {frame resp : Frame} (h : Represents K mount st dev.proc)
    (hK : FilePaths attrs K) (hframe : frame.IsStoreFrame)
    (hadm : Admissible K st (storeRequest os.ulongMax mount frame)) (hbenign : dev.Benign)
    (hvalue : ∀ v, (storeStep (storeRequest os.ulongMax mount frame) st).1 = .value v →
      v.length ≤ Host.maxPayload)
    (hsent : HasSent dev (handleFrame ((os.withReads attrs).withFs f) shell frame dev).2 [resp]) :
    resp.Sendable := by
  have hsmall : ¬(OversizeFile ((os.withReads attrs).withFs f) frame dev.proc.os ∨
      OversizeOutput shell frame dev.cfg dev.proc.os) := by
    rintro (⟨htype, kvs, relativePath, n, hkvs, hpath, hreads, hmax, hlt⟩ | ⟨htype, -⟩)
    · -- the file is a value of the store, and too long
      obtain ⟨data, p', hrun, hdata⟩ := (exists_fileRead_iff _ relativePath dev.proc n).mpr hreads
      obtain ⟨path, storage, -, -, -, -, -, hbuilt, -⟩ := hreads
      have hrequest : storeRequest os.ulongMax mount frame = .get path := by
        rw [storeRequest, htype]
        simp [itemsRequest, hkvs, getRequest, hpath, pathRequest, hbuilt]
      rw [hrequest] at hadm hvalue
      obtain ⟨hread, -⟩ := h.read os attrs f hK.noClash hadm hbuilt
      rw [hrun] at hread
      have hle := hvalue data (by
        rw [storeStep, step, ← hread]
        exact congrArg Prod.fst (if_pos (by omega)))
      omega
    · exact hframe _ (by simp) htype
  obtain ⟨type, payload, dev', hsame, hr, hfits⟩ :=
    handleFrame_fitsIff ((os.withReads attrs).withFs f) frame dev shell
  have hle := hfits.mpr hsmall
  have hwritten : HasSent dev (handleFrame ((os.withReads attrs).withFs f) shell frame dev).2
      [responseFrame type frame.header.requestId payload] := by
    have hbenign' : dev'.Benign := by
      rw [Device.Benign, hsame.tx]
      exact hbenign
    obtain ⟨dev'', hwrite, hwrote⟩ := writeFrame_of_benign hbenign' ((os.withReads attrs).withFs f)
      (responseFrame type frame.header.requestId payload)
    rw [hr, hwrite]
    exact hwrote.sent hsame.log
  obtain rfl := List.singleton_inj.mp (hsent.inj hwritten)
  have hlt : payload.length < UInt32.size := lt_of_le_of_lt hle (by decide)
  exact ⟨UInt32.toNat_ofNat_of_lt' hlt, hle⟩

end Run

end UsbResponder
