import UsbResponder.Responder.Loop

/-!
# One response for each request

Every handler is a number of operations on the process followed by one call of
`usb_responder_protocol_write_frame` (`handleFrame_responds`). When no `write` fails, a call
of `handle_frame` therefore adds to the log exactly one response with the request id of its
request and a type that fits (`handleFrame_answered`), and a run of the loop is a sequence
of such blocks with silent events between them. The result is `one_answer_per_request`.

The handlers are gone through once, with `Responds` as what is said of each: it has changed
the process only, and then written one response. Most answer with key-value items, and for
them this follows from a few lemmas about the ways they end. The form of the log is an
inductive predicate (`Answered`), of which the counting results are consequences, also in
the middle of a block (`Answered.inOrder`).

Which of the two kinds of response a request gets is left open here; when it is an error is
the subject of the modules about the operations.
-/

namespace UsbResponder

variable {σ α : Type}

/-! ### What answers a request -/

/-- The type of a successful response to a request of the given type. The responses
themselves have none. -/
def MsgType.successType : MsgType → Option MsgType
  | .hello => some .status
  | .filePutBegin => some .status
  | .filePutChunk => some .status
  | .filePutEnd => some .status
  | .fileGet => some .fileGet
  | .fileList => some .status
  | .fileDelete => some .status
  | .fileRename => some .status
  | .fileMkdir => some .status
  | .fileStat => some .status
  | .commandExec => some .commandResult
  | .devinfo => some .devinfo
  | _ => none

/-- The type of a successful response to a frame, none for a type value that is not served. -/
def Frame.successType (req : Frame) : Option MsgType :=
  (MsgType.ofCode req.header.type).bind MsgType.successType

/-- A response to a request: it has the request id of the request, its type is `ERROR` or
the success type of the request, and the other header fields are those of its payload. -/
def Answers (req resp : Frame) : Prop :=
  ∃ type payload, (type = .error ∨ req.successType = some type) ∧
    resp = responseFrame type req.header.requestId payload

/-- Below the wrap-around a receiver decodes a response, with all its fields. -/
theorem Answers.decodeFrame_encodeFrame {req resp : Frame} (h : Answers req resp)
    (hsize : resp.payload.length < 2 ^ 32 - 24) :
    decodeFrame (encodeFrame resp) =
      some (frameOf resp.header.type 0 req.header.requestId resp.payload) := by
  obtain ⟨type, payload, -, rfl⟩ := h
  have hmax : payload.length ≤ 2 ^ 32 - 25 := by
    have hlt : payload.length < 2 ^ 32 - 24 := hsize
    omega
  have hlen : (UInt32.ofNat payload.length).toNat = payload.length := by
    rw [UInt32.toNat_ofNat', Nat.mod_eq_of_lt (by omega)]
  have hwire : encodeFrame (responseFrame type req.header.requestId payload) = _ :=
    encodeFrame_eq_wire hlen hmax
  rw [hwire]
  exact decodeFrame_wire hmax

/-! ### Every handler responds once -/

/-- `dev'` is `dev` after changes to the process only. -/
structure Device.SameIo (dev dev' : Device σ) : Prop where
  cfg : dev'.cfg = dev.cfg
  tx : dev'.tx = dev.tx
  log : dev'.log = dev.log

theorem Device.SameIo.refl (dev : Device σ) : dev.SameIo dev := ⟨rfl, rfl, rfl⟩

theorem Device.op_sameIo (dev : Device σ) (x : Op σ α) : dev.SameIo (dev.op x).2 :=
  ⟨rfl, rfl, rfl⟩

theorem Device.opWith_sameIo (dev : Device σ) (value : Option Bytes) (x : Bytes → Op σ α) :
    dev.SameIo (dev.opWith value x).2 := by
  cases value with
  | none => exact .refl dev
  | some value => exact dev.op_sameIo (x value)

/-- What a handler has done that turned `dev` into `r`: it has changed the process only, and
then written one response, an error or one of the given type. The operations write nothing
to an endpoint. -/
def Responds (os : Os σ) (reqId : UInt32) (success : Option MsgType) (dev : Device σ)
    (r : Bool × Device σ) : Prop :=
  ∃ type payload dev', (type = .error ∨ success = some type) ∧ dev.SameIo dev' ∧
    r = writeFrame os (responseFrame type reqId payload) dev'

section Responds

variable (os : Os σ) (reqId : UInt32) {success : Option MsgType} {dev dev' : Device σ}

/-- A handler that has responded with key-value items. -/
def RepliesKv (os : Os σ) (reqId : UInt32) (success : Option MsgType) (dev : Device σ)
    (r : Bool × Device σ) : Prop :=
  ∃ type kvs dev', (type = .error ∨ success = some type) ∧ kvs.length ≤ maxKv ∧
    dev.SameIo dev' ∧ r = sendKvResponse os type reqId kvs dev'

private theorem RepliesKv.responds {r : Bool × Device σ} (h : RepliesKv os reqId success dev r) :
    Responds os reqId success dev r := by
  obtain ⟨type, kvs, dev', htype, hcount, hsame, rfl⟩ := h
  obtain ⟨payload, hsend⟩ := sendKvResponse_eq os type reqId hcount dev'
  exact ⟨type, payload, dev', htype, hsame, hsend⟩

private theorem sendKvResponse_repliesKv {type : MsgType}
    (htype : type = .error ∨ success = some type)
    {kvs : List Kv} (hcount : kvs.length ≤ maxKv) (hsame : dev.SameIo dev') :
    RepliesKv os reqId success dev (sendKvResponse os type reqId kvs dev') :=
  ⟨type, kvs, dev', htype, hcount, hsame, rfl⟩

theorem sendError_repliesKv (msg : Bytes) (hsame : dev.SameIo dev') :
    RepliesKv os reqId success dev (sendError os reqId msg dev') :=
  sendKvResponse_repliesKv os reqId (.inl rfl) (by simp [maxKv]) hsame

private theorem sendLastError_repliesKv (pre : Bytes) (hsame : dev.SameIo dev') :
    RepliesKv os reqId success dev (sendLastError os reqId pre dev') :=
  sendError_repliesKv os reqId _ hsame

private theorem sendOk_repliesKv (hsame : dev.SameIo dev') :
    RepliesKv os reqId (some .status) dev (sendOk os reqId dev') :=
  sendKvResponse_repliesKv os reqId (.inr rfl) (by simp [maxKv]) hsame

/-- A confirmation is `STATUS` or an error. -/
private theorem confirm_repliesKv (pre : Bytes) {r : Option Unit × Device σ}
    (hsame : dev.SameIo r.2) : RepliesKv os reqId (some .status) dev (confirm os reqId pre r) := by
  obtain ⟨_ | _, dev₁⟩ := r
  · exact sendLastError_repliesKv os reqId pre hsame
  · exact sendOk_repliesKv os reqId hsame

end Responds

section Handlers

variable (os : Os σ) (frame : Frame) (dev : Device σ)

private theorem handleFilePutBegin_repliesKv :
    RepliesKv os frame.header.requestId (some .status) dev (handleFilePutBegin os frame dev) := by
  rw [handleFilePutBegin]
  split
  · exact sendError_repliesKv os _ _ (.refl dev)
  · rename_i kvs _
    split
    · exact sendError_repliesKv os _ _ (.refl dev)
    · rename_i path _
      have hsame := dev.op_sameIo (fileBeginUpload os frame.header.requestId path
        (kvGet kvs (utf8 "desire_storage")) (kvGet kvs (utf8 "perm")))
      split
      · rename_i dev₁ hop
        rw [hop] at hsame
        exact sendLastError_repliesKv os _ _ hsame
      · rename_i dev₁ hop
        rw [hop] at hsame
        exact sendKvResponse_repliesKv os _ (.inr rfl) (by simp [maxKv]) hsame

private theorem handleFileList_repliesKv :
    RepliesKv os frame.header.requestId (some .status) dev (handleFileList os frame dev) := by
  rw [handleFileList]
  split
  · exact sendError_repliesKv os _ _ (.refl dev)
  · rename_i kvs _
    have hsame := dev.op_sameIo (fileList os ((kvGet kvs (utf8 "path")).getD (utf8 ".")))
    split
    · rename_i dev₁ hop
      rw [hop] at hsame
      exact sendLastError_repliesKv os _ _ hsame
    · rename_i files dirs dev₁ hop
      rw [hop] at hsame
      exact sendKvResponse_repliesKv os _ (.inr rfl) (by simp [maxKv]) hsame

private theorem handleFileDelete_repliesKv :
    RepliesKv os frame.header.requestId (some .status) dev (handleFileDelete os frame dev) := by
  rw [handleFileDelete]
  split
  · exact sendError_repliesKv os _ _ (.refl dev)
  · exact confirm_repliesKv os _ _ (dev.opWith_sameIo _ _)

private theorem handleFileRename_repliesKv :
    RepliesKv os frame.header.requestId (some .status) dev (handleFileRename os frame dev) := by
  rw [handleFileRename]
  split
  · exact sendError_repliesKv os _ _ (.refl dev)
  · split
    · exact sendLastError_repliesKv os _ _ (.refl dev)
    · exact confirm_repliesKv os _ _ (dev.opWith_sameIo _ _)

private theorem handleFileMkdir_repliesKv :
    RepliesKv os frame.header.requestId (some .status) dev (handleFileMkdir os frame dev) := by
  rw [handleFileMkdir]
  split
  · exact sendError_repliesKv os _ _ (.refl dev)
  · exact confirm_repliesKv os _ _ (dev.opWith_sameIo _ _)

private theorem handleFileStat_repliesKv :
    RepliesKv os frame.header.requestId (some .status) dev (handleFileStat os frame dev) := by
  rw [handleFileStat]
  split
  · exact sendError_repliesKv os _ _ (.refl dev)
  · rename_i kvs _
    have hsame := dev.opWith_sameIo (kvGet kvs (utf8 "path")) (fileStat os)
    split
    · rename_i dev₁ hop
      rw [hop] at hsame
      exact sendLastError_repliesKv os _ _ hsame
    · rename_i st dev₁ hop
      rw [hop] at hsame
      exact sendKvResponse_repliesKv os _ (.inr rfl) (by simp [maxKv]) hsame

/-- A file is sent as the payload of its own type; whatever else happens is an error. -/
private theorem handleFileGet_responds :
    Responds os frame.header.requestId (some .fileGet) dev (handleFileGet os frame dev) := by
  rw [handleFileGet]
  split
  · exact (sendError_repliesKv os _ _ (.refl dev)).responds
  · split
    · exact (sendError_repliesKv os _ _ (.refl dev)).responds
    · rename_i path _
      have hsame := dev.op_sameIo (fileRead os path)
      split
      · rename_i dev₁ hop
        rw [hop] at hsame
        exact (sendError_repliesKv os _ _ hsame).responds
      · rename_i data dev₁ hop
        rw [hop] at hsame
        split_ifs
        · exact (sendError_repliesKv os _ _ hsame).responds
        · exact ⟨.fileGet, data, dev₁, .inr rfl, hsame, rfl⟩

variable (shell : ExecShell σ)

private theorem handleDevinfo_repliesKv :
    RepliesKv os frame.header.requestId (some .devinfo) dev
      (handleDevinfo os shell frame dev) := by
  have hcount : (devinfoKvs os shell dev.proc).1.length ≤ maxKv := by
    simp [devinfoKvs, maxKv]
  exact sendKvResponse_repliesKv os _ (.inr rfl) hcount ⟨rfl, rfl, rfl⟩

private theorem handleCommandExec_responds :
    Responds os frame.header.requestId (some .commandResult) dev
      (handleCommandExec os shell frame dev) := by
  have hsame : ∀ s : σ, dev.SameIo { dev with proc.os := s } := fun s => ⟨rfl, rfl, rfl⟩
  rw [handleCommandExec]
  split
  · exact (sendError_repliesKv os _ _ (.refl dev)).responds
  · dsimp only
    split
    · exact (sendError_repliesKv os _ _ (hsame _)).responds
    · split_ifs
      · exact (sendError_repliesKv os _ _ (hsame _)).responds
      · exact ⟨.commandResult, _, _, .inr rfl, hsame _, rfl⟩

/-- All requests but those for a file and for a command are answered with key-value items. -/
theorem handleFrame_repliesKv (hget : MsgType.ofCode frame.header.type ≠ some .fileGet)
    (hexec : MsgType.ofCode frame.header.type ≠ some .commandExec) :
    RepliesKv os frame.header.requestId frame.successType dev
      (handleFrame os shell frame dev) := by
  rw [handleFrame, Frame.successType]
  cases htype : MsgType.ofCode frame.header.type with
  | none => exact sendError_repliesKv os _ _ (.refl dev)
  | some type =>
    cases type with
    | hello => exact sendKvResponse_repliesKv os _ (.inr rfl) (by simp [maxKv]) (.refl dev)
    | filePutBegin => exact handleFilePutBegin_repliesKv os frame dev
    | filePutChunk => exact confirm_repliesKv os _ _ (dev.op_sameIo _)
    | filePutEnd => exact confirm_repliesKv os _ _ (dev.op_sameIo _)
    | fileGet => exact absurd htype hget
    | fileList => exact handleFileList_repliesKv os frame dev
    | fileDelete => exact handleFileDelete_repliesKv os frame dev
    | fileRename => exact handleFileRename_repliesKv os frame dev
    | fileMkdir => exact handleFileMkdir_repliesKv os frame dev
    | fileStat => exact handleFileStat_repliesKv os frame dev
    | commandExec => exact absurd htype hexec
    | devinfo => exact handleDevinfo_repliesKv os frame dev shell
    | status => exact sendError_repliesKv os _ _ (.refl dev)
    | error => exact sendError_repliesKv os _ _ (.refl dev)
    | commandResult => exact sendError_repliesKv os _ _ (.refl dev)

/-- **Every handler responds once.** A call of `handle_frame` changes the process and then
writes one response with the request id of its frame: an error, or the success type of the
frame's type. -/
theorem handleFrame_responds :
    Responds os frame.header.requestId frame.successType dev
      (handleFrame os shell frame dev) := by
  by_cases hget : MsgType.ofCode frame.header.type = some .fileGet
  · rw [handleFrame, Frame.successType, hget]
    exact handleFileGet_responds os frame dev
  · by_cases hexec : MsgType.ofCode frame.header.type = some .commandExec
    · rw [handleFrame, Frame.successType, hexec]
      exact handleCommandExec_responds os frame dev shell
    · exact (handleFrame_repliesKv os frame dev shell hget hexec).responds

/-- Whatever the `write` calls do, a call of `handle_frame` adds to the log the beginning of
one response and the writes of it. -/
theorem handleFrame_log :
    ∃ resp writes, (handleFrame os shell frame dev).2.log = dev.log ++ .sending resp :: writes ∧
      ∀ event ∈ writes, event.IsWrite := by
  obtain ⟨type, payload, dev', -, hsame, hr⟩ := handleFrame_responds os frame dev shell
  obtain ⟨writes, hlog, hwrites⟩ := (writeFrame_onlyWrites os
    (responseFrame type frame.header.requestId payload) dev').log
  refine ⟨responseFrame type frame.header.requestId payload, writes, ?_, hwrites⟩
  rw [hr, hlog, Device.record, hsame.log, List.append_assoc, List.singleton_append]

end Handlers

/-! ### Logs in which every request is answered once -/

/-- A log in which every frame passed to `handle_frame` is followed by exactly one response
to it, written completely, before anything else happens. -/
inductive Answered : List IoEvent → Prop
  | nil : Answered []
  | silent {log : List IoEvent} {event : IoEvent} (h : Answered log) (hevent : event.IsSilent) :
    Answered (log ++ [event])
  | answer {log writes : List IoEvent} {req resp : Frame} (h : Answered log)
    (hanswers : Answers req resp) (hwrites : ∀ event ∈ writes, event.IsWrite)
    (hsent : sentBytes writes = encodeFrame resp) :
    Answered (log ++ .handling req :: .sending resp :: writes)

/-- At a point of a run every response answers the request at its place. The last request
may not have been answered yet. -/
def InOrder (log : List IoEvent) : Prop :=
  ∃ answered, answered <+: handledFrames log ∧ List.Forall₂ Answers answered (sentFrames log)

theorem Answered.append_silent {log events : List IoEvent} (h : Answered log)
    (hevents : ∀ event ∈ events, event.IsSilent) : Answered (log ++ events) := by
  induction events generalizing log with
  | nil => rwa [List.append_nil]
  | cons event events ih =>
    have hnext := ih (h.silent (hevents event (by simp))) fun e he => hevents e (by simp [he])
    rwa [List.append_assoc] at hnext

theorem sentFrames_append (log₁ log₂ : List IoEvent) :
    sentFrames (log₁ ++ log₂) = sentFrames log₁ ++ sentFrames log₂ := List.filterMap_append

theorem handledFrames_append (log₁ log₂ : List IoEvent) :
    handledFrames (log₁ ++ log₂) = handledFrames log₁ ++ handledFrames log₂ :=
  List.filterMap_append

/-- A silent event handles and sends nothing. -/
private theorem frames_of_silent {event : IoEvent} (h : event.IsSilent) :
    handledFrames [event] = [] ∧ sentFrames [event] = [] ∧ sentBytes [event] = [] := by
  cases event with
  | handling frame => exact h.elim
  | sending frame => exact h.elim
  | write data accepted => exact h.elim
  | _ => exact ⟨rfl, rfl, rfl⟩

/-- Writes handle no frame and begin no response. A response begins with an event of its
own. -/
theorem frames_of_writes {writes : List IoEvent} (h : ∀ event ∈ writes, event.IsWrite) :
    handledFrames writes = [] ∧ sentFrames writes = [] := by
  have hfilter : ∀ f : IoEvent → Option Frame, (∀ event : IoEvent, event.IsWrite →
      f event = none) → writes.filterMap f = [] :=
    fun f hf => List.filterMap_eq_nil_iff.mpr fun event hevent => hf event (h event hevent)
  refine ⟨hfilter _ ?_, hfilter _ ?_⟩
  · rintro (_ | _ | _ | _ | _ | _ | _) hwrite <;> first | rfl | exact hwrite.elim
  · rintro (_ | _ | _ | _ | _ | _ | _) hwrite <;> first | rfl | exact hwrite.elim

/-- Silent events handle no frame. -/
theorem Device.Silent.handledFrames {dev dev' : Device σ} (h : dev.Silent dev') :
    handledFrames dev'.log = handledFrames dev.log := by
  obtain ⟨events, hlog, hsilent⟩ := h.log
  have hnone : UsbResponder.handledFrames events = [] := by
    refine List.filterMap_eq_nil_iff.mpr fun event hevent => ?_
    have hframes := (frames_of_silent (hsilent event hevent)).1
    cases event <;> first | rfl | exact absurd hframes (List.cons_ne_nil _ _)
  rw [hlog, handledFrames_append, hnone, List.append_nil]

/-- Silent events send nothing. -/
theorem Device.Silent.sentBytes {dev dev' : Device σ} (h : dev.Silent dev') :
    sentBytes dev'.log = sentBytes dev.log := by
  obtain ⟨events, hlog, hsilent⟩ := h.log
  have hnone : UsbResponder.sentBytes events = [] := by
    refine List.flatMap_eq_nil_iff.mpr fun event hevent => ?_
    have hbytes := (frames_of_silent (hsilent event hevent)).2.2
    rwa [UsbResponder.sentBytes, List.flatMap_singleton] at hbytes
  rw [hlog, sentBytes_append, hnone, List.append_nil]

/-- A handler passes no frame to `handle_frame`. So every frame that is handled was
received. -/
theorem handleFrame_handledFrames (os : Os σ) (shell : ExecShell σ) (frame : Frame)
    (dev : Device σ) :
    handledFrames (handleFrame os shell frame dev).2.log = handledFrames dev.log := by
  obtain ⟨resp, writes, hlog, hwrites⟩ := handleFrame_log os frame dev shell
  rw [hlog, handledFrames_append]
  exact (congrArg _ (frames_of_writes hwrites).1).trans (List.append_nil _)

/-- In such a log there are as many responses as requests, each answers its request, and the
bytes sent are their encodings. -/
theorem Answered.frames {log : List IoEvent} (h : Answered log) :
    List.Forall₂ Answers (handledFrames log) (sentFrames log) ∧
      sentBytes log = (sentFrames log).flatMap encodeFrame := by
  induction h with
  | nil => exact ⟨.nil, rfl⟩
  | silent h hevent ih =>
    obtain ⟨hhandled, hsent, hbytes⟩ := frames_of_silent hevent
    rw [handledFrames_append, sentFrames_append, sentBytes_append, hhandled, hsent, hbytes,
      List.append_nil, List.append_nil, List.append_nil]
    exact ih
  | @answer log writes req resp h hanswers hwrites hsent ih =>
    obtain ⟨hnone, hnone'⟩ := frames_of_writes hwrites
    have hhandled : handledFrames (.handling req :: .sending resp :: writes) = [req] :=
      congrArg (req :: ·) hnone
    have hresp : sentFrames (.handling req :: .sending resp :: writes) = [resp] :=
      congrArg (resp :: ·) hnone'
    have hbytes : sentBytes (.handling req :: .sending resp :: writes) = encodeFrame resp := hsent
    rw [handledFrames_append, sentFrames_append, sentBytes_append, hhandled, hresp, hbytes, ih.2,
      List.flatMap_append, List.flatMap_singleton]
    exact ⟨List.rel_append ih.1 (.cons hanswers .nil), rfl⟩

/-- Responses are in order at every point of such a log, also in the middle of a request. -/
theorem Answered.inOrder {log : List IoEvent} (h : Answered log) {pre : List IoEvent}
    (hpre : pre <+: log) : InOrder pre := by
  have hwhole : ∀ {log : List IoEvent}, Answered log → InOrder log :=
    fun h => ⟨_, List.prefix_rfl, h.frames.1⟩
  induction h with
  | nil =>
    obtain rfl := List.prefix_nil.mp hpre
    exact hwhole .nil
  | @silent log event h hevent ih =>
    obtain rfl | hpre' := List.prefix_concat_iff.mp hpre
    · exact hwhole (h.silent hevent)
    · exact ih hpre'
  | @answer log writes req resp h hanswers hwrites hsent ih =>
    obtain hpre' | ⟨tail, rfl⟩ : pre <+: log ∨ log <+: pre :=
      List.prefix_or_prefix_of_prefix hpre (List.prefix_append _ _)
    · exact ih hpre'
    · rw [List.prefix_append_right_inj] at hpre
      cases tail with
      | nil => exact ih (by rw [List.append_nil])
      | cons event tail =>
        obtain ⟨rfl, hpre'⟩ := List.cons_prefix_cons.mp hpre
        cases tail with
        | nil =>
          -- the request is taken, its response has not begun
          refine ⟨handledFrames log, ?_, ?_⟩
          · rw [handledFrames_append]
            exact List.prefix_append _ _
          · rw [sentFrames_append]
            exact (List.append_nil (sentFrames log)).symm ▸ h.frames.1
        | cons event tail =>
          obtain ⟨rfl, hpre''⟩ := List.cons_prefix_cons.mp hpre'
          have hwrites' : ∀ event ∈ tail, event.IsWrite :=
            fun event hevent => hwrites event (hpre''.subset hevent)
          obtain ⟨hnone, hnone'⟩ := frames_of_writes hwrites'
          refine ⟨handledFrames log ++ [req], ?_, ?_⟩
          · rw [handledFrames_append]
            exact List.prefix_append_right_inj _ |>.mpr ⟨[], congrArg (req :: ·) hnone.symm⟩
          · rw [sentFrames_append]
            have hresp : sentFrames (.handling req :: .sending resp :: tail) = [resp] :=
              congrArg (resp :: ·) hnone'
            rw [hresp]
            exact List.rel_append h.frames.1 (.cons hanswers .nil)

/-- **One call of `handle_frame`.** When no `write` fails, it succeeds and leaves a log that
ends with its frame and one complete response to it. -/
theorem handleFrame_answered (os : Os σ) (shell : ExecShell σ) (frame : Frame) {dev : Device σ}
    (hbenign : dev.Benign) (h : Answered dev.log) :
    (handleFrame os shell frame (dev.record (.handling frame))).1 = true ∧
      (handleFrame os shell frame (dev.record (.handling frame))).2.Benign ∧
      Answered (handleFrame os shell frame (dev.record (.handling frame))).2.log := by
  obtain ⟨type, payload, dev₁, htype, hsame, hr⟩ :=
    handleFrame_responds os frame (dev.record (.handling frame)) shell
  have hbenign₁ : dev₁.Benign := by
    rw [Device.Benign, hsame.tx]
    exact hbenign
  obtain ⟨dev₂, hrun, hwrote⟩ := writeFrame_of_benign hbenign₁ os
    (responseFrame type frame.header.requestId payload)
  obtain ⟨writes, hlog, hwrites, hsent⟩ := hwrote.log
  rw [hr, hrun]
  refine ⟨rfl, hwrote.benign hbenign₁, ?_⟩
  dsimp only
  rw [hlog, Device.record, hsame.log, Device.record, List.append_assoc, List.append_assoc]
  exact h.answer ⟨type, payload, htype, rfl⟩ hwrites hsent

/-- **One answer per request, in order.** In every run of the I/O loop in which no `write`
fails, whatever arrives and whatever the system calls and the shell do: each call of
`handle_frame` has written exactly one complete response when it returns, with the request
id of its request and the type `ERROR` or the success type of the request; at every point of
the run the `i`-th response answers the `i`-th request taken; the bytes sent are the
encodings of the responses; and a response with a payload below `2 ^ 32 - 24` bytes decodes
to its contents. -/
theorem one_answer_per_request (os : Os σ) (shell : ExecShell σ) (cfg : Config) (s : σ)
    (tx : List WriteOutcome) (htx : ∀ outcome ∈ tx, outcome.Benign) (rx : List RxOutcome)
    (inputs : List LoopInput) :
    let log := (runLoop os shell inputs (startState cfg s tx rx)).2.rt.dev.log
    Answered log ∧ (∀ pre, pre <+: log → InOrder pre) ∧
      sentBytes log = (sentFrames log).flatMap encodeFrame ∧
      ∀ (i : ℕ) (req resp : Frame), (handledFrames log)[i]? = some req →
        (sentFrames log)[i]? = some resp → resp.payload.length < 2 ^ 32 - 24 →
        decodeFrame (encodeFrame resp) =
          some (frameOf resp.header.type 0 req.header.requestId resp.payload) := by
  intro log
  have hstart : (startState cfg s tx rx).rt.dev.Benign ∧
      Answered (startState cfg s tx rx).rt.dev.log := ⟨htx, .nil⟩
  have hinv := runLoop_induction os shell
    (P := fun st => st.rt.dev.Benign ∧ Answered st.rt.dev.log) ?_ inputs hstart
  · refine ⟨hinv.2, fun pre hpre => hinv.2.inOrder hpre, hinv.2.frames.2, ?_⟩
    intro i req resp hreq hresp hsize
    have hanswers : Answers req resp := by
      obtain ⟨hi, rfl⟩ := List.getElem?_eq_some_iff.mp hreq
      obtain ⟨hi', rfl⟩ := List.getElem?_eq_some_iff.mp hresp
      exact List.forall₂_iff_get.mp hinv.2.frames.1 |>.2 i hi hi'
    exact hanswers.decodeFrame_encodeFrame hsize
  · rintro input st ⟨hbenign, hanswered⟩
    -- a round is silent, or it handles one frame after something silent
    obtain hsilent | ⟨dev, frame, hsilent, hdev⟩ := ioStep_cases os shell input st
    · obtain ⟨events, hlog, hevents⟩ := hsilent.log
      constructor
      · rw [Device.Benign, hsilent.tx]
        exact hbenign
      · rw [hlog]
        exact hanswered.append_silent hevents
    · obtain ⟨events, hlog, hevents⟩ := hsilent.log
      have hbenign' : dev.Benign := by
        rw [Device.Benign, hsilent.tx]
        exact hbenign
      have hanswered' : Answered dev.log := by
        rw [hlog]
        exact hanswered.append_silent hevents
      obtain ⟨-, hb, ha⟩ := handleFrame_answered os shell frame hbenign' hanswered'
      rw [hdev]
      exact ⟨hb, ha⟩

/-- A `HELLO` request with request id 1. -/
def helloFrame : Frame where
  header := { type := MsgType.hello.code, requestId := 1 }

/-- A device that has just been started. -/
def bootDevice : Device Unit := ⟨⟨0, 0, 0⟩, ⟨fileOpsInit, [], ()⟩, [], []⟩

/-- A shell that runs nothing. -/
def noShell : ExecShell Unit := fun _ _ s => (none, s)

/-- A round in which the function is enabled and the endpoints are opened. -/
def enableRound : LoopInput :=
  .ready { ep0 := some (.events [.bind, .enable]), openIn := some 5, openOut := some 6 }

/-- The two rounds in which the endpoints are opened and a request arrives. -/
def enableAndRead : List LoopInput := [enableRound, .ready { outReadable := true }]

/-- `one_answer_per_request` for a `HELLO` that arrives in two pieces, answered through a
short and an interrupted write. -/
theorem one_answer_per_request_hello :
    let log := (runLoop (Os.failing Unit) (fun _ _ s => (none, s)) enableAndRead
      (startState ⟨0, 0, 0⟩ () [.accept 3, .eintr]
        [.data ((encodeFrame helloFrame).take 10),
          .data ((encodeFrame helloFrame).drop 10)])).2.rt.dev.log
    Answered log ∧ (∀ pre, pre <+: log → InOrder pre) ∧
      sentBytes log = (sentFrames log).flatMap encodeFrame ∧
      ∀ (i : ℕ) (req resp : Frame), (handledFrames log)[i]? = some req →
        (sentFrames log)[i]? = some resp → resp.payload.length < 2 ^ 32 - 24 →
        decodeFrame (encodeFrame resp) =
          some (frameOf resp.header.type 0 req.header.requestId resp.payload) :=
  one_answer_per_request (Os.failing Unit) (fun _ _ s => (none, s)) ⟨0, 0, 0⟩ ()
    [.accept 3, .eintr] (by simp [WriteOutcome.Benign])
    [.data ((encodeFrame helloFrame).take 10), .data ((encodeFrame helloFrame).drop 10)]
    enableAndRead

end UsbResponder
