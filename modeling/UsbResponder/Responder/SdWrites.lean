import UsbResponder.FileOps.SdUploads
import UsbResponder.Responder.UploadFrames

/-!
# Runs with a card that comes and goes

A run of the responder is a list of rounds: between two frames everything outside the
process may change, the mount of the card included, and then a frame is handled. The calls
of a round are those that `Os.recording` writes down while the frame is handled.

While the card is not mounted, deleting, renaming and creating directories stay off it, and
so do begins; what may touch it are the later calls of an upload that began while it was
mounted. `no_sd_call_unmounted_iff` says of whole runs that this is the only way.

Two kinds of frames are told apart. One that is no call of an upload issues calls on the
card only behind the mount check (`handleFrame_issues`); here the handlers are followed, and
the work on the operations is in `FileOps.SdCard`. For a call of an upload
`UploadCall.offSd_iff` is the answer, as an equivalence, and the invariant of the streams
carries it through the run.

The card is mounted or not when the frame begins. What a shell command does to it is no call
of the responder.
-/

namespace UsbResponder

open CString

variable {σ α : Type}

/-! ### Handlers -/

/-- The shell on the recorded outside. What a command does is not a call of the responder. -/
def ExecShell.recording (shell : ExecShell σ) : ExecShell (Recorded σ) := fun command options =>
  Recorded.lift (shell command options)

/-- `dev'` is `dev` after calls that satisfy `Q`, with the same sessions. -/
structure Device.Issues (Q : FileCall → Prop) (dev dev' : Device (Recorded σ)) : Prop where
  issued : Recorded.Issued Q dev.proc.os dev'.proc.os
  sessions : dev'.proc.sessions = dev.proc.sessions

section Handlers

variable {os : Os (Recorded σ)} {Q : FileCall → Prop} {dev : Device (Recorded σ)}

theorem Device.Issues.refl (dev : Device (Recorded σ)) : dev.Issues Q dev := ⟨.refl _, rfl⟩

theorem Device.Issues.trans {dev₁ dev₂ dev₃ : Device (Recorded σ)} (h₁ : dev₁.Issues Q dev₂)
    (h₂ : dev₂.Issues Q dev₃) : dev₁.Issues Q dev₃ :=
  ⟨h₁.issued.trans h₂.issued, h₂.sessions.trans h₁.sessions⟩

/-- Sending a response is no call on a file. The endpoints are not recorded here. -/
theorem issues_writeFrame (frame : Frame) (dev : Device (Recorded σ)) :
    dev.Issues Q (writeFrame os frame dev).2 := by
  have hwrites := writeFrame_onlyWrites os frame dev
  refine ⟨?_, hwrites.sessions⟩
  rw [hwrites.os]
  exact .refl _

theorem issues_sendKv (type : MsgType) (reqId : UInt32) (kvs : List Kv)
    (dev : Device (Recorded σ)) : dev.Issues Q (sendKvResponse os type reqId kvs dev).2 := by
  rw [sendKvResponse]
  rcases encodeKv kvs with _ | payload
  · exact .refl dev
  · exact issues_writeFrame _ dev

theorem issues_op {x : Op (Recorded σ) α} (hx : x.IssuesAt Q dev.proc) :
    dev.Issues Q (dev.op x).2 := ⟨hx.issued, hx.sessions⟩

private theorem issues_opWith (value : Option Bytes) {x : Bytes → Op (Recorded σ) α}
    (hx : ∀ value, (x value).IssuesAt Q dev.proc) : dev.Issues Q (dev.opWith value x).2 := by
  rcases value with _ | value
  · exact .refl dev
  · exact issues_op (hx value)

theorem issues_confirm (reqId : UInt32) (pre : Bytes) (r : Option Unit × Device (Recorded σ)) :
    r.2.Issues Q (confirm os reqId pre r).2 := by
  rcases r with ⟨_ | _, dev⟩
  · exact issues_sendKv _ _ _ dev
  · exact issues_sendKv _ _ _ dev

end Handlers

/-! ### Frames that are no calls of an upload -/

section Frames

variable (os : Os σ) (shell : ExecShell σ) (frame : Frame) {Q : FileCall → Prop}
  (dev : Device (Recorded σ))

theorem handleFileGet_issues : dev.Issues Q (handleFileGet os.recording frame dev).2 := by
  rw [handleFileGet]
  rcases decodeKv frame.payload maxKv with _ | kvs
  · exact issues_sendKv _ _ _ dev
  rcases hpath : kvGet kvs (utf8 "path") with _ | path
  · simp only [hpath]
    exact issues_sendKv _ _ _ dev
  simp only [hpath]
  refine (issues_op (fileRead_issues os path dev.proc)).trans ?_
  rcases dev.op (fileRead os.recording path) with ⟨_ | data, dev'⟩
  · exact issues_sendKv _ _ _ dev'
  · dsimp only
    split_ifs
    · exact issues_sendKv _ _ _ dev'
    · exact issues_writeFrame _ dev'

theorem handleFileList_issues : dev.Issues Q (handleFileList os.recording frame dev).2 := by
  rw [handleFileList]
  rcases decodeKv frame.payload maxKv with _ | kvs
  · exact issues_sendKv _ _ _ dev
  refine (issues_op (fileList_issues os ((kvGet kvs (utf8 "path")).getD (utf8 ".")) dev.proc)).trans
    ?_
  dsimp only
  rcases dev.op (fileList os.recording ((kvGet kvs (utf8 "path")).getD (utf8 "."))) with
    ⟨_ | ⟨files, dirs⟩, dev'⟩
  · exact issues_sendKv _ _ _ dev'
  · exact issues_sendKv _ _ _ dev'

theorem handleFileStat_issues : dev.Issues Q (handleFileStat os.recording frame dev).2 := by
  rw [handleFileStat]
  rcases decodeKv frame.payload maxKv with _ | kvs
  · exact issues_sendKv _ _ _ dev
  refine (issues_opWith (kvGet kvs (utf8 "path")) fun path =>
    fileStat_issues os path dev.proc).trans ?_
  dsimp only
  rcases dev.opWith (kvGet kvs (utf8 "path")) (fileStat os.recording) with ⟨_ | st, dev'⟩
  · exact issues_sendKv _ _ _ dev'
  · exact issues_sendKv _ _ _ dev'

private theorem handleFileDelete_issues :
    dev.Issues (FileCall.Allowed (os.SdMounted dev.proc.os.inner))
      (handleFileDelete os.recording frame dev).2 := by
  rw [handleFileDelete]
  rcases decodeKv frame.payload maxKv with _ | kvs
  · exact issues_sendKv _ _ _ dev
  · exact (issues_opWith _ fun path => fileDelete_issuesAt os path _).trans (issues_confirm _ _ _)

private theorem handleFileMkdir_issues :
    dev.Issues (FileCall.Allowed (os.SdMounted dev.proc.os.inner))
      (handleFileMkdir os.recording frame dev).2 := by
  rw [handleFileMkdir]
  rcases decodeKv frame.payload maxKv with _ | kvs
  · exact issues_sendKv _ _ _ dev
  · exact (issues_opWith _ fun path => dirMkdir_issuesAt os path _ _).trans (issues_confirm _ _ _)

private theorem handleFileRename_issues :
    dev.Issues (FileCall.Allowed (os.SdMounted dev.proc.os.inner))
      (handleFileRename os.recording frame dev).2 := by
  rw [handleFileRename]
  rcases decodeKv frame.payload maxKv with _ | kvs
  · exact issues_sendKv _ _ _ dev
  rcases hfrom : kvGet kvs (utf8 "from") with _ | fromPath
  · simp only [hfrom]
    exact issues_sendKv _ _ _ dev
  · simp only [hfrom]
    exact (issues_opWith _ fun toPath => fileRename_issuesAt os fromPath toPath _).trans
      (issues_confirm _ _ _)

private theorem readTextRoom_issues (full : Prop) [Decidable full] (newCap : ℕ) :
    (readTextRoom os.recording full newCap).Issues Q :=
  Op.issues_ite (Op.issues_lift (os.realloc newCap)) (Op.issues_pure true)

private theorem readTextLoop_issues (fp maxBytes fuel cap : ℕ) (buf : Bytes) :
    (readTextLoop os.recording fp maxBytes fuel cap buf).IssuesReading fp Q := by
  induction fuel generalizing cap buf with
  | zero => exact (Op.issues_pure buf).reading fp
  | succ fuel ih =>
    rw [readTextLoop]
    dsimp only
    split_ifs
    · exact (Op.issues_pure buf).reading fp
    all_goals
      refine ((readTextRoom_issues os _ _).reading fp).bind fun granted => ?_
      split_ifs
      · refine ((Op.issues_stream fp fun fd => os.fread fd _).reading fp).bind fun got => ?_
        split_ifs
        · exact (Op.issues_pure _).reading fp
        · exact (Op.issues_pure _).reading fp
        · exact ih _ _
      · exact Op.issuesReading_failClosing os fp

private theorem readTextFile_issues (path : Bytes) (maxBytes : ℕ) :
    (readTextFile os.recording path maxBytes).Issues Q := by
  refine Op.issues_fopenRb_bind os path (fun _ => Op.issues_fail) fun fp => ?_
  refine ((Op.issues_malloc os 1024).reading fp).bind fun granted => ?_
  split_ifs
  · refine (readTextLoop_issues os fp maxBytes _ _ _).bind fun buf => ?_
    exact (Op.issuesReading_fclose os fp).bind fun _ => (Op.issues_pure _).reading fp
  · exact Op.issuesReading_failClosing os fp

private theorem execCaptureTrim_issues (cmdline : Bytes) (timeoutMs : UInt32) :
    (execCaptureTrim shell.recording cmdline timeoutMs).Issues Q := by
  refine (Op.issues_lift _).bind fun result => ?_
  rcases result with _ | r
  · exact Op.issues_fail
  · dsimp only
    split_ifs
    · exact Op.issues_fail
    · exact Op.issues_pure _

theorem handleDevinfo_issues :
    dev.Issues Q (handleDevinfo os.recording shell.recording frame dev).2 := by
  obtain ⟨p₁, hp₁⟩ : ∃ p₁, p₁ =
    ((readTextFile os.recording (utf8 "/proc/device-tree/model") 4096).run dev.proc).2 := ⟨_, rfl⟩
  obtain ⟨p₂, hp₂⟩ : ∃ p₂, p₂ = ((Op.sys os.recording.uname).run p₁).2 := ⟨_, rfl⟩
  obtain ⟨p₃, hp₃⟩ : ∃ p₃, p₃ =
    ((readTextFile os.recording (utf8 "/etc/os-release") 8192).run p₂).2 := ⟨_, rfl⟩
  obtain ⟨p₄, hp₄⟩ : ∃ p₄, p₄ =
    ((execCaptureTrim shell.recording (utf8 "/root/epass_drm_app version") 3000).run p₃).2 :=
    ⟨_, rfl⟩
  have h₁ := readTextFile_issues (Q := Q) os (utf8 "/proc/device-tree/model") 4096 dev.proc
  have h₂ := Op.issues_lift (Q := Q) os.uname p₁
  have h₃ := readTextFile_issues (Q := Q) os (utf8 "/etc/os-release") 8192 p₂
  have h₄ := execCaptureTrim_issues (Q := Q) shell (utf8 "/root/epass_drm_app version") 3000 p₃
  have h₅ := storageInfoRead_issues (Q := Q) os p₄
  have hproc : (devinfoKvs os.recording shell.recording dev.proc).2 =
      ((storageInfoRead os.recording).run p₄).2 := by
    rw [hp₄, hp₃, hp₂, hp₁]
    rfl
  -- nothing is issued on the way through the five sources of the answer
  have hkvs : dev.Issues Q
      { dev with proc := (devinfoKvs os.recording shell.recording dev.proc).2 } := by
    rw [hproc]
    subst hp₁
    subst hp₂
    subst hp₃
    subst hp₄
    constructor
    · exact ((h₁.issued.trans h₂.issued).trans h₃.issued).trans (h₄.issued.trans h₅.issued)
    · exact h₅.sessions.trans
        (h₄.sessions.trans (h₃.sessions.trans (h₂.sessions.trans h₁.sessions)))
  exact hkvs.trans (issues_sendKv _ _ _ _)

theorem handleCommandExec_issues :
    dev.Issues Q (handleCommandExec os.recording shell.recording frame dev).2 := by
  rw [handleCommandExec]
  rcases decodeCommandRequest frame.payload with _ | req
  · exact issues_sendKv _ _ _ dev
  dsimp only
  obtain ⟨opt, hopt⟩ : ∃ opt : ShellExecOptions, opt =
    { timeoutMs := orDefault req.timeoutMs dev.cfg.defaultTimeoutMs
      maxStdout := orDefault req.maxStdout dev.cfg.maxStdout
      maxStderr := orDefault req.maxStderr dev.cfg.maxStderr } := ⟨_, rfl⟩
  have hexec : dev.Issues Q
      { dev with proc.os := (shell.recording (cStr req.command) opt dev.proc.os).2 } :=
    ⟨.of_lift _ dev.proc.os, rfl⟩
  rw [← hopt]
  refine hexec.trans ?_
  rcases shell.recording (cStr req.command) opt dev.proc.os with ⟨_ | r, s⟩
  · exact issues_sendKv _ _ _ _
  · dsimp only
    split_ifs
    · exact issues_sendKv _ _ _ _
    · exact issues_writeFrame _ _

/-- **A frame that is no call of an upload.** Handling it makes calls on the card only if
the card is mounted, and leaves the sessions as they are. -/
theorem handleFrame_issues (hcall : uploadCall? frame = none) :
    dev.Issues (FileCall.Allowed (os.SdMounted dev.proc.os.inner))
      (handleFrame os.recording shell.recording frame dev).2 := by
  by_cases hframe : frame.IsUploadFrame
  · obtain ⟨payload, hrun⟩ := handleFrame_of_no_call os.recording shell.recording hframe hcall dev
    rw [hrun]
    exact issues_writeFrame _ dev
  rw [handleFrame]
  rcases htype : MsgType.ofCode frame.header.type with _ | type
  · exact issues_sendKv _ _ _ dev
  have hcode := MsgType.ofCode_eq_some_iff.mp htype
  rcases type
  case filePutBegin => exact absurd (.inl hcode.symm) hframe
  case filePutChunk => exact absurd (.inr (.inl hcode.symm)) hframe
  case filePutEnd => exact absurd (.inr (.inr hcode.symm)) hframe
  case fileGet => exact handleFileGet_issues os frame dev
  case fileList => exact handleFileList_issues os frame dev
  case fileStat => exact handleFileStat_issues os frame dev
  case fileDelete => exact handleFileDelete_issues os frame dev
  case fileMkdir => exact handleFileMkdir_issues os frame dev
  case fileRename => exact handleFileRename_issues os frame dev
  case commandExec => exact handleCommandExec_issues os shell frame dev
  case devinfo => exact handleDevinfo_issues os shell frame dev
  all_goals exact issues_sendKv _ _ _ dev

end Frames

/-! ### Rounds -/

/-- A round of a run: what happens to the outside, the bulk IN endpoint and the last error
before the next frame, and that frame. The record of calls starts afresh with each round. -/
structure SdRound (σ : Type) where
  between : σ → σ
  tx : List WriteOutcome
  lastError : Bytes
  frame : Frame

namespace SdRound

/-- The device when the frame begins; nothing of it is recorded yet. -/
def start (round : SdRound σ) (dev : Device (Recorded σ)) : Device (Recorded σ) :=
  { dev with
    tx := round.tx
    proc.lastError := round.lastError
    proc.os := { dev.proc.os with inner := round.between dev.proc.os.inner, calls := [] } }

/-- The device after the frame, with the calls made for it recorded. -/
def handle (os : Os σ) (shell : ExecShell σ) (round : SdRound σ) (dev : Device (Recorded σ)) :
    Device (Recorded σ) :=
  (handleFrame os.recording shell.recording round.frame (round.start dev)).2

/-- The frame begins while the card is mounted, as the mount table has it at that moment. -/
def Mounted (os : Os σ) (round : SdRound σ) (dev : Device (Recorded σ)) : Prop :=
  os.SdMounted (round.between dev.proc.os.inner)

/-- All calls issued while the frame is handled are off the card. -/
def OffSd (os : Os σ) (shell : ExecShell σ) (round : SdRound σ) (dev : Device (Recorded σ)) :
    Prop := ∀ call ∈ (round.handle os shell dev).proc.os.calls, call.OffSd

/-- The frame goes on with or finishes an upload to the card, or begins with the id of one. -/
def TouchesCard (round : SdRound σ) (dev : Device (Recorded σ)) : Prop :=
  ∃ call, uploadCall? round.frame = some call ∧ call.TouchesCard dev.proc.sessions

variable {os : Os σ} (shell : ExecShell σ) {round : SdRound σ} {dev : Device (Recorded σ)}

theorem start_streamsOk (round : SdRound σ) (h : StreamsOk dev.proc) :
    StreamsOk (round.start dev).proc := fun i => h i

/-- Every round keeps the invariant of the sessions, whatever happens before its frame. -/
theorem handle_streamsOk (round : SdRound σ) (h : StreamsOk dev.proc) :
    StreamsOk (round.handle os shell dev).proc := by
  have hstart := round.start_streamsOk h
  rw [handle]
  rcases hcall : uploadCall? round.frame with _ | call
  · have hissues := handleFrame_issues os shell round.frame (round.start dev) hcall
    exact hstart.issued hissues.issued hissues.sessions
  · obtain ⟨payload, hrun⟩ :=
      handleFrame_of_call os.recording shell.recording hcall (round.start dev)
    rw [hrun]
    have hcalled := hstart.call os call
    have hwrites := writeFrame_onlyWrites os.recording (responseFrame
      (responseType ((call.op os.recording).run (round.start dev).proc).1)
      round.frame.header.requestId payload)
      { round.start dev with proc := ((call.op os.recording).run (round.start dev).proc).2 }
    intro i
    rw [hwrites.os, hwrites.sessions]
    exact hcalled i

/-- **One round without the card.** All its calls are off the card exactly if its frame does
not touch an upload to the card. -/
theorem offSd_iff (hmount : os.KeepsMount) (h : StreamsOk dev.proc)
    (hno : ¬round.Mounted os dev) : round.OffSd os shell dev ↔ ¬round.TouchesCard dev := by
  have hstart := round.start_streamsOk h
  rw [OffSd, TouchesCard, handle]
  rcases hcall : uploadCall? round.frame with _ | call
  · -- both sides hold: the calls are allowed, so off the card, and no upload is called
    refine iff_of_true ?_ (by simp)
    have hissues := handleFrame_issues os shell round.frame (round.start dev) hcall
    intro call hmem
    exact (hissues.issued.of_nil rfl call hmem).resolve_left hno
  · obtain ⟨payload, hrun⟩ :=
      handleFrame_of_call os.recording shell.recording hcall (round.start dev)
    rw [hrun, (writeFrame_onlyWrites os.recording _ _).os]
    simp only [Option.some.injEq, exists_eq_left']
    exact UploadCall.offSd_iff hmount (p := (round.start dev).proc) hno hstart rfl call

end SdRound

/-! ### Runs -/

/-- `P` holds of every round of a run, with the device that round starts from. So `P` may
look at the sessions the run has led to. -/
def EveryRound (os : Os σ) (shell : ExecShell σ) (P : SdRound σ → Device (Recorded σ) → Prop) :
    List (SdRound σ) → Device (Recorded σ) → Prop
  | [], _ => True
  | round :: rounds, dev => P round dev ∧ EveryRound os shell P rounds (round.handle os shell dev)

/-- The device `usb_responder_run` starts with; nothing is recorded and no session is in
use. -/
def recordedBoot (cfg : Config) (s : σ) : Device (Recorded σ) :=
  ⟨cfg, ⟨fileOpsInit, [], ⟨s, [], []⟩⟩, [], []⟩

theorem recordedBoot_streamsOk (cfg : Config) (s : σ) : StreamsOk (recordedBoot cfg s).proc :=
  fun _ => .of_free rfl

/-- **No call on the card without the card.** In a run with a card that comes and goes,
every frame that is handled while the card is not mounted issues calls off the card only,
exactly if none of them touches an upload to the card. -/
theorem no_sd_call_unmounted_iff (os : Os σ) (hmount : os.KeepsMount) (shell : ExecShell σ)
    (cfg : Config) (s : σ) (rounds : List (SdRound σ)) :
    EveryRound os shell (fun round dev => ¬round.Mounted os dev → round.OffSd os shell dev) rounds
        (recordedBoot cfg s) ↔
      EveryRound os shell (fun round dev => ¬round.Mounted os dev → ¬round.TouchesCard dev) rounds
        (recordedBoot cfg s) := by
  obtain ⟨dev, hdev⟩ : ∃ dev, dev = recordedBoot cfg s := ⟨_, rfl⟩
  have hok : StreamsOk dev.proc := by
    rw [hdev]
    exact recordedBoot_streamsOk cfg s
  rw [← hdev]
  clear hdev
  -- the invariant of the sessions is kept by all rounds, also those with the card
  induction rounds generalizing dev with
  | nil => exact Iff.rfl
  | cons round rounds ih =>
    refine and_congr (forall_congr' fun hno => ?_) (ih _ (round.handle_streamsOk shell hok))
    exact SdRound.offSd_iff shell hmount hok hno

/-! ### A card that is taken out -/

/-- The file system, all calls on which succeed. -/
def sdOs : Os Fs := (Os.failing Fs).withFs {}

/-- A shell that cannot be started, so that no frame of the example runs a command. -/
def sdShell : ExecShell Fs := fun _ _ fs => (none, fs)

private theorem sdOs_keepsMount : sdOs.KeepsMount := by
  have hkeep : ∀ {fs fs' : Fs}, fs'.mountinfo = fs.mountinfo → sdOs.SdMounted fs' →
      sdOs.SdMounted fs := by
    rintro fs fs' hsame ⟨lines, hlines, hsome⟩
    rw [sdOs, Os.withFs_mountinfo] at hlines
    exact ⟨lines, by rw [sdOs, Os.withFs_mountinfo, ← hsame, hlines], hsome⟩
  refine ⟨fun fp fs => hkeep ?_, fun path fs => hkeep ?_⟩
  · show (fs.flush fp _).mountinfo = fs.mountinfo
    rw [Fs.flush]
    rcases fs.streams fp with _ | st
    · rfl
    · rfl
  · show (Fs.unlink {} path fs).2.mountinfo = fs.mountinfo
    rw [Fs.unlink]
    rcases fs.files path with _ | content
    · rfl
    · rfl

/-- While the card is mounted, an upload to `/sd/a` begins. -/
def beginRound : SdRound Fs where
  between fs := { fs with mountinfo := some [utf8 "36 35 179:1 / /sd rw - ext4 /dev/mmcblk0p1 rw"] }
  tx := []
  lastError := []
  frame :=
    { header := { type := MsgType.filePutBegin.code, requestId := 1, payloadLen := 14 }
      payload := [1, 0, 4, 0, 4, 0] ++ utf8 "pathsd/a" }

/-- The card is taken out, and a byte for the upload arrives. The session is still there. -/
def chunkRound : SdRound Fs where
  between fs := { fs with mountinfo := none }
  tx := []
  lastError := []
  frame :=
    { header := { type := MsgType.filePutChunk.code, requestId := 2, payloadLen := 5 }
      payload := [1, 0, 0, 0, 65] }

/-- The chunk is written to the card that is gone, since a chunk does not look at the mount
table. -/
theorem not_no_sd_call_unmounted :
    ¬∀ rounds : List (SdRound Fs), EveryRound sdOs sdShell
      (fun round dev => ¬round.Mounted sdOs dev → round.OffSd sdOs sdShell dev) rounds
      (recordedBoot ⟨0, 0, 0⟩ Fs.empty) := by
  intro h
  obtain ⟨-, hchunk, -⟩ := h [beginRound, chunkRound]
  have hcalls : (chunkRound.handle sdOs sdShell (beginRound.handle sdOs sdShell
      (recordedBoot ⟨0, 0, 0⟩ Fs.empty))).proc.os.calls = [.write (utf8 "/sd/a.part")] := by
    decide +kernel
  refine hchunk (fun hmounted => ?_) (.write (utf8 "/sd/a.part")) (by rw [hcalls]; simp)
    (utf8 "/sd/a.part") (by simp [FileCall.paths]) (.inr (by decide))
  obtain ⟨lines, hlines, -⟩ := hmounted
  exact Option.some_ne_none lines hlines.symm

/-- `no_sd_call_unmounted_iff` for this run. -/
theorem no_sd_call_unmounted_iff_chunk :
    EveryRound sdOs sdShell
        (fun round dev => ¬round.Mounted sdOs dev → round.OffSd sdOs sdShell dev)
        [beginRound, chunkRound] (recordedBoot ⟨0, 0, 0⟩ Fs.empty) ↔
      EveryRound sdOs sdShell (fun round dev => ¬round.Mounted sdOs dev → ¬round.TouchesCard dev)
        [beginRound, chunkRound] (recordedBoot ⟨0, 0, 0⟩ Fs.empty) :=
  no_sd_call_unmounted_iff sdOs sdOs_keepsMount sdShell ⟨0, 0, 0⟩ Fs.empty [beginRound, chunkRound]

end UsbResponder
