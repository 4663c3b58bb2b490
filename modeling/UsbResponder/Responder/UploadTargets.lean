import UsbResponder.Responder.InterleavedPuts
import UsbResponder.Responder.SdWrites
import UsbResponder.Responder.SharedFiles

/-!
# The file an upload targets

A begin checks the storage of its normalised path and then opens another path, the
normalised path with `.part` behind it. The two are on the same storage and the upload is of
a file, unless the path of the request is that of a storage root: for `/` and `/sd` nothing
is checked, and the temporary file of `/sd` is `/sd.part`, which is not on the card.
Deleting and renaming refuse these paths.

So the condition is one on the path of the request: it has a component that is not `.`, and
not only the component `sd`. Both directions come from the form of a normalised path. That
the rename at the end of such an upload then fails, because a directory is in the way, is up
to the file system and not part of the result; the begin has been confirmed by then, and
chunks too.
-/

namespace UsbResponder

open CString

variable {σ : Type}

/-! ### The temporary path -/

/-- The temporary path of a path is on the same storage, except for the root of the card:
`/sd.part` is not below `/sd`. -/
private theorem onSd_part_iff {cs : List Bytes} (h : NormalComponents cs) (hsd : cs ≠ [utf8 "sd"]) :
    OnSd (normalPath cs ++ utf8 ".part") ↔ OnSd (normalPath cs) := by
  obtain ⟨t, ht, -⟩ := normalPath_eq_cons h
  constructor
  · intro hpart
    by_contra hoff
    rw [ht] at hoff hpart
    exact not_onSd_part hoff hpart
  · rintro (hroot | hbelow)
    · have hnormal : NormalComponents [utf8 "sd"] := by
        intro c hc
        rw [List.mem_singleton.mp hc]
        exact ⟨⟨by decide, by decide⟩, by decide⟩
      have hname : utf8 "/sd" = normalPath [utf8 "sd"] := by decide +kernel
      rw [hname] at hroot
      exact absurd ((normalPath_inj h hnormal).mp hroot) hsd
    · exact .inr (hbelow.trans (List.prefix_append ..))

/-- A session is an upload of a file: its final path is no storage root, and both its paths
are on the storage `build_path` found for the path of the request, which is the one its
checks were made for. -/
structure UploadSession.TargetsFile (session : UploadSession) (relativePath : Bytes) : Prop where
  not_root : pathIsStorageRoot session.finalPath = false
  final_storage : OnSd session.finalPath ↔ (buildPath relativePath pathMaxLen).2 = .ok .sd
  temp_storage : OnSd session.tempPath ↔ OnSd session.finalPath

/-- **What the checks of a begin leave out.** The session of a begin whose checks pass
targets a file exactly if the path of the request is not that of a storage root. -/
theorem UploadChecks.targetsFile_iff {os : Os σ} {relativePath : Bytes}
    {desireStorage perm : Option Bytes} {s : σ} {target : UploadTarget}
    (h : UploadChecks os relativePath desireStorage perm s target) (transferId : UInt32) (fp : ℕ) :
    (target.session transferId relativePath fp).TargetsFile relativePath ↔
      pathComponents relativePath ≠ [] ∧ pathComponents relativePath ≠ [utf8 "sd"] := by
  have hnormal := normalComponents_pathComponents relativePath
  obtain ⟨-, -, hpath, -⟩ := (buildPath_eq_ok_iff (by decide)).mp h.path
  have hroot : pathIsStorageRoot target.path = false ↔
      pathComponents relativePath ≠ [] ∧ pathComponents relativePath ≠ [utf8 "sd"] := by
    rw [← not_or, ← pathIsStorageRoot_normalPath hnormal, ← hpath, Bool.not_eq_true]
  constructor
  · exact fun htargets => hroot.mp htargets.not_root
  · intro hcomponents
    have htemp := onSd_part_iff hnormal hcomponents.2
    rw [← hpath] at htemp
    refine ⟨hroot.mpr hcomponents, ?_, htemp⟩
    rw [h.path]
    refine (onSd_buildPath h.path).2.trans ?_
    rw [Except.ok.injEq]

/-! ### The answer to a begin -/

/-- Handling a frame with a call is answered with `STATUS` only if the call succeeds. A
failing call is answered with `ERROR`, which is another type. -/
private theorem run_eq_some_of_answeredStatus {os : Os σ} {shell : ExecShell σ} {frame : Frame}
    {call : UploadCall} (hcall : uploadCall? frame = some call) {dev : Device σ}
    (h : AnsweredStatus frame dev (handleFrame os shell frame dev).2) :
    ((call.op os).run dev.proc).1 = some () := by
  obtain ⟨payload, hrun⟩ := handleFrame_of_call os shell hcall dev
  obtain ⟨payload', writes', hlog', -, -⟩ := h
  obtain ⟨writes, hlog, -⟩ := (writeFrame_onlyWrites os
    (responseFrame (responseType ((call.op os).run dev.proc).1) frame.header.requestId payload)
    { dev with proc := ((call.op os).run dev.proc).2 }).log
  rw [hrun, hlog, Device.record, List.append_assoc] at hlog'
  have hresp := (List.cons.inj (List.append_cancel_left hlog')).1
  -- the response sent is the one that reports the result
  rcases hresult : ((call.op os).run dev.proc).1 with _ | _
  · rw [hresult] at hresp
    have htype := congrArg (fun f => f.header.type) (IoEvent.sending.inj hresp)
    exact absurd htype (show MsgType.error.code ≠ MsgType.status.code by decide)
  · rfl

/-- **What an accepted upload targets.** A begin that is answered with `STATUS` has stored a
session for its request id, and this session targets a file on the storage the begin has
checked exactly if the path of the request is not that of a storage root: it has a component
that is not `.`, and not only the one component `sd`. -/
theorem accepted_upload_targets_file_iff (os : Os σ) (shell : ExecShell σ) {frame : Frame}
    {path : Bytes} {desireStorage perm : Option Bytes} {dev : Device σ}
    (hcall : uploadCall? frame = some (.begin frame.header.requestId path desireStorage perm))
    (hanswered : AnsweredStatus frame dev (handleFrame os shell frame dev).2) :
    let sessions := (handleFrame os shell frame dev).2.proc.sessions
    ∃ i, (sessions i).key = some frame.header.requestId ∧
      (SessionsOk dev.proc.sessions → findSession sessions frame.header.requestId = some i) ∧
      ((sessions i).TargetsFile path ↔
        pathComponents path ≠ [] ∧ pathComponents path ≠ [utf8 "sd"]) := by
  intro sessions
  have hsessions : sessions =
      (((UploadCall.begin frame.header.requestId path desireStorage perm).op os).run
        dev.proc).2.sessions := (handleFrame_of_call_proc os shell hcall dev).1
  have hsome := run_eq_some_of_answeredStatus hcall hanswered
  rw [UploadCall.op] at hsome hsessions
  obtain ⟨-, hr⟩ | ⟨i, halloc, ⟨_, _, _, -, -, -, hr⟩ | ⟨target, fp, s, hchecks, hopen, hr⟩⟩ :=
    fileBeginUpload_cases os frame.header.requestId path desireStorage perm dev.proc
  · rw [hr] at hsome
    exact absurd hsome.symm (Option.some_ne_none ())
  · rw [hr] at hsome
    exact absurd hsome.symm (Option.some_ne_none ())
  · rw [hr, Proc.setSession_sessions] at hsessions
    have hkey : (target.session frame.header.requestId path fp).key =
        some frame.header.requestId := rfl
    refine ⟨i, ?_, fun hok => ?_, ?_⟩
    · rw [hsessions, Function.update_self]
      exact hkey
    · rw [hsessions]
      exact SlotTable.find_update_store hkey fun j _ => (hok.beforeBegin os _).2.2 j
    · rw [hsessions, Function.update_self]
      exact hchecks.targetsFile_iff _ fp

/-! ### A file and the root of the card -/

/-- The file system with the card mounted, and a device on it. -/
def cardDevice : Device Fs where
  cfg := ⟨0, 0, 0⟩
  proc := ⟨fileOpsInit, [], { Fs.empty with
    mountinfo := some [utf8 "36 35 179:1 / /sd rw - ext4 /dev/mmcblk0p1 rw"] }⟩
  tx := []
  log := []

/-- A begin of an upload to `path` on a device with the card mounted is answered with
`STATUS`. -/
private theorem answeredStatus_cardDevice (path : String) (hfits : (utf8 path).length < 2 ^ 16)
    (hrun : ((UploadCall.begin 1 (cStr (utf8 path)) none none).op sdOs |>.run
      cardDevice.proc).1 = some ()) :
    AnsweredStatus (beginFrame 1 path) cardDevice
      (handleFrame sdOs sdShell (beginFrame 1 path) cardDevice).2 := by
  obtain ⟨payload, dev', hhandle, -, -, hlog⟩ := handleFrame_of_call_of_benign sdOs sdShell
    (uploadCall?_beginFrame 1 hfits)
    (show cardDevice.Benign by simp [Device.Benign, cardDevice])
  rw [hrun] at hlog
  rw [hhandle]
  exact ⟨payload, hlog⟩

/-- `accepted_upload_targets_file_iff` for `sd/a` with the card mounted. -/
theorem accepted_upload_targets_file_iff_card :
    let sessions := (handleFrame sdOs sdShell (beginFrame 1 "sd/a") cardDevice).2.proc.sessions
    ∃ i, (sessions i).key = some 1 ∧ ((sessions i).TargetsFile (utf8 "sd/a") ↔
      pathComponents (utf8 "sd/a") ≠ [] ∧ pathComponents (utf8 "sd/a") ≠ [utf8 "sd"]) := by
  obtain ⟨i, hkey, -, htargets⟩ := accepted_upload_targets_file_iff sdOs sdShell
    (uploadCall?_beginFrame 1 (by decide))
    (answeredStatus_cardDevice "sd/a" (by decide) (by decide +kernel))
  exact ⟨i, hkey, htargets⟩

/-- **An upload to a storage root is accepted.** With the card mounted, a begin for `sd` is
answered with `STATUS`, and its session targets no file. -/
theorem not_accepted_upload_targets_file :
    ¬∀ (os : Os Fs) (shell : ExecShell Fs) (frame : Frame) (path : Bytes)
      (desireStorage perm : Option Bytes) (dev : Device Fs), SessionsOk dev.proc.sessions →
      uploadCall? frame = some (.begin frame.header.requestId path desireStorage perm) →
      AnsweredStatus frame dev (handleFrame os shell frame dev).2 →
      ∃ i, findSession (handleFrame os shell frame dev).2.proc.sessions frame.header.requestId =
          some i ∧
        ((handleFrame os shell frame dev).2.proc.sessions i).TargetsFile path := by
  intro h
  have hcall : uploadCall? (beginFrame 1 "sd") = some (.begin 1 (utf8 "sd") none none) :=
    uploadCall?_beginFrame 1 (by decide)
  obtain ⟨i, hfind, htargets⟩ := h sdOs sdShell (beginFrame 1 "sd") (utf8 "sd") none none cardDevice
    .init hcall (answeredStatus_cardDevice "sd" (by decide) (by decide +kernel))
  have hsessions := @handleFrame_sessions _ sdOs sdShell (beginFrame 1 "sd")
    (by simp [Frame.IsUploadFrame, beginFrame, frameOf]) cardDevice
  rw [hcall] at hsessions
  rw [hsessions] at hfind htargets
  have hroot : ∀ i,
      let session := (((UploadCall.begin 1 (utf8 "sd") none none).op sdOs).run
        cardDevice.proc).2.sessions i
      session.key = some 1 → pathIsStorageRoot session.finalPath = true := by decide +kernel
  exact absurd htargets.not_root (by rw [hroot i (key_of_findSession hfind)]; simp)

end UsbResponder
