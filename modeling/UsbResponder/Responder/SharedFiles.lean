import UsbResponder.Responder.UploadFrames

/-!
# Live uploads and the files they share

A session is found by its transfer id, and nothing compares the paths of two sessions. A
begin under a fresh id is therefore accepted although an upload of the same path is in
progress, and then both have the same temporary file; so it is when one path is the
temporary path of the other.

`live_uploads_share_no_file_iff` says that this is the only way: in a run of frames no two
live sessions share a file as long as, and only as long as, no begin is accepted whose path
is in conflict with the path of a session live under another id.

A conflict of two sessions is one of their final paths, because each works beside its own
(`sharesFile_iff`). One call brings sessions into conflict exactly when it is a begin that
succeeds in spite of one; the other calls only remove sessions. What then happens to the
files is not followed here. It depends on the order of the calls, and `FileOps.TempFiles`
and the store of files exclude it.
-/

namespace UsbResponder

open CString

variable {σ : Type} {os : Os σ} {p : Proc σ}

/-! ### Conflicts -/

/-- No two live sessions have equal temporary paths, and the temporary path of none is the
final path of another. -/
def NoSharing (sessions : FileOps) : Prop :=
  ∀ i j, i ≠ j → (sessions i).used = true → (sessions j).used = true →
    (sessions i).tempPath ≠ (sessions j).tempPath ∧ (sessions i).tempPath ≠ (sessions j).finalPath

/-- Two final paths that are equal, or of which one is the temporary path of the other. -/
def PathsConflict (path path' : Bytes) : Prop :=
  path = path' ∨ path ++ utf8 ".part" = path' ∨ path' ++ utf8 ".part" = path

/-- Two sessions that share a temporary path, or of which one writes to the final path of
the other. The relation is symmetric. -/
def UploadSession.SharesFile (a b : UploadSession) : Prop :=
  a.tempPath = b.tempPath ∨ a.tempPath = b.finalPath ∨ b.tempPath = a.finalPath

instance : Std.Symm UploadSession.SharesFile where
  symm := by
    rintro a b (h | h | h)
    · exact .inl h.symm
    · exact .inr (.inr h)
    · exact .inr (.inl h)

private theorem noSharing_iff {sessions : FileOps} :
    NoSharing sessions ↔
      SlotTable.Exclusive UploadSession.key UploadSession.SharesFile sessions := by
  have hkey : ∀ i, (sessions i).key ≠ none ↔ (sessions i).used = true := by
    intro i
    rw [ne_eq, UploadSession.key_eq_none_iff, Bool.not_eq_false]
  constructor
  · rintro h i j hij hi hj (htemp | hfinal | hfinal)
    · exact (h i j hij ((hkey i).mp hi) ((hkey j).mp hj)).1 htemp
    · exact (h i j hij ((hkey i).mp hi) ((hkey j).mp hj)).2 hfinal
    · exact (h j i hij.symm ((hkey j).mp hj) ((hkey i).mp hi)).2 hfinal
  · intro h i j hij hi hj
    have hpair := h hij ((hkey i).mpr hi) ((hkey j).mpr hj)
    exact ⟨fun htemp => hpair (.inl htemp), fun hfinal => hpair (.inr (.inl hfinal))⟩

/-! ### The invariant -/

/-- The invariant of the session table, and every live session writes next to its final
path, as the begin has set it up. -/
structure SessionsNamed (sessions : FileOps) : Prop where
  ok : SessionsOk sessions
  temp : ∀ i, (sessions i).used = true →
    (sessions i).tempPath = (sessions i).finalPath ++ utf8 ".part"

/-- Between sessions that write next to their final paths a conflict is one of the paths. -/
private theorem sharesFile_iff {a b : UploadSession} (ha : a.tempPath = a.finalPath ++ utf8 ".part")
    (hb : b.tempPath = b.finalPath ++ utf8 ".part") :
    a.SharesFile b ↔ PathsConflict a.finalPath b.finalPath := by
  rw [UploadSession.SharesFile, PathsConflict, ha, hb, List.append_cancel_right_eq]

/-- Giving a slot back keeps the names, and brings no sessions into conflict. -/
theorem SessionsNamed.release {sessions : FileOps} (h : SessionsNamed sessions)
    {i : Fin maxUploadSessions} {record : UploadSession} (hfree : record.used = false) :
    SessionsNamed (Function.update sessions i record) ∧
      (NoSharing sessions → NoSharing (Function.update sessions i record)) := by
  refine ⟨⟨h.ok.release hfree, fun j hj => ?_⟩, fun hshare => ?_⟩
  · by_cases hji : j = i
    · rw [hji, Function.update_self, hfree] at hj
      exact absurd hj (by decide)
    · rw [Function.update_of_ne hji] at hj ⊢
      exact h.temp j hj
  · exact noSharing_iff.mpr
      ((noSharing_iff.mp hshare).update_release (UploadSession.key_eq_none_iff.mpr hfree))

/-! ### What a call does to it -/

/-- A session live under another id has a path in conflict with the one requested. -/
def LiveConflict (sessions : FileOps) (transferId : UInt32) (relativePath : Bytes) : Prop :=
  ∃ j, (sessions j).used = true ∧ (sessions j).transferId ≠ transferId ∧
    PathsConflict (buildPath relativePath pathMaxLen).1 (sessions j).finalPath

/-- The call is a begin that succeeds in spite of a conflict. -/
def UploadCall.Conflicts (os : Os σ) (p : Proc σ) : UploadCall → Prop
  | .begin transferId relativePath desireStorage perm =>
    ((fileBeginUpload os transferId relativePath desireStorage perm).run p).1 = some () ∧
      LiveConflict p.sessions transferId relativePath
  | _ => False

/-- Before a begin looks for a slot, the live sessions are those of the other ids. -/
theorem SessionsNamed.beforeBegin (h : SessionsNamed p.sessions) (os : Os σ)
    (transferId : UInt32) :
    SessionsNamed (beforeBegin os transferId p).sessions ∧
      (NoSharing p.sessions → NoSharing (UsbResponder.beforeBegin os transferId p).sessions) ∧
      ∀ j, ((p.sessions j).used = true ∧ (p.sessions j).transferId ≠ transferId ↔
          ((UsbResponder.beforeBegin os transferId p).sessions j).used = true) ∧
        (((UsbResponder.beforeBegin os transferId p).sessions j).used = true →
          (UsbResponder.beforeBegin os transferId p).sessions j = p.sessions j) := by
  rw [UsbResponder.beforeBegin]
  cases hfind : findSession p.sessions transferId with
  | none =>
    refine ⟨h, id, fun j => ⟨⟨And.left, fun hj => ⟨hj, fun hid => ?_⟩⟩, fun _ => rfl⟩⟩
    exact SlotTable.find_eq_none_iff.mp hfind j (UploadSession.key_eq_some_iff.mpr ⟨hj, hid⟩)
  | some i =>
    dsimp only
    rw [fileAbortUpload_of_some hfind, Proc.setSession_sessions, unlinkPath_sessions,
      closeStream_sessions]
    have hi := key_of_findSession hfind
    refine ⟨(h.release rfl).1, (h.release rfl).2, fun j => ?_⟩
    by_cases hji : j = i
    · rw [hji, Function.update_self]
      refine ⟨iff_of_false (fun hj => hj.2 ?_) (by decide), fun hj => absurd hj (by decide)⟩
      exact (UploadSession.key_eq_some_iff.mp hi).2
    · rw [Function.update_of_ne hji]
      refine ⟨⟨And.left, fun hj => ⟨hj, fun hid => hji ?_⟩⟩, fun _ => rfl⟩
      exact h.ok.unique (UploadSession.key_eq_some_iff.mpr ⟨hj, hid⟩) hi

/-- A begin brings sessions into conflict exactly when it succeeds in spite of one. A begin
that replaces an upload of its own id is not in conflict with it. -/
theorem SessionsNamed.begin (h : SessionsNamed p.sessions) (os : Os σ) (transferId : UInt32)
    (relativePath : Bytes) (desireStorage perm : Option Bytes) :
    let r := (fileBeginUpload os transferId relativePath desireStorage perm).run p
    SessionsNamed r.2.sessions ∧ (NoSharing p.sessions →
      (NoSharing r.2.sessions ↔
        ¬(r.1 = some () ∧ LiveConflict p.sessions transferId relativePath))) := by
  intro r
  obtain ⟨hbefore, hshare, hlive⟩ := h.beforeBegin os transferId
  obtain ⟨-, -, hother⟩ := h.ok.beforeBegin os transferId
  obtain ⟨-, hrun⟩ | ⟨i, halloc, hslot⟩ :=
    fileBeginUpload_cases os transferId relativePath desireStorage perm p
  · have hr : r = _ := hrun
    rw [hr]
    exact ⟨hbefore, fun hno => iff_of_true (hshare hno) (by simp)⟩
  have hfree := SlotTable.key_of_alloc halloc
  obtain ⟨record, s, msg, hrecord, -, -, hrun⟩ | ⟨target, fp, s, hchecks, -, hrun⟩ := hslot
  · have hr : r = _ := hrun
    rw [hr, Proc.setLastError_sessions, Proc.setSession_sessions]
    obtain ⟨hnamed, hno'⟩ := hbefore.release (i := i) hrecord
    exact ⟨hnamed, fun hno => iff_of_true (hno' (hshare hno)) (by simp)⟩
  · have hr : r = _ := hrun
    have hkey : (target.session transferId relativePath fp).key = some transferId := rfl
    have hpath : (buildPath relativePath pathMaxLen).1 = target.path := by rw [hchecks.path]
    rw [hr, Proc.setSession_sessions]
    refine ⟨⟨hbefore.ok.store hkey (by simp [UploadTarget.session]) fun j _ => hother j,
      fun j hj => ?_⟩, fun hno => ?_⟩
    · by_cases hji : j = i
      · rw [hji, Function.update_self]
        rfl
      · rw [Function.update_of_ne hji] at hj ⊢
        exact hbefore.temp j hj
    · -- the new session is in conflict with the slots in use, which are those of other ids
      rw [noSharing_iff, SlotTable.exclusive_update_store_iff hfree (by simp [hkey])]
      simp only [noSharing_iff.mp (hshare hno), true_and, LiveConflict, not_exists, not_and]
      refine forall_congr' fun j => ?_
      rw [ne_eq, UploadSession.key_eq_none_iff, Bool.not_eq_false, hpath]
      obtain ⟨hiff, hsame⟩ := hlive j
      constructor
      · intro hnew hj hid hconflict
        have hb := hiff.mp ⟨hj, hid⟩
        refine hnew hb ?_
        rw [hsame hb]
        exact (sharesFile_iff rfl (h.temp j hj)).mpr hconflict
      · intro hnew hb hshares
        obtain ⟨hj, hid⟩ := hiff.mpr hb
        rw [hsame hb] at hshares
        exact hnew hj hid ((sharesFile_iff rfl (h.temp j hj)).mp hshares)

/-- **One call.** It brings sessions into conflict exactly when it is a begin that succeeds
in spite of a conflict. -/
theorem SessionsNamed.call (h : SessionsNamed p.sessions) (os : Os σ) (call : UploadCall) :
    SessionsNamed ((call.op os).run p).2.sessions ∧ (NoSharing p.sessions →
      (NoSharing ((call.op os).run p).2.sessions ↔ ¬call.Conflicts os p)) := by
  -- a call that at most resets a slot brings no sessions into conflict
  have hreset : ∀ {sessions' : FileOps}, (sessions' = p.sessions ∨
      ∃ i, sessions' = Function.update p.sessions i {}) → SessionsNamed sessions' ∧
        (NoSharing p.sessions → (NoSharing sessions' ↔ ¬False)) := by
    rintro sessions' (rfl | ⟨i, rfl⟩)
    · exact ⟨h, fun hno => iff_of_true hno not_false⟩
    · obtain ⟨hnamed, hno'⟩ :=
        h.release (i := i) (show ({} : UploadSession).used = false from rfl)
      exact ⟨hnamed, fun hno => iff_of_true (hno' hno) not_false⟩
  cases call with
  | «begin» transferId relativePath desireStorage perm =>
    exact h.begin os transferId relativePath desireStorage perm
  | append transferId data =>
    obtain ⟨-, hsessions⟩ | ⟨-, i, hfind, hsessions⟩ :=
      fileAppendUploadChunk_sessions os transferId data p
    · exact hreset (.inl hsessions)
    · -- an append changes the counters only, not the paths
      have hused := (UploadSession.key_eq_some_iff.mp (key_of_findSession hfind)).1
      have hkey : (p.sessions i).key ≠ none := by
        simp [key_of_findSession hfind]
      refine ⟨⟨(h.ok.append os transferId data).1, fun j hj => ?_⟩, fun hno =>
        iff_of_true ?_ not_false⟩
      · rw [UploadCall.op, hsessions] at hj ⊢
        by_cases hji : j = i
        · rw [hji, Function.update_self]
          exact h.temp i hused
        · rw [Function.update_of_ne hji] at hj ⊢
          exact h.temp j hj
      · rw [UploadCall.op, hsessions, noSharing_iff]
        exact (noSharing_iff.mp hno).update_of_imp hkey fun _ hshares => hshares
  | finish transferId =>
    refine hreset ?_
    cases hfind : findSession p.sessions transferId with
    | none => exact .inl (by simp only [UploadCall.op, fileFinishUpload, hfind,
        Proc.setLastError_sessions])
    | some i => exact .inr ⟨i, fileFinishUpload_sessions hfind⟩
  | abort transferId =>
    refine hreset ?_
    cases hfind : findSession p.sessions transferId with
    | none => exact .inl (by rw [UploadCall.op, fileAbortUpload_of_none hfind])
    | some i => exact .inr ⟨i, by rw [UploadCall.op, fileAbortUpload_of_some hfind,
        Proc.setSession_sessions, unlinkPath_sessions, closeStream_sessions]⟩

/-! ### Runs of frames -/

/-- The device after frames have been handled one after another. -/
def handleFrames (os : Os σ) (shell : ExecShell σ) (frames : List Frame) (dev : Device σ) :
    Device σ :=
  frames.foldl (fun dev frame => (handleFrame os shell frame dev).2) dev

/-- The device accepts the frame, a begin, in spite of a conflict. -/
def Device.AcceptsConflict (os : Os σ) (frame : Frame) (dev : Device σ) : Prop :=
  ∃ call, uploadCall? frame = some call ∧ call.Conflicts os dev.proc

section Run

variable (os) (shell : ExecShell σ) {frame : Frame} {frames : List Frame} {dev : Device σ}

private theorem handleFrames_concat (frames : List Frame) (frame : Frame) (dev : Device σ) :
    handleFrames os shell (frames ++ [frame]) dev =
      (handleFrame os shell frame (handleFrames os shell frames dev)).2 := by
  rw [handleFrames, List.foldl_concat, handleFrames]

/-- One frame brings sessions into conflict exactly when it is accepted in spite of a
conflict. -/
theorem SessionsNamed.step (h : SessionsNamed dev.proc.sessions)
    (hframe : frame.IsUploadFrame) :
    SessionsNamed (handleFrame os shell frame dev).2.proc.sessions ∧
      (NoSharing dev.proc.sessions → (NoSharing (handleFrame os shell frame dev).2.proc.sessions ↔
        ¬dev.AcceptsConflict os frame)) := by
  rw [handleFrame_sessions os shell hframe, Device.AcceptsConflict]
  cases hcall : uploadCall? frame with
  | none => exact ⟨h, fun hno => iff_of_true hno (by simp)⟩
  | some call => simpa using h.call os call

/-- The invariant holds after any frames, whatever their outcomes. -/
theorem SessionsNamed.run (h : SessionsNamed dev.proc.sessions)
    (hframes : ∀ frame ∈ frames, frame.IsUploadFrame) :
    SessionsNamed (handleFrames os shell frames dev).proc.sessions := by
  induction frames generalizing dev with
  | nil => exact h
  | cons frame frames ih =>
    exact ih (h.step os shell (hframes frame (by simp))).1 fun f hf => hframes f (by simp [hf])

/-- **Live uploads and their files.** Take any run of begins, chunks and ends from an empty
session table, with any transfer ids, any paths and any outcomes of the system calls. In
every state of the run no two live sessions have equal temporary paths and no live session's
temporary path is the final path of another, as long as, and only as long as, no begin has
been accepted whose path is in conflict with the path of a session live under another id. -/
theorem live_uploads_share_no_file_iff (hframes : ∀ frame ∈ frames, frame.IsUploadFrame)
    (hempty : dev.proc.sessions = fileOpsInit) :
    (∀ pre, pre <+: frames → NoSharing (handleFrames os shell pre dev).proc.sessions) ↔
      ∀ pre frame, pre ++ [frame] <+: frames →
        ¬(handleFrames os shell pre dev).AcceptsConflict os frame := by
  have hinit : SessionsNamed dev.proc.sessions := by
    rw [hempty]
    exact ⟨.init, fun _ h => by simp [fileOpsInit] at h⟩
  -- every state of the run has the invariant, so each frame is an instance of the step
  have hstep : ∀ pre frame, pre ++ [frame] <+: frames →
      NoSharing (handleFrames os shell pre dev).proc.sessions →
      (NoSharing (handleFrames os shell (pre ++ [frame]) dev).proc.sessions ↔
        ¬(handleFrames os shell pre dev).AcceptsConflict os frame) := by
    intro pre frame hpre hno
    have hmem : ∀ f ∈ pre ++ [frame], f.IsUploadFrame := fun f hf => hframes f (hpre.subset hf)
    have hnamed : SessionsNamed (handleFrames os shell pre dev).proc.sessions :=
      hinit.run os shell fun f hf => hmem f (by simp [hf])
    rw [handleFrames_concat]
    exact (hnamed.step os shell (hmem frame (by simp))).2 hno
  constructor
  · intro h pre frame hpre
    exact (hstep pre frame hpre (h pre ((List.prefix_append pre _).trans hpre))).mp (h _ hpre)
  · intro h pre
    induction pre using List.reverseRecOn with
    | nil =>
      intro _
      rw [handleFrames, List.foldl_nil, hempty]
      intro i j _ hi
      simp [fileOpsInit] at hi
    | append_singleton pre frame ih =>
      intro hpre
      have hno := ih ((List.prefix_append pre _).trans hpre)
      exact (hstep pre frame hpre hno).mpr (h pre frame hpre)

end Run

/-- The frame of a begin for a path. It has no other items. -/
def beginFrame (requestId : UInt32) (path : String) : Frame :=
  frameOf MsgType.filePutBegin.code 0 requestId (kvLayout [⟨utf8 "path", utf8 path⟩])

theorem uploadCall?_beginFrame (requestId : UInt32) {path : String}
    (hfits : (utf8 path).length < 2 ^ 16) :
    uploadCall? (beginFrame requestId path) =
      some (.begin requestId (cStr (utf8 path)) none none) := by
  have hdecode : decodeKv (beginFrame requestId path).payload maxKv =
      some [⟨utf8 "path", utf8 path⟩] := by
    refine decodeKv_kvLayout (fun item hitem => ?_) (by simp [maxKv])
    obtain rfl := List.mem_singleton.mp hitem
    exact ⟨show (utf8 "path").length < 2 ^ 16 by decide, hfits⟩
  rw [uploadCall?_begin rfl, beginCall?, hdecode]
  rfl

/-- `live_uploads_share_no_file_iff` for two begins of different paths. -/
theorem live_uploads_share_no_file_iff_two :
    let os := (Os.failing Fs).withFs {}
    let frames := [beginFrame 1 "a", beginFrame 2 "b"]
    (∀ pre, pre <+: frames →
        NoSharing (handleFrames os (fun _ _ s => (none, s)) pre idleDevice).proc.sessions) ↔
      ∀ pre frame, pre ++ [frame] <+: frames →
        ¬(handleFrames os (fun _ _ s => (none, s)) pre idleDevice).AcceptsConflict os frame :=
  live_uploads_share_no_file_iff _ _ (by simp [Frame.IsUploadFrame, beginFrame, frameOf]) rfl

/-- Nothing keeps live uploads apart: after two begins of `a` under different ids, both
sessions are live with the same temporary path. -/
theorem not_live_uploads_share_no_file :
    ¬∀ (os : Os Fs) (shell : ExecShell Fs) (frames : List Frame) (dev : Device Fs),
      (∀ frame ∈ frames, frame.IsUploadFrame) → dev.proc.sessions = fileOpsInit →
      NoSharing (handleFrames os shell frames dev).proc.sessions := by
  intro h
  have hno := h ((Os.failing Fs).withFs {}) (fun _ _ s => (none, s))
    [beginFrame 1 "a", beginFrame 2 "a"] idleDevice
    (by simp [Frame.IsUploadFrame, beginFrame, frameOf]) rfl
  have hcall : ∀ id, uploadCall? (beginFrame id "a") =
      some (.begin id (cStr (utf8 "a")) none none) :=
    fun id => uploadCall?_beginFrame id (by decide)
  obtain ⟨_, dev₁, hrun₁, hb₁, hproc₁, -⟩ := handleFrame_of_call_of_benign
    ((Os.failing Fs).withFs {}) (fun _ _ s => (none, s)) (hcall 1)
    (show idleDevice.Benign by simp [Device.Benign, idleDevice])
  obtain ⟨_, dev₂, hrun₂, -, hproc₂, -⟩ := handleFrame_of_call_of_benign
    ((Os.failing Fs).withFs {}) (fun _ _ s => (none, s)) (hcall 2) hb₁
  rw [handleFrames, List.foldl_cons, hrun₁, List.foldl_cons, hrun₂, List.foldl_nil, hproc₂,
    hproc₁] at hno
  exact (hno ⟨0, by decide⟩ ⟨1, by decide⟩ (by decide) rfl rfl).1 rfl

end UsbResponder
