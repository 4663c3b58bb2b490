import UsbResponder.FileOps.SessionTable
import UsbResponder.FileOps.Tree
import UsbResponder.System.StreamTrace

/-!
# The streams of the file operations

An operation that starts and ends in one frame closes what it opens, on every way out.
Between two frames the open streams are those of the upload sessions, one each:
`SessionStreams` is this invariant, and every session function keeps it
(`SessionStreams.call`). On the way out of the program `file_ops_shutdown` closes them all
(`SessionStreams.shutdown`).

The first half goes through the operations with the rules of `System.StreamTrace`. Two of
them open a stream, the reading of a file and the reading of the mount table, and each has
its `fclose` on every exit: those after a failing `fseek`, `ftell` or `fread`, and those
after a failing `malloc`, are exits of their own in the source and here.

In the second half a session is its stream, if it is used (`UploadSession.stream`), and the
table is the set of these. A begin opens its stream as the last thing it does, so a refused
begin has nothing to close. What is missing is the memory: that the blocks are freed is not
followed.
-/

namespace UsbResponder

open CString

variable {σ α : Type}

/-! ### Operations of one frame -/

section OneFrame

variable (os : Os σ)

private theorem buildPathOp_keepsOpen (relative : Bytes) :
    (buildPathOp relative : Op (Traced σ) (Bytes × Storage)).KeepsOpen := by
  rw [buildPathOp]
  rcases buildPath relative pathMaxLen with ⟨path, msg | storage⟩
  · exact Op.keepsOpen_failWith msg
  · exact Op.keepsOpen_pure _

private theorem pathStorageMatchesDesire_keepsOpen (storage : Storage)
    (desireStorage : Option Bytes) :
    (pathStorageMatchesDesire storage desireStorage : Op (Traced σ) Unit).KeepsOpen := by
  intro p held h
  by_cases hmatches : StorageMatches storage desireStorage
  · rw [pathStorageMatchesDesire_of hmatches p]
    exact ⟨h, rfl⟩
  · obtain ⟨msg, hrun, -⟩ := pathStorageMatchesDesire_of_not hmatches p
    rw [hrun]
    exact ⟨h, rfl⟩

private theorem ensureStorageWriteable_keepsOpen (storage : Storage) :
    (ensureStorageWriteable os.tracing storage).KeepsOpen := by
  intro p held h
  have hcheck : (os.tracing.afterMountCheck storage p.os).Open held := by
    rcases storage with _ | _
    · exact h
    · exact h.mountinfo os
  by_cases hwriteable : StorageWriteable os.tracing storage p.os
  · rw [ensureStorageWriteable_of hwriteable]
    exact ⟨hcheck, rfl⟩
  · obtain ⟨msg, hrun, -⟩ := ensureStorageWriteable_of_not hwriteable
    rw [hrun]
    exact ⟨hcheck, rfl⟩

private theorem failStream_closes (fp : ℕ) (pre : Bytes) (e : Errno) :
    (failStream os.tracing fp pre e : Op (Traced σ) α).Closes fp := by
  exact fun p => Op.closes_failClosing os fp (p.setErrnoError os.tracing pre e)

/-- **Reading a file.** Its stream is closed on each of the eight ways out. Behind the
opening every branch of the function ends in a close. -/
theorem readFileAll_keepsOpen (path : Bytes) : (readFileAll os.tracing path).KeepsOpen := by
  refine Op.keepsOpen_opening_bind (os.fopenRb path) (fun e p held h => ⟨h, rfl⟩) fun fp => ?_
  refine Op.Closes.sys_bind (Op.uses_onStream fp os.fseekEnd) fun atEnd => ?_
  rcases atEnd with _ | e
  swap
  · exact failStream_closes os fp _ e
  refine Op.Closes.sys_bind (Op.uses_onStream fp os.ftell) fun told => ?_
  rcases told with e | fileSize
  · exact failStream_closes os fp _ e
  refine Op.Closes.sys_bind (Op.uses_onStream fp os.fseekSet) fun atStart => ?_
  rcases atStart with _ | e
  swap
  · exact failStream_closes os fp _ e
  split_ifs
  · exact Op.closes_fclose_bind os fp fun _ => Op.keepsOpen_pure _
  refine Op.Closes.sys_bind ((Op.keepsOpen_lift (os.malloc fileSize)).uses fp) fun granted => ?_
  split_ifs
  · refine Op.Closes.sys_bind (Op.uses_onStream fp fun fd => os.fread fd fileSize) fun got => ?_
    dsimp only
    split_ifs
    · exact failStream_closes os fp _ _
    · exact Op.closes_fclose_bind os fp fun _ => Op.keepsOpen_pure _
  · exact fun p => Op.closes_failClosing os fp (p.setLastError _)

theorem fileRead_keepsOpen (relativePath : Bytes) : (fileRead os.tracing relativePath).KeepsOpen :=
  (buildPathOp_keepsOpen relativePath).bind fun path => readFileAll_keepsOpen os path.1

private theorem fileListLoop_keepsOpen (dirpath : Bytes) (names : List Bytes)
    (files dirs : ListText) : (fileListLoop os.tracing dirpath names files dirs).KeepsOpen := by
  induction names generalizing files dirs with
  | nil => exact Op.keepsOpen_pure _
  | cons name names ih =>
    rw [fileListLoop]
    dsimp only
    split_ifs
    · exact ih files dirs
    · exact Op.keepsOpen_failWith _
    · refine (Op.keepsOpen_lift _).bind fun found => ?_
      rcases found with e | st
      · exact Op.keepsOpen_failFile _ _ _ _
      · dsimp only
        split_ifs
        · exact ih files _
        · exact ih _ dirs

theorem fileList_keepsOpen (relativePath : Bytes) :
    (fileList os.tracing relativePath).KeepsOpen := by
  refine (buildPathOp_keepsOpen relativePath).bind fun path => ?_
  refine (Op.keepsOpen_lift _).bind fun opened => ?_
  rcases opened with e | names
  · exact Op.keepsOpen_fail
  · exact fileListLoop_keepsOpen os _ _ _ _

theorem fileStat_keepsOpen (relativePath : Bytes) :
    (fileStat os.tracing relativePath).KeepsOpen := by
  refine (buildPathOp_keepsOpen relativePath).bind fun path => ?_
  refine (Op.keepsOpen_lift _).bind fun found => ?_
  rcases found with e | st
  · exact Op.keepsOpen_failFile _ _ _ _
  · exact (Op.keepsOpen_lift _).bind fun _ =>
      (Op.keepsOpen_lift _).bind fun _ => Op.keepsOpen_pure _

private theorem removeEntries_keepsOpen {remove : Bytes → Op (Traced σ) Unit}
    (h : ∀ path, (remove path).KeepsOpen) (absPath : Bytes) (names : List Bytes) :
    (removeEntries remove absPath names).KeepsOpen := by
  induction names with
  | nil => exact Op.keepsOpen_pure ()
  | cons name names ih =>
    rw [removeEntries]
    dsimp only
    split_ifs
    · exact ih
    · exact Op.keepsOpen_failWith _
    · exact (h _).bind fun _ => ih

private theorem removePathRecursive_keepsOpen (fuel : ℕ) (path : Bytes) :
    (removePathRecursive os.tracing fuel path).KeepsOpen := by
  induction fuel generalizing path with
  | zero => exact Op.keepsOpen_fail
  | succ fuel ih =>
    rw [removePathRecursive]
    refine (Op.keepsOpen_lift _).bind fun found => ?_
    rcases found with e | st
    · exact Op.keepsOpen_failFile _ _ _ _
    dsimp only
    split_ifs
    · refine (Op.keepsOpen_lift _).bind fun opened => ?_
      rcases opened with e | names
      · exact Op.keepsOpen_failFile _ _ _ _
      refine (removeEntries_keepsOpen ih path names).bind fun _ => ?_
      refine (Op.keepsOpen_lift _).bind fun removed => ?_
      rcases removed with _ | e
      · exact Op.keepsOpen_pure ()
      · exact Op.keepsOpen_failFile _ _ _ _
    · refine (Op.keepsOpen_lift _).bind fun removed => ?_
      rcases removed with _ | e
      · exact Op.keepsOpen_pure ()
      · exact Op.keepsOpen_failFile _ _ _ _

theorem fileDelete_keepsOpen (relativePath : Bytes) (desireStorage : Option Bytes) :
    (fileDelete os.tracing relativePath desireStorage).KeepsOpen := by
  refine (buildPathOp_keepsOpen relativePath).bind fun path => ?_
  refine (pathStorageMatchesDesire_keepsOpen path.2 desireStorage).bind fun _ => ?_
  refine (ensureStorageWriteable_keepsOpen os path.2).bind fun _ => ?_
  split_ifs
  · exact Op.keepsOpen_failWith _
  · exact removePathRecursive_keepsOpen os _ _

private theorem mkdirLoop_keepsOpen (fuel : ℕ) (r work : Bytes) :
    (mkdirLoop os.tracing fuel r work).KeepsOpen := by
  induction fuel generalizing r work with
  | zero => exact Op.keepsOpen_pure ()
  | succ fuel ih =>
    rw [mkdirLoop]
    dsimp only
    refine Op.keepsOpen_ite (Op.keepsOpen_pure ()) ?_
    refine Op.keepsOpen_ite (Op.keepsOpen_failWith _) ?_
    refine (Op.keepsOpen_lift _).bind fun made => ?_
    rcases made with _ | e
    · exact ih _ _
    refine Op.keepsOpen_ite (Op.keepsOpen_failFile _ _ _ _) ?_
    refine (Op.keepsOpen_lift _).bind fun found => ?_
    rcases found with e | st
    · exact Op.keepsOpen_failFile _ _ _ _
    · exact Op.keepsOpen_ite (Op.keepsOpen_failWith _) (ih _ _)

theorem dirMkdir_keepsOpen (relativePath : Bytes) (parents : Bool) (desireStorage : Option Bytes) :
    (dirMkdir os.tracing relativePath parents desireStorage).KeepsOpen := by
  refine (buildPathOp_keepsOpen relativePath).bind fun path => ?_
  refine (pathStorageMatchesDesire_keepsOpen path.2 desireStorage).bind fun _ => ?_
  refine (ensureStorageWriteable_keepsOpen os path.2).bind fun _ => ?_
  refine Op.keepsOpen_ite (mkdirLoop_keepsOpen os _ _ _) ?_
  refine (Op.keepsOpen_lift _).bind fun made => ?_
  rcases made with _ | e
  · exact Op.keepsOpen_pure ()
  · exact Op.keepsOpen_failFile _ _ _ _

theorem fileRename_keepsOpen (fromRelative toRelative : Bytes) (desireStorage : Option Bytes) :
    (fileRename os.tracing fromRelative toRelative desireStorage).KeepsOpen := by
  refine (buildPathOp_keepsOpen fromRelative).bind fun fromPath => ?_
  refine (buildPathOp_keepsOpen toRelative).bind fun toPath => ?_
  refine (pathStorageMatchesDesire_keepsOpen fromPath.2 desireStorage).bind fun _ => ?_
  refine (pathStorageMatchesDesire_keepsOpen toPath.2 desireStorage).bind fun _ => ?_
  refine (ensureStorageWriteable_keepsOpen os fromPath.2).bind fun _ => ?_
  have hrest : (renameChecked os.tracing fromPath toPath).KeepsOpen := by
    unfold renameChecked
    refine Op.keepsOpen_ite (Op.keepsOpen_failWith _) ?_
    refine Op.keepsOpen_ite (Op.keepsOpen_failWith _) ?_
    refine (Op.keepsOpen_lift _).bind fun moved => ?_
    rcases moved with _ | e
    · exact Op.keepsOpen_pure ()
    · exact Op.keepsOpen_failFile _ _ _ _
  by_cases hstorage : toPath.2 ≠ fromPath.2
  · rw [if_pos hstorage]
    exact (ensureStorageWriteable_keepsOpen os toPath.2).bind fun _ => hrest
  · rw [if_neg hstorage]
    exact hrest

private theorem storageStatvfsOrZero_keepsOpen (path : Bytes) :
    (storageStatvfsOrZero os.tracing path).KeepsOpen := by
  refine (Op.keepsOpen_lift _).bind fun found => ?_
  rcases found with _ | sv
  · exact Op.keepsOpen_pure _
  · exact Op.keepsOpen_pure _

private theorem isSdMounted_keepsOpen : (isSdMounted os.tracing).KeepsOpen := by
  intro p held h
  rw [isSdMounted_run]
  exact ⟨h.mountinfo os, rfl⟩

theorem storageInfoRead_keepsOpen : (storageInfoRead os.tracing).KeepsOpen := by
  refine (storageStatvfsOrZero_keepsOpen os _).bind fun nand => ?_
  refine (isSdMounted_keepsOpen os).bind fun mounted => ?_
  dsimp only
  split_ifs
  · exact (storageStatvfsOrZero_keepsOpen os _).bind fun _ => Op.keepsOpen_pure _
  · exact (Op.keepsOpen_pure _).bind fun _ => Op.keepsOpen_pure _

end OneFrame

/-! ### The streams of sessions -/

/-- The stream a session holds open. A slot that is not used holds none, whatever its record
says. -/
def UploadSession.stream (session : UploadSession) : Option ℕ :=
  if session.used then session.fp else none

private theorem UploadSession.stream_of_used {session : UploadSession} (h : session.used = true) :
    session.stream = session.fp := by
  rw [stream, if_pos h]

private theorem UploadSession.stream_of_free {session : UploadSession} (h : session.used = false) :
    session.stream = none := by
  rw [stream, h]
  rfl

/-- The streams that the sessions of some slots hold open. -/
def streamsOf (sessions : FileOps) (slots : List (Fin maxUploadSessions)) : Finset ℕ :=
  (slots.filterMap fun i => (sessions i).stream).toFinset

/-- The streams of all sessions that are in use. It is what should be open between two
frames. -/
def sessionStreams (sessions : FileOps) : Finset ℕ :=
  streamsOf sessions (List.finRange maxUploadSessions)

private theorem mem_streamsOf {sessions : FileOps} {slots : List (Fin maxUploadSessions)} {fp : ℕ} :
    fp ∈ streamsOf sessions slots ↔ ∃ i ∈ slots, (sessions i).stream = some fp := by
  rw [streamsOf, List.mem_toFinset, List.mem_filterMap]

private theorem streamsOf_cons_none {sessions : FileOps} {slots : List (Fin maxUploadSessions)}
    {i : Fin maxUploadSessions} (h : (sessions i).stream = none) :
    streamsOf sessions (i :: slots) = streamsOf sessions slots := by
  rw [streamsOf, List.filterMap_cons, h, streamsOf]

private theorem streamsOf_cons_some {sessions : FileOps} {slots : List (Fin maxUploadSessions)}
    {i : Fin maxUploadSessions} {fp : ℕ} (h : (sessions i).stream = some fp) :
    streamsOf sessions (i :: slots) = insert fp (streamsOf sessions slots) := by
  rw [streamsOf, List.filterMap_cons, h, List.toFinset_cons, streamsOf]

theorem mem_sessionStreams {sessions : FileOps} {fp : ℕ} :
    fp ∈ sessionStreams sessions ↔ ∃ i, (sessions i).stream = some fp := by
  simp [sessionStreams, mem_streamsOf]

section Table

variable {sessions : FileOps} {i : Fin maxUploadSessions} {record : UploadSession} {fp : ℕ}

/-- Only the streams of the slots matter. -/
private theorem sessionStreams_congr {sessions' : FileOps}
    (h : ∀ j, (sessions' j).stream = (sessions j).stream) :
    sessionStreams sessions' = sessionStreams sessions := by
  ext fp
  simp only [mem_sessionStreams, h]

private theorem stream_update (hstream : record.stream = (sessions i).stream)
    (j : Fin maxUploadSessions) :
    (Function.update sessions i record j).stream = (sessions j).stream := by
  by_cases hji : j = i
  · rw [hji, Function.update_self, hstream]
  · rw [Function.update_of_ne hji]

/-- A session that is stored in a free slot adds its stream. -/
private theorem sessionStreams_update_store (hi : (sessions i).stream = none)
    (hrecord : record.stream = some fp) :
    sessionStreams (Function.update sessions i record) = insert fp (sessionStreams sessions) := by
  ext fp'
  rw [Finset.mem_insert, mem_sessionStreams, mem_sessionStreams]
  constructor
  · rintro ⟨j, hj⟩
    by_cases hji : j = i
    · rw [hji, Function.update_self, hrecord] at hj
      exact .inl (Option.some.inj hj).symm
    · rw [Function.update_of_ne hji] at hj
      exact .inr ⟨j, hj⟩
  · rintro (rfl | ⟨j, hj⟩)
    · exact ⟨i, by rw [Function.update_self, hrecord]⟩
    · have hji : j ≠ i := by
        rintro rfl
        simp [hi] at hj
      exact ⟨j, by rw [Function.update_of_ne hji, hj]⟩

/-- A session that is given up takes its stream away. -/
private theorem sessionStreams_update_release (hu : SlotTable.Unique UploadSession.stream sessions)
    (hi : (sessions i).stream = some fp) (hrecord : record.stream = none) :
    sessionStreams (Function.update sessions i record) = (sessionStreams sessions).erase fp := by
  ext fp'
  rw [Finset.mem_erase, mem_sessionStreams, mem_sessionStreams]
  constructor
  · rintro ⟨j, hj⟩
    have hji : j ≠ i := by
      rintro rfl
      rw [Function.update_self, hrecord] at hj
      simp at hj
    rw [Function.update_of_ne hji] at hj
    refine ⟨?_, j, hj⟩
    rintro rfl
    exact hji (hu hj hi)
  · rintro ⟨hne, j, hj⟩
    have hji : j ≠ i := by
      rintro rfl
      exact hne (Option.some.inj (hj.symm.trans hi))
    exact ⟨j, by rw [Function.update_of_ne hji, hj]⟩

end Table

/-! ### The invariant -/

/-- The open streams are those of the upload sessions, and no two sessions share one. The
second part is what makes closing one of them harmless for the others. -/
structure SessionStreams (p : Proc (Traced σ)) : Prop where
  isOpen : p.os.Open (sessionStreams p.sessions)
  unique : SlotTable.Unique UploadSession.stream p.sessions

section Sessions

variable {p p' : Proc (Traced σ)} {i : Fin maxUploadSessions} {record : UploadSession}
  {transferId : UInt32}

/-- An operation that keeps what is open keeps the invariant. -/
theorem SessionStreams.op (h : SessionStreams p) {x : Op (Traced σ) α} (hx : x.KeepsOpen) :
    SessionStreams (x.run p).2 := by
  obtain ⟨hopen, hsessions⟩ := hx p _ h.isOpen
  refine ⟨?_, ?_⟩
  · rw [hsessions]
    exact hopen
  · rw [hsessions]
    exact h.unique

/-- The streams of the slots stay as they are, and so does what is open. This covers all
changes of a record but those that begin or end a session. -/
theorem SessionStreams.of_stream (h : SessionStreams p)
    (hopen : p'.os.Open (sessionStreams p.sessions))
    (hstream : ∀ j, (p'.sessions j).stream = (p.sessions j).stream) : SessionStreams p' := by
  refine ⟨?_, fun a b fp ha hb => ?_⟩
  · rw [sessionStreams_congr hstream]
    exact hopen
  · rw [hstream] at ha hb
    exact h.unique ha hb

/-- Closing the stream of a session in use leaves open what the table holds without it. The
slot still has the number of the stream then, until it is reset. -/
theorem SessionStreams.closeStream (h : SessionStreams p) (os : Os σ)
    (hused : (p.sessions i).used = true) :
    (closeStream os.tracing (p.sessions i).fp p).os.Open
      (sessionStreams (Function.update p.sessions i {})) := by
  have hstream := UploadSession.stream_of_used hused
  have hfree : ({} : UploadSession).stream = none := rfl
  rcases hfp : (p.sessions i).fp with _ | fp
  · rw [hfp] at hstream
    rw [sessionStreams_congr (stream_update (hfree.trans hstream.symm))]
    exact h.isOpen
  · rw [hfp] at hstream
    rw [sessionStreams_update_release h.unique hstream hfree]
    exact h.isOpen.fclose (mem_sessionStreams.mpr ⟨i, hstream⟩) os

/-- A slot was given back after its stream was closed. -/
theorem SessionStreams.released (h : SessionStreams p)
    (hopen : p'.os.Open (sessionStreams (Function.update p.sessions i {})))
    (hsessions : p'.sessions = Function.update p.sessions i {}) : SessionStreams p' := by
  refine ⟨?_, ?_⟩
  · rw [hsessions]
    exact hopen
  · rw [hsessions]
    exact h.unique.update_release rfl

private theorem findSession_used (h : findSession p.sessions transferId = some i) :
    (p.sessions i).used = true :=
  (UploadSession.key_eq_some_iff.mp (key_of_findSession h)).1

theorem SessionStreams.abort (h : SessionStreams p) (os : Os σ) (transferId : UInt32) :
    SessionStreams ((fileAbortUpload os.tracing transferId).run p).2 := by
  rcases hfind : findSession p.sessions transferId with _ | i
  · rwa [fileAbortUpload_of_none hfind]
  · have hclosed := h.closeStream os (findSession_used hfind)
    rw [fileAbortUpload_of_some hfind]
    refine h.released (i := i) ?_ ?_
    · rw [Proc.setSession_os]
      exact hclosed.lift _
    · rw [Proc.setSession_sessions, unlinkPath_sessions, closeStream_sessions]

theorem SessionStreams.finish (h : SessionStreams p) (os : Os σ) (transferId : UInt32) :
    SessionStreams ((fileFinishUpload os.tracing transferId).run p).2 := by
  rcases hfind : findSession p.sessions transferId with _ | i
  · simp only [fileFinishUpload, hfind]
    exact h.of_stream h.isOpen fun _ => rfl
  refine h.released ?_ (fileFinishUpload_sessions hfind)
  -- none of the calls behind the closing is about a stream
  have hclosed := h.closeStream os (findSession_used hfind)
  have hrenamed := hclosed.lift (os.rename (p.sessions i).tempPath (p.sessions i).finalPath)
  simp only [fileFinishUpload, hfind]
  rcases hmove : os.tracing.rename (p.sessions i).tempPath (p.sessions i).finalPath
    (UsbResponder.closeStream os.tracing (p.sessions i).fp p).os with ⟨_ | e, r⟩
  · have hr : r = _ := (congrArg Prod.snd hmove).symm
    dsimp only
    split_ifs
    · have hchmod := hrenamed.lift (os.chmod (p.sessions i).finalPath (p.sessions i).fileMode)
      rcases hmode : os.tracing.chmod (p.sessions i).finalPath (p.sessions i).fileMode r with
        ⟨_ | e, r'⟩
      · have hr' : r' = _ := (congrArg Prod.snd hmode).symm
        rw [hr', hr]
        exact hchmod
      · have hr' : r' = _ := (congrArg Prod.snd hmode).symm
        rw [hr', hr]
        exact hchmod.lift _
    · rw [hr]
      exact hrenamed
  · have hr : r = _ := (congrArg Prod.snd hmove).symm
    rw [hr]
    exact hrenamed.lift _

theorem SessionStreams.append (h : SessionStreams p) (os : Os σ) (transferId : UInt32)
    (data : Bytes) :
    SessionStreams ((fileAppendUploadChunk os.tracing transferId data).run p).2 := by
  by_cases hdata : data = []
  · simp only [fileAppendUploadChunk, if_pos hdata]
    exact h.of_stream h.isOpen fun _ => rfl
  rcases hfind : findSession p.sessions transferId with _ | i
  · simp only [fileAppendUploadChunk, if_neg hdata, hfind]
    exact h.of_stream h.isOpen fun _ => rfl
  have hused := findSession_used hfind
  rcases hfp : (p.sessions i).fp with _ | fp
  · simp only [fileAppendUploadChunk, if_neg hdata, hfind, hfp]
    exact h.of_stream h.isOpen fun _ => rfl
  have hmem : fp ∈ sessionStreams p.sessions :=
    mem_sessionStreams.mpr ⟨i, (UploadSession.stream_of_used hused).trans hfp⟩
  have hwritten : (os.tracing.fwrite fp data p.os).2.Open (sessionStreams p.sessions) :=
    h.isOpen.onStream hmem fun fd => os.fwrite fd data
  rcases hrun : os.tracing.fwrite fp data p.os with ⟨⟨written, e⟩, r⟩
  have hr : r = _ := (congrArg Prod.snd hrun).symm
  rw [← hr] at hwritten
  simp only [fileAppendUploadChunk, if_neg hdata, hfind, hfp, hrun]
  split_ifs
  · exact h.of_stream hwritten fun _ => rfl
  · -- the stream of the session is flushed and synced as well
    refine h.of_stream ?_ fun j => ?_
    · rw [Proc.setSession_os, uploadPaceWriteback]
      have hflushed := hwritten.onStream hmem os.fflush
      rcases hflush : os.tracing.fflush fp r with ⟨_ | e, r'⟩
      · have hr' : r' = _ := (congrArg Prod.snd hflush).symm
        dsimp only
        rw [hr']
        exact hflushed.onStream hmem os.fsync
      · have hr' : r' = _ := (congrArg Prod.snd hflush).symm
        dsimp only
        rw [hr']
        exact hflushed
    · rw [Proc.setSession_sessions, uploadPaceWriteback_sessions]
      refine stream_update ?_ j
      rw [UploadSession.stream, UploadSession.stream, hfp]
  · refine h.of_stream hwritten fun j => ?_
    rw [Proc.setSession_sessions]
    refine stream_update ?_ j
    rw [UploadSession.stream, UploadSession.stream, hfp]

theorem SessionStreams.beforeBegin (h : SessionStreams p) (os : Os σ) (transferId : UInt32) :
    SessionStreams (beforeBegin os.tracing transferId p) := by
  rw [UsbResponder.beforeBegin]
  rcases findSession p.sessions transferId with _ | i
  · exact h
  · exact h.abort os transferId

/-- Opening the file of an upload comes last, so a begin that is refused leaves nothing
open. -/
theorem SessionStreams.begin (h : SessionStreams p) (os : Os σ) (transferId : UInt32)
    (relativePath : Bytes) (desireStorage perm : Option Bytes) :
    SessionStreams
      ((fileBeginUpload os.tracing transferId relativePath desireStorage perm).run p).2 := by
  obtain ⟨b, hb⟩ : ∃ b, b = UsbResponder.beforeBegin os.tracing transferId p := ⟨_, rfl⟩
  have hbefore : SessionStreams b := hb ▸ h.beforeBegin os transferId
  have hmount : ∀ storage, (os.tracing.afterMountCheck storage b.os).Open
      (sessionStreams b.sessions) := by
    rintro (_ | _)
    · exact hbefore.isOpen
    · exact hbefore.isOpen.mountinfo os
  obtain ⟨-, hrun⟩ | ⟨i, halloc, hslot⟩ :=
    fileBeginUpload_cases os.tracing transferId relativePath desireStorage perm p
  · rw [hrun, ← hb]
    exact hbefore.of_stream hbefore.isOpen fun _ => rfl
  rw [← hb] at halloc hslot
  have hfree : (b.sessions i).stream = none :=
    UploadSession.stream_of_free (UploadSession.key_eq_none_iff.mp (SlotTable.key_of_alloc halloc))
  obtain ⟨record, s, msg, hrecord, -, hrefused, hrun⟩ | ⟨target, fp, s, -, hopen, hrun⟩ := hslot
  · rw [hrun]
    refine hbefore.of_stream ?_ fun j => ?_
    · show s.Open _
      obtain ⟨-, rfl | rfl⟩ | ⟨target, e, -, hopen⟩ := hrefused
      · exact hbefore.isOpen
      · exact hbefore.isOpen.mountinfo os
      · exact (hmount target.storage).opening_error hopen
    · rw [Proc.setLastError_sessions, Proc.setSession_sessions]
      exact stream_update ((UploadSession.stream_of_free hrecord).trans hfree.symm) j
  · obtain ⟨hnew, hopened⟩ := (hmount target.storage).opening_ok hopen
    have hstream : (target.session transferId relativePath fp).stream = some fp := rfl
    rw [hrun]
    refine ⟨?_, ?_⟩
    · rw [Proc.setSession_os, Proc.setSession_sessions, sessionStreams_update_store hfree hstream]
      exact hopened
    · rw [Proc.setSession_sessions]
      exact hbefore.unique.update_store hstream fun j _ hj =>
        hnew (mem_sessionStreams.mpr ⟨j, hj⟩)

/-- **One call of an upload** leaves open exactly the streams of the sessions there are
after it, whatever its outcome. -/
theorem SessionStreams.call (h : SessionStreams p) (os : Os σ) (call : UploadCall) :
    SessionStreams ((call.op os.tracing).run p).2 := by
  rcases call with ⟨transferId, path, desire, perm⟩ | ⟨transferId, data⟩ | transferId | transferId
  · exact h.begin os transferId path desire perm
  · exact h.append os transferId data
  · exact h.finish os transferId
  · exact h.abort os transferId

/-! ### The end -/

/-- **The way out.** Every stream that is still open is closed. -/
theorem SessionStreams.shutdown (h : SessionStreams p) (os : Os σ) :
    (fileOpsShutdown os.tracing p).os.Open ∅ := by
  -- the slots still to come hold what is open
  have hloop : ∀ (slots : List (Fin maxUploadSessions)) (q : Proc (Traced σ)), slots.Nodup →
      q.sessions = p.sessions → q.os.Open (streamsOf p.sessions slots) →
      (slots.foldl (fun q i => if (q.sessions i).used then
        unlinkPath os.tracing (q.sessions i).tempPath
          (UsbResponder.closeStream os.tracing (q.sessions i).fp q) else q) q).os.Open ∅ := by
    intro slots
    induction slots with
    | nil => exact fun q _ _ hopen => hopen
    | cons i slots ih =>
      intro q hnodup hsessions hopen
      obtain ⟨hi, hnodup⟩ := List.nodup_cons.mp hnodup
      rw [List.foldl_cons]
      by_cases hused : (q.sessions i).used = true
      · rw [if_pos hused]
        refine ih _ hnodup ?_ (Traced.Open.lift ?_ _)
        · rw [unlinkPath_sessions, closeStream_sessions, hsessions]
        · rw [hsessions] at hused ⊢
          have hstream := UploadSession.stream_of_used hused
          rcases hfp : (p.sessions i).fp with _ | fp
          · rw [hfp] at hstream
            rwa [streamsOf_cons_none hstream] at hopen
          · rw [hfp] at hstream
            rw [streamsOf_cons_some hstream] at hopen
            have hnot : fp ∉ streamsOf p.sessions slots := by
              rw [mem_streamsOf]
              rintro ⟨j, hj, hsame⟩
              exact hi (h.unique hsame hstream ▸ hj)
            have hclosed := hopen.fclose (Finset.mem_insert_self fp _) os
            rwa [Finset.erase_insert hnot] at hclosed
      · rw [if_neg hused]
        refine ih q hnodup hsessions ?_
        have hnone : (p.sessions i).stream = none :=
          UploadSession.stream_of_free (by rw [← hsessions]; simpa using hused)
        rwa [streamsOf_cons_none hnone] at hopen
  exact hloop _ p (List.nodup_finRange _) rfl h.isOpen

end Sessions

end UsbResponder
