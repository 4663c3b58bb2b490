import UsbResponder.Base.Pacing
import UsbResponder.FileOps.SessionTable

/-!
# The pace of the write-back

A session writes back what it has written whenever a mebibyte has come together since it did
so last, so that the system never has to write back much at once. It counts the bytes
written and those synced in two counters. Here the session functions run on system calls
whose flushes are counted, and beside them stands what every live transfer has taken since
its begin: the size of each chunk, and whether there was a flush in its append. Without the
count a run is the run on the plain system calls (`Observed.unwatched_run`).

After any calls with any outcomes the counters are the sums they should be, and the chunks
are paced (`upload_writeback_paced`). One lemma a call keeps this, and most calls only make
sessions disappear (`LiveElsewhere`).

What it means for chunks to be paced is a fact about lists of numbers and has a module of
its own in the library. The counters are 64-bit; the sums are those of the model's unbounded
numbers as long as no more than `2 ^ 64` bytes were taken in the whole run, which the
results assume. Whether a write-back succeeds plays no role: an attempt is an attempt.
-/

namespace UsbResponder

open Pacing

variable {σ α β : Type}

/-! ### Counting flushes -/

/-- The outside, and how often a stream was flushed. The count is all that is added to it. -/
structure Watched (σ : Type) where
  inner : σ
  flushes : ℕ

/-- A call on the outside. -/
def Watched.lift (call : σ → β × σ) (w : Watched σ) : β × Watched σ :=
  ((call w.inner).1, { w with inner := (call w.inner).2 })

/-- The system calls `os`, with the calls of `fflush` counted. Nothing else about them
changes. -/
def Os.watching (os : Os σ) : Os (Watched σ) where
  strerror := os.strerror
  ulongMax := os.ulongMax
  allocates size w := os.allocates size w.inner
  fopenWb path := Watched.lift (os.fopenWb path)
  fopenRb path := Watched.lift (os.fopenRb path)
  fwrite fp data := Watched.lift (os.fwrite fp data)
  fread fp size := Watched.lift (os.fread fp size)
  fseekEnd fp := Watched.lift (os.fseekEnd fp)
  fseekSet fp := Watched.lift (os.fseekSet fp)
  ftell fp := Watched.lift (os.ftell fp)
  fflush fp w := Watched.lift (os.fflush fp) { w with flushes := w.flushes + 1 }
  fsync fp := Watched.lift (os.fsync fp)
  fclose fp := Watched.lift (os.fclose fp)
  rename fromPath toPath := Watched.lift (os.rename fromPath toPath)
  chmod path mode := Watched.lift (os.chmod path mode)
  unlink path := Watched.lift (os.unlink path)
  mkdir path mode := Watched.lift (os.mkdir path mode)
  rmdir path := Watched.lift (os.rmdir path)
  lstat path := Watched.lift (os.lstat path)
  stat path := Watched.lift (os.stat path)
  opendir path := Watched.lift (os.opendir path)
  fopenMountinfo := Watched.lift os.fopenMountinfo
  fgetsMountinfo fp := Watched.lift (os.fgetsMountinfo fp)
  fcloseMountinfo fp := Watched.lift (os.fcloseMountinfo fp)
  statvfs path := Watched.lift (os.statvfs path)
  getpwuid uid := Watched.lift (os.getpwuid uid)
  getgrgid gid := Watched.lift (os.getgrgid gid)
  uname := Watched.lift os.uname

/-- An attempt to write back flushes the stream once, and fails or goes on. -/
private theorem uploadPaceWriteback_flushes (os : Os σ) (fp : ℕ) (p : Proc (Watched σ)) :
    (uploadPaceWriteback os.watching (some fp) p).os.flushes = p.os.flushes + 1 := by
  rw [uploadPaceWriteback]
  cases hflush : os.watching.fflush fp p.os with
  | mk result w =>
    have hw : w.flushes = p.os.flushes + 1 :=
      (congrArg (fun r => r.2.flushes) hflush).symm
    cases result with
    | none => exact hw
    | some e => exact hw

/-- An append that fails leaves the sessions alone; one that succeeds counts its bytes, and
flushes if that is due. -/
private theorem fileAppendUploadChunk_watching (os : Os σ) (transferId : UInt32) (data : Bytes)
    (p : Proc (Watched σ)) :
    (((fileAppendUploadChunk os.watching transferId data).run p).1 = none ∧
      ((fileAppendUploadChunk os.watching transferId data).run p).2.sessions = p.sessions) ∨
    (((fileAppendUploadChunk os.watching transferId data).run p).1 = some () ∧
      ∃ i, findSession p.sessions transferId = some i ∧
        ((fileAppendUploadChunk os.watching transferId data).run p).2.sessions =
          Function.update p.sessions i ((p.sessions i).taking data) ∧
        (((fileAppendUploadChunk os.watching transferId data).run p).2.os.flushes ≠ p.os.flushes ↔
          (p.sessions i).Due data)) := by
  have hwrite : ∀ fp w, (os.watching.fwrite fp data w).2.flushes = w.flushes := fun _ _ => rfl
  have hpace := uploadPaceWriteback_flushes os
  generalize os.watching = watching at hwrite hpace ⊢
  rw [fileAppendUploadChunk]
  dsimp only
  split_ifs with hdata
  · exact .inl ⟨rfl, rfl⟩
  cases hfind : findSession p.sessions transferId with
  | none => exact .inl ⟨rfl, rfl⟩
  | some i =>
    dsimp only
    cases hfp : (p.sessions i).fp with
    | none => exact .inl ⟨rfl, rfl⟩
    | some fp =>
      have hw := hwrite fp p.os
      dsimp only
      split_ifs with hshort hsync
      · exact .inl ⟨rfl, rfl⟩
      · have hdue : (p.sessions i).Due data := hsync
        refine .inr ⟨rfl, i, rfl, ?_, iff_of_true ?_ hdue⟩
        · rw [Proc.setSession_sessions, uploadPaceWriteback_sessions, UploadSession.taking,
            if_pos hdue, hfp]
        · rw [Proc.setSession_os, hpace]
          change (watching.fwrite fp data p.os).2.flushes + 1 ≠ p.os.flushes
          rw [hw]
          exact Nat.succ_ne_self _
      · have hdue : ¬(p.sessions i).Due data := hsync
        refine .inr ⟨rfl, i, rfl, ?_, iff_of_false (not_not.mpr hw) hdue⟩
        rw [Proc.setSession_sessions, UploadSession.taking, if_neg hdue, hfp]

/-! ### Watching changes nothing -/

/-- The process without the count. -/
def Proc.unwatched (p : Proc (Watched σ)) : Proc σ := ⟨p.sessions, p.lastError, p.os.inner⟩

@[simp] theorem Proc.unwatched_sessions (p : Proc (Watched σ)) :
    p.unwatched.sessions = p.sessions := rfl

/-- `x'` does what `x` does, and may count. So every result about `x` is one about `x'` too. -/
def Op.Watches (x' : Op (Watched σ) α) (x : Op σ α) : Prop :=
  ∀ p, x.run p.unwatched = ((x'.run p).1, (x'.run p).2.unwatched)

theorem Op.Watches.bind {x' : Op (Watched σ) α} {x : Op σ α} {f' : α → Op (Watched σ) β}
    {f : α → Op σ β} (hx : x'.Watches x) (hf : ∀ a, (f' a).Watches (f a)) :
    (x' >>= f').Watches (x >>= f) := by
  intro p
  have hrun := hx p
  rcases hrun' : x'.run p with ⟨_ | a, q⟩
  · rw [hrun'] at hrun
    rw [Op.run_bind_of_none hrun, Op.run_bind_of_none hrun']
  · rw [hrun'] at hrun
    rw [Op.run_bind_of_some hrun, Op.run_bind_of_some hrun']
    exact hf a q

section Watching

variable (os : Os σ)

private theorem isSdMounted_watches : (isSdMounted os.watching).Watches (isSdMounted os) := by
  intro p
  have hread : (readMountinfoSd os.watching pathMaxLen).Watches
      (readMountinfoSd os pathMaxLen) := by
    have hsys : ∀ {β : Type} (call : σ → β × σ),
        (Op.sys (Watched.lift call)).Watches (Op.sys call) := fun _ _ => rfl
    refine (hsys os.fopenMountinfo).bind fun opened => ?_
    cases opened with
    | error e => exact fun _ => rfl
    | ok fp =>
      refine (hsys (os.fgetsMountinfo fp)).bind fun lines => ?_
      refine (hsys (os.fcloseMountinfo fp)).bind fun _ => ?_
      cases lines.findSome? mountinfoLineSource with
      | none => exact fun _ => rfl
      | some source => exact fun _ => rfl
  have hrun := hread p
  simp only [isSdMounted, hrun]

private theorem checkUploadStorage_watches (storage : Except Bytes Storage)
    (desireStorage : Option Bytes) : (checkUploadStorage os.watching storage desireStorage).Watches
      (checkUploadStorage os storage desireStorage) := by
  cases storage with
  | error msg => exact fun _ => rfl
  | ok storage =>
    have hdesire : (pathStorageMatchesDesire storage desireStorage : Op (Watched σ) Unit).Watches
        (pathStorageMatchesDesire storage desireStorage) := by
      intro p
      unfold pathStorageMatchesDesire
      cases desireStorage with
      | none => rfl
      | some desire =>
        dsimp only
        split_ifs
        · rfl
        · cases storageFromName desire with
          | none => rfl
          | some desired =>
            dsimp only
            split_ifs <;> rfl
    refine hdesire.bind fun _ => ?_
    cases storage with
    | nand => exact fun _ => rfl
    | sd =>
      refine (isSdMounted_watches os).bind fun mounted => ?_
      cases mounted <;> exact fun _ => rfl

private theorem setSessionPerm_watches (perm : Option Bytes) (session : UploadSession) :
    (setSessionPerm os.watching perm session).Watches (setSessionPerm os perm session) := by
  unfold setSessionPerm
  cases perm with
  | none => exact fun _ => rfl
  | some perm =>
    dsimp only
    split_ifs
    · exact fun _ => rfl
    · have hparse : (parsePermOctal os.watching perm).Watches (parsePermOctal os perm) := by
        have hmax : os.watching.ulongMax = os.ulongMax := rfl
        unfold parsePermOctal
        rw [hmax]
        cases CString.strtoul8 os.ulongMax perm with
        | none => exact fun _ => rfl
        | some r =>
          dsimp only
          split_ifs
          · exact fun _ => rfl
          · exact fun _ => rfl
      exact hparse.bind fun _ _ => rfl

private theorem closeStream_unwatched (fp : Option ℕ) (p : Proc (Watched σ)) :
    closeStream os fp p.unwatched = (closeStream os.watching fp p).unwatched := by
  cases fp <;> rfl

private theorem uploadPaceWriteback_unwatched (fp : Option ℕ) (p : Proc (Watched σ)) :
    uploadPaceWriteback os fp p.unwatched = (uploadPaceWriteback os.watching fp p).unwatched := by
  cases fp with
  | none => rfl
  | some fp =>
    have hflush : os.watching.fflush fp p.os =
        ((os.fflush fp p.os.inner).1, ⟨(os.fflush fp p.os.inner).2, p.os.flushes + 1⟩) := rfl
    have hos : p.unwatched.os = p.os.inner := rfl
    rw [uploadPaceWriteback, uploadPaceWriteback, hflush, hos]
    rcases os.fflush fp p.os.inner with ⟨_ | e, s⟩
    · rfl
    · rfl

private theorem fileAbortUpload_watches (transferId : UInt32) :
    (fileAbortUpload os.watching transferId).Watches (fileAbortUpload os transferId) := by
  intro p
  simp only [fileAbortUpload, Proc.unwatched_sessions]
  cases findSession p.sessions transferId with
  | none => rfl
  | some i =>
    dsimp only
    rw [closeStream_unwatched]
    rfl

private theorem beginSession_watches (i : Fin maxUploadSessions) (transferId : UInt32)
    (relativePath : Bytes) (desireStorage perm : Option Bytes) :
    (beginSession os.watching i transferId relativePath desireStorage perm).Watches
      (beginSession os i transferId relativePath desireStorage perm) := by
  intro p
  have hset := setSessionPerm_watches os perm
    { p.sessions i with applyPerm := false, fileMode := 0o644 } p
  simp only [beginSession, Proc.unwatched_sessions]
  rw [hset]
  rcases (setSessionPerm os.watching perm _).run p with ⟨_ | session, q⟩
  · rfl
  dsimp only
  rw [checkUploadStorage_watches os _ _ q]
  rcases (checkUploadStorage os.watching (buildPath relativePath pathMaxLen).2 desireStorage).run q
    with ⟨_ | u, q'⟩
  · rfl
  dsimp only
  split_ifs
  · rfl
  · rfl
  · have hopen : ∀ path, os.watching.fopenWb path q'.os =
        ((os.fopenWb path q'.unwatched.os).1,
          ⟨(os.fopenWb path q'.unwatched.os).2, q'.os.flushes⟩) := fun _ => rfl
    rw [hopen]
    rcases os.fopenWb _ q'.unwatched.os with ⟨e | fp, s⟩
    · rfl
    · rfl

private theorem fileBeginUpload_watches (transferId : UInt32) (relativePath : Bytes)
    (desireStorage perm : Option Bytes) :
    (fileBeginUpload os.watching transferId relativePath desireStorage perm).Watches
      (fileBeginUpload os transferId relativePath desireStorage perm) := by
  intro p
  have hbefore : beforeBegin os transferId p.unwatched =
      (beforeBegin os.watching transferId p).unwatched := by
    have habort := fileAbortUpload_watches os transferId p
    rw [beforeBegin, beforeBegin, Proc.unwatched_sessions, habort]
    cases findSession p.sessions transferId with
    | none => rfl
    | some i => rfl
  rcases halloc : SlotTable.alloc UploadSession.key
      (beforeBegin os.watching transferId p).sessions with _ | i
  · rw [fileBeginUpload_of_full transferId desireStorage perm halloc,
      fileBeginUpload_of_full transferId desireStorage perm (by rw [hbefore]; exact halloc),
      hbefore]
    rfl
  · rw [fileBeginUpload_of_slot i transferId desireStorage perm halloc,
      fileBeginUpload_of_slot i transferId desireStorage perm (by rw [hbefore]; exact halloc),
      hbefore]
    exact beginSession_watches os i transferId relativePath desireStorage perm
      ((beforeBegin os.watching transferId p).setSession i
        { (beforeBegin os.watching transferId p).sessions i with used := true })

private theorem fileAppendUploadChunk_watches (transferId : UInt32) (data : Bytes) :
    (fileAppendUploadChunk os.watching transferId data).Watches
      (fileAppendUploadChunk os transferId data) := by
  intro p
  rw [fileAppendUploadChunk, fileAppendUploadChunk]
  by_cases hdata : data = []
  · simp only [if_pos hdata]
    rfl
  rcases hfind : findSession p.sessions transferId with _ | i
  · simp only [Proc.unwatched_sessions, hfind, if_neg hdata]
    rfl
  rcases hfp : (p.sessions i).fp with _ | fp
  · simp only [Proc.unwatched_sessions, hfind, hfp, if_neg hdata]
    rfl
  rcases hwrite : os.fwrite fp data p.unwatched.os with ⟨⟨written, e⟩, s⟩
  have hwrite' : os.watching.fwrite fp data p.os = ((written, e), ⟨s, p.os.flushes⟩) :=
    congrArg (fun r => (r.1, (⟨r.2, p.os.flushes⟩ : Watched σ))) hwrite
  have hpace := uploadPaceWriteback_unwatched os (some fp) { p with os := ⟨s, p.os.flushes⟩ }
  simp only [Proc.unwatched_sessions, hfind, hfp, hwrite, hwrite', if_neg hdata]
  split_ifs
  · rfl
  · exact congrArg (fun q => (some (), Proc.setSession q i _)) hpace
  · rfl

private theorem fileFinishUpload_watches (transferId : UInt32) :
    (fileFinishUpload os.watching transferId).Watches (fileFinishUpload os transferId) := by
  intro p
  rw [fileFinishUpload, fileFinishUpload]
  dsimp only
  rw [Proc.unwatched_sessions]
  cases findSession p.sessions transferId with
  | none => rfl
  | some i =>
    dsimp only
    rw [closeStream_unwatched]
    generalize closeStream os.watching (p.sessions i).fp p = q
    have hrename : ∀ fromPath toPath, os.watching.rename fromPath toPath q.os =
        ((os.rename fromPath toPath q.unwatched.os).1,
          ⟨(os.rename fromPath toPath q.unwatched.os).2, q.os.flushes⟩) := fun _ _ => rfl
    rw [hrename]
    rcases os.rename _ _ q.unwatched.os with ⟨_ | e, s⟩
    · dsimp only
      split_ifs
      · have hchmod : ∀ path mode, os.watching.chmod path mode ⟨s, q.os.flushes⟩ =
            ((os.chmod path mode s).1, ⟨(os.chmod path mode s).2, q.os.flushes⟩) := fun _ _ => rfl
        rw [hchmod]
        rcases os.chmod _ _ s with ⟨_ | e, s'⟩
        · rfl
        · rfl
      · rfl
    · rfl

private theorem UploadCall.op_watches (c : UploadCall) : (c.op os.watching).Watches (c.op os) := by
  cases c with
  | «begin» transferId relativePath desireStorage perm =>
    exact fileBeginUpload_watches os transferId relativePath desireStorage perm
  | append transferId data => exact fileAppendUploadChunk_watches os transferId data
  | finish transferId => exact fileFinishUpload_watches os transferId
  | abort transferId => exact fileAbortUpload_watches os transferId

end Watching

/-! ### What the transfers have taken -/

/-- The chunks each live transfer has taken since its begin. -/
abbrev PortionMap := UInt32 → Option (List Portion)

/-- What a call with its result, and whether it flushed, does to the chunks: a begin that
succeeds starts a list, an append that succeeds adds to it, and what ends a transfer removes
it. -/
def UploadCall.note (result : Option Unit) (flushed : Bool) (portions : PortionMap) :
    UploadCall → PortionMap
  | .begin transferId .. => Function.update portions transferId (result.map fun _ => [])
  | .append transferId data =>
    match result with
    | none => portions
    | some () => Function.update portions transferId
        ((portions transferId).map (· ++ [⟨data.length, flushed⟩]))
  | .finish transferId => Function.update portions transferId none
  | .abort transferId => Function.update portions transferId none

/-- The bytes a call with its result has taken: those of a chunk that was accepted, and none
otherwise. -/
def UploadCall.taken : UploadCall → Option Unit → ℕ
  | .append _ data, some () => data.length
  | _, _ => 0

/-- The process, and what it has taken. -/
structure Observed (σ : Type) where
  proc : Proc (Watched σ)
  portions : PortionMap
  /-- The bytes of all chunks that were taken. -/
  taken : ℕ

namespace Observed

/-- One call. -/
def call (os : Os σ) (o : Observed σ) (c : UploadCall) : Observed σ :=
  let r := (c.op os.watching).run o.proc
  { proc := r.2
    portions := c.note r.1 (r.2.os.flushes ≠ o.proc.os.flushes) o.portions
    taken := o.taken + c.taken r.1 }

/-- A run of calls, each whether the ones before it succeeded or not. -/
def run (os : Os σ) (calls : List UploadCall) (o : Observed σ) : Observed σ :=
  calls.foldl (call os) o

/-- The state `file_ops_init` leaves. -/
def init (lastError : Bytes) (s : σ) : Observed σ where
  proc := ⟨fileOpsInit, lastError, ⟨s, 0⟩⟩
  portions := fun _ => none
  taken := 0

private theorem taken_le_run (os : Os σ) (calls : List UploadCall) (o : Observed σ) :
    o.taken ≤ (o.run os calls).taken := by
  induction calls generalizing o with
  | nil => exact le_rfl
  | cons c calls ih => exact (Nat.le_add_right ..).trans (ih (o.call os c))

end Observed

/-- **Observing changes nothing**: without the count, the process is the one after the
calls. -/
theorem Observed.unwatched_run (os : Os σ) (calls : List UploadCall) (o : Observed σ) :
    (o.run os calls).proc.unwatched = runCalls os calls o.proc.unwatched := by
  induction calls generalizing o with
  | nil => rfl
  | cons c calls ih =>
    have hcall : ((c.op os).run o.proc.unwatched).2 = (o.call os c).proc.unwatched :=
      congrArg Prod.snd (c.op_watches os o.proc)
    calc ((o.call os c).run os calls).proc.unwatched
        = runCalls os calls (o.call os c).proc.unwatched := ih (o.call os c)
      _ = runCalls os calls ((c.op os).run o.proc.unwatched).2 := by rw [hcall]

/-! ### Sessions that disappear -/

/-- Every session that is live afterwards was live before, of another transfer than the
given one. A begin, a finish and an abort all do this before anything else. -/
def LiveElsewhere (sessions sessions' : FileOps) (transferId : UInt32) : Prop :=
  ∀ j, (sessions' j).used = true →
    sessions' j = sessions j ∧ (sessions j).transferId ≠ transferId

section Elsewhere

variable {os : Os σ} {p : Proc σ} {transferId : UInt32}

/-- A call that resets the slot of its transfer, if there is one. -/
private theorem SessionsOk.liveElsewhere {sessions sessions' : FileOps} (h : SessionsOk sessions)
    (hnone : findSession sessions transferId = none → sessions' = sessions)
    (hsome : ∀ i, findSession sessions transferId = some i →
      sessions' = Function.update sessions i {}) :
    LiveElsewhere sessions sessions' transferId := by
  intro j hj
  cases hfind : findSession sessions transferId with
  | none =>
    rw [hnone hfind] at hj ⊢
    refine ⟨rfl, fun hid => SlotTable.find_eq_none_iff.mp hfind j ?_⟩
    exact UploadSession.key_eq_some_iff.mpr ⟨hj, hid⟩
  | some i =>
    rw [hsome i hfind] at hj ⊢
    by_cases hji : j = i
    · rw [hji, Function.update_self] at hj
      exact absurd hj Bool.false_ne_true
    · rw [Function.update_of_ne hji] at hj ⊢
      refine ⟨rfl, fun hid => hji (h.unique ?_ (key_of_findSession hfind))⟩
      exact UploadSession.key_eq_some_iff.mpr ⟨hj, hid⟩

private theorem SessionsOk.abort_elsewhere (h : SessionsOk p.sessions) :
    LiveElsewhere p.sessions ((fileAbortUpload os transferId).run p).2.sessions transferId := by
  refine h.liveElsewhere (fun hfind => ?_) fun i hfind => ?_
  · rw [fileAbortUpload_of_none hfind]
  · rw [fileAbortUpload_of_some hfind, Proc.setSession_sessions, unlinkPath_sessions,
      closeStream_sessions]

private theorem SessionsOk.finish_elsewhere (h : SessionsOk p.sessions) :
    LiveElsewhere p.sessions ((fileFinishUpload os transferId).run p).2.sessions transferId := by
  refine h.liveElsewhere (fun hfind => ?_) fun i hfind => fileFinishUpload_sessions hfind
  simp only [fileFinishUpload, hfind, Proc.setLastError_sessions]

private theorem SessionsOk.beforeBegin_elsewhere (h : SessionsOk p.sessions) :
    LiveElsewhere p.sessions (UsbResponder.beforeBegin os transferId p).sessions transferId := by
  refine h.liveElsewhere (fun hfind => ?_) fun i hfind => ?_
  · rw [UsbResponder.beforeBegin, hfind]
  · rw [UsbResponder.beforeBegin, hfind]
    dsimp only
    rw [fileAbortUpload_of_some hfind, Proc.setSession_sessions, unlinkPath_sessions,
      closeStream_sessions]

/-- What a begin leaves: besides sessions of other transfers there is the one it has begun. -/
private theorem SessionsOk.begin_elsewhere (h : SessionsOk p.sessions) (os : Os σ)
    (transferId : UInt32) (relativePath : Bytes) (desireStorage perm : Option Bytes) :
    let r := (fileBeginUpload os transferId relativePath desireStorage perm).run p
    (r.1 = none ∧ LiveElsewhere p.sessions r.2.sessions transferId) ∨
    (r.1 = some () ∧ ∃ i, (r.2.sessions i).transferId = transferId ∧
      (r.2.sessions i).bytesWritten = 0 ∧ (r.2.sessions i).syncedBytes = 0 ∧
      ∀ j, j ≠ i → (r.2.sessions j).used = true →
        r.2.sessions j = p.sessions j ∧ (p.sessions j).transferId ≠ transferId) := by
  intro r
  have hbefore : LiveElsewhere p.sessions
      (UsbResponder.beforeBegin os transferId p).sessions transferId := h.beforeBegin_elsewhere
  obtain ⟨-, hrun⟩ | ⟨i, -, hslot⟩ :=
    fileBeginUpload_cases os transferId relativePath desireStorage perm p
  · left
    have hr : r = _ := hrun
    rw [hr]
    exact ⟨rfl, hbefore⟩
  obtain ⟨record, s, msg, hrecord, -, -, hrun⟩ | ⟨target, fp, s, -, -, hrun⟩ := hslot
  · left
    have hr : r = _ := hrun
    rw [hr]
    refine ⟨rfl, fun j hj => ?_⟩
    rw [Proc.setLastError_sessions, Proc.setSession_sessions] at hj ⊢
    by_cases hji : j = i
    · rw [hji, Function.update_self, hrecord] at hj
      exact absurd hj Bool.false_ne_true
    · rw [Function.update_of_ne hji] at hj ⊢
      exact hbefore j hj
  · right
    have hr : r = _ := hrun
    rw [hr]
    have hself : Function.update (UsbResponder.beforeBegin os transferId p).sessions i
        (target.session transferId relativePath fp) i = target.session transferId relativePath fp :=
      Function.update_self ..
    refine ⟨rfl, i, ?_, ?_, ?_, fun j hji hj => ?_⟩
    · rw [Proc.setSession_sessions, hself]
      rfl
    · rw [Proc.setSession_sessions, hself]
      rfl
    · rw [Proc.setSession_sessions, hself]
      rfl
    · rw [Proc.setSession_sessions, Function.update_of_ne hji] at hj ⊢
      exact hbefore j hj

end Elsewhere

/-! ### The invariant -/

/-- The counters of a session stand for the chunks, which are paced: one is the sum of all
of them, the other the sum up to the last attempt to write back. -/
structure UploadSession.Counts (session : UploadSession) (portions : List Portion) : Prop where
  written : session.bytesWritten.toNat = total portions
  synced : session.syncedBytes.toNat + pending portions = total portions
  paced : Paced (2 ^ 20) portions

/-- The counters of every live session stand for what its transfer has taken. -/
structure Observed.InPace (o : Observed σ) : Prop where
  ok : SessionsOk o.proc.sessions
  live : ∀ i, (o.proc.sessions i).used = true →
    ∃ portions, o.portions (o.proc.sessions i).transferId = some portions ∧
      (o.proc.sessions i).Counts portions
  taken : ∀ transferId portions, o.portions transferId = some portions → total portions ≤ o.taken

/-- A fresh session has taken nothing. -/
private theorem UploadSession.counts_nil {session : UploadSession}
    (hwritten : session.bytesWritten = 0)
    (hsynced : session.syncedBytes = 0) : session.Counts [] where
  written := by rw [hwritten]; rfl
  synced := by rw [hsynced]; rfl
  paced := paced_nil

section Counts

variable {session : UploadSession} {portions : List Portion} {data : Bytes}

private theorem UploadSession.Counts.synced_le (h : session.Counts portions) :
    session.syncedBytes ≤ session.bytesWritten := by
  rw [UInt64.le_iff_toNat_le, h.written]
  have hsynced := h.synced
  omega

/-- **One chunk.** A session that takes a chunk still counts, and writes back when it is
due. -/
theorem UploadSession.Counts.taking (h : session.Counts portions)
    (hfits : total portions + data.length < 2 ^ 64) :
    (session.taking data).Counts (portions ++ [⟨data.length, decide (session.Due data)⟩]) := by
  have hwritten : (session.bytesWritten + UInt64.ofNat data.length).toNat =
      total portions + data.length := by
    have hsize : data.length < UInt64.size := (Nat.le_add_left ..).trans_lt hfits
    rw [UInt64.toNat_add, UInt64.toNat_ofNat_of_lt' hsize, h.written, Nat.mod_eq_of_lt hfits]
  have hle : session.syncedBytes ≤ session.bytesWritten + UInt64.ofNat data.length := by
    have hsynced := h.synced
    rw [UInt64.le_iff_toNat_le, hwritten]
    omega
  have hdue : session.Due data ↔ 2 ^ 20 ≤ pending portions + data.length := by
    have hinterval : uploadSyncInterval.toNat = 2 ^ 20 := by decide
    have hsynced := h.synced
    rw [UploadSession.Due, UInt64.le_iff_toNat_le, UInt64.toNat_sub_of_le _ _ hle, hwritten,
      hinterval]
    omega
  refine ⟨?_, ?_, h.paced.append (decide_eq_true_iff.trans hdue)⟩
  · rw [total_append, total_singleton]
    exact hwritten
  · rw [total_append, total_singleton, pending_append_singleton, UploadSession.taking]
    dsimp only
    by_cases hnow : session.Due data
    · rw [if_pos hnow, if_pos (decide_eq_true hnow), hwritten, Nat.add_zero]
    · rw [if_neg hnow, if_neg (by simpa using hnow), ← Nat.add_assoc, h.synced]

end Counts

section Calls

variable {os : Os σ} {o : Observed σ} {transferId : UInt32}

/-- A session of another transfer that a call leaves alone. -/
private theorem Observed.InPace.unchanged (h : o.InPace) {session : UploadSession}
    {j : Fin maxUploadSessions} (hused : session.used = true)
    (hsame : session = o.proc.sessions j) (hother : (o.proc.sessions j).transferId ≠ transferId)
    (chunks : Option (List Portion)) :
    ∃ portions, Function.update o.portions transferId chunks session.transferId = some portions ∧
      session.Counts portions := by
  rw [hsame] at hused ⊢
  rw [Function.update_of_ne hother]
  exact h.live j hused

/-- What was taken bounds the chunks of every transfer if it bounds those of the one that
changes. -/
private theorem Observed.InPace.total_le (h : o.InPace) {chunks : Option (List Portion)} {taken : ℕ}
    (hle : o.taken ≤ taken) (hchunks : ∀ portions, chunks = some portions → total portions ≤ taken)
    (id : UInt32) (portions : List Portion)
    (hportions : Function.update o.portions transferId chunks id = some portions) :
    total portions ≤ taken := by
  by_cases hid : id = transferId
  · rw [hid, Function.update_self] at hportions
    exact hchunks portions hportions
  · rw [Function.update_of_ne hid] at hportions
    exact (h.taken id portions hportions).trans hle

/-- A call that makes at most the session of its transfer disappear. -/
theorem Observed.InPace.elsewhere (h : o.InPace) {p' : Proc (Watched σ)}
    (hok : SessionsOk p'.sessions) (hlive : LiveElsewhere o.proc.sessions p'.sessions transferId) :
    (⟨p', Function.update o.portions transferId none, o.taken⟩ : Observed σ).InPace where
  ok := hok
  live j hj := h.unchanged hj (hlive j hj).1 (hlive j hj).2 none
  taken := h.total_le le_rfl fun _ hnone => absurd hnone.symm (Option.some_ne_none _)

/-- A begin that succeeds. -/
theorem Observed.InPace.begun (h : o.InPace) {p' : Proc (Watched σ)} {i : Fin maxUploadSessions}
    (hok : SessionsOk p'.sessions) (hid : (p'.sessions i).transferId = transferId)
    (hwritten : (p'.sessions i).bytesWritten = 0) (hsynced : (p'.sessions i).syncedBytes = 0)
    (hrest : ∀ j, j ≠ i → (p'.sessions j).used = true →
      p'.sessions j = o.proc.sessions j ∧ (o.proc.sessions j).transferId ≠ transferId) :
    (⟨p', Function.update o.portions transferId (some []), o.taken⟩ : Observed σ).InPace := by
  constructor
  · exact hok
  · intro j hj
    by_cases hji : j = i
    · subst hji
      refine ⟨[], ?_, UploadSession.counts_nil hwritten hsynced⟩
      dsimp only
      rw [hid, Function.update_self]
    · obtain ⟨hsame, hother⟩ := hrest j hji hj
      exact h.unchanged hj hsame hother (some [])
  · refine h.total_le le_rfl fun portions hportions => ?_
    obtain rfl := Option.some.inj hportions
    exact Nat.zero_le _

/-- An append that succeeds. -/
theorem Observed.InPace.appended (h : o.InPace) {p' : Proc (Watched σ)} {data : Bytes}
    {i : Fin maxUploadSessions} (hok : SessionsOk p'.sessions)
    (hfind : findSession o.proc.sessions transferId = some i)
    (hsessions : p'.sessions =
      Function.update o.proc.sessions i ((o.proc.sessions i).taking data))
    (hflushed : p'.os.flushes ≠ o.proc.os.flushes ↔ (o.proc.sessions i).Due data)
    (hfits : o.taken + data.length < 2 ^ 64) :
    (⟨p', Function.update o.portions transferId ((o.portions transferId).map
        (· ++ [⟨data.length, p'.os.flushes ≠ o.proc.os.flushes⟩])),
      o.taken + data.length⟩ : Observed σ).InPace := by
  obtain ⟨hused, hkey⟩ := UploadSession.key_eq_some_iff.mp (key_of_findSession hfind)
  obtain ⟨portions, hportions, hcounts⟩ := h.live i hused
  rw [hkey] at hportions
  have htotal := h.taken transferId portions hportions
  rw [hportions, Option.map_some, decide_eq_decide.mpr hflushed]
  constructor
  · exact hok
  · intro j hj
    dsimp only at hj ⊢
    rw [hsessions] at hj ⊢
    by_cases hji : j = i
    · subst hji
      have hid : ((o.proc.sessions j).taking data).transferId = transferId := hkey
      rw [Function.update_self, hid, Function.update_self]
      exact ⟨_, rfl, hcounts.taking (by omega)⟩
    · rw [Function.update_of_ne hji] at hj
      -- no two live sessions have the transfer
      have hother : (o.proc.sessions j).transferId ≠ transferId := fun hid =>
        hji (h.ok.unique (UploadSession.key_eq_some_iff.mpr ⟨hj, hid⟩) (key_of_findSession hfind))
      rw [Function.update_of_ne hji]
      exact h.unchanged hj rfl hother _
  · refine h.total_le (Nat.le_add_right ..) fun portions' hportions' => ?_
    obtain rfl := Option.some.inj hportions'
    rw [total_append, total_singleton]
    exact Nat.add_le_add_right htotal _

/-- **One call** keeps the counters. -/
theorem Observed.InPace.call (h : o.InPace) (os : Os σ) (c : UploadCall)
    (hfits : (o.call os c).taken < 2 ^ 64) : (o.call os c).InPace := by
  have hok := (h.ok.call os.watching c).1
  cases c with
  | «begin» transferId relativePath desireStorage perm =>
    obtain ⟨hres, hlive⟩ | ⟨hres, i, hid, hwritten, hsynced, hrest⟩ :=
      h.ok.begin_elsewhere os.watching transferId relativePath desireStorage perm
    · simp only [Observed.call, UploadCall.note, UploadCall.taken, UploadCall.op, hres]
      exact h.elsewhere hok hlive
    · simp only [Observed.call, UploadCall.note, UploadCall.taken, UploadCall.op, hres]
      exact h.begun hok hid hwritten hsynced hrest
  | append transferId data =>
    obtain ⟨hres, hsessions⟩ | ⟨hres, i, hfind, hsessions, hflushed⟩ :=
      fileAppendUploadChunk_watching os transferId data o.proc
    · simp only [Observed.call, UploadCall.note, UploadCall.taken, UploadCall.op, hres]
      exact ⟨hok, hsessions ▸ h.live, h.taken⟩
    · simp only [Observed.call, UploadCall.note, UploadCall.taken, UploadCall.op, hres] at hfits ⊢
      exact h.appended hok hfind hsessions hflushed hfits
  | finish transferId => exact h.elsewhere hok h.ok.finish_elsewhere
  | abort transferId => exact h.elsewhere hok h.ok.abort_elsewhere

/-- The counters stand for what was taken after any calls. -/
theorem Observed.InPace.run (h : o.InPace) (os : Os σ) (calls : List UploadCall)
    (hfits : (o.run os calls).taken < 2 ^ 64) : (o.run os calls).InPace := by
  induction calls generalizing o with
  | nil => exact h
  | cons c calls ih =>
    exact ih (h.call os c ((Observed.taken_le_run os calls _).trans_lt hfits)) hfits

private theorem Observed.inPace_init (lastError : Bytes) (s : σ) :
    (Observed.init lastError s).InPace where
  ok := SessionsOk.init
  live := fun _ hused => absurd hused Bool.false_ne_true
  taken := fun _ _ hportions => absurd hportions.symm (Option.some_ne_none _)

end Calls

/-! ### The pace -/

/-- **The write-back keeps its pace.** Take any calls from the state `file_ops_init` leaves,
with any outcomes of the system calls. The counter of a live session is the sum of the
chunks taken since its begin; the counter of synced bytes is not above it, and less than a
mebibyte below; and from one attempt to write back, or the begin, to the next one less than
a mebibyte and the last chunk are taken. -/
theorem upload_writeback_paced (os : Os σ) (lastError : Bytes) (s : σ) (calls : List UploadCall)
    (hfits : ((Observed.init lastError s).run os calls).taken < 2 ^ 64) :
    let o := (Observed.init lastError s).run os calls
    ∀ i, (o.proc.sessions i).used = true →
      ∃ portions, o.portions (o.proc.sessions i).transferId = some portions ∧
        (o.proc.sessions i).bytesWritten.toNat = total portions ∧
        (o.proc.sessions i).syncedBytes ≤ (o.proc.sessions i).bytesWritten ∧
        (o.proc.sessions i).bytesWritten.toNat - (o.proc.sessions i).syncedBytes.toNat < 2 ^ 20 ∧
        ∀ before between portion after, portions = before ++ between ++ portion :: after →
          (∀ p ∈ before.getLast?, p.acted = true) → (∀ p ∈ between, p.acted = false) →
          total (between ++ [portion]) < 2 ^ 20 + portion.amount ∧
          (portion.acted = true ↔ 2 ^ 20 ≤ total (between ++ [portion])) := by
  intro o i hused
  have hpace : o.InPace := (Observed.inPace_init lastError s).run os calls hfits
  obtain ⟨portions, hportions, hcounts⟩ := hpace.live i hused
  refine ⟨portions, hportions, hcounts.written, hcounts.synced_le, ?_, ?_⟩
  · have hpending := hcounts.paced.pending_lt (by decide)
    have hwritten := hcounts.written
    have hsynced := hcounts.synced
    omega
  · intro before between portion after hsplit hlast hbetween
    obtain ⟨hlt, hiff⟩ := hcounts.paced.between (by decide) hsplit hlast hbetween
    rw [total_append, total_singleton]
    exact ⟨Nat.add_lt_add_right hlt _, hiff⟩

/-- System calls that open and write. -/
def writingOs : Os Unit :=
  { Os.failing Unit with
    fopenWb := fun _ s => (.ok 3, s)
    fwrite := fun _ data s => ((data.length, 0), s) }

/-- An upload that has taken a chunk. -/
theorem upload_writeback_paced_one :
    let o := (Observed.init [] ()).run writingOs
      [.begin 1 (utf8 "a") none none, .append 1 [1, 2]]
    let i : Fin maxUploadSessions := ⟨0, by decide⟩
    (o.proc.sessions i).used = true ∧
      ∃ portions, o.portions (o.proc.sessions i).transferId = some portions ∧
        (o.proc.sessions i).bytesWritten.toNat = total portions ∧
        (o.proc.sessions i).syncedBytes ≤ (o.proc.sessions i).bytesWritten := by
  intro o i
  have hused : (o.proc.sessions i).used = true := by decide +kernel
  obtain ⟨portions, hportions, hwritten, hsynced, -, -⟩ := upload_writeback_paced writingOs [] ()
    [.begin 1 (utf8 "a") none none, .append 1 [1, 2]] (by decide +kernel) i hused
  exact ⟨hused, portions, hportions, hwritten, hsynced⟩

end UsbResponder
