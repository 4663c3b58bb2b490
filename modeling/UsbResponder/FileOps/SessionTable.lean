import UsbResponder.FileOps.Upload

/-!
# The session table as a finite map

The abstract side of the upload sessions is a partial map from transfer ids to uploads in
progress (`TransferMap`), and `UploadCall.Effect` says what each of the four session
functions does to it. The array of sixteen records stands for the map `transfers`, in which
an id is looked up by searching the array.

`sessions_refine_map` is the refinement: after any calls from `file_ops_init`, with any
outcomes of the system calls, every call has its effect on the map. It rests on one
invariant, `SessionsOk`, and on the library of slot tables; the work is one lemma a
function, saying which slot it writes.

A begin is the hard case. It aborts an old session of its id, takes the first free slot, and
gives the slot back on each of its failing exits, at some of which the record has been
written in part already; the record that is left there is free, so the map does not see it
(`transfers_free`). The files behind the sessions are the subject of `FileOps.OpenUpload`
and `FileOps.TempFiles`.
-/

namespace UsbResponder

open CString

variable {σ : Type} {os : Os σ} {p : Proc σ}

/-! ### The invariant -/

/-- No transfer id is live twice, and every slot in use has an open stream. This is the
invariant of the table between any two calls. -/
structure SessionsOk (sessions : FileOps) : Prop where
  unique : SlotTable.Unique UploadSession.key sessions
  isOpen : ∀ i, (sessions i).used = true → (sessions i).fp ≠ none

/-- The table `file_ops_init` leaves is empty, so there is nothing that could be live twice. -/
theorem SessionsOk.init : SessionsOk fileOpsInit where
  unique := fun _ _ _ h => by simp [fileOpsInit, UploadSession.key] at h
  isOpen := fun _ h => by simp [fileOpsInit] at h

/-- Giving a slot back keeps the invariant. Its stream has been closed by then. -/
theorem SessionsOk.release {sessions : FileOps} (h : SessionsOk sessions)
    {i : Fin maxUploadSessions} {record : UploadSession} (hfree : record.used = false) :
    SessionsOk (Function.update sessions i record) where
  unique := h.unique.update_release (UploadSession.key_eq_none_iff.mpr hfree)
  isOpen := by
    intro j hj
    by_cases hji : j = i
    · rw [hji, Function.update_self, hfree] at hj
      exact absurd hj (by simp)
    · rw [Function.update_of_ne hji] at hj ⊢
      exact h.isOpen j hj

/-- Storing an open session whose id is live in no other slot keeps the invariant. -/
theorem SessionsOk.store {sessions : FileOps} (h : SessionsOk sessions)
    {i : Fin maxUploadSessions} {record : UploadSession} {transferId : UInt32}
    (hkey : record.key = some transferId) (hopen : record.fp ≠ none)
    (hother : ∀ j, j ≠ i → (sessions j).key ≠ some transferId) :
    SessionsOk (Function.update sessions i record) where
  unique := h.unique.update_store hkey hother
  isOpen := by
    intro j hj
    by_cases hji : j = i
    · rw [hji, Function.update_self]
      exact hopen
    · rw [Function.update_of_ne hji] at hj ⊢
      exact h.isOpen j hj

/-! ### Which slot a call writes -/

theorem key_of_findSession {sessions : FileOps} {transferId : UInt32}
    {i : Fin maxUploadSessions} (h : findSession sessions transferId = some i) :
    (sessions i).key = some transferId := SlotTable.key_of_find h

theorem fileAbortUpload_of_none {transferId : UInt32}
    (h : findSession p.sessions transferId = none) :
    (fileAbortUpload os transferId).run p = (none, p) := by
  simp only [fileAbortUpload, h]

theorem fileAbortUpload_of_some {transferId : UInt32} {i : Fin maxUploadSessions}
    (h : findSession p.sessions transferId = some i) :
    (fileAbortUpload os transferId).run p =
      (some (), (unlinkPath os (p.sessions i).tempPath
        (closeStream os (p.sessions i).fp p)).setSession i {}) := by
  simp only [fileAbortUpload, h]

/-- Whatever its system calls do, a finish resets the slot of its session. -/
theorem fileFinishUpload_sessions {transferId : UInt32} {i : Fin maxUploadSessions}
    (h : findSession p.sessions transferId = some i) :
    ((fileFinishUpload os transferId).run p).2.sessions = Function.update p.sessions i {} := by
  simp only [fileFinishUpload, h]
  rcases os.rename (p.sessions i).tempPath (p.sessions i).finalPath
    (closeStream os (p.sessions i).fp p).os with ⟨_ | e, s⟩
  · dsimp only
    split_ifs
    · rcases os.chmod (p.sessions i).finalPath (p.sessions i).fileMode s with ⟨_ | e, s'⟩
      · simp
      · simp
    · simp
  · simp

/-- The session attempts to write back when it has taken `data`: enough bytes have come
since the last attempt. -/
def UploadSession.Due (session : UploadSession) (data : Bytes) : Prop :=
  uploadSyncInterval ≤
    session.bytesWritten + UInt64.ofNat data.length - session.syncedBytes

instance (session : UploadSession) (data : Bytes) : Decidable (session.Due data) :=
  inferInstanceAs (Decidable (_ ≤ _))

/-- The session when it has taken `data`, with an attempt to write back counted where one is
due. -/
def UploadSession.taking (session : UploadSession) (data : Bytes) : UploadSession :=
  { session with
    bytesWritten := session.bytesWritten + UInt64.ofNat data.length
    syncedBytes := if session.Due data then session.bytesWritten + UInt64.ofNat data.length
      else session.syncedBytes }

/-- An append that fails leaves the sessions alone; one that succeeds updates the byte
counters of its session. Whether the flush behind it fails makes no difference. -/
theorem fileAppendUploadChunk_sessions (os : Os σ) (transferId : UInt32) (data : Bytes)
    (p : Proc σ) :
    (((fileAppendUploadChunk os transferId data).run p).1 = none ∧
      ((fileAppendUploadChunk os transferId data).run p).2.sessions = p.sessions) ∨
    (((fileAppendUploadChunk os transferId data).run p).1 = some () ∧
      ∃ i, findSession p.sessions transferId = some i ∧
        ((fileAppendUploadChunk os transferId data).run p).2.sessions =
          Function.update p.sessions i ((p.sessions i).taking data)) := by
  rw [fileAppendUploadChunk]
  dsimp only
  split_ifs with hdata
  · exact .inl ⟨rfl, rfl⟩
  cases hfind : findSession p.sessions transferId with
  | none => exact .inl ⟨rfl, rfl⟩
  | some i =>
    dsimp only
    cases hfp : (p.sessions i).fp with
    | none => exact .inl ⟨rfl, rfl⟩
    | some fp =>
      rcases os.fwrite fp data p.os with ⟨⟨written, e⟩, s⟩
      dsimp only
      split_ifs with hshort hsync
      · exact .inl ⟨rfl, rfl⟩
      · have hdue : (p.sessions i).Due data := hsync
        refine .inr ⟨rfl, i, rfl, ?_⟩
        rw [Proc.setSession_sessions, uploadPaceWriteback_sessions, UploadSession.taking,
          if_pos hdue, hfp]
      · have hdue : ¬(p.sessions i).Due data := hsync
        refine .inr ⟨rfl, i, rfl, ?_⟩
        rw [Proc.setSession_sessions, UploadSession.taking, if_neg hdue, hfp]

/-! ### Transfers -/

/-- The abstract view of an upload in progress: what it is for, and how far it has come. -/
structure Transfer where
  finalPath : Bytes
  tempPath : Bytes
  perm : Option ℕ
  bytesWritten : UInt64
  deriving DecidableEq, Repr

/-- A partial map from transfer ids to uploads in progress. Where it lies in the table does
not matter. -/
abbrev TransferMap := UInt32 → Option Transfer

/-- The abstract view of a session: its paths, its permission and its byte count, without
the stream and the pacing. -/
def UploadSession.transfer (session : UploadSession) : Transfer where
  finalPath := session.finalPath
  tempPath := session.tempPath
  perm := if session.applyPerm then some session.fileMode else none
  bytesWritten := session.bytesWritten

/-- The map the session table stands for. An id is looked up as the code looks it up, in the
first slot that is in use for it. -/
def transfers (sessions : FileOps) : TransferMap := fun transferId =>
  (SlotTable.lookup UploadSession.key sessions transferId).map UploadSession.transfer

theorem transfers_eq_none_iff {sessions : FileOps} {transferId : UInt32} :
    transfers sessions transferId = none ↔ findSession sessions transferId = none := by
  rw [transfers, Option.map_eq_none_iff, SlotTable.lookup, Option.map_eq_none_iff, findSession]

theorem transfers_of_findSession {sessions : FileOps} {transferId : UInt32}
    {i : Fin maxUploadSessions} (h : findSession sessions transferId = some i) :
    transfers sessions transferId = some (sessions i).transfer := by
  rw [findSession] at h
  rw [transfers, SlotTable.lookup, h]
  rfl

/-- Storing a session for an id that is live in no other slot sets the entry of the id. -/
private theorem SessionsOk.transfers_store {sessions : FileOps} (h : SessionsOk sessions)
    {i : Fin maxUploadSessions} {record : UploadSession} {transferId : UInt32}
    (hkey : record.key = some transferId)
    (hi : (sessions i).key = none ∨ (sessions i).key = some transferId)
    (hother : ∀ j, j ≠ i → (sessions j).key ≠ some transferId) :
    transfers (Function.update sessions i record) =
      Function.update (transfers sessions) transferId (some record.transfer) := by
  funext id
  rw [transfers, h.unique.lookup_update_store hkey hi hother]
  by_cases hid : id = transferId
  · rw [hid, Function.update_self, Function.update_self, Option.map_some]
  · rw [Function.update_of_ne hid, Function.update_of_ne hid, transfers]

/-- Resetting the slot of an id removes the entry of the id. -/
private theorem SessionsOk.transfers_reset {sessions : FileOps} (h : SessionsOk sessions)
    {i : Fin maxUploadSessions} {record : UploadSession} {transferId : UInt32}
    (hfree : record.used = false) (hi : (sessions i).key = some transferId) :
    transfers (Function.update sessions i record) =
      Function.update (transfers sessions) transferId none := by
  funext id
  rw [transfers, h.unique.lookup_update_release (UploadSession.key_eq_none_iff.mpr hfree) hi]
  by_cases hid : id = transferId
  · rw [hid, Function.update_self, Function.update_self, Option.map_none]
  · rw [Function.update_of_ne hid, Function.update_of_ne hid, transfers]

/-- Rewriting a free slot by a free record changes nothing. -/
theorem SessionsOk.transfers_free {sessions : FileOps} (h : SessionsOk sessions)
    {i : Fin maxUploadSessions} {record : UploadSession} (hfree : record.used = false)
    (hi : (sessions i).key = none) :
    transfers (Function.update sessions i record) = transfers sessions := by
  funext id
  rw [transfers, h.unique.lookup_update_free (UploadSession.key_eq_none_iff.mpr hfree) hi,
    transfers]

/-- A function that is not defined at a point does not change when it is erased there. -/
private theorem update_none_eq_self {m : TransferMap} {transferId : UInt32}
    (h : m transferId = none) : Function.update m transferId none = m := by
  rw [← h, Function.update_eq_self]

/-! ### Calls and their effects -/

/-- A call of one of the four session functions, with the arguments of the call. -/
inductive UploadCall
  | begin (transferId : UInt32) (relativePath : Bytes) (desireStorage perm : Option Bytes)
  | append (transferId : UInt32) (data : Bytes)
  | finish (transferId : UInt32)
  | abort (transferId : UInt32)

/-- The function a call runs. -/
def UploadCall.op (os : Os σ) : UploadCall → Op σ Unit
  | .begin transferId relativePath desireStorage perm =>
    fileBeginUpload os transferId relativePath desireStorage perm
  | .append transferId data => fileAppendUploadChunk os transferId data
  | .finish transferId => fileFinishUpload os transferId
  | .abort transferId => fileAbortUpload os transferId

/-- A run of calls, each whether the ones before it succeeded or not. -/
def runCalls (os : Os σ) (calls : List UploadCall) (p : Proc σ) : Proc σ :=
  calls.foldl (fun p call => ((call.op os).run p).2) p

/-- What a call, with its result, does to the map. It is stated with the result because the
outside decides whether the call succeeds. -/
def UploadCall.Effect (ulongMax : ℕ) : UploadCall → Option Unit → TransferMap → TransferMap → Prop
  | .begin transferId relativePath _ perm, some (), m, m' =>
    ∃ path storage applyPerm fileMode,
      buildPath relativePath pathMaxLen = (path, .ok storage) ∧
      uploadPerm ulongMax perm = some (applyPerm, fileMode) ∧
      m' = Function.update m transferId (some
        { finalPath := path, tempPath := path ++ utf8 ".part"
          perm := if applyPerm then some fileMode else none, bytesWritten := 0 })
  | .begin transferId _ _ _, none, m, m' => m' = Function.update m transferId none
  | .append transferId data, some (), m, m' =>
    ∃ transfer, m transferId = some transfer ∧
      m' = Function.update m transferId (some
        { transfer with bytesWritten := transfer.bytesWritten + UInt64.ofNat data.length })
  | .append _ _, none, m, m' => m' = m
  | .finish transferId, _, m, m' => m' = Function.update m transferId none
  | .abort transferId, _, m, m' => m' = Function.update m transferId none

/-! ### One call -/

/-- After resetting the slot of an id, or finding none, the entry of the id is gone. -/
private theorem SessionsOk.erase {sessions sessions' : FileOps} (h : SessionsOk sessions)
    {transferId : UInt32}
    (hnone : findSession sessions transferId = none → sessions' = sessions)
    (hsome : ∀ i, findSession sessions transferId = some i →
      sessions' = Function.update sessions i {}) :
    SessionsOk sessions' ∧
      transfers sessions' = Function.update (transfers sessions) transferId none := by
  cases hfind : findSession sessions transferId with
  | none =>
    rw [hnone hfind, update_none_eq_self (transfers_eq_none_iff.mpr hfind)]
    exact ⟨h, rfl⟩
  | some i =>
    rw [hsome i hfind]
    exact ⟨h.release rfl, h.transfers_reset rfl (key_of_findSession hfind)⟩

theorem SessionsOk.abort (h : SessionsOk p.sessions) (os : Os σ) (transferId : UInt32) :
    SessionsOk ((fileAbortUpload os transferId).run p).2.sessions ∧
      transfers ((fileAbortUpload os transferId).run p).2.sessions =
        Function.update (transfers p.sessions) transferId none := by
  refine h.erase (fun hfind => ?_) fun i hfind => ?_
  · rw [fileAbortUpload_of_none hfind]
  · rw [fileAbortUpload_of_some hfind, Proc.setSession_sessions, unlinkPath_sessions,
      closeStream_sessions]

theorem SessionsOk.finish (h : SessionsOk p.sessions) (os : Os σ) (transferId : UInt32) :
    SessionsOk ((fileFinishUpload os transferId).run p).2.sessions ∧
      transfers ((fileFinishUpload os transferId).run p).2.sessions =
        Function.update (transfers p.sessions) transferId none := by
  refine h.erase (fun hfind => ?_) fun i hfind => fileFinishUpload_sessions hfind
  simp only [fileFinishUpload, hfind, Proc.setLastError_sessions]

theorem SessionsOk.append (h : SessionsOk p.sessions) (os : Os σ) (transferId : UInt32)
    (data : Bytes) :
    SessionsOk ((fileAppendUploadChunk os transferId data).run p).2.sessions ∧
      (UploadCall.append transferId data).Effect os.ulongMax
        ((fileAppendUploadChunk os transferId data).run p).1 (transfers p.sessions)
        (transfers ((fileAppendUploadChunk os transferId data).run p).2.sessions) := by
  obtain ⟨hres, hsessions⟩ | ⟨hres, i, hfind, hsessions⟩ :=
    fileAppendUploadChunk_sessions os transferId data p
  · rw [hres, hsessions]
    exact ⟨h, rfl⟩
  · have hkey := key_of_findSession hfind
    have hother : ∀ j, j ≠ i → (p.sessions j).key ≠ some transferId :=
      fun j hj hkj => hj (h.unique hkj hkey)
    have hopen := h.isOpen i (UploadSession.key_eq_some_iff.mp hkey).1
    rw [hres, hsessions]
    refine ⟨h.store hkey hopen hother, _, transfers_of_findSession hfind, ?_⟩
    exact h.transfers_store hkey (.inr hkey) hother

/-- Before a begin looks for a slot, its id is not live any more. -/
theorem SessionsOk.beforeBegin (h : SessionsOk p.sessions) (os : Os σ) (transferId : UInt32) :
    SessionsOk (beforeBegin os transferId p).sessions ∧
      transfers (UsbResponder.beforeBegin os transferId p).sessions =
        Function.update (transfers p.sessions) transferId none ∧
      ∀ j, ((UsbResponder.beforeBegin os transferId p).sessions j).key ≠ some transferId := by
  have hok : SessionsOk (UsbResponder.beforeBegin os transferId p).sessions ∧
      transfers (UsbResponder.beforeBegin os transferId p).sessions =
        Function.update (transfers p.sessions) transferId none := by
    rw [UsbResponder.beforeBegin]
    cases hfind : findSession p.sessions transferId with
    | none => exact ⟨h, (update_none_eq_self (transfers_eq_none_iff.mpr hfind)).symm⟩
    | some i => exact h.abort os transferId
  refine ⟨hok.1, hok.2, SlotTable.find_eq_none_iff.mp (transfers_eq_none_iff.mp ?_)⟩
  rw [hok.2, Function.update_self]

/-- A begin makes its id live with a fresh session, or leaves it absent. -/
theorem SessionsOk.begin (h : SessionsOk p.sessions) (os : Os σ) (transferId : UInt32)
    (relativePath : Bytes) (desireStorage perm : Option Bytes) :
    SessionsOk ((fileBeginUpload os transferId relativePath desireStorage perm).run p).2.sessions ∧
      (UploadCall.begin transferId relativePath desireStorage perm).Effect os.ulongMax
        ((fileBeginUpload os transferId relativePath desireStorage perm).run p).1
        (transfers p.sessions) (transfers
          ((fileBeginUpload os transferId relativePath desireStorage perm).run p).2.sessions) := by
  obtain ⟨hok, htransfers, hother⟩ := h.beforeBegin os transferId
  obtain ⟨-, hrun⟩ | ⟨i, halloc, hslot⟩ :=
    fileBeginUpload_cases os transferId relativePath desireStorage perm p
  · rw [hrun]
    exact ⟨hok, htransfers⟩
  have hfree := SlotTable.key_of_alloc halloc
  obtain ⟨record, s, msg, hrecord, -, -, hrun⟩ | ⟨target, fp, s, hchecks, -, hrun⟩ := hslot
  · rw [hrun, Proc.setLastError_sessions, Proc.setSession_sessions]
    refine ⟨hok.release hrecord, ?_⟩
    rw [hok.transfers_free hrecord hfree, htransfers]
    rfl
  · have hkey : (target.session transferId relativePath fp).key = some transferId := rfl
    rw [hrun, Proc.setSession_sessions]
    refine ⟨hok.store hkey (by simp [UploadTarget.session]) fun j _ => hother j, ?_⟩
    refine ⟨target.path, target.storage, _, _, hchecks.path, hchecks.perm, ?_⟩
    rw [hok.transfers_store hkey (.inl hfree) fun j _ => hother j, htransfers,
      Function.update_idem]
    rfl

/-- **One call.** Every call keeps the invariant and has its effect on the map. -/
theorem SessionsOk.call (h : SessionsOk p.sessions) (os : Os σ) (call : UploadCall) :
    SessionsOk ((call.op os).run p).2.sessions ∧
      call.Effect os.ulongMax ((call.op os).run p).1 (transfers p.sessions)
        (transfers ((call.op os).run p).2.sessions) := by
  cases call with
  | «begin» transferId relativePath desireStorage perm =>
    exact h.begin os transferId relativePath desireStorage perm
  | append transferId data => exact h.append os transferId data
  | finish transferId => exact h.finish os transferId
  | abort transferId => exact h.abort os transferId

/-- The invariant holds after any calls, whatever their outcomes. -/
theorem SessionsOk.runCalls (h : SessionsOk p.sessions) (os : Os σ) (calls : List UploadCall) :
    SessionsOk (runCalls os calls p).sessions := by
  induction calls generalizing p with
  | nil => exact h
  | cons call calls ih => exact ih (h.call os call).1

/-- A begin finds no free slot exactly when its id is not live and sixteen others are. If
its id is live, the abort has just freed a slot. -/
private theorem SessionsOk.begin_full_iff (h : SessionsOk p.sessions) (os : Os σ)
    (transferId : UInt32) (relativePath : Bytes) (desireStorage perm : Option Bytes) :
    (((fileBeginUpload os transferId relativePath desireStorage perm).run p).1 = none ∧
      ((fileBeginUpload os transferId relativePath desireStorage perm).run p).2.lastError =
        utf8 "no free upload session") ↔
    transfers p.sessions transferId = none ∧
      ∃ ids : Finset UInt32, ids.card = maxUploadSessions ∧ transferId ∉ ids ∧
        ∀ id ∈ ids, transfers p.sessions id ≠ none := by
  have hlive : ∀ id, transfers p.sessions id ≠ none ↔
      SlotTable.lookup UploadSession.key p.sessions id ≠ none := fun id => by
    rw [transfers, ne_eq, Option.map_eq_none_iff]
  have hfull : SlotTable.alloc UploadSession.key (UsbResponder.beforeBegin os transferId p).sessions
      = none ↔ transfers p.sessions transferId = none ∧
        SlotTable.alloc UploadSession.key p.sessions = none := by
    rw [transfers_eq_none_iff, UsbResponder.beforeBegin]
    cases hfind : findSession p.sessions transferId with
    | none => simp
    | some i =>
      -- aborting the old session has freed its slot
      simp only [reduceCtorEq, false_and, iff_false]
      rw [SlotTable.alloc_eq_none_iff_forall, fileAbortUpload_of_some hfind]
      exact fun hall => hall i (by simp [UploadSession.key])
  have hcapacity : transfers p.sessions transferId = none ∧
      SlotTable.alloc UploadSession.key p.sessions = none ↔
      transfers p.sessions transferId = none ∧
      ∃ ids : Finset UInt32, ids.card = maxUploadSessions ∧ transferId ∉ ids ∧
        ∀ id ∈ ids, transfers p.sessions id ≠ none := by
    rw [h.unique.alloc_eq_none_iff]
    refine and_congr_right fun hnone => exists_congr fun ids => and_congr_right fun _ => ?_
    simp only [hlive]
    refine ⟨fun hall => ⟨fun hmem => ?_, hall⟩, fun hall => hall.2⟩
    exact (hlive transferId).mpr (hall transferId hmem) hnone
  rw [← hcapacity, ← hfull]
  obtain ⟨halloc, hrun⟩ | ⟨i, halloc, hslot⟩ :=
    fileBeginUpload_cases os transferId relativePath desireStorage perm p
  · rw [hrun]
    exact iff_of_true ⟨rfl, snprintf_eq_self (by decide)⟩ halloc
  · refine iff_of_false ?_ (by rw [halloc]; simp)
    rintro ⟨hnone, herror⟩
    obtain ⟨record, s, msg, -, hmsg, -, hrun⟩ | ⟨target, fp, s, -, -, hrun⟩ := hslot
    · rw [hrun] at herror
      exact hmsg.snprintf_ne herror
    · rw [hrun] at hnone
      simp at hnone

/-! ### The refinement -/

/-- **The session array refines a finite map.** Take any run of calls from the state
`file_ops_init` leaves, with any system calls. Then every live id occupies exactly one slot
and every slot in use has an open stream; the next call has exactly its effect on the map;
and a begin is refused for want of a slot exactly when its id is not live and sixteen other
ids are. -/
theorem sessions_refine_map (os : Os σ) (lastError : Bytes) (s : σ) (calls : List UploadCall) :
    let p := runCalls os calls ⟨fileOpsInit, lastError, s⟩
    (∀ i, (p.sessions i).used = true → (p.sessions i).fp ≠ none) ∧
    (∀ transferId, transfers p.sessions transferId ≠ none ↔
      ∃! i, (p.sessions i).used = true ∧ (p.sessions i).transferId = transferId) ∧
    (∀ call : UploadCall, call.Effect os.ulongMax ((call.op os).run p).1 (transfers p.sessions)
      (transfers ((call.op os).run p).2.sessions)) ∧
    ∀ transferId relativePath desireStorage perm,
      let r := (fileBeginUpload os transferId relativePath desireStorage perm).run p
      (r.1 = none ∧ r.2.lastError = utf8 "no free upload session") ↔
        transfers p.sessions transferId = none ∧
          ∃ ids : Finset UInt32, ids.card = maxUploadSessions ∧ transferId ∉ ids ∧
            ∀ id ∈ ids, transfers p.sessions id ≠ none := by
  intro p
  have hok : SessionsOk p.sessions := SessionsOk.init.runCalls os calls
  refine ⟨hok.isOpen, fun transferId => ?_, fun call => (hok.call os call).2,
    fun transferId relativePath desireStorage perm =>
      hok.begin_full_iff os transferId relativePath desireStorage perm⟩
  simp only [← UploadSession.key_eq_some_iff]
  constructor
  · intro hlive
    obtain ⟨i, hi⟩ := Option.ne_none_iff_exists'.mp (mt transfers_eq_none_iff.mpr hlive)
    exact ⟨i, key_of_findSession hi, fun j hj => hok.unique hj (key_of_findSession hi)⟩
  · rintro ⟨i, hi, -⟩ hnone
    exact SlotTable.find_eq_none_iff.mp (transfers_eq_none_iff.mp hnone) i hi

end UsbResponder
