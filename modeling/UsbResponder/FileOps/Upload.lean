import UsbResponder.FileOps.Path

/-!
# Upload sessions

The session functions of `file_ops.c`. Sessions are found by transfer id, and the first free
slot is used for a new one. A session is a pointer into the table in the source; here it is
a slot number together with the record, and the record is written back where the function
returns.

`UploadChecks` collects the conditions under which a begin reaches `fopen`. The
specification of a begin is split along it: `beginSession_of_checks` computes the result
when they hold, and `beginSession_of_not_checks` says that otherwise the slot is given back.
`fileBeginUpload_cases` puts the two together with the search for a slot, and later modules
use a begin through it only.

A begin writes to its record while it checks. That is why a refused begin can leave
something in a slot that is free; what it leaves is said to be a record that is not in use,
and no more. The counters of bytes are 64-bit and wrap around, like those of the source.
`posix_fadvise` is left out.
-/

namespace UsbResponder

open CString

variable {σ : Type}

/-- `USB_RESPONDER_UPLOAD_SYNC_INTERVAL`: after how many bytes an upload attempts to write
back. -/
def uploadSyncInterval : UInt64 := 1 <<< (20 : UInt64)

/-! ### The session table -/

/-- `find_session`: the first slot that is in use for the id. -/
def findSession (sessions : FileOps) (transferId : UInt32) : Option (Fin maxUploadSessions) :=
  SlotTable.find UploadSession.key sessions transferId

/-- `alloc_session`: the slot, marked as used. The rest of its record is what the last
session left there, until the begin writes it. -/
def allocSession (p : Proc σ) : Option (Fin maxUploadSessions × Proc σ) :=
  match SlotTable.alloc UploadSession.key p.sessions with
  | none => none
  | some i => some (i, p.setSession i { p.sessions i with used := true })

/-- `usb_responder_file_ops_init`, which clears all slots. -/
def fileOpsInit : FileOps := fun _ => {}

/-! ### The operations -/

/-- `if (session->fp) fclose(session->fp)`, the result ignored. -/
def closeStream (os : Os σ) (fp : Option ℕ) (p : Proc σ) : Proc σ :=
  match fp with
  | none => p
  | some fp => { p with os := (os.fclose fp p.os).2 }

/-- `unlink(path)`, its result ignored. -/
def unlinkPath (os : Os σ) (path : Bytes) (p : Proc σ) : Proc σ :=
  { p with os := (os.unlink path p.os).2 }

/-- `upload_pace_writeback`. A valid stream has a descriptor, and `posix_fadvise` only
advises the kernel about its page cache. -/
def uploadPaceWriteback (os : Os σ) (fp : Option ℕ) (p : Proc σ) : Proc σ :=
  match fp with
  | none => p
  | some fp =>
    match os.fflush fp p.os with
    | (some _, s) => { p with os := s }
    | (none, s) => { p with os := (os.fsync fp s).2 }

/-- `usb_responder_file_abort_upload`: the stream is closed, the temporary file removed, and
the slot given back. -/
def fileAbortUpload (os : Os σ) (transferId : UInt32) : Op σ Unit := ⟨fun p =>
  match findSession p.sessions transferId with
  | none => (none, p)
  | some i =>
    let session := p.sessions i
    let p := closeStream os session.fp p
    let p := unlinkPath os session.tempPath p
    (some (), p.setSession i {})⟩

/-- The optional `perm` of a begin, written to the session. Without one, or with an empty
one, the mode of the file is left to the system. -/
def setSessionPerm (os : Os σ) (perm : Option Bytes) (session : UploadSession) :
    Op σ UploadSession :=
  match perm with
  | none => pure session
  | some perm =>
    if perm = [] then pure session
    else do
      let mode ← parsePermOctal os perm
      return { session with fileMode := mode, applyPerm := true }

/-- The checks of a begin on the result of `build_path`: the path is one, it is on the
desired storage, and that can be written. -/
def checkUploadStorage (os : Os σ) (storage : Except Bytes Storage)
    (desireStorage : Option Bytes) : Op σ Unit :=
  match storage with
  | .error msg => Op.failWith msg
  | .ok storage => do
    pathStorageMatchesDesire storage desireStorage
    ensureStorageWriteable os storage

/-- `usb_responder_file_begin_upload` from the allocated slot `i` on. Every exit that
returns `false` gives the slot back. The temporary file is opened at the very end. -/
def beginSession (os : Os σ) (i : Fin maxUploadSessions) (transferId : UInt32)
    (relativePath : Bytes) (desireStorage perm : Option Bytes) : Op σ Unit := ⟨fun p =>
  let session := { p.sessions i with applyPerm := false, fileMode := 0o644 }
  match (setSessionPerm os perm session).run p with
  | (none, p) => (none, p.setSession i { session with used := false })
  | (some session, p) =>
    let path := buildPath relativePath pathMaxLen
    let session := { session with finalPath := path.1 }
    match (checkUploadStorage os path.2 desireStorage).run p with
    | (none, p) => (none, p.setSession i { session with used := false })
    | (some (), p) =>
      let session := { session with relativePath := snprintf pathMaxLen relativePath }
      if pathMaxLen ≤ relativePath.length then
        (none, (p.setSession i { session with used := false }).setLastError
          (utf8 "relative path too long"))
      else
        let tempPath := session.finalPath ++ utf8 ".part"
        let session := { session with tempPath := snprintf pathMaxLen tempPath }
        if pathMaxLen ≤ tempPath.length then
          (none, (p.setSession i { session with used := false }).setLastError
            (utf8 "temp path too long"))
        else
          match os.fopenWb session.tempPath p.os with
          | (.error e, s) =>
            let session := { session with fp := none, used := false }
            (none, ({ p with os := s }.setSession i session).setFileError os (utf8 "fopen")
              session.tempPath e)
          | (.ok fp, s) =>
            (some (), { p with os := s }.setSession i
              { session with
                fp := some fp, transferId := transferId, bytesWritten := 0, syncedBytes := 0 })⟩

/-- `usb_responder_file_begin_upload`. A client that retries a begin after an unfinished
upload uses the same transfer id; the old session is aborted first. -/
def fileBeginUpload (os : Os σ) (transferId : UInt32) (relativePath : Bytes)
    (desireStorage perm : Option Bytes) : Op σ Unit := ⟨fun p =>
  let p :=
    match findSession p.sessions transferId with
    | none => p
    | some _ => ((fileAbortUpload os transferId).run p).2
  match allocSession p with
  | none => (none, p.setLastError (utf8 "no free upload session"))
  | some (i, p) => (beginSession os i transferId relativePath desireStorage perm).run p⟩

/-- `usb_responder_file_append_upload_chunk`. A short `fwrite` is an error, and what it has
taken of the chunk is not taken back; the counters are those of complete chunks. -/
def fileAppendUploadChunk (os : Os σ) (transferId : UInt32) (data : Bytes) : Op σ Unit := ⟨fun p =>
  if data = [] then (none, p.setLastError (utf8 "invalid upload chunk"))
  else
    match findSession p.sessions transferId with
    | none => (none, p.setLastError (utf8 "upload session not found"))
    | some i =>
      let session := p.sessions i
      match session.fp with
      | none => (none, p.setLastError (utf8 "upload session not found"))
      | some fp =>
        match os.fwrite fp data p.os with
        | ((written, e), s) =>
          let p := { p with os := s }
          if written ≠ data.length then
            (none, p.setFileError os (utf8 "fwrite") session.tempPath e)
          else
            let session :=
              { session with bytesWritten := session.bytesWritten + UInt64.ofNat data.length }
            if uploadSyncInterval ≤ session.bytesWritten - session.syncedBytes then
              let p := uploadPaceWriteback os session.fp p
              (some (), p.setSession i { session with syncedBytes := session.bytesWritten })
            else (some (), p.setSession i session)⟩

/-- `usb_responder_file_finish_upload`. The result of `fclose` is not looked at. The session
ends whether the finish succeeds or not. -/
def fileFinishUpload (os : Os σ) (transferId : UInt32) : Op σ Unit := ⟨fun p =>
  match findSession p.sessions transferId with
  | none => (none, p.setLastError (utf8 "upload session not found"))
  | some i =>
    let session := p.sessions i
    let p := closeStream os session.fp p
    match os.rename session.tempPath session.finalPath p.os with
    | (some e, s) =>
      let p := { p with os := s }.setFileError os (utf8 "rename") session.finalPath e
      let p := unlinkPath os session.tempPath p
      (none, p.setSession i {})
    | (none, s) =>
      let p := { p with os := s }
      if session.applyPerm then
        match os.chmod session.finalPath session.fileMode p.os with
        | (some e, s) =>
          let p := { p with os := s }.setFileError os (utf8 "chmod") session.finalPath e
          let p := unlinkPath os session.finalPath p
          (none, p.setSession i {})
        | (none, s) => (some (), { p with os := s }.setSession i {})
      else (some (), p.setSession i {})⟩

/-- `usb_responder_file_ops_shutdown`: all uploads in progress are given up, as if each had
been aborted. -/
def fileOpsShutdown (os : Os σ) (p : Proc σ) : Proc σ :=
  let p := (List.finRange maxUploadSessions).foldl (fun p i =>
    let session := p.sessions i
    if session.used then unlinkPath os session.tempPath (closeStream os session.fp p) else p) p
  { p with sessions := fileOpsInit }

@[simp] theorem closeStream_sessions (os : Os σ) (fp : Option ℕ) (p : Proc σ) :
    (closeStream os fp p).sessions = p.sessions := by
  cases fp <;> rfl

@[simp] theorem closeStream_lastError (os : Os σ) (fp : Option ℕ) (p : Proc σ) :
    (closeStream os fp p).lastError = p.lastError := by
  cases fp <;> rfl

@[simp] theorem unlinkPath_sessions (os : Os σ) (path : Bytes) (p : Proc σ) :
    (unlinkPath os path p).sessions = p.sessions := rfl

@[simp] theorem uploadPaceWriteback_sessions (os : Os σ) (fp : Option ℕ) (p : Proc σ) :
    (uploadPaceWriteback os fp p).sessions = p.sessions := by
  cases fp with
  | none => rfl
  | some fp =>
    rw [uploadPaceWriteback]
    split <;> rfl

/-- A chunk for an id that is not live is refused. Nothing is written anywhere. -/
theorem fileAppendUploadChunk_of_none {p : Proc σ} {transferId : UInt32}
    (h : findSession p.sessions transferId = none) (os : Os σ) (data : Bytes) :
    ∃ msg, (fileAppendUploadChunk os transferId data).run p = (none, p.setLastError msg) := by
  by_cases hdata : data = []
  · exact ⟨utf8 "invalid upload chunk", by simp only [fileAppendUploadChunk, if_pos hdata]⟩
  · exact ⟨utf8 "upload session not found", by
      simp only [fileAppendUploadChunk, if_neg hdata, h]⟩

/-! ### When a begin reaches `fopen` -/

/-- What a begin makes of its arguments: the final path with its storage, and the permission
to apply. -/
structure UploadTarget where
  path : Bytes
  storage : Storage
  applyPerm : Bool
  fileMode : ℕ

/-- The temporary path of an upload, which is in the directory of its final path. -/
def UploadTarget.tempPath (target : UploadTarget) : Bytes := target.path ++ utf8 ".part"

/-- The record of a session that has just begun. Its byte counters are zero. -/
def UploadTarget.session (target : UploadTarget) (transferId : UInt32) (relativePath : Bytes)
    (fp : ℕ) : UploadSession where
  used := true
  transferId := transferId
  fp := some fp
  relativePath := relativePath
  tempPath := target.tempPath
  finalPath := target.path
  applyPerm := target.applyPerm
  fileMode := target.fileMode

/-- The permission a begin applies: whether it does, and the mode. There is none where the
text is no octal number. -/
def uploadPerm (ulongMax : ℕ) (perm : Option Bytes) : Option (Bool × ℕ) :=
  match perm with
  | none => some (false, 0o644)
  | some perm =>
    if perm = [] then some (false, 0o644)
    else
      match strtoul8 ulongMax perm with
      | none => none
      | some (val, stop) =>
        if stop ≠ [] ∨ 0o7777 < val then none else some (true, val &&& 0o7777)

/-- The checks of a begin pass for the given target. There is one such target at most, since
each of its parts is computed from the arguments. -/
structure UploadChecks (os : Os σ) (relativePath : Bytes) (desireStorage perm : Option Bytes)
    (s : σ) (target : UploadTarget) : Prop where
  perm : uploadPerm os.ulongMax perm = some (target.applyPerm, target.fileMode)
  path : buildPath relativePath pathMaxLen = (target.path, .ok target.storage)
  desire : StorageMatches target.storage desireStorage
  writeable : StorageWriteable os target.storage s
  relative_lt : relativePath.length < pathMaxLen
  temp_lt : target.tempPath.length < pathMaxLen

theorem setSessionPerm_of_some {os : Os σ} {perm : Option Bytes} (session : UploadSession)
    {applyPerm : Bool} {fileMode : ℕ} (happly : session.applyPerm = false)
    (hmode : session.fileMode = 0o644)
    (h : uploadPerm os.ulongMax perm = some (applyPerm, fileMode)) (p : Proc σ) :
    (setSessionPerm os perm session).run p =
      (some { session with applyPerm := applyPerm, fileMode := fileMode }, p) := by
  have hdefault : ∀ {b : Bool} {m : ℕ}, some (false, 0o644) = some (b, m) →
      (pure session : Op σ UploadSession).run p =
        (some { session with applyPerm := b, fileMode := m }, p) := by
    intro b m hbm
    obtain ⟨rfl, rfl⟩ := Prod.mk.inj (Option.some.inj hbm)
    rw [← happly, ← hmode, Op.run_pure]
  cases perm with
  | none => exact hdefault h
  | some perm =>
    rw [uploadPerm] at h
    rw [setSessionPerm]
    split_ifs at h ⊢ with hempty
    · exact hdefault h
    · cases hval : strtoul8 os.ulongMax perm with
      | none => simp [hval] at h
      | some r =>
        obtain ⟨val, stop⟩ := r
        simp only [hval] at h
        split_ifs at h with hbad
        obtain ⟨rfl, rfl⟩ := Prod.mk.inj (Option.some.inj h)
        have hparse : (parsePermOctal os perm).run p = (some (val &&& 0o7777), p) := by
          rw [parsePermOctal, hval]
          dsimp only
          rw [if_neg hbad, Op.run_pure]
        rw [Op.run_bind_of_some hparse, Op.run_pure]

theorem setSessionPerm_of_none {os : Os σ} {perm : Option Bytes} {session : UploadSession}
    (h : uploadPerm os.ulongMax perm = none) (p : Proc σ) :
    (setSessionPerm os perm session).run p = (none, p.setLastError (utf8 "invalid perm")) := by
  cases perm with
  | none => simp [uploadPerm] at h
  | some perm =>
    rw [uploadPerm] at h
    rw [setSessionPerm]
    split_ifs at h ⊢ with hempty
    have hparse : (parsePermOctal os perm).run p =
        (none, p.setLastError (utf8 "invalid perm")) := by
      rw [parsePermOctal]
      cases hval : strtoul8 os.ulongMax perm with
      | none => rfl
      | some r =>
        obtain ⟨val, stop⟩ := r
        simp only [hval] at h
        split_ifs at h with hbad
        dsimp only
        rw [if_pos hbad, Op.run_failWith]
    rw [Op.run_bind_of_none hparse]

/-- The errors of `build_path` are not the error of a full session table. -/
private theorem otherError_of_buildPath {relative : Bytes} {outSize : ℕ} {msg : Bytes}
    (h : (buildPath relative outSize).2 = .error msg) : OtherError msg := by
  obtain rfl | rfl := buildPath_error h
  · decide
  · decide

private theorem checkUploadStorage_of {os : Os σ} {storage : Storage} {desireStorage : Option Bytes}
    {p : Proc σ} (hmatches : StorageMatches storage desireStorage)
    (hwriteable : StorageWriteable os storage p.os) :
    (checkUploadStorage os (.ok storage) desireStorage).run p =
      (some (), p.afterMountCheck os storage) := by
  rw [checkUploadStorage, Op.run_bind_of_some (pathStorageMatchesDesire_of hmatches p),
    ensureStorageWriteable_of hwriteable]

/-- A failing storage check leaves the sessions alone, and at most the mount table was read. -/
theorem checkUploadStorage_of_not {os : Os σ} {relative : Bytes} {desireStorage : Option Bytes}
    {p : Proc σ}
    (h : ∀ storage, (buildPath relative pathMaxLen).2 = .ok storage →
      StorageMatches storage desireStorage → ¬StorageWriteable os storage p.os) :
    ∃ s msg, (checkUploadStorage os (buildPath relative pathMaxLen).2 desireStorage).run p =
        (none, { p with os := s }.setLastError msg) ∧
      (s = p.os ∨ s = (os.mountinfo p.os).2) ∧ OtherError msg := by
  cases hpath : (buildPath relative pathMaxLen).2 with
  | error msg => exact ⟨p.os, msg, rfl, .inl rfl, otherError_of_buildPath hpath⟩
  | ok storage =>
    by_cases hmatches : StorageMatches storage desireStorage
    · obtain ⟨msg, hrun, hmsg⟩ := ensureStorageWriteable_of_not (h storage hpath hmatches)
      refine ⟨os.afterMountCheck storage p.os, msg, ?_, ?_, hmsg⟩
      · rw [checkUploadStorage, Op.run_bind_of_some (pathStorageMatchesDesire_of hmatches p), hrun]
        rfl
      · cases storage
        · exact .inl rfl
        · exact .inr rfl
    · obtain ⟨msg, hrun, hmsg⟩ := pathStorageMatchesDesire_of_not hmatches p
      refine ⟨p.os, msg, ?_, .inl rfl, hmsg⟩
      rw [checkUploadStorage, Op.run_bind_of_none hrun]

/-! ### What a begin does with its slot -/

section Begin

variable {os : Os σ} (i : Fin maxUploadSessions) (transferId : UInt32) {relativePath : Bytes}
  {desireStorage perm : Option Bytes} {p : Proc σ} {target : UploadTarget}

/-- When the checks pass, a begin is an `fopen` of the temporary path. Everything before it
has touched the outside at most by reading the mount table. -/
theorem beginSession_of_checks
    (h : UploadChecks os relativePath desireStorage perm p.os target) :
    ∃ record : UploadSession, (beginSession os i transferId relativePath desireStorage perm).run p =
      match os.fopenWb target.tempPath (os.afterMountCheck target.storage p.os) with
      | (.error e, s) =>
        (none, ({ p with os := s }.setSession i { record with used := false }).setFileError os
          (utf8 "fopen") target.tempPath e)
      | (.ok fp, s) =>
        (some (), { p with os := s }.setSession i
          { target.session transferId relativePath fp with used := (p.sessions i).used }) := by
  have hrel : snprintf pathMaxLen relativePath = relativePath := snprintf_eq_self h.relative_lt
  have htemp : snprintf pathMaxLen (target.path ++ utf8 ".part") = target.path ++ utf8 ".part" :=
    snprintf_eq_self h.temp_lt
  have htemp_lt : ¬pathMaxLen ≤ (target.path ++ utf8 ".part").length := not_le.mpr h.temp_lt
  refine ⟨{ target.session transferId relativePath 0 with
    transferId := (p.sessions i).transferId, fp := none
    bytesWritten := (p.sessions i).bytesWritten, syncedBytes := (p.sessions i).syncedBytes }, ?_⟩
  have hperm := setSessionPerm_of_some
    { p.sessions i with applyPerm := false, fileMode := 0o644 } rfl rfl h.perm p
  have hstorage := checkUploadStorage_of h.desire h.writeable
  rw [beginSession]
  simp only [hperm, h.path, hstorage, hrel, htemp, if_neg (not_le.mpr h.relative_lt),
    if_neg htemp_lt]
  simp only [UploadTarget.tempPath, Proc.afterMountCheck]
  rcases os.fopenWb (target.path ++ utf8 ".part") (os.afterMountCheck target.storage p.os) with
    ⟨e | fp, s⟩
  · rfl
  · rfl

/-- A begin whose checks pass and whose `fopen` succeeds stores a fresh session. -/
private theorem beginSession_of_open {fp : ℕ} {s : σ} (hused : (p.sessions i).used = true)
    (h : UploadChecks os relativePath desireStorage perm p.os target)
    (hopen : os.fopenWb target.tempPath (os.afterMountCheck target.storage p.os) = (.ok fp, s)) :
    (beginSession os i transferId relativePath desireStorage perm).run p =
      (some (), { p with os := s }.setSession i (target.session transferId relativePath fp)) := by
  obtain ⟨record, hrun⟩ := beginSession_of_checks i transferId h
  rw [hrun, hopen, hused]
  rfl

/-- A begin whose checks pass and whose `fopen` fails gives the slot back. -/
private theorem beginSession_of_open_error {e : Errno} {s : σ}
    (h : UploadChecks os relativePath desireStorage perm p.os target)
    (hopen : os.fopenWb target.tempPath (os.afterMountCheck target.storage p.os) =
      (.error e, s)) :
    ∃ record msg, record.used = false ∧ OtherError msg ∧
      (beginSession os i transferId relativePath desireStorage perm).run p =
        (none, ({ p with os := s }.setSession i record).setLastError msg) := by
  obtain ⟨record, hrun⟩ := beginSession_of_checks i transferId h
  rw [hopen] at hrun
  refine ⟨{ record with used := false }, _, rfl, ?_, hrun⟩
  exact show some 102 ≠ some (110 : UInt8) by decide

/-- A begin whose checks do not pass gives the slot back, and at most read the mount table. -/
theorem beginSession_of_not_checks
    (h : ∀ target, ¬UploadChecks os relativePath desireStorage perm p.os target) :
    ∃ record s msg, record.used = false ∧ OtherError msg ∧
      (s = p.os ∨ s = (os.mountinfo p.os).2) ∧
      (beginSession os i transferId relativePath desireStorage perm).run p =
        (none, ({ p with os := s }.setSession i record).setLastError msg) := by
  rw [beginSession]
  cases hperm : uploadPerm os.ulongMax perm with
  | none =>
    simp only [setSessionPerm_of_none hperm]
    exact ⟨_, p.os, _, rfl, by decide, .inl rfl, rfl⟩
  | some pm =>
    have hset := setSessionPerm_of_some
      { p.sessions i with applyPerm := false, fileMode := 0o644 } rfl rfl hperm p
    simp only [hset]
    by_cases hstorage : ∃ storage, (buildPath relativePath pathMaxLen).2 = .ok storage ∧
      StorageMatches storage desireStorage ∧ StorageWriteable os storage p.os
    · obtain ⟨storage, hpath, hmatches, hwriteable⟩ := hstorage
      simp only [hpath, checkUploadStorage_of hmatches hwriteable]
      have hs : os.afterMountCheck storage p.os = p.os ∨
          os.afterMountCheck storage p.os = (os.mountinfo p.os).2 := by
        cases storage
        · exact .inl rfl
        · exact .inr rfl
      split_ifs with hrel htemp
      · exact ⟨_, _, _, rfl, by decide, hs, rfl⟩
      · exact ⟨_, _, _, rfl, by decide, hs, rfl⟩
      · -- all checks have passed, against the hypothesis
        exact absurd ⟨hperm, Prod.ext rfl hpath, hmatches, hwriteable, not_le.mp hrel,
          not_le.mp htemp⟩ (h ⟨(buildPath relativePath pathMaxLen).1, storage, pm.1, pm.2⟩)
    · have hnot : ∀ storage, (buildPath relativePath pathMaxLen).2 = .ok storage →
          StorageMatches storage desireStorage → ¬StorageWriteable os storage p.os :=
        fun storage hpath hmatches hwriteable =>
          hstorage ⟨storage, hpath, hmatches, hwriteable⟩
      obtain ⟨s, msg, hrun, hs, hmsg⟩ := checkUploadStorage_of_not hnot
      simp only [hrun]
      exact ⟨_, s, msg, rfl, hmsg, hs, rfl⟩

/-- The process in which a begin looks for a free slot: an old session of its id is aborted. -/
def beforeBegin (os : Os σ) (transferId : UInt32) (p : Proc σ) : Proc σ :=
  match findSession p.sessions transferId with
  | none => p
  | some _ => ((fileAbortUpload os transferId).run p).2

theorem fileBeginUpload_of_full (desireStorage perm : Option Bytes)
    (halloc : SlotTable.alloc UploadSession.key (beforeBegin os transferId p).sessions = none) :
    (fileBeginUpload os transferId relativePath desireStorage perm).run p =
      (none, (beforeBegin os transferId p).setLastError (utf8 "no free upload session")) := by
  rw [fileBeginUpload]
  dsimp only
  rw [← beforeBegin, allocSession, halloc]

/-- The slot is marked as used first. -/
theorem fileBeginUpload_of_slot (desireStorage perm : Option Bytes)
    (halloc : SlotTable.alloc UploadSession.key (beforeBegin os transferId p).sessions = some i) :
    (fileBeginUpload os transferId relativePath desireStorage perm).run p =
      (beginSession os i transferId relativePath desireStorage perm).run
        ((beforeBegin os transferId p).setSession i
          { (beforeBegin os transferId p).sessions i with used := true }) := by
  rw [fileBeginUpload]
  dsimp only
  rw [← beforeBegin, allocSession, halloc]

/-- Why a begin is refused although there is a free slot, and what it then did to the
outside: its checks do not pass, or they do and `fopen` fails. -/
def BeginRefused (os : Os σ) (relativePath : Bytes) (desireStorage perm : Option Bytes)
    (s s' : σ) : Prop :=
  ((∀ target, ¬UploadChecks os relativePath desireStorage perm s target) ∧
    (s' = s ∨ s' = (os.mountinfo s).2)) ∨
  ∃ target e, UploadChecks os relativePath desireStorage perm s target ∧
    os.fopenWb target.tempPath (os.afterMountCheck target.storage s) = (.error e, s')

/-- **What a begin can do.** It finds no slot; or it is refused, gives the slot back and
sets an error; or its checks pass, `fopen` succeeds and a fresh session is stored. -/
theorem fileBeginUpload_cases (os : Os σ) (transferId : UInt32) (relativePath : Bytes)
    (desireStorage perm : Option Bytes) (p : Proc σ) :
    let b := beforeBegin os transferId p
    let r := (fileBeginUpload os transferId relativePath desireStorage perm).run p
    (SlotTable.alloc UploadSession.key b.sessions = none ∧
      r = (none, b.setLastError (utf8 "no free upload session"))) ∨
    ∃ i, SlotTable.alloc UploadSession.key b.sessions = some i ∧
      ((∃ record s msg, record.used = false ∧ OtherError msg ∧
          BeginRefused os relativePath desireStorage perm b.os s ∧
          r = (none, ({ b with os := s }.setSession i record).setLastError msg)) ∨
        ∃ target fp s, UploadChecks os relativePath desireStorage perm b.os target ∧
          os.fopenWb target.tempPath (os.afterMountCheck target.storage b.os) = (.ok fp, s) ∧
          r = (some (),
            { b with os := s }.setSession i (target.session transferId relativePath fp))) := by
  intro b r
  cases halloc : SlotTable.alloc UploadSession.key b.sessions with
  | none => exact .inl ⟨rfl, fileBeginUpload_of_full transferId desireStorage perm halloc⟩
  | some i =>
    right
    refine ⟨i, rfl, ?_⟩
    -- the record stored at the end replaces the one that only marks the slot
    obtain ⟨q, hq⟩ : ∃ q, q = b.setSession i { b.sessions i with used := true } := ⟨_, rfl⟩
    have hrun : r = (beginSession os i transferId relativePath desireStorage perm).run q := by
      rw [hq]
      exact fileBeginUpload_of_slot i transferId desireStorage perm halloc
    have hos : q.os = b.os := by rw [hq, Proc.setSession_os]
    have hused : (q.sessions i).used = true := by
      rw [hq, Proc.setSession_sessions, Function.update_self]
    have hset : ∀ (s : σ) (record : UploadSession), { q with os := s }.setSession i record =
        { b with os := s }.setSession i record := by
      intro s record
      simp only [hq, Proc.setSession, Function.update_idem]
    by_cases hchecks : ∃ target, UploadChecks os relativePath desireStorage perm q.os target
    · obtain ⟨target, hchecks⟩ := hchecks
      rcases hopen : os.fopenWb target.tempPath (os.afterMountCheck target.storage q.os) with
        ⟨e | fp, s⟩
      · obtain ⟨record, msg, hrecord, hmsg, hbegin⟩ := beginSession_of_open_error i transferId
          hchecks hopen
        rw [hos] at hchecks hopen
        exact .inl ⟨record, s, msg, hrecord, hmsg, .inr ⟨target, e, hchecks, hopen⟩, by
          rw [hrun, hbegin, hset]⟩
      · have hbegin := beginSession_of_open i transferId hused hchecks hopen
        rw [hos] at hchecks hopen
        exact .inr ⟨target, fp, s, hchecks, hopen, by rw [hrun, hbegin, hset]⟩
    · obtain ⟨record, s, msg, hrecord, hmsg, hs, hbegin⟩ := beginSession_of_not_checks i transferId
        (not_exists.mp hchecks)
      rw [hos] at hs hchecks
      exact .inl ⟨record, s, msg, hrecord, hmsg, .inl ⟨not_exists.mp hchecks, hs⟩, by
        rw [hrun, hbegin, hset]⟩

end Begin

end UsbResponder
