import UsbResponder.Base.OwnedResources
import UsbResponder.FileOps.OpenUpload
import UsbResponder.FileOps.SessionTable

/-!
# Temporary files

Every accepted begin creates the temporary file of its upload, and every way an upload ends,
a finish that succeeds or fails, an abort, a begin of the same id or the shutdown, renames
or removes it before the session is wiped. So a temporary file that exists belongs to a live
session, as long as no upload has the temporary path of another one, or its own, as its
final path.

The outside world is any in which the calls do to the set of existing files what they are
documented to do, and in which removing a file does not fail (`FileCalls`); whether the
other calls succeed is left open. `fileCalls_scripted` is the file system of
`UsbResponder.System.FileSystem` with outcomes that differ from call to call. The main
result is `no_orphaned_temp_files`.

The invariant `TempsOwned` speaks of the paths begun so far only: files that were there
before, and happen to have the name of a temporary file, are nobody's. It has three rules,
for a session that ends, one that begins and one that goes on, and every call of a session
function is one of these or a sequence of two.
-/

namespace UsbResponder

open CString OwnedResources

variable {σ : Type} {os : Os σ} {files : σ → Set Bytes} {p p' : Proc σ} {paths : Set Bytes}
  {i : Fin maxUploadSessions} {transferId : UInt32}

/-! ### The set of existing files -/

/-- What the calls of the session functions do to the set of existing files. Removing a file
does not fail; all other calls may. A rename that succeeds takes the name at the source away
and gives it to the target. -/
structure FileCalls (os : Os σ) (files : σ → Set Bytes) : Prop where
  mountinfo : ∀ s, files (os.mountinfo s).2 = files s
  fopenWb_ok : ∀ path s fp s', os.fopenWb path s = (.ok fp, s') → files s' = insert path (files s)
  fopenWb_error : ∀ path s e s', os.fopenWb path s = (.error e, s') → files s' = files s
  fwrite : ∀ fp data s, files (os.fwrite fp data s).2 = files s
  fflush : ∀ fp s, files (os.fflush fp s).2 = files s
  fsync : ∀ fp s, files (os.fsync fp s).2 = files s
  fclose : ∀ fp s, files (os.fclose fp s).2 = files s
  rename_ok : ∀ src dst s s', src ≠ dst → os.rename src dst s = (none, s') →
    files s' = insert dst (files s \ {src})
  rename_error : ∀ src dst s e s', os.rename src dst s = (some e, s') → files s' = files s
  chmod : ∀ path mode s, files (os.chmod path mode s).2 = files s
  unlink : ∀ path s, files (os.unlink path s).2 = files s \ {path}

theorem FileCalls.closeStream (h : FileCalls os files) (fp : Option ℕ) (p : Proc σ) :
    files (closeStream os fp p).os = files p.os := by
  cases fp with
  | none => rfl
  | some fp => exact h.fclose fp p.os

theorem FileCalls.unlinkPath (h : FileCalls os files) (path : Bytes) (p : Proc σ) :
    files (unlinkPath os path p).os = files p.os \ {path} :=
  h.unlink path p.os

theorem FileCalls.uploadPaceWriteback (h : FileCalls os files) (fp : Option ℕ)
    (p : Proc σ) :
    files (uploadPaceWriteback os fp p).os = files p.os := by
  cases fp with
  | none => rfl
  | some fp =>
    have hflush := h.fflush fp p.os
    rw [UsbResponder.uploadPaceWriteback]
    rcases hrun : os.fflush fp p.os with ⟨_ | e, s⟩
    · rw [hrun] at hflush
      exact (h.fsync fp s).trans hflush
    · rw [hrun] at hflush
      exact hflush

/-- A chunk creates and removes no file. What it writes goes to a file that is there. -/
theorem FileCalls.append (h : FileCalls os files) (transferId : UInt32) (data : Bytes)
    (p : Proc σ) :
    files ((fileAppendUploadChunk os transferId data).run p).2.os = files p.os := by
  rw [fileAppendUploadChunk]
  dsimp only
  split_ifs with hdata
  · rfl
  cases findSession p.sessions transferId with
  | none => rfl
  | some i =>
    dsimp only
    cases hfp : (p.sessions i).fp with
    | none => rfl
    | some fp =>
      have hfwrite := h.fwrite fp data p.os
      rcases os.fwrite fp data p.os with ⟨⟨written, e⟩, s⟩
      dsimp only at hfwrite ⊢
      split_ifs
      · exact hfwrite
      · exact (h.uploadPaceWriteback _ _).trans hfwrite
      · exact hfwrite

/-- After an abort the temporary file is gone, and no other file has come or gone. -/
theorem FileCalls.abort (h : FileCalls os files)
    (hfind : findSession p.sessions transferId = some i) :
    files ((fileAbortUpload os transferId).run p).2.os =
      files p.os \ {(p.sessions i).tempPath} := by
  rw [fileAbortUpload_of_some hfind]
  exact (h.unlinkPath _ _).trans (by rw [h.closeStream])

/-- After a finish the temporary file is gone, and no file has come but the final one. If
the rename has failed, the temporary file was removed instead. -/
theorem FileCalls.finish (h : FileCalls os files)
    (hfind : findSession p.sessions transferId = some i)
    (hne : (p.sessions i).tempPath ≠ (p.sessions i).finalPath) {q : Bytes}
    (hq : q ∈ files ((fileFinishUpload os transferId).run p).2.os) :
    q = (p.sessions i).finalPath ∨ q ∈ files p.os ∧ q ≠ (p.sessions i).tempPath := by
  have hclose := h.closeStream (p.sessions i).fp p
  simp only [fileFinishUpload, hfind] at hq
  rcases hrename : os.rename (p.sessions i).tempPath (p.sessions i).finalPath
    (UsbResponder.closeStream os (p.sessions i).fp p).os with ⟨_ | e, s⟩
  · -- the temporary file has become the final one
    have hs := h.rename_ok _ _ _ _ hne hrename
    rw [hclose] at hs
    simp only [hrename] at hq
    have hmoved : q ∈ files s → q = (p.sessions i).finalPath ∨
        q ∈ files p.os ∧ q ≠ (p.sessions i).tempPath := by
      rw [hs]
      exact fun hmem => hmem
    split_ifs at hq
    · have hchmod := h.chmod (p.sessions i).finalPath (p.sessions i).fileMode s
      rcases hrun : os.chmod (p.sessions i).finalPath (p.sessions i).fileMode s with ⟨_ | e, s'⟩
      · rw [hrun] at hchmod
        simp only [hrun] at hq
        exact hmoved (hchmod ▸ hq)
      · -- `chmod` failed, so the final file is removed
        rw [hrun] at hchmod
        simp only [hrun] at hq
        have hremoved := h.unlinkPath (p.sessions i).finalPath (({ UsbResponder.closeStream os
          (p.sessions i).fp p with os := s' } : Proc σ).setFileError os (utf8 "chmod")
            (p.sessions i).finalPath e)
        have hq' := hremoved ▸ hq
        exact hmoved (hchmod ▸ hq'.1)
    · exact hmoved hq
  · -- no file has moved, and the temporary one is removed
    have hs := h.rename_error _ _ _ _ _ hrename
    rw [hclose] at hs
    simp only [hrename] at hq
    have hremoved := h.unlinkPath (p.sessions i).tempPath (({ UsbResponder.closeStream os
      (p.sessions i).fp p with os := s } : Proc σ).setFileError os (utf8 "rename")
        (p.sessions i).finalPath e)
    have hq' := hremoved ▸ hq
    exact .inr ⟨hs ▸ hq'.1, hq'.2⟩

/-! ### The file system -/

/-- A file system with the outcomes of the calls to come. No call fails to remove a file. -/
abbrev ScriptedFs := Fs × (ℕ → {f : Faults // f.unlink = none})

/-- A call whose outcome is the first of those to come. -/
def ScriptedFs.call {α : Type} (run : Faults → Fs → α × Fs) (w : ScriptedFs) : α × ScriptedFs :=
  ((run (w.2 0) w.1).1, (run (w.2 0) w.1).2, fun n => w.2 (n + 1))

/-- The system calls of the file system, every call with its own outcome. -/
def Os.scripted (os : Os ScriptedFs) : Os ScriptedFs :=
  { os.withMountinfo fun w => w.1.mountinfo with
    fopenWb := fun path => ScriptedFs.call fun f => Fs.fopenWb f path
    fwrite := fun fp data => ScriptedFs.call fun f => Fs.fwrite f fp data
    fflush := fun fp => ScriptedFs.call fun f => Fs.fflush f fp
    fsync := fun _ => ScriptedFs.call fun f fs => (f.fsync, fs)
    fclose := fun fp => ScriptedFs.call fun f => Fs.fclose f fp
    rename := fun src dst => ScriptedFs.call fun f => Fs.rename f src dst
    chmod := fun _ _ => ScriptedFs.call fun f fs => (f.chmod, fs)
    unlink := fun path => ScriptedFs.call fun f => Fs.unlink f path }

private theorem Os.scripted_mountinfo (os : Os ScriptedFs) (w : ScriptedFs) :
    os.scripted.mountinfo w = (w.1.mountinfo, w) :=
  os.withMountinfo_mountinfo (fun w => w.1.mountinfo) w

/-- The paths of the files that exist. What they hold plays no role here. -/
def Fs.existing (fs : Fs) : Set Bytes := {path | fs.files path ≠ none}

private theorem Fs.existing_flush (fs : Fs) (fp n : ℕ) : (fs.flush fp n).existing =
    fs.existing := by
  rw [Fs.flush]
  cases fs.streams fp with
  | none => rfl
  | some st =>
    dsimp only
    cases st.path with
    | none => rfl
    | some path =>
      ext q
      by_cases hq : q = path
      · simp [Fs.existing, hq]
      · simp [Fs.existing, hq]

private theorem Fs.existing_fopenWb {f : Faults} {path : Bytes} {fs : Fs} :
    (Fs.fopenWb f path fs).2.existing =
      if f.fopen = none then insert path fs.existing else fs.existing := by
  rw [Fs.fopenWb]
  cases f.fopen with
  | some e => rfl
  | none =>
    ext q
    by_cases hq : q = path
    · simp [Fs.existing, hq]
    · simp [Fs.existing, hq]

private theorem Fs.existing_rename {f : Faults} {src dst : Bytes} {fs : Fs} :
    (Fs.rename f src dst fs).2.existing =
      if (Fs.rename f src dst fs).1 = none then insert dst (fs.existing \ {src})
      else fs.existing := by
  rw [Fs.rename]
  cases f.rename with
  | some e => rfl
  | none =>
    cases hsrc : fs.files src with
    | none => rfl
    | some content =>
      ext q
      by_cases hdst : q = dst
      · simp [Fs.existing, hdst]
      · by_cases hq : q = src
        · simp [Fs.existing, hq, Function.update_apply]
        · simp [Fs.existing, hdst, hq, Function.update_apply]

private theorem Fs.existing_unlink {f : Faults} (hunlink : f.unlink = none) (path : Bytes)
    (fs : Fs) : (Fs.unlink f path fs).2.existing = fs.existing \ {path} := by
  rw [Fs.unlink, hunlink]
  cases hfile : fs.files path with
  | none => exact (Set.sdiff_singleton_eq_self (by simp [Fs.existing, hfile])).symm
  | some content =>
    ext q
    by_cases hq : q = path
    · simp [Fs.existing, hq]
    · simp [Fs.existing, hq]

/-- The calls of the file system do to its files what they are documented to do. -/
theorem fileCalls_scripted (os : Os ScriptedFs) :
    FileCalls os.scripted fun w => w.1.existing where
  mountinfo w := by rw [os.scripted_mountinfo]
  fopenWb_ok := by
    rintro path w fp w' hopen
    obtain ⟨hresult, rfl⟩ := Prod.mk.inj hopen
    refine Fs.existing_fopenWb.trans (if_pos ?_)
    by_contra hfault
    obtain ⟨e, he⟩ := Option.ne_none_iff_exists'.mp hfault
    simp [Fs.fopenWb_of_error he] at hresult
  fopenWb_error := by
    rintro path w e w' hopen
    obtain ⟨hresult, rfl⟩ := Prod.mk.inj hopen
    refine Fs.existing_fopenWb.trans (if_neg fun hfault => ?_)
    obtain ⟨fs', hrun, -⟩ := Fs.fopenWb_of_ok hfault path w.1
    simp [hrun] at hresult
  fwrite fp data w := by
    change (Fs.fwrite (w.2 0) fp data w.1).2.existing = w.1.existing
    rw [Fs.fwrite]
    split_ifs
    · exact Fs.existing_flush _ fp _
    · exact Fs.existing_flush _ fp _
  fflush fp w := by
    change (Fs.fflush (w.2 0) fp w.1).2.existing = w.1.existing
    rw [Fs.fflush]
    split
    · exact Fs.existing_flush _ _ _
    · exact Fs.existing_flush _ _ _
  fsync _ _ := rfl
  fclose fp w := Fs.existing_flush w.1 fp _
  rename_ok := by
    rintro src dst w w' - hrename
    obtain ⟨hresult, rfl⟩ := Prod.mk.inj hrename
    exact Fs.existing_rename.trans (if_pos hresult)
  rename_error := by
    rintro src dst w e w' hrename
    obtain ⟨hresult, rfl⟩ := Prod.mk.inj hrename
    exact Fs.existing_rename.trans (if_neg (by rw [hresult]; simp))
  chmod _ _ _ := rfl
  unlink path w := Fs.existing_unlink (w.2 0).2 path w.1

/-! ### The invariant -/

/-- The temporary path that belongs to a final path. -/
def partPath (path : Bytes) : Bytes := path ++ utf8 ".part"

/-- The temporary file a session holds, if it is live. -/
def UploadSession.temp? (session : UploadSession) : Option Bytes :=
  if session.used then some session.tempPath else none

private theorem UploadSession.temp?_eq_some_iff {session : UploadSession} {path : Bytes} :
    session.temp? = some path ↔ session.used = true ∧ session.tempPath = path := by
  rw [UploadSession.temp?]
  split_ifs with hused
  · simp [hused]
  · simp [hused]

private theorem UploadSession.temp?_of_free {session : UploadSession} (h : session.used = false) :
    session.temp? = none := by
  rw [UploadSession.temp?, if_neg (by rw [h]; exact Bool.false_ne_true)]

private theorem temp?_update (sessions : FileOps) (i : Fin maxUploadSessions)
    (record : UploadSession) : (fun j => (Function.update sessions i record j).temp?) =
      Function.update (fun j => (sessions j).temp?) i record.temp? :=
  Function.comp_update UploadSession.temp? sessions i record

/-- No temporary path is a final path. Without this an upload to `a.part` would be in the
way of one to `a`. -/
def NoClash (paths : Set Bytes) : Prop := ∀ path ∈ paths, partPath path ∉ paths

/-- Every live session is an upload to one of `paths`, and every temporary file of these
that exists is that of a live session. This is the invariant. -/
structure TempsOwned (files : σ → Set Bytes) (paths : Set Bytes) (p : Proc σ) : Prop where
  named : ∀ i, (p.sessions i).used = true →
    (p.sessions i).finalPath ∈ paths ∧ (p.sessions i).tempPath = partPath (p.sessions i).finalPath
  owned : Owned (fun i => (p.sessions i).temp?) (partPath '' paths) (files p.os)

/-- Any state with an empty table, when nothing has been uploaded. -/
theorem TempsOwned.init (files : σ → Set Bytes) (lastError : Bytes) (s : σ) :
    TempsOwned files ∅ ⟨fileOpsInit, lastError, s⟩ where
  named := fun i hi => by simp [fileOpsInit] at hi
  owned := by
    rw [Set.image_empty]
    exact owned_empty _ _

/-- A session ends when its temporary file has gone: it was renamed or removed before the
slot is given back. -/
theorem TempsOwned.reset (h : TempsOwned files paths p) {record : UploadSession}
    (hfree : record.used = false) (hsessions : p'.sessions = Function.update p.sessions i record)
    (hfiles : ∀ path ∈ paths, partPath path ∈ files p'.os →
      partPath path ∈ files p.os ∧ (p.sessions i).temp? ≠ some (partPath path)) :
    TempsOwned files paths p' where
  named := by
    intro j hj
    rw [hsessions] at hj ⊢
    by_cases hji : j = i
    · rw [hji, Function.update_self, hfree] at hj
      exact absurd hj Bool.false_ne_true
    · rw [Function.update_of_ne hji] at hj ⊢
      exact h.named j hj
  owned := by
    rw [hsessions, temp?_update, UploadSession.temp?_of_free hfree]
    refine h.owned.release ?_
    rintro _ ⟨path, hpath, rfl⟩ hmem
    exact hfiles path hpath hmem

/-- A session begins in a free slot with the file it creates. -/
theorem TempsOwned.store (h : TempsOwned files paths p) {record : UploadSession}
    (hfree : (p.sessions i).used = false) (hused : record.used = true)
    (htemp : record.tempPath = partPath record.finalPath)
    (hsessions : p'.sessions = Function.update p.sessions i record)
    (hfiles : files p'.os = insert record.tempPath (files p.os)) :
    TempsOwned files (insert record.finalPath paths) p' where
  named := by
    intro j hj
    rw [hsessions] at hj ⊢
    by_cases hji : j = i
    · rw [hji, Function.update_self]
      exact ⟨Set.mem_insert _ _, htemp⟩
    · rw [Function.update_of_ne hji] at hj ⊢
      exact ⟨Set.mem_insert_of_mem _ (h.named j hj).1, (h.named j hj).2⟩
  owned := by
    rw [hsessions, temp?_update, UploadSession.temp?_eq_some_iff.mpr ⟨hused, htemp⟩,
      Set.image_insert_eq]
    refine h.owned.acquire (UploadSession.temp?_of_free hfree) fun q _ hmem => ?_
    rwa [hfiles, htemp] at hmem

/-- A call that keeps the paths of the live sessions and creates no file. -/
theorem TempsOwned.keep (h : TempsOwned files paths p)
    (hused : ∀ i, (p'.sessions i).used = (p.sessions i).used)
    (htemp : ∀ i, (p'.sessions i).tempPath = (p.sessions i).tempPath)
    (hfinal : ∀ i, (p'.sessions i).finalPath = (p.sessions i).finalPath)
    (hfiles : files p'.os ⊆ files p.os) : TempsOwned files paths p' where
  named := by
    intro i hi
    rw [hfinal, htemp]
    exact h.named i (by rw [← hused, hi])
  owned := by
    have hheld : (fun i => (p'.sessions i).temp?) = fun i => (p.sessions i).temp? := by
      funext i
      rw [UploadSession.temp?, hused, htemp, UploadSession.temp?]
    rw [hheld]
    exact h.owned.mono fun _ _ hmem => hfiles hmem

/-! ### What a call does to it -/

theorem TempsOwned.abort (h : TempsOwned files paths p) (hcalls : FileCalls os files)
    (transferId : UInt32) :
    TempsOwned files paths ((fileAbortUpload os transferId).run p).2 := by
  cases hfind : findSession p.sessions transferId with
  | none =>
    rw [fileAbortUpload_of_none hfind]
    exact h
  | some i =>
    have hfiles := hcalls.abort hfind
    refine h.reset (i := i) (show ({} : UploadSession).used = false from rfl) ?_
      fun path _ hmem => ?_
    · rw [fileAbortUpload_of_some hfind, Proc.setSession_sessions, unlinkPath_sessions,
        closeStream_sessions]
    · rw [hfiles] at hmem
      refine ⟨hmem.1, fun htemp => hmem.2 ?_⟩
      exact (UploadSession.temp?_eq_some_iff.mp htemp).2.symm

theorem TempsOwned.finish (h : TempsOwned files paths p) (hcalls : FileCalls os files)
    (hclash : NoClash paths) (transferId : UInt32) :
    TempsOwned files paths ((fileFinishUpload os transferId).run p).2 := by
  cases hfind : findSession p.sessions transferId with
  | none =>
    simp only [fileFinishUpload, hfind]
    exact h.keep (fun _ => rfl) (fun _ => rfl) (fun _ => rfl) subset_rfl
  | some i =>
    obtain ⟨hused, -⟩ := UploadSession.key_eq_some_iff.mp (key_of_findSession hfind)
    obtain ⟨hfinal, htemp⟩ := h.named i hused
    have hne : (p.sessions i).tempPath ≠ (p.sessions i).finalPath := by
      rw [htemp]
      exact fun heq => hclash _ hfinal (by rw [heq]; exact hfinal)
    refine h.reset (show ({} : UploadSession).used = false from rfl)
      (fileFinishUpload_sessions hfind) fun path hpath hmem => ?_
    -- the file that appears is a final one
    obtain heq | ⟨hold, hgone⟩ := hcalls.finish hfind hne hmem
    · exact absurd (by rw [heq]; exact hfinal) (hclash path hpath)
    · exact ⟨hold, fun hheld => hgone (UploadSession.temp?_eq_some_iff.mp hheld).2.symm⟩

theorem TempsOwned.append (h : TempsOwned files paths p) (hcalls : FileCalls os files)
    (transferId : UInt32) (data : Bytes) :
    TempsOwned files paths ((fileAppendUploadChunk os transferId data).run p).2 := by
  have hfiles := (hcalls.append transferId data p).subset
  obtain ⟨-, hsessions⟩ | ⟨-, i, -, hsessions⟩ :=
    fileAppendUploadChunk_sessions os transferId data p
  · exact h.keep (fun _ => by rw [hsessions]) (fun _ => by rw [hsessions])
      (fun _ => by rw [hsessions]) hfiles
  · -- only the byte counters of the record change
    have hslot : ∀ {α : Type} (f : UploadSession → α), (∀ (session : UploadSession) written synced,
        f { session with bytesWritten := written, syncedBytes := synced } = f session) → ∀ j,
        f (((fileAppendUploadChunk os transferId data).run p).2.sessions j) =
          f (p.sessions j) := by
      intro α f hf j
      rw [hsessions]
      by_cases hj : j = i
      · rw [hj, Function.update_self, UploadSession.taking, hf]
      · rw [Function.update_of_ne hj]
    exact h.keep (hslot _ fun _ _ _ => rfl) (hslot _ fun _ _ _ => rfl) (hslot _ fun _ _ _ => rfl)
      hfiles

/-- The path a call has begun an upload to: that of a begin which succeeds. -/
def UploadCall.acceptedPath (os : Os σ) (p : Proc σ) : UploadCall → Set Bytes
  | .begin transferId relativePath desireStorage perm =>
    {path | ((fileBeginUpload os transferId relativePath desireStorage perm).run p).1 = some () ∧
      path = (buildPath relativePath pathMaxLen).1}
  | .append .. => ∅
  | .finish _ => ∅
  | .abort _ => ∅

theorem TempsOwned.beforeBegin (h : TempsOwned files paths p) (hcalls : FileCalls os files)
    (transferId : UInt32) :
    TempsOwned files paths (UsbResponder.beforeBegin os transferId p) := by
  rw [UsbResponder.beforeBegin]
  cases findSession p.sessions transferId with
  | none => exact h
  | some _ => exact h.abort hcalls transferId

theorem FileCalls.afterMountCheck (h : FileCalls os files) (storage : Storage) (s : σ) :
    files (os.afterMountCheck storage s) = files s := by
  cases storage with
  | nand => rfl
  | sd => exact h.mountinfo s

/-- A begin that is refused creates no file: the `fopen` comes last, and if that fails there
is nothing to remove. -/
theorem FileCalls.refused (h : FileCalls os files) {relativePath : Bytes}
    {desireStorage perm : Option Bytes} {s s' : σ}
    (hwhy : BeginRefused os relativePath desireStorage perm s s') : files s' = files s := by
  obtain ⟨-, rfl | rfl⟩ | ⟨target, e, -, herror⟩ := hwhy
  · rfl
  · exact h.mountinfo s
  · rw [h.fopenWb_error _ _ _ _ herror, h.afterMountCheck]

theorem TempsOwned.begin (h : TempsOwned files paths p) (hcalls : FileCalls os files)
    (transferId : UInt32) (relativePath : Bytes) (desireStorage perm : Option Bytes) :
    TempsOwned files
      (paths ∪ (UploadCall.begin transferId relativePath desireStorage perm).acceptedPath os p)
      ((fileBeginUpload os transferId relativePath desireStorage perm).run p).2 := by
  have hbefore := h.beforeBegin hcalls transferId
  have hrefused : ((fileBeginUpload os transferId relativePath desireStorage perm).run p).1 = none →
      paths ∪ (UploadCall.begin transferId relativePath desireStorage perm).acceptedPath os p =
        paths := by
    intro hnone
    simp [UploadCall.acceptedPath, hnone]
  obtain ⟨-, hrun⟩ | ⟨i, halloc, hslot⟩ :=
    fileBeginUpload_cases os transferId relativePath desireStorage perm p
  · rw [hrefused (by rw [hrun]), hrun]
    exact hbefore.keep (fun _ => rfl) (fun _ => rfl) (fun _ => rfl) subset_rfl
  have hfree : ((UsbResponder.beforeBegin os transferId p).sessions i).used = false :=
    UploadSession.key_eq_none_iff.mp (SlotTable.key_of_alloc halloc)
  obtain ⟨record, s, msg, hrecord, -, hwhy, hrun⟩ | ⟨target, fp, s, hchecks, hopen, hrun⟩ := hslot
  · -- refused: no file was created, and the slot was free already
    rw [hrefused (by rw [hrun]), hrun]
    refine hbefore.reset (i := i) hrecord rfl fun path _ hmem => ⟨?_, ?_⟩
    · rw [← hcalls.refused hwhy]
      exact hmem
    · rw [UploadSession.temp?_of_free hfree]
      exact (Option.some_ne_none _).symm
  · -- accepted: the new file is that of the new session
    have hpaths : paths ∪ (UploadCall.begin transferId relativePath desireStorage
        perm).acceptedPath os p = insert target.path paths := by
      rw [Set.union_comm, Set.insert_eq]
      congr 1
      ext path
      simp only [UploadCall.acceptedPath, Set.mem_ofPred_eq, hrun, true_and, hchecks.path,
        Set.mem_singleton_iff]
    rw [hpaths, hrun]
    have hcreated := hcalls.fopenWb_ok _ _ _ _ hopen
    rw [hcalls.afterMountCheck] at hcreated
    have hstored : (target.session transferId relativePath fp).used = true := rfl
    exact hbefore.store hfree hstored rfl rfl hcreated

/-- **One call.** It keeps the invariant, for the paths begun so far. -/
theorem TempsOwned.call (h : TempsOwned files paths p) (hcalls : FileCalls os files)
    (call : UploadCall) (hclash : NoClash (paths ∪ call.acceptedPath os p)) :
    TempsOwned files (paths ∪ call.acceptedPath os p) ((call.op os).run p).2 := by
  cases call with
  | «begin» transferId relativePath desireStorage perm =>
    exact h.begin hcalls transferId relativePath desireStorage perm
  | append transferId data =>
    rw [UploadCall.acceptedPath, Set.union_empty]
    exact h.append hcalls transferId data
  | finish transferId =>
    rw [UploadCall.acceptedPath, Set.union_empty] at hclash ⊢
    exact h.finish hcalls hclash transferId
  | abort transferId =>
    rw [UploadCall.acceptedPath, Set.union_empty]
    exact h.abort hcalls transferId

/-! ### Runs and the shutdown -/

/-- The paths to which a run of calls has begun uploads. Begins that were refused do not
count. -/
def acceptedPaths (os : Os σ) : List UploadCall → Proc σ → Set Bytes
  | [], _ => ∅
  | call :: calls, p => call.acceptedPath os p ∪ acceptedPaths os calls ((call.op os).run p).2

private theorem acceptedPaths_append (os : Os σ) (pre post : List UploadCall) (p : Proc σ) :
    acceptedPaths os (pre ++ post) p =
      acceptedPaths os pre p ∪ acceptedPaths os post (runCalls os pre p) := by
  induction pre generalizing p with
  | nil => rw [List.nil_append, acceptedPaths, Set.empty_union, runCalls, List.foldl_nil]
  | cons call pre ih =>
    rw [List.cons_append, acceptedPaths, ih, acceptedPaths, Set.union_assoc]
    rfl

/-- The invariant holds after any calls. -/
theorem TempsOwned.runCalls (h : TempsOwned files paths p) (hcalls : FileCalls os files)
    {calls : List UploadCall} (hclash : NoClash (paths ∪ acceptedPaths os calls p)) :
    TempsOwned files (paths ∪ acceptedPaths os calls p) (runCalls os calls p) := by
  induction calls generalizing paths p with
  | nil =>
    rw [acceptedPaths, Set.union_empty]
    exact h
  | cons call calls ih =>
    rw [acceptedPaths, ← Set.union_assoc] at hclash ⊢
    refine ih (h.call hcalls call fun path hpath hpart => ?_) hclash
    exact hclash path (.inl hpath) (.inl hpart)

/-- The shutdown removes the temporary file of every live session. The induction is on the
slots that are still to come. -/
theorem FileCalls.shutdown (h : FileCalls os files) (p : Proc σ) {q : Bytes}
    (hq : q ∈ files (fileOpsShutdown os p).os) :
    q ∈ files p.os ∧ ∀ i, (p.sessions i).temp? ≠ some q := by
  -- the slots passed so far hold nothing that exists any more
  have hloop : ∀ (slots : List (Fin maxUploadSessions)) (p' : Proc σ), p'.sessions = p.sessions →
      q ∈ files (slots.foldl (fun p i =>
        if (p.sessions i).used then
          UsbResponder.unlinkPath os (p.sessions i).tempPath
            (UsbResponder.closeStream os (p.sessions i).fp p)
        else p) p').os →
      q ∈ files p'.os ∧ ∀ i ∈ slots, (p.sessions i).temp? ≠ some q := by
    intro slots
    induction slots with
    | nil => exact fun p' _ hmem => ⟨hmem, by simp⟩
    | cons i slots ih =>
      intro p' hsessions hmem
      rw [List.foldl_cons, hsessions] at hmem
      split_ifs at hmem with hused
      · obtain ⟨hrest, hslots⟩ := ih _ (by simp [hsessions]) hmem
        rw [h.unlinkPath, h.closeStream] at hrest
        refine ⟨hrest.1, List.forall_mem_cons.mpr ⟨fun htemp => hrest.2 ?_, hslots⟩⟩
        exact (UploadSession.temp?_eq_some_iff.mp htemp).2.symm
      · obtain ⟨hrest, hslots⟩ := ih _ hsessions hmem
        refine ⟨hrest, List.forall_mem_cons.mpr ⟨fun htemp => hused ?_, hslots⟩⟩
        exact (UploadSession.temp?_eq_some_iff.mp htemp).1
  obtain ⟨hmem, hslots⟩ := hloop (List.finRange maxUploadSessions) p rfl hq
  exact ⟨hmem, fun i => hslots i (List.mem_finRange i)⟩

/-- **No orphaned temporary files.** Take any run of begins, chunks, finishes and aborts
from an empty session table, with any results of the checks and any outcomes of the system
calls but that removing a file does not fail, in which no upload begun has the temporary
path of one as its final path. At every point of the run, a temporary file that a begin has
created and that exists is the temporary file of a live session; and after the shutdown
there is none. -/
theorem no_orphaned_temp_files (hcalls : FileCalls os files) (calls : List UploadCall)
    (lastError : Bytes) (s : σ)
    (hclash : NoClash (acceptedPaths os calls ⟨fileOpsInit, lastError, s⟩)) :
    let start : Proc σ := ⟨fileOpsInit, lastError, s⟩
    (∀ pre, pre <+: calls → ∀ path ∈ acceptedPaths os pre start,
      partPath path ∈ files (runCalls os pre start).os →
      ∃ i, ((runCalls os pre start).sessions i).used = true ∧
        ((runCalls os pre start).sessions i).tempPath = partPath path) ∧
    ∀ path ∈ acceptedPaths os calls start,
      partPath path ∉ files (fileOpsShutdown os (runCalls os calls start)).os := by
  intro start
  have hrun : ∀ pre, pre <+: calls →
      TempsOwned files (acceptedPaths os pre start) (runCalls os pre start) := by
    rintro pre ⟨post, rfl⟩
    rw [acceptedPaths_append] at hclash
    have hclash' : NoClash (∅ ∪ acceptedPaths os pre start) := by
      rw [Set.empty_union]
      exact fun path hpath hpart => hclash path (.inl hpath) (.inl hpart)
    have hpre := (TempsOwned.init files lastError s).runCalls hcalls hclash'
    rwa [Set.empty_union] at hpre
  refine ⟨fun pre hpre path hpath hmem => ?_, fun path hpath => ?_⟩
  · obtain ⟨i, hi⟩ := (hrun pre hpre).owned _ ⟨path, hpath, rfl⟩ hmem
    exact ⟨i, UploadSession.temp?_eq_some_iff.mp hi⟩
  · exact (hrun calls (List.prefix_refl calls)).owned.releaseAll (fun _ _ => hcalls.shutdown _)
      _ ⟨path, hpath, rfl⟩

/-- The outcomes of a run in which the fourth call, a `rename`, fails. -/
def renameFails : ℕ → {f : Faults // f.unlink = none} := fun n =>
  if n = 3 then ⟨{ rename := some 28 }, rfl⟩ else ⟨{}, rfl⟩

/-- Two uploads, of which the first one cannot be finished. -/
def twoUploads : List UploadCall :=
  [.begin 1 (utf8 "a") none none, .append 1 (utf8 "x"), .finish 1, .begin 2 (utf8 "b") none none]

/-- `no_orphaned_temp_files` for these two uploads on the empty file system. -/
theorem no_orphaned_temp_files_two :
    let os := (Os.failing ScriptedFs).scripted
    let start : Proc ScriptedFs := ⟨fileOpsInit, [], Fs.empty, renameFails⟩
    (∀ pre, pre <+: twoUploads → ∀ path ∈ acceptedPaths os pre start,
      partPath path ∈ (runCalls os pre start).os.1.existing →
      ∃ i, ((runCalls os pre start).sessions i).used = true ∧
        ((runCalls os pre start).sessions i).tempPath = partPath path) ∧
    ∀ path ∈ acceptedPaths os twoUploads start,
      partPath path ∉ (fileOpsShutdown os (runCalls os twoUploads start)).os.1.existing := by
  refine no_orphaned_temp_files (fileCalls_scripted _) twoUploads [] (Fs.empty, renameFails) ?_
  have hpaths : ∀ path ∈ acceptedPaths (Os.failing ScriptedFs).scripted twoUploads
      ⟨fileOpsInit, [], Fs.empty, renameFails⟩, path = utf8 "/a" ∨ path = utf8 "/b" := by
    rintro path (⟨-, rfl⟩ | hpath | hpath | ⟨-, rfl⟩ | hpath)
    · exact .inl (by decide)
    · exact absurd hpath (Set.notMem_empty _)
    · exact absurd hpath (Set.notMem_empty _)
    · exact .inr (by decide)
    · exact absurd hpath (Set.notMem_empty _)
  intro path hpath hpart
  obtain rfl | rfl := hpaths path hpath
  · exact absurd (hpaths _ hpart) (by decide)
  · exact absurd (hpaths _ hpart) (by decide)

end UsbResponder
