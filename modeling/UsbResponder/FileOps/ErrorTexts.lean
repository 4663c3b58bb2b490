import UsbResponder.Base.Utf8
import UsbResponder.FileOps.MakeDirectories
import UsbResponder.FileOps.OpenUpload

/-!
# What an error is about

An operation that fails leaves a text in the buffer of the last error: one of the messages
of the source, or the name of a library function, the path it was called for and the text of
`errno`. `Told os calls` are the texts of the buffer when the calls that may be named are
those of `calls`, and for every operation whose errors reach the host there is such a set.
It depends on the request and the sessions, not on the outside.

The operations tell no others: the theorems of the last sections say so for every outcome of
the system calls. They follow the text of the operation with two rules for sequencing; the
second, `Tells.bind_of_run`, is for steps whose possible errors depend on what the step
before delivered, which is how a path gets into a set of calls.

The sets are exact. That every call in them can really be reported is the subject of
`FileOps.FailingCalls`, and what the two together mean for responses is in
`Responder.ErrorResponses`.
-/

namespace UsbResponder

open CString Utf8 Components

variable {σ α β : Type}

/-! ### Texts -/

/-- A call of a library function that `set_file_error` reports: the name of the function and
the path. The text of `errno` behind them is not part of it, since the outside chooses it. -/
structure ReportedCall where
  name : Bytes
  path : Bytes

/-- What `set_file_error` leaves in the buffer of the last error. -/
def ReportedCall.text (call : ReportedCall) (os : Os σ) (e : Errno) : Bytes :=
  snprintf 256 (snprintf 512 (call.name ++ utf8 " " ++ call.path ++ utf8 ": " ++ os.strerror e))

/-- A text of the buffer: a message in ASCII, or the error of one of `calls`. The buffer of
the last error may have cut it. -/
inductive Told (os : Os σ) (calls : Set ReportedCall) : Bytes → Prop
  | message {msg : Bytes} (h : IsAscii msg) : Told os calls (snprintf 256 msg)
  | file {call : ReportedCall} (h : call ∈ calls) (e : Errno) : Told os calls (call.text os e)

theorem Told.mono {os : Os σ} {calls calls' : Set ReportedCall} {text : Bytes}
    (h : Told os calls text) (hsub : calls ⊆ calls') : Told os calls' text := by
  cases h with
  | message hascii => exact .message hascii
  | file hcall e => exact .file (hsub hcall) e

/-- Whenever the operation fails, it leaves such a text as the last error. Nothing is said
about a run that succeeds. -/
def Op.Tells (os : Os σ) (calls : Set ReportedCall) (x : Op σ α) : Prop :=
  ∀ p p', x.run p = (none, p') → Told os calls p'.lastError

namespace Op

variable {os : Os σ} {calls : Set ReportedCall}

theorem tells_pure (a : α) : (pure a : Op σ α).Tells os calls :=
  fun p p' h => by simp at h

private theorem tells_sys (call : σ → β × σ) : (sys call).Tells os calls :=
  fun p p' h => by simp at h

private theorem tells_failWith {msg : Bytes} (h : IsAscii msg) :
    (failWith msg : Op σ α).Tells os calls := by
  rintro p p' hrun
  obtain ⟨-, rfl⟩ := Prod.mk.inj hrun
  exact .message h

private theorem tells_failFile {name path : Bytes} (h : ⟨name, path⟩ ∈ calls) (e : Errno) :
    (failFile os name path e : Op σ α).Tells os calls := by
  rintro p p' hrun
  obtain ⟨-, rfl⟩ := Prod.mk.inj hrun
  exact .file h e

theorem Tells.mono {calls' : Set ReportedCall} {x : Op σ α} (hx : x.Tells os calls)
    (hsub : calls ⊆ calls') : x.Tells os calls' :=
  fun p p' hrun => (hx p p' hrun).mono hsub

/-- The second step runs only on values that the first one delivers, and only what it tells
for those counts. -/
theorem Tells.bind_of_run {x : Op σ β} {f : β → Op σ α} (hx : x.Tells os calls)
    (hf : ∀ p b p', x.run p = (some b, p') → (f b).Tells os calls) :
    (x >>= f).Tells os calls := by
  intro p p' hrun
  rcases hfirst : x.run p with ⟨_ | b, p₁⟩
  · rw [run_bind_of_none hfirst] at hrun
    obtain ⟨-, rfl⟩ := Prod.mk.inj hrun
    exact hx p _ hfirst
  · rw [run_bind_of_some hfirst] at hrun
    exact hf p b p₁ hfirst _ _ hrun

theorem Tells.bind {x : Op σ β} {f : β → Op σ α} (hx : x.Tells os calls)
    (hf : ∀ b, (f b).Tells os calls) : (x >>= f).Tells os calls :=
  hx.bind_of_run fun _ b _ _ => hf b

end Op

/-! ### Paths and checks -/

variable (os : Os σ) (calls : Set ReportedCall)

private theorem isAscii_of_buildPath {relative msg : Bytes} {outSize : ℕ}
    (h : (buildPath relative outSize).2 = .error msg) : IsAscii msg := by
  obtain rfl | rfl := buildPath_error h
  · decide
  · decide

/-- An operation on a normalised path. -/
private theorem buildPathOp_tells {relative : Bytes} {f : Bytes × Storage → Op σ α}
    (hf : ∀ path storage, buildPath relative pathMaxLen = (path, .ok storage) →
      (f (path, storage)).Tells os calls) : (buildPathOp relative >>= f).Tells os calls := by
  refine Op.Tells.bind_of_run ?_ fun p path p' hrun => hf _ _ (eq_of_buildPathOp hrun).1
  rw [buildPathOp]
  rcases hpath : buildPath relative pathMaxLen with ⟨path, msg | storage⟩
  · exact Op.tells_failWith (isAscii_of_buildPath (congrArg Prod.snd hpath))
  · exact Op.tells_pure _

private theorem pathStorageMatchesDesire_tells (actual : Storage) (desireStorage : Option Bytes) :
    (pathStorageMatchesDesire actual desireStorage : Op σ Unit).Tells os calls := by
  cases desireStorage with
  | none => exact Op.tells_pure ()
  | some desire =>
    rw [pathStorageMatchesDesire]
    split_ifs
    · exact Op.tells_pure ()
    · cases storageFromName desire with
      | none => exact Op.tells_failWith (by decide)
      | some desired =>
        dsimp only
        split_ifs
        · exact Op.tells_pure ()
        · refine Op.tells_failWith ?_
          cases desired <;> cases actual <;> decide

private theorem ensureStorageWriteable_tells (storage : Storage) :
    (ensureStorageWriteable os storage).Tells os calls := by
  cases storage with
  | nand => exact Op.tells_pure ()
  | sd =>
    have hmounted : (isSdMounted os).Tells os calls := by
      intro p p' hrun
      rw [isSdMounted_run] at hrun
      simp at hrun
    refine hmounted.bind fun mounted => ?_
    split_ifs
    · exact Op.tells_pure ()
    · exact Op.tells_failWith (by decide)

/-- The storage checks of an operation pass, but for the mount. -/
private theorem storageChecks_tells {storage : Storage} {desireStorage : Option Bytes} {x : Op σ α}
    (hx : StorageMatches storage desireStorage → x.Tells os calls) :
    (do pathStorageMatchesDesire storage desireStorage
        ensureStorageWriteable os storage
        x : Op σ α).Tells os calls := by
  refine (pathStorageMatchesDesire_tells os calls storage desireStorage).bind_of_run
    fun p _ p' hrun => (ensureStorageWriteable_tells os calls storage).bind fun _ => hx ?_
  by_contra hnot
  obtain ⟨msg, hrefused, -⟩ := pathStorageMatchesDesire_of_not hnot p
  rw [hrefused] at hrun
  simp at hrun

/-! ### Inspecting and listing -/

/-- The calls `usb_responder_file_stat` may report. -/
def statCalls (relativePath : Bytes) : Set ReportedCall :=
  {call | ∃ path storage, buildPath relativePath pathMaxLen = (path, .ok storage) ∧
    call = ⟨utf8 "lstat", path⟩}

theorem fileStat_tells (relativePath : Bytes) :
    (fileStat os relativePath).Tells os (statCalls relativePath) := by
  refine buildPathOp_tells os _ fun path storage hpath => ?_
  have hcall : ⟨utf8 "lstat", path⟩ ∈ statCalls relativePath := ⟨path, storage, hpath, rfl⟩
  refine (Op.tells_sys _).bind fun found => ?_
  rcases found with e | st
  · exact Op.tells_failFile hcall e
  · exact (Op.tells_sys _).bind fun _ => (Op.tells_sys _).bind fun _ => Op.tells_pure _

/-- The name of an entry whose path the code goes on with. -/
def IsEntry (dirpath name : Bytes) : Prop :=
  isDotName name = false ∧ (childPath dirpath name).length < pathMaxLen

/-- The calls `usb_responder_file_list` may report: the `lstat` of an entry. The name of the
entry is the outside's choice, so every name that leads to a path of allowed length is in. -/
def listCalls (relativePath : Bytes) : Set ReportedCall :=
  {call | ∃ dirpath storage name, buildPath relativePath pathMaxLen = (dirpath, .ok storage) ∧
    IsEntry dirpath name ∧ call = ⟨utf8 "lstat", childPath dirpath name⟩}

private theorem fileListLoop_tells {dirpath : Bytes}
    (h : ∀ name, IsEntry dirpath name → ⟨utf8 "lstat", childPath dirpath name⟩ ∈ calls)
    (names : List Bytes) (files dirs : ListText) :
    (fileListLoop os dirpath names files dirs).Tells os calls := by
  induction names generalizing files dirs with
  | nil => exact Op.tells_pure _
  | cons name names ih =>
    rw [fileListLoop]
    dsimp only
    split_ifs with hdot hlong
    · exact ih files dirs
    · exact Op.tells_failWith (by decide)
    · refine (Op.tells_sys _).bind fun found => ?_
      rcases found with e | st
      · exact Op.tells_failFile (h name ⟨by simpa using hdot, not_le.mp hlong⟩) e
      · dsimp only
        split_ifs
        · exact ih _ _
        · exact ih _ _

/-- A list tells of its calls, or of nothing when its directory cannot be opened: then the
last error is that of some operation before it. -/
theorem fileList_tells (relativePath : Bytes) {p p' : Proc σ}
    (hrun : (fileList os relativePath).run p = (none, p')) :
    Told os (listCalls relativePath) p'.lastError ∨
      p'.lastError = p.lastError ∧
        ∃ dirpath storage, buildPath relativePath pathMaxLen = (dirpath, .ok storage) := by
  rcases hpath : buildPath relativePath pathMaxLen with ⟨dirpath, msg | storage⟩
  · rw [fileList, buildPathOp, hpath, Op.run_bind_of_none (Op.run_failWith ..)] at hrun
    obtain ⟨-, rfl⟩ := Prod.mk.inj hrun
    exact .inl (.message (isAscii_of_buildPath (congrArg Prod.snd hpath)))
  · rcases hopen : os.opendir dirpath p.os with ⟨e | names, s⟩
    · rw [fileList_of_unopened hpath hopen] at hrun
      obtain ⟨-, rfl⟩ := Prod.mk.inj hrun
      exact .inr ⟨rfl, dirpath, storage, rfl⟩
    · have hcalls : ∀ name, IsEntry dirpath name →
          ⟨utf8 "lstat", childPath dirpath name⟩ ∈ listCalls relativePath :=
        fun name hname => ⟨dirpath, storage, name, hpath, hname, rfl⟩
      rw [fileList_of_opened hpath hopen] at hrun
      exact .inl (fileListLoop_tells os _ hcalls names {} {} _ _ hrun)

/-! ### Deleting -/

/-- A path that is reached from `root` by going to entries of directories. Entries whose
paths would be too long are not gone to. -/
inductive Below (root : Bytes) : Bytes → Prop
  | root : Below root root
  | entry {path name : Bytes} (h : Below root path) (hname : IsEntry path name) :
    Below root (childPath path name)

/-- The calls `remove_path_recursive` may report, which are about the root or something
below it. -/
def removeCalls (root : Bytes) : Set ReportedCall :=
  {call | Below root call.path ∧
    call.name ∈ [utf8 "lstat", utf8 "opendir", utf8 "rmdir", utf8 "unlink"]}

/-- The calls `usb_responder_file_delete` may report. -/
def deleteCalls (relativePath : Bytes) (desireStorage : Option Bytes) : Set ReportedCall :=
  {call | ∃ root storage, buildPath relativePath pathMaxLen = (root, .ok storage) ∧
    StorageMatches storage desireStorage ∧ pathIsStorageRoot root = false ∧
    call ∈ removeCalls root}

private theorem removeEntries_tells {remove : Bytes → Op σ Unit} {path : Bytes}
    (h : ∀ name, IsEntry path name → (remove (childPath path name)).Tells os calls)
    (names : List Bytes) : (removeEntries remove path names).Tells os calls := by
  induction names with
  | nil => exact Op.tells_pure ()
  | cons name names ih =>
    rw [removeEntries]
    dsimp only
    split_ifs with hdot hlong
    · exact ih
    · exact Op.tells_failWith (by decide)
    · exact (h name ⟨by simpa using hdot, not_le.mp hlong⟩).bind fun _ => ih

/-- The fuel does not run out, since every level of the recursion makes the path longer. So
a removal fails with an error at every place where it fails. -/
private theorem removePathRecursive_tells {root path : Bytes} (hbelow : Below root path) {fuel : ℕ}
    (hlen : path.length < pathMaxLen) (hfuel : pathMaxLen ≤ fuel + path.length) :
    (removePathRecursive os fuel path).Tells os (removeCalls root) := by
  induction fuel generalizing path with
  | zero => omega
  | succ fuel ih =>
    have hcall : ∀ name ∈ [utf8 "lstat", utf8 "opendir", utf8 "rmdir", utf8 "unlink"],
        ⟨name, path⟩ ∈ removeCalls root := fun name hname => ⟨hbelow, hname⟩
    rw [removePathRecursive]
    refine (Op.tells_sys _).bind fun found => ?_
    rcases found with e | st
    · exact Op.tells_failFile (hcall _ (by simp)) e
    · dsimp only
      split_ifs
      · refine (Op.tells_sys _).bind fun opened => ?_
        rcases opened with e | names
        · exact Op.tells_failFile (hcall _ (by simp)) e
        · refine (removeEntries_tells os _ (fun name hname => ?_) names).bind fun _ => ?_
          · refine ih (hbelow.entry hname) hname.2 ?_
            simp only [childPath, List.length_append, List.length_singleton]
            omega
          · refine (Op.tells_sys _).bind fun removed => ?_
            rcases removed with _ | e
            · exact Op.tells_pure ()
            · exact Op.tells_failFile (hcall _ (by simp)) e
      · refine (Op.tells_sys _).bind fun removed => ?_
        rcases removed with _ | e
        · exact Op.tells_pure ()
        · exact Op.tells_failFile (hcall _ (by simp)) e

theorem fileDelete_tells (relativePath : Bytes) (desireStorage : Option Bytes) :
    (fileDelete os relativePath desireStorage).Tells os
      (deleteCalls relativePath desireStorage) := by
  refine buildPathOp_tells os _ fun root storage hpath => ?_
  refine storageChecks_tells os _ fun hmatches => ?_
  split_ifs with hroot
  · exact Op.tells_failWith (by decide)
  · have hremove : (removePathRecursive os pathMaxLen root).Tells os (removeCalls root) :=
      removePathRecursive_tells os .root (length_lt_of_buildPath hpath)
        (Nat.le_add_right pathMaxLen root.length)
    exact hremove.mono fun call hcall =>
      ⟨root, storage, hpath, hmatches, by simpa using hroot, hcall⟩

/-! ### Renaming and creating directories -/

/-- The call `usb_responder_file_rename` may report. -/
def renameCalls (fromRelative toRelative : Bytes) (desireStorage : Option Bytes) :
    Set ReportedCall :=
  {call | ∃ fromPath toPath storage, buildPath fromRelative pathMaxLen = (fromPath, .ok storage) ∧
    buildPath toRelative pathMaxLen = (toPath, .ok storage) ∧
    StorageMatches storage desireStorage ∧ pathIsStorageRoot fromPath = false ∧
    pathIsStorageRoot toPath = false ∧ call = ⟨utf8 "rename", toPath⟩}

theorem fileRename_tells (fromRelative toRelative : Bytes) (desireStorage : Option Bytes) :
    (fileRename os fromRelative toRelative desireStorage).Tells os
      (renameCalls fromRelative toRelative desireStorage) := by
  refine buildPathOp_tells os _ fun fromPath fromStorage hfrom => ?_
  refine buildPathOp_tells os _ fun toPath toStorage hto => ?_
  refine (pathStorageMatchesDesire_tells os _ _ _).bind fun _ => ?_
  refine (pathStorageMatchesDesire_tells os _ _ _).bind_of_run fun p _ p' hrun => ?_
  have hmatches : StorageMatches toStorage desireStorage := by
    by_contra hnot
    obtain ⟨msg, hrefused, -⟩ := pathStorageMatchesDesire_of_not hnot p
    rw [hrefused] at hrun
    simp at hrun
  refine (ensureStorageWriteable_tells os _ _).bind fun _ => ?_
  have hrest : (renameChecked os (fromPath, fromStorage) (toPath, toStorage)).Tells os
      (renameCalls fromRelative toRelative desireStorage) := by
    unfold renameChecked
    dsimp only
    split_ifs with hroot hcross
    · exact Op.tells_failWith (by decide)
    · exact Op.tells_failWith (by decide)
    · obtain ⟨hfromRoot, htoRoot⟩ := Bool.or_eq_false_iff.mp (Bool.eq_false_iff.mpr hroot)
      rw [not_not.mp hcross] at hfrom
      have hcall : ⟨utf8 "rename", toPath⟩ ∈ renameCalls fromRelative toRelative desireStorage :=
        ⟨fromPath, toPath, toStorage, hfrom, hto, hmatches, hfromRoot, htoRoot, rfl⟩
      refine (Op.tells_sys _).bind fun moved => ?_
      rcases moved with _ | e
      · exact Op.tells_pure ()
      · exact Op.tells_failFile hcall e
  by_cases hstorage : toStorage ≠ fromStorage
  · rw [if_pos hstorage]
    exact (ensureStorageWriteable_tells os _ _).bind fun _ => hrest
  · rw [if_neg hstorage]
    exact hrest

/-- The calls `usb_responder_dir_mkdir` may report: with `parents` for the path of every
prefix of the components, otherwise for the path. With `parents`, `stat` is reported where
something else than a directory is in the way. -/
def mkdirCalls (relativePath : Bytes) (parents : Bool) (desireStorage : Option Bytes) :
    Set ReportedCall :=
  {call | ∃ path storage, buildPath relativePath pathMaxLen = (path, .ok storage) ∧
    StorageMatches storage desireStorage ∧
    if parents then
      (∃ made c rest, pathComponents relativePath = made ++ c :: rest ∧
        call.path = normalPath (made ++ [c])) ∧ call.name ∈ [utf8 "mkdir", utf8 "stat"]
    else call = ⟨utf8 "mkdir", path⟩}

private theorem mkdirWalk_tells {cs : List Bytes} (seen : List Bytes)
    (h : ∀ made c rest, cs = made ++ c :: rest → ∀ name ∈ [utf8 "mkdir", utf8 "stat"],
      ⟨name, normalPath (seen ++ (made ++ [c]))⟩ ∈ calls) :
    (mkdirWalk os seen cs).Tells os calls := by
  induction cs generalizing seen with
  | nil => exact Op.tells_pure ()
  | cons c cs ih =>
    have hhead := h [] c cs rfl
    have hrest : (mkdirWalk os (seen ++ [c]) cs).Tells os calls := by
      refine ih (seen ++ [c]) fun made d rest hcs name hname => ?_
      have htail := h (c :: made) d rest (by rw [hcs, List.cons_append]) name hname
      rwa [List.append_assoc, List.singleton_append, ← List.cons_append]
    rw [mkdirWalk]
    refine (Op.tells_sys _).bind fun made => ?_
    rcases made with _ | e
    · exact hrest
    · dsimp only
      split_ifs
      · exact Op.tells_failFile (hhead _ (by simp)) e
      · refine (Op.tells_sys _).bind fun found => ?_
        rcases found with e | st
        · exact Op.tells_failFile (hhead _ (by simp)) e
        · dsimp only
          split_ifs
          · exact Op.tells_failWith (by decide)
          · exact hrest

/-- With `parents` the loop is the walk along the components of the path. -/
theorem mkdirLoop_eq_walk_of_buildPath {relativePath path : Bytes} {storage : Storage}
    (hpath : buildPath relativePath pathMaxLen = (path, .ok storage)) :
    mkdirLoop os (path.length + 1) (path.drop 1) [slash] =
      mkdirWalk os [] (pathComponents relativePath) := by
  have hnormal := normalComponents_pathComponents relativePath
  obtain ⟨-, hfits, rfl, -⟩ := (buildPath_eq_ok_iff (by decide)).mp hpath
  have hcomponents := components_drop_normalPath fun c hc => (hnormal c hc).1
  have hlen : ((normalPath (pathComponents relativePath)).drop 1).length <
      (normalPath (pathComponents relativePath)).length + 1 := by
    rw [List.length_drop]
    omega
  have hfit : (normalPath ([] ++ components slash
      ((normalPath (pathComponents relativePath)).drop 1))).length < pathMaxLen := by
    rwa [List.nil_append, hcomponents]
  have hwalk := mkdirLoop_eq_walk os hlen (by simp) hfit
  rwa [hcomponents] at hwalk

theorem dirMkdir_tells (relativePath : Bytes) (parents : Bool) (desireStorage : Option Bytes) :
    (dirMkdir os relativePath parents desireStorage).Tells os
      (mkdirCalls relativePath parents desireStorage) := by
  refine buildPathOp_tells os _ fun path storage hpath => ?_
  refine storageChecks_tells os _ fun hmatches => ?_
  cases parents with
  | true =>
    rw [if_pos rfl, mkdirLoop_eq_walk_of_buildPath os hpath]
    refine mkdirWalk_tells os _ [] fun made c rest hcs name hname => ?_
    exact ⟨path, storage, hpath, hmatches, ⟨made, c, rest, hcs, rfl⟩, hname⟩
  | false =>
    have hcall : ⟨utf8 "mkdir", path⟩ ∈ mkdirCalls relativePath false desireStorage :=
      ⟨path, storage, hpath, hmatches, rfl⟩
    refine (Op.tells_sys _).bind fun made => ?_
    rcases made with _ | e
    · exact Op.tells_pure ()
    · exact Op.tells_failFile hcall e

/-! ### Uploads -/

/-- The call `usb_responder_file_begin_upload` may report. -/
def beginCalls (ulongMax : ℕ) (sessions : FileOps) (transferId : UInt32) (relativePath : Bytes)
    (desireStorage perm : Option Bytes) : Set ReportedCall :=
  {call | (findSession sessions transferId ≠ none ∨
      SlotTable.alloc UploadSession.key sessions ≠ none) ∧
    ∃ target : UploadTarget, uploadPerm ulongMax perm = some (target.applyPerm, target.fileMode) ∧
      buildPath relativePath pathMaxLen = (target.path, .ok target.storage) ∧
      StorageMatches target.storage desireStorage ∧ relativePath.length < pathMaxLen ∧
      target.tempPath.length < pathMaxLen ∧ call = ⟨utf8 "fopen", target.tempPath⟩}

/-- The call `usb_responder_file_append_upload_chunk` may report. -/
def chunkCalls (sessions : FileOps) (transferId : UInt32) (data : Bytes) : Set ReportedCall :=
  {call | data ≠ [] ∧ ∃ i, findSession sessions transferId = some i ∧ (sessions i).fp ≠ none ∧
    call = ⟨utf8 "fwrite", (sessions i).tempPath⟩}

/-- The calls `usb_responder_file_finish_upload` may report. -/
def finishCalls (sessions : FileOps) (transferId : UInt32) : Set ReportedCall :=
  {call | ∃ i, findSession sessions transferId = some i ∧
    (call = ⟨utf8 "rename", (sessions i).finalPath⟩ ∨
      (sessions i).applyPerm = true ∧ call = ⟨utf8 "chmod", (sessions i).finalPath⟩)}

theorem fileAppendUploadChunk_tells {transferId : UInt32} {data : Bytes} {p p' : Proc σ}
    (hrun : (fileAppendUploadChunk os transferId data).run p = (none, p')) :
    Told os (chunkCalls p.sessions transferId data) p'.lastError := by
  rw [fileAppendUploadChunk] at hrun
  dsimp only at hrun
  split_ifs at hrun with hdata
  · obtain ⟨-, rfl⟩ := Prod.mk.inj hrun
    exact .message (by decide)
  rcases hfind : findSession p.sessions transferId with _ | i
  · rw [hfind] at hrun
    obtain ⟨-, rfl⟩ := Prod.mk.inj hrun
    exact .message (by decide)
  rw [hfind] at hrun
  dsimp only at hrun
  rcases hfp : (p.sessions i).fp with _ | fp
  · rw [hfp] at hrun
    obtain ⟨-, rfl⟩ := Prod.mk.inj hrun
    exact .message (by decide)
  rw [hfp] at hrun
  have hcall : ⟨utf8 "fwrite", (p.sessions i).tempPath⟩ ∈
      chunkCalls p.sessions transferId data := ⟨hdata, i, hfind, by rw [hfp]; simp, rfl⟩
  dsimp only at hrun
  split_ifs at hrun
  · obtain ⟨-, rfl⟩ := Prod.mk.inj hrun
    exact .file hcall _
  · simp at hrun
  · simp at hrun

theorem fileFinishUpload_tells {transferId : UInt32} {p p' : Proc σ}
    (hrun : (fileFinishUpload os transferId).run p = (none, p')) :
    Told os (finishCalls p.sessions transferId) p'.lastError := by
  rw [fileFinishUpload] at hrun
  dsimp only at hrun
  rcases hfind : findSession p.sessions transferId with _ | i
  · rw [hfind] at hrun
    obtain ⟨-, rfl⟩ := Prod.mk.inj hrun
    exact .message (by decide)
  have hrenameCall : ⟨utf8 "rename", (p.sessions i).finalPath⟩ ∈
      finishCalls p.sessions transferId := ⟨i, hfind, .inl rfl⟩
  rw [hfind] at hrun
  dsimp only at hrun
  rcases hrename : os.rename (p.sessions i).tempPath (p.sessions i).finalPath
    (closeStream os (p.sessions i).fp p).os with ⟨_ | e, s⟩
  · rw [hrename] at hrun
    dsimp only at hrun
    split_ifs at hrun with hperm
    · have hchmodCall : ⟨utf8 "chmod", (p.sessions i).finalPath⟩ ∈
          finishCalls p.sessions transferId := ⟨i, hfind, .inr ⟨hperm, rfl⟩⟩
      rcases hchmod : os.chmod (p.sessions i).finalPath (p.sessions i).fileMode s with ⟨_ | e, s'⟩
      · simp [hchmod] at hrun
      · rw [hchmod] at hrun
        obtain ⟨-, rfl⟩ := Prod.mk.inj hrun
        exact .file hchmodCall e
    · simp at hrun
  · rw [hrename] at hrun
    obtain ⟨-, rfl⟩ := Prod.mk.inj hrun
    exact .file hrenameCall e

private theorem checkUploadStorage_tells (relativePath : Bytes) (desireStorage : Option Bytes) :
    (checkUploadStorage os (buildPath relativePath pathMaxLen).2 desireStorage).Tells os calls := by
  rcases hpath : (buildPath relativePath pathMaxLen).2 with msg | storage
  · exact Op.tells_failWith (isAscii_of_buildPath hpath)
  · exact (pathStorageMatchesDesire_tells os calls storage desireStorage).bind
      fun _ => ensureStorageWriteable_tells os calls storage

/-- A begin tells of the `fopen` it comes to when its checks pass. -/
private theorem beginSession_tells (i : Fin maxUploadSessions) (transferId : UInt32)
    (relativePath : Bytes) (desireStorage perm : Option Bytes) {p p' : Proc σ}
    (hrun : (beginSession os i transferId relativePath desireStorage perm).run p = (none, p')) :
    Told os {call | ∃ target, UploadChecks os relativePath desireStorage perm p.os target ∧
      call = ⟨utf8 "fopen", target.tempPath⟩} p'.lastError := by
  by_cases hchecks : ∃ target, UploadChecks os relativePath desireStorage perm p.os target
  · obtain ⟨target, hchecks⟩ := hchecks
    obtain ⟨record, hbegin⟩ := beginSession_of_checks i transferId hchecks
    rw [hbegin] at hrun
    have hcall : ⟨utf8 "fopen", target.tempPath⟩ ∈ {call : ReportedCall | ∃ target,
        UploadChecks os relativePath desireStorage perm p.os target ∧
          call = ⟨utf8 "fopen", target.tempPath⟩} := ⟨target, hchecks, rfl⟩
    rcases hopen : os.fopenWb target.tempPath (os.afterMountCheck target.storage p.os) with
      ⟨e | fp, s⟩
    · rw [hopen] at hrun
      obtain ⟨-, rfl⟩ := Prod.mk.inj hrun
      exact .file hcall e
    · simp [hopen] at hrun
  · -- the first check that does not pass leaves its message
    rw [beginSession] at hrun
    dsimp only at hrun
    rcases hperm : uploadPerm os.ulongMax perm with _ | ⟨applyPerm, fileMode⟩
    · rw [setSessionPerm_of_none hperm] at hrun
      obtain ⟨-, rfl⟩ := Prod.mk.inj hrun
      exact .message (by decide)
    rw [setSessionPerm_of_some _ rfl rfl hperm] at hrun
    dsimp only at hrun
    rcases hstorage : (checkUploadStorage os (buildPath relativePath pathMaxLen).2
        desireStorage).run p with ⟨_ | _, p₁⟩
    · rw [hstorage] at hrun
      obtain ⟨-, rfl⟩ := Prod.mk.inj hrun
      exact checkUploadStorage_tells os _ relativePath desireStorage p p₁ hstorage
    rw [hstorage] at hrun
    dsimp only at hrun
    split_ifs at hrun with hrel htemp
    · obtain ⟨-, rfl⟩ := Prod.mk.inj hrun
      exact .message (by decide)
    · obtain ⟨-, rfl⟩ := Prod.mk.inj hrun
      exact .message (by decide)
    · -- the storage check passed, so with the lengths all checks do
      have hpasses : ∃ storage, (buildPath relativePath pathMaxLen).2 = .ok storage ∧
          StorageMatches storage desireStorage ∧ StorageWriteable os storage p.os := by
        by_contra hnot
        obtain ⟨s, msg, hrefused, -⟩ := checkUploadStorage_of_not
          fun storage hpath hmatches hwriteable => hnot ⟨storage, hpath, hmatches, hwriteable⟩
        rw [hrefused] at hstorage
        simp at hstorage
      obtain ⟨storage, hpath, hmatches, hwriteable⟩ := hpasses
      exact absurd ⟨⟨(buildPath relativePath pathMaxLen).1, storage, applyPerm, fileMode⟩,
        hperm, Prod.ext rfl hpath, hmatches, hwriteable, not_le.mp hrel, not_le.mp htemp⟩ hchecks

theorem fileBeginUpload_tells {transferId : UInt32} {relativePath : Bytes}
    {desireStorage perm : Option Bytes} {p p' : Proc σ}
    (hrun : (fileBeginUpload os transferId relativePath desireStorage perm).run p =
      (none, p')) :
    Told os (beginCalls os.ulongMax p.sessions transferId relativePath desireStorage perm)
      p'.lastError := by
  rcases halloc : SlotTable.alloc UploadSession.key (beforeBegin os transferId p).sessions with
    _ | i
  · rw [fileBeginUpload_of_full transferId desireStorage perm halloc] at hrun
    obtain ⟨-, rfl⟩ := Prod.mk.inj hrun
    exact .message (by decide)
  · rw [fileBeginUpload_of_slot i transferId desireStorage perm halloc] at hrun
    refine (beginSession_tells os i transferId relativePath desireStorage perm hrun).mono ?_
    rintro call ⟨target, hchecks, rfl⟩
    refine ⟨?_, target, hchecks.perm, hchecks.path, hchecks.desire, hchecks.relative_lt,
      hchecks.temp_lt, rfl⟩
    by_cases hfind : findSession p.sessions transferId = none
    · right
      rw [beforeBegin, hfind] at halloc
      rw [halloc]
      simp
    · exact .inl hfind

end UsbResponder
