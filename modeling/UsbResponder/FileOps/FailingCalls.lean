import UsbResponder.FileOps.ErrorTexts
import UsbResponder.FileOps.SessionTable

/-!
# Every call can fail

The converse of `Told`: whatever call an operation may report, there is a world in which the
operation fails at that call. One family of worlds is enough. In `Os.failingAt u name` the
calls of `name` fail, and the state is the way that is still to go to the path at which they
do: a list gives the entries of the directories that lie on the way, and a directory that is
created goes a step.

There is one lemma an operation, and it names the world: the function that fails, and the
way to the place. For most operations the way is empty. A deletion goes down through
directories with a single entry each (`Below.exists_way`), and the creation of directories
goes along the components of its path.

`FileTask` collects the operations, so that the two directions can be stated once: an
operation tells of its calls only (`FileTask.told`), and of every one of them in some world
(`FileTask.failedAt`). The worlds serve this purpose and are not meant to be plausible file
systems.
-/

namespace UsbResponder

open CString Utf8

variable {σ α β : Type}

/-- The line of the mount table that shows the SD card. -/
def sdMountLine : Bytes := utf8 "36 35 179:1 / /sd rw - ext4 /dev/mmcblk0p1 rw"

/-- A world in which the calls of `name` fail at the end of the way that the state gives.
Before that they succeed, and each directory on the way has the next name as its only entry. -/
def Os.failingAt (u : ℕ) (name : Bytes) : Os (List Bytes) :=
  { (Os.failing (List Bytes)).withMountinfo fun _ => some [sdMountLine] with
    ulongMax := u
    lstat := fun _ way =>
      match way with
      | [] =>
        if name = utf8 "lstat" then (.error 2, [])
        else (.ok ⟨if name = utf8 "unlink" then .regular else .directory, 0, 0, 0, 0⟩, [])
      | entry :: way => (.ok ⟨.directory, 0, 0, 0, 0⟩, entry :: way)
    opendir := fun _ way =>
      match way with
      | [] => if name = utf8 "opendir" then (.error 2, []) else (.ok [], [])
      | entry :: way => (.ok [entry], way)
    mkdir := fun _ _ way =>
      match way with
      | [] => (some (if name = utf8 "stat" then eExist else 2), [])
      | _ :: way => (none, way)
    rename := fun _ _ way => (if name = utf8 "chmod" then none else some 2, way) }

/-- The run of an operation has failed with the error of the call, whatever else it has
done. -/
def FailedAt (os : Os σ) (call : ReportedCall) (r : Option α × Proc σ) : Prop :=
  r.1 = none ∧ r.2.lastError = call.text os 2

variable {u : ℕ} {name : Bytes} {sessions : FileOps} {lastError : Bytes} {call : ReportedCall}

/-- A step that fails at the call makes the operation fail there. -/
theorem FailedAt.bind {os : Os σ} {x : Op σ β} {p : Proc σ} (h : FailedAt os call (x.run p))
    (f : β → Op σ α) : FailedAt os call ((x >>= f).run p) := by
  rcases hrun : x.run p with ⟨_ | b, p'⟩
  · rw [hrun] at h
    rw [Op.run_bind_of_none hrun]
    exact ⟨rfl, h.2⟩
  · rw [hrun] at h
    exact absurd h.1 (by simp)

/-! ### The calls of the world -/

private theorem failingAt_lstat_cons (path entry : Bytes) (way : List Bytes) :
    (Os.failingAt u name).lstat path (entry :: way) =
      (.ok ⟨.directory, 0, 0, 0, 0⟩, entry :: way) := rfl

private theorem failingAt_opendir_cons (path entry : Bytes) (way : List Bytes) :
    (Os.failingAt u name).opendir path (entry :: way) = (.ok [entry], way) := rfl

private theorem failingAt_mkdir_cons (path entry : Bytes) (way : List Bytes) :
    (Os.failingAt u name).mkdir path 0o755 (entry :: way) = (none, way) := rfl

theorem isAscii_strerror_failingAt (e : Errno) :
    IsAscii ((Os.failingAt u name).strerror e) := fun _ hb => absurd hb (List.not_mem_nil)

private theorem storageWriteable_failingAt (storage : Storage) (way : List Bytes) :
    StorageWriteable (Os.failingAt u name) storage way :=
  fun _ => ⟨[sdMountLine], rfl, by decide +kernel⟩

private theorem afterMountCheck_failingAt (storage : Storage) (way : List Bytes) :
    (Os.failingAt u name).afterMountCheck storage way = way := by
  cases storage <;> rfl

/-- There the storage checks say nothing about the mount, and change nothing. -/
private theorem storageChecks_failingAt {storage : Storage} {desireStorage : Option Bytes}
    (h : StorageMatches storage desireStorage) (x : Op (List Bytes) Unit)
    (p : Proc (List Bytes)) :
    (do pathStorageMatchesDesire storage desireStorage
        ensureStorageWriteable (Os.failingAt u name) storage
        x : Op (List Bytes) Unit).run p = x.run p := by
  rw [Op.run_bind_of_some (pathStorageMatchesDesire_of h p),
    Op.run_bind_of_some (ensureStorageWriteable_of (storageWriteable_failingAt storage p.os)),
    Proc.afterMountCheck, afterMountCheck_failingAt]

/-! ### Inspecting and listing -/

private theorem fileStat_failedAt {relativePath : Bytes} (h : call ∈ statCalls relativePath) :
    ∃ name way, FailedAt (Os.failingAt u name) call
      ((fileStat (Os.failingAt u name) relativePath).run ⟨sessions, lastError, way⟩) := by
  obtain ⟨path, storage, hpath, rfl⟩ := h
  refine ⟨utf8 "lstat", [], ?_⟩
  rw [fileStat, Op.run_bind_of_some (buildPathOp_run hpath _), Op.run_bind_of_some (Op.run_sys ..)]
  exact ⟨rfl, rfl⟩

private theorem fileList_failedAt {relativePath : Bytes} (h : call ∈ listCalls relativePath) :
    ∃ name way, FailedAt (Os.failingAt u name) call
      ((fileList (Os.failingAt u name) relativePath).run ⟨sessions, lastError, way⟩) := by
  obtain ⟨dirpath, storage, entry, hpath, ⟨hdot, hlen⟩, rfl⟩ := h
  refine ⟨utf8 "lstat", [entry], ?_⟩
  rw [fileList_of_opened hpath (failingAt_opendir_cons dirpath entry []), fileListLoop]
  dsimp only
  rw [if_neg (by simp [hdot]), if_neg (not_le.mpr hlen), Op.run_bind_of_some (Op.run_sys ..)]
  exact ⟨rfl, rfl⟩

/-! ### Deleting -/

/-- A directory with one entry is deleted by deleting the entry first. So a failure there is
a failure of the whole. -/
private theorem FailedAt.removePathRecursive_entry {path entry : Bytes} {fuel : ℕ}
    {way : List Bytes} (hentry : IsEntry path entry)
    (h : FailedAt (Os.failingAt u name) call
      ((removePathRecursive (Os.failingAt u name) fuel (childPath path entry)).run
        ⟨sessions, lastError, way⟩)) :
    FailedAt (Os.failingAt u name) call
      ((removePathRecursive (Os.failingAt u name) (fuel + 1) path).run
        ⟨sessions, lastError, entry :: way⟩) := by
  rw [removePathRecursive, Op.run_bind_of_some (Op.run_sys ..)]
  dsimp only
  rw [failingAt_lstat_cons]
  dsimp only
  rw [if_pos rfl, Op.run_bind_of_some (Op.run_sys ..)]
  dsimp only
  rw [failingAt_opendir_cons]
  dsimp only
  refine FailedAt.bind ?_ _
  rw [removeEntries]
  dsimp only
  rw [if_neg (by simp [hentry.1]), if_neg (not_le.mpr hentry.2)]
  exact h.bind _

/-- The way down to a path below the root. -/
private theorem Below.exists_way {root path : Bytes} (h : Below root path) :
    ∃ names : List Bytes, root.length + names.length ≤ path.length ∧ ∀ fuel way,
      FailedAt (Os.failingAt u name) call
        ((removePathRecursive (Os.failingAt u name) fuel path).run ⟨sessions, lastError, way⟩) →
      FailedAt (Os.failingAt u name) call
        ((removePathRecursive (Os.failingAt u name) (fuel + names.length) root).run
          ⟨sessions, lastError, names ++ way⟩) := by
  induction h with
  | root => exact ⟨[], by simp, fun fuel way hfails => hfails⟩
  | @entry path entry hbelow hentry ih =>
    obtain ⟨names, hlen, hway⟩ := ih
    refine ⟨names ++ [entry], ?_, fun fuel way hfails => ?_⟩
    · simp only [childPath, List.length_append, List.length_singleton]
      omega
    · have hdown := hway (fuel + 1) (entry :: way) (hfails.removePathRecursive_entry hentry)
      rwa [List.length_append, List.length_singleton, List.append_assoc, List.singleton_append,
        Nat.add_comm names.length 1, ← Nat.add_assoc]

private theorem removePathRecursive_failedAt {path : Bytes} (fuel : ℕ)
    (hname : name ∈ [utf8 "lstat", utf8 "opendir", utf8 "rmdir", utf8 "unlink"]) :
    FailedAt (Os.failingAt u name) ⟨name, path⟩
      ((removePathRecursive (Os.failingAt u name) (fuel + 1) path).run
        ⟨sessions, lastError, []⟩) := by
  rw [removePathRecursive, Op.run_bind_of_some (Op.run_sys ..)]
  simp only [List.mem_cons, List.not_mem_nil, or_false] at hname
  obtain rfl | rfl | rfl | rfl := hname
  · exact ⟨rfl, rfl⟩
  · exact ⟨rfl, rfl⟩
  · exact ⟨rfl, rfl⟩
  · exact ⟨rfl, rfl⟩

theorem Below.length_lt {root path : Bytes} (h : Below root path)
    (hroot : root.length < pathMaxLen) : path.length < pathMaxLen := by
  cases h with
  | root => exact hroot
  | entry _ hentry => exact hentry.2

private theorem fileDelete_failedAt {relativePath : Bytes} {desireStorage : Option Bytes}
    (h : call ∈ deleteCalls relativePath desireStorage) :
    ∃ name way, FailedAt (Os.failingAt u name) call
      ((fileDelete (Os.failingAt u name) relativePath desireStorage).run
        ⟨sessions, lastError, way⟩) := by
  obtain ⟨root, storage, hpath, hmatches, hroot, hbelow, hname⟩ := h
  obtain ⟨names, hnames, hway⟩ := hbelow.exists_way
  have hpathlen := hbelow.length_lt (length_lt_of_buildPath hpath)
  refine ⟨call.name, names ++ [], ?_⟩
  rw [fileDelete, Op.run_bind_of_some (buildPathOp_run hpath _)]
  dsimp only
  rw [storageChecks_failingAt hmatches, if_neg (by simp [hroot])]
  -- every name on the way lengthens the path, so the recursion is deep enough for it
  have hfuel : pathMaxLen = (pathMaxLen - names.length - 1) + 1 + names.length := by omega
  rw [hfuel]
  exact hway _ _ (removePathRecursive_failedAt _ hname)

/-! ### Renaming and creating directories -/

private theorem fileRename_failedAt {fromRelative toRelative : Bytes} {desireStorage : Option Bytes}
    (h : call ∈ renameCalls fromRelative toRelative desireStorage) :
    ∃ name way, FailedAt (Os.failingAt u name) call
      ((fileRename (Os.failingAt u name) fromRelative toRelative desireStorage).run
        ⟨sessions, lastError, way⟩) := by
  obtain ⟨fromPath, toPath, storage, hfrom, hto, hmatches, hfromRoot, htoRoot, rfl⟩ := h
  refine ⟨utf8 "rename", [], ?_⟩
  rw [fileRename, Op.run_bind_of_some (buildPathOp_run hfrom _)]
  dsimp only
  rw [Op.run_bind_of_some (buildPathOp_run hto _)]
  dsimp only
  rw [Op.run_bind_of_some (pathStorageMatchesDesire_of hmatches _),
    storageChecks_failingAt hmatches, if_neg (by simp)]
  dsimp only [renameChecked]
  rw [if_neg (by simp [hfromRoot, htoRoot]), if_neg (by simp), Op.run_bind_of_some (Op.run_sys ..)]
  exact ⟨rfl, rfl⟩

/-- Going along the components that are created, the world fails at the next one. The
induction is on the components made before it. -/
private theorem mkdirWalk_failedAt (hname : name ∈ [utf8 "mkdir", utf8 "stat"])
    (made seen : List Bytes) (c : Bytes) (rest : List Bytes) :
    FailedAt (Os.failingAt u name) ⟨name, normalPath (seen ++ (made ++ [c]))⟩
      ((mkdirWalk (Os.failingAt u name) seen (made ++ c :: rest)).run
        ⟨sessions, lastError, made⟩) := by
  induction made generalizing seen with
  | nil =>
    rw [List.nil_append, List.nil_append, mkdirWalk, Op.run_bind_of_some (Op.run_sys ..)]
    simp only [List.mem_cons, List.not_mem_nil, or_false] at hname
    obtain rfl | rfl := hname
    · exact ⟨rfl, rfl⟩
    · exact ⟨rfl, rfl⟩
  | cons d made ih =>
    -- `d` is created, which goes a step on the way
    have hnext := ih (seen ++ [d])
    rw [List.append_assoc, List.singleton_append, ← List.cons_append] at hnext
    rw [show d :: made ++ c :: rest = d :: (made ++ c :: rest) from rfl,
      mkdirWalk_of_made (failingAt_mkdir_cons _ _ made)]
    exact hnext

private theorem dirMkdir_failedAt {relativePath : Bytes} {parents : Bool}
    {desireStorage : Option Bytes} (h : call ∈ mkdirCalls relativePath parents desireStorage) :
    ∃ name way, FailedAt (Os.failingAt u name) call
      ((dirMkdir (Os.failingAt u name) relativePath parents desireStorage).run
        ⟨sessions, lastError, way⟩) := by
  obtain ⟨path, storage, hpath, hmatches, hcall⟩ := h
  cases parents with
  | true =>
    obtain ⟨⟨made, c, rest, hcomponents, hcallpath⟩, hname⟩ := hcall
    refine ⟨call.name, made, ?_⟩
    rw [dirMkdir, Op.run_bind_of_some (buildPathOp_run hpath _)]
    dsimp only
    rw [storageChecks_failingAt hmatches, if_pos rfl, mkdirLoop_eq_walk_of_buildPath _ hpath,
      hcomponents]
    have hfails : FailedAt (Os.failingAt u call.name) _
        ((mkdirWalk (Os.failingAt u call.name) [] (made ++ c :: rest)).run
          ⟨sessions, lastError, made⟩) := mkdirWalk_failedAt hname made [] c rest
    rwa [List.nil_append, ← hcallpath] at hfails
  | false =>
    obtain rfl : call = ⟨utf8 "mkdir", path⟩ := hcall
    refine ⟨utf8 "mkdir", [], ?_⟩
    rw [dirMkdir, Op.run_bind_of_some (buildPathOp_run hpath _)]
    dsimp only
    rw [storageChecks_failingAt hmatches, if_neg (by simp), Op.run_bind_of_some (Op.run_sys ..)]
    exact ⟨rfl, rfl⟩

/-! ### Uploads -/

/-- There is a slot for a begin when one is free or its id has an old session. -/
private theorem exists_slot_beforeBegin (os : Os σ) {p : Proc σ} {transferId : UInt32}
    (hslot : findSession p.sessions transferId ≠ none ∨
      SlotTable.alloc UploadSession.key p.sessions ≠ none) :
    ∃ i, SlotTable.alloc UploadSession.key (beforeBegin os transferId p).sessions = some i := by
  rw [← Option.ne_none_iff_exists', beforeBegin]
  rcases hfind : findSession p.sessions transferId with _ | i
  · exact hslot.resolve_left (by simp [hfind])
  · -- the old session has been aborted, so its slot is free
    intro hfull
    dsimp only at hfull
    rw [fileAbortUpload_of_some hfind, Proc.setSession_sessions,
      SlotTable.alloc_eq_none_iff_forall] at hfull
    refine hfull i ?_
    rw [Function.update_self]
    rfl

private theorem fileBeginUpload_failedAt {transferId : UInt32} {relativePath : Bytes}
    {desireStorage perm : Option Bytes}
    (h : call ∈ beginCalls u sessions transferId relativePath desireStorage perm) :
    ∃ name way, FailedAt (Os.failingAt u name) call
      ((fileBeginUpload (Os.failingAt u name) transferId relativePath desireStorage perm).run
        ⟨sessions, lastError, way⟩) := by
  obtain ⟨hslot, target, hperm, hpath, hmatches, hrel, htemp, rfl⟩ := h
  refine ⟨utf8 "fopen", [], ?_⟩
  obtain ⟨i, halloc⟩ := exists_slot_beforeBegin (Os.failingAt u (utf8 "fopen"))
    (show findSession (⟨sessions, lastError, []⟩ : Proc (List Bytes)).sessions transferId ≠ none ∨ _
      from hslot)
  rw [fileBeginUpload_of_slot i transferId desireStorage perm halloc]
  obtain ⟨record, hbegin⟩ := beginSession_of_checks i transferId
    ⟨hperm, hpath, hmatches, storageWriteable_failingAt target.storage _, hrel, htemp⟩
  rw [hbegin]
  exact ⟨rfl, rfl⟩

private theorem fileAppendUploadChunk_failedAt {transferId : UInt32} {data : Bytes}
    (h : call ∈ chunkCalls sessions transferId data) :
    ∃ name way, FailedAt (Os.failingAt u name) call
      ((fileAppendUploadChunk (Os.failingAt u name) transferId data).run
        ⟨sessions, lastError, way⟩) := by
  obtain ⟨hdata, i, hfind, hopen, rfl⟩ := h
  obtain ⟨fp, hfp⟩ := Option.ne_none_iff_exists'.mp hopen
  refine ⟨utf8 "fwrite", [], ?_⟩
  have hshort : (0 : ℕ) ≠ data.length :=
    fun hlen => hdata (List.eq_nil_of_length_eq_zero hlen.symm)
  rw [fileAppendUploadChunk]
  dsimp only
  rw [if_neg hdata, hfind]
  dsimp only
  rw [hfp]
  dsimp only
  split_ifs with hwritten
  · exact ⟨rfl, rfl⟩
  · exact absurd hshort hwritten
  · exact absurd hshort hwritten

private theorem fileFinishUpload_failedAt {transferId : UInt32}
    (h : call ∈ finishCalls sessions transferId) :
    ∃ name way, FailedAt (Os.failingAt u name) call
      ((fileFinishUpload (Os.failingAt u name) transferId).run ⟨sessions, lastError, way⟩) := by
  obtain ⟨i, hfind, rfl | ⟨hperm, rfl⟩⟩ := h
  · refine ⟨utf8 "rename", [], ?_⟩
    rw [fileFinishUpload]
    dsimp only
    rw [hfind]
    exact ⟨rfl, rfl⟩
  · have hrename : ∀ fromPath toPath way,
        (Os.failingAt u (utf8 "chmod")).rename fromPath toPath way = (none, way) :=
      fun _ _ _ => rfl
    refine ⟨utf8 "chmod", [], ?_⟩
    rw [fileFinishUpload]
    dsimp only
    rw [hfind]
    dsimp only
    rw [hrename]
    dsimp only
    rw [if_pos hperm]
    exact ⟨rfl, rfl⟩

/-! ### All operations -/

/-- The operations whose error is reported to the host, with their arguments. -/
inductive FileTask
  | beginUpload (transferId : UInt32) (relativePath : Bytes) (desireStorage perm : Option Bytes)
  | appendUploadChunk (transferId : UInt32) (data : Bytes)
  | finishUpload (transferId : UInt32)
  | list (relativePath : Bytes)
  | delete (relativePath : Bytes) (desireStorage : Option Bytes)
  | rename (fromRelative toRelative : Bytes) (desireStorage : Option Bytes)
  | mkdir (relativePath : Bytes) (parents : Bool) (desireStorage : Option Bytes)
  | stat (relativePath : Bytes)

namespace FileTask

/-- The operation, without its result. -/
def op (os : Os σ) : FileTask → Op σ Unit
  | beginUpload transferId relativePath desireStorage perm =>
    fileBeginUpload os transferId relativePath desireStorage perm
  | appendUploadChunk transferId data => fileAppendUploadChunk os transferId data
  | finishUpload transferId => fileFinishUpload os transferId
  | list relativePath => fileList os relativePath >>= fun _ => pure ()
  | delete relativePath desireStorage => fileDelete os relativePath desireStorage
  | rename fromRelative toRelative desireStorage =>
    fileRename os fromRelative toRelative desireStorage
  | mkdir relativePath parents desireStorage => dirMkdir os relativePath parents desireStorage
  | stat relativePath => fileStat os relativePath >>= fun _ => pure ()

/-- The calls that the error may be about. -/
def calls (u : ℕ) (sessions : FileOps) : FileTask → Set ReportedCall
  | beginUpload transferId relativePath desireStorage perm =>
    beginCalls u sessions transferId relativePath desireStorage perm
  | appendUploadChunk transferId data => chunkCalls sessions transferId data
  | finishUpload transferId => finishCalls sessions transferId
  | list relativePath => listCalls relativePath
  | delete relativePath desireStorage => deleteCalls relativePath desireStorage
  | rename fromRelative toRelative desireStorage =>
    renameCalls fromRelative toRelative desireStorage
  | mkdir relativePath parents desireStorage => mkdirCalls relativePath parents desireStorage
  | stat relativePath => statCalls relativePath

/-- The operation may fail without setting the last error. This is so for a listing only,
whose `opendir` is not reported. -/
def IsMute : FileTask → Prop
  | list relativePath =>
    ∃ dirpath storage, buildPath relativePath pathMaxLen = (dirpath, .ok storage)
  | _ => False

/-- **What an error tells.** An operation that fails leaves a message or the error of one of
its calls; only a mute one may leave the last error as it is. -/
theorem told (os : Os σ) (task : FileTask) {p p' : Proc σ}
    (hrun : (task.op os).run p = (none, p')) :
    Told os (task.calls os.ulongMax p.sessions) p'.lastError ∨
      task.IsMute ∧ p'.lastError = p.lastError := by
  cases task with
  | beginUpload transferId relativePath desireStorage perm =>
    exact .inl (fileBeginUpload_tells os hrun)
  | appendUploadChunk transferId data => exact .inl (fileAppendUploadChunk_tells os hrun)
  | finishUpload transferId => exact .inl (fileFinishUpload_tells os hrun)
  | list relativePath =>
    rcases hlist : (fileList os relativePath).run p with ⟨_ | lists, p₁⟩
    · rw [op, Op.run_bind_of_none hlist] at hrun
      obtain ⟨-, rfl⟩ := Prod.mk.inj hrun
      obtain htold | ⟨herror, hpath⟩ := fileList_tells os relativePath hlist
      · exact .inl htold
      · exact .inr ⟨hpath, herror⟩
    · rw [op, Op.run_bind_of_some hlist] at hrun
      simp at hrun
  | delete relativePath desireStorage =>
    exact .inl (fileDelete_tells os relativePath desireStorage p p' hrun)
  | rename fromRelative toRelative desireStorage =>
    exact .inl (fileRename_tells os fromRelative toRelative desireStorage p p' hrun)
  | mkdir relativePath parents desireStorage =>
    exact .inl (dirMkdir_tells os relativePath parents desireStorage p p' hrun)
  | stat relativePath =>
    have htells := (fileStat_tells os relativePath).bind fun _ =>
      (Op.tells_pure () : (pure () : Op σ Unit).Tells os (statCalls relativePath))
    exact .inl (htells p p' hrun)

/-- **Every call can fail.** Whatever the sessions and the last error are, there is a world
in which the operation fails with the error of the call. -/
theorem failedAt {task : FileTask} (h : call ∈ task.calls u sessions) :
    ∃ name way, FailedAt (Os.failingAt u name) call
      ((task.op (Os.failingAt u name)).run ⟨sessions, lastError, way⟩) := by
  cases task with
  | beginUpload transferId relativePath desireStorage perm => exact fileBeginUpload_failedAt h
  | appendUploadChunk transferId data => exact fileAppendUploadChunk_failedAt h
  | finishUpload transferId => exact fileFinishUpload_failedAt h
  | list relativePath =>
    obtain ⟨name, way, hfails⟩ : ∃ name way, FailedAt (Os.failingAt u name) call
      ((fileList (Os.failingAt u name) relativePath).run ⟨sessions, lastError, way⟩) :=
      fileList_failedAt h
    exact ⟨name, way, hfails.bind _⟩
  | delete relativePath desireStorage => exact fileDelete_failedAt h
  | rename fromRelative toRelative desireStorage => exact fileRename_failedAt h
  | mkdir relativePath parents desireStorage => exact dirMkdir_failedAt h
  | stat relativePath =>
    obtain ⟨name, way, hfails⟩ : ∃ name way, FailedAt (Os.failingAt u name) call
      ((fileStat (Os.failingAt u name) relativePath).run ⟨sessions, lastError, way⟩) :=
      fileStat_failedAt h
    exact ⟨name, way, hfails.bind _⟩

/-- A mute operation can leave any last error as it is: there is an outside with which it
fails and sets none. -/
theorem exists_mute {task : FileTask} (h : task.IsMute) :
    ∃ name, (task.op (Os.failingAt u name)).run ⟨sessions, lastError, []⟩ =
      (none, ⟨sessions, lastError, []⟩) := by
  cases task with
  | list relativePath =>
    obtain ⟨dirpath, storage, hpath⟩ := h
    exact ⟨utf8 "opendir", Op.run_bind_of_none (fileList_of_unopened hpath rfl)⟩
  | _ => exact h.elim

end FileTask

end UsbResponder
