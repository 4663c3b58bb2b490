import UsbResponder.FileOps.Path

/-!
# Reading, listing and changing the file tree

The file operations that are not uploads: reading a file, listing and inspecting, deleting,
creating and renaming, and the storage figures of `usb_responder_storage_info_read`. A
directory is read as the list of names `readdir` yields, and closing it has no effect that
is modelled.

Each function of the source is a definition under its name, written with `do` along its
text; its loops are functions of their own, and the recursion of `remove_path_recursive` has
its loop as a separate function of the function that removes an entry. Both directions of a
result about one of them, what it does when its calls succeed and where it stops when one
fails, come from following this text.

Where a failing allocation takes an exit of its own, it is made: reading a file has such an
exit, which closes the stream. The growing buffers of a listing are a text with a capacity
here, and are cells in `FileOps.ListBuffers`. Errors of `readdir` and `closedir` are not
looked at by the source and have no place in the model.
-/

namespace UsbResponder

open CString

variable {σ α : Type}

/-! ### Reading a file -/

/-- Set the last error from `errno`, close the stream and `return false`. The error is set
first, so a failing `fclose` does not change it. -/
def failStream (os : Os σ) (fp : ℕ) (pre : Bytes) (e : Errno) : Op σ α := ⟨fun p =>
  let p := p.setErrnoError os pre e
  (none, { p with os := (os.fclose fp p.os).2 })⟩

/-- `usb_responder_read_file_all`. `fread` stores at most as many bytes as it is asked for.
A short count is an error, and so is a block that is not to be had. -/
def readFileAll (os : Os σ) (path : Bytes) : Op σ Bytes := do
  match ← Op.sys (os.fopenRb path) with
  | .error e => ⟨fun p => (none, p.setErrnoError os (utf8 "fopen") e)⟩
  | .ok fp =>
    match ← Op.sys (os.fseekEnd fp) with
    | some e => failStream os fp (utf8 "fseek") e
    | none =>
      match ← Op.sys (os.ftell fp) with
      | .error e => failStream os fp (utf8 "ftell") e
      | .ok fileSize =>
        match ← Op.sys (os.fseekSet fp) with
        | some e => failStream os fp (utf8 "fseek") e
        | none =>
          if fileSize = 0 then do
            let _ ← Op.sys (os.fclose fp)
            return []
          else if ← Op.sys (os.malloc fileSize) then do
            let (data, e) ← Op.sys (os.fread fp fileSize)
            let data := data.take fileSize
            if data.length ≠ fileSize then failStream os fp (utf8 "fread") e
            else do
              let _ ← Op.sys (os.fclose fp)
              return data
          else ⟨fun p => (Op.failClosing os fp).run (p.setLastError (utf8 "oom"))⟩

/-- `usb_responder_file_read`: the path is built, and the file read into memory as a whole. -/
def fileRead (os : Os σ) (relativePath : Bytes) : Op σ Bytes := do
  let (path, _) ← buildPathOp relativePath
  readFileAll os path

/-- The path of a request is that of a file that can be opened, its stream tells the size
`n` and delivers as many bytes, and there is memory for them. -/
def ReadsSize (os : Os σ) (relativePath : Bytes) (s : σ) (n : ℕ) : Prop :=
  ∃ path storage fp s₁ s₂ s₃ s₄, buildPath relativePath pathMaxLen = (path, .ok storage) ∧
    os.fopenRb path s = (.ok fp, s₁) ∧ os.fseekEnd fp s₁ = (none, s₂) ∧
    os.ftell fp s₂ = (.ok n, s₃) ∧ os.fseekSet fp s₃ = (none, s₄) ∧
    (n ≠ 0 → os.allocates n s₄ = true) ∧ n ≤ (os.fread fp n s₄).1.1.length

/-- A read of a file returns all of it, exactly when it can be opened, its size can be told,
there is memory for it, and as many bytes can be read. -/
theorem exists_fileRead_iff (os : Os σ) (relativePath : Bytes) (p : Proc σ) (n : ℕ) :
    (∃ data p', (fileRead os relativePath).run p = (some data, p') ∧ data.length = n) ↔
      ReadsSize os relativePath p.os n := by
  rw [fileRead, buildPathOp, ReadsSize]
  rcases hpath : buildPath relativePath pathMaxLen with ⟨path, msg | storage⟩
  · refine iff_of_false ?_ (by simp)
    rw [Op.run_bind_of_none (Op.run_failWith ..)]
    simp
  · rw [Op.run_bind_of_some (Op.run_pure ..)]
    dsimp only
    rw [readFileAll, Op.run_bind_of_some (Op.run_sys ..)]
    -- every call that fails refutes one part of the other side
    rcases hopen : os.fopenRb path p.os with ⟨e | fp, s₁⟩
    · simp [hopen]
    dsimp only
    rw [Op.run_bind_of_some (Op.run_sys ..)]
    rcases hend : os.fseekEnd fp s₁ with ⟨_ | e, s₂⟩
    swap
    · simp [hopen, hend, failStream]
    dsimp only
    rw [Op.run_bind_of_some (Op.run_sys ..)]
    rcases htell : os.ftell fp s₂ with ⟨e | fileSize, s₃⟩
    · simp [hopen, hend, htell, failStream]
    dsimp only
    rw [Op.run_bind_of_some (Op.run_sys ..)]
    rcases hset : os.fseekSet fp s₃ with ⟨_ | e, s₄⟩
    swap
    · simp [hopen, hend, htell, hset, failStream]
    dsimp only
    split_ifs with hzero
    · rw [Op.run_bind_of_some (Op.run_sys ..)]
      simp [hopen, hend, htell, hset, hzero]
      rintro rfl
      exact ⟨fun h => absurd rfl h, Nat.zero_le _⟩
    · rw [Op.run_bind_of_some (Op.run_sys ..), Os.malloc]
      dsimp only
      cases hmem : os.allocates fileSize s₄ with
      | false =>
        simp [hopen, hend, htell, hset]
        rintro rfl hgranted
        simp [hgranted hzero] at hmem
      | true =>
        rw [if_pos rfl, Op.run_bind_of_some (Op.run_sys ..)]
        dsimp only
        have hlength : ((os.fread fp fileSize s₄).1.1.take fileSize).length = _ := List.length_take
        split_ifs with hshort
        · simp [hopen, hend, htell, hset, failStream]
          rintro rfl
          omega
        · rw [Op.run_bind_of_some (Op.run_sys ..)]
          have hfull : min fileSize (os.fread fp fileSize s₄).1.1.length = fileSize := by omega
          simp [hopen, hend, htell, hset, hfull]
          rintro rfl
          exact ⟨fun _ => hmem, by omega⟩

/-! ### Listing a directory -/

/-- The text a listing grows, with the capacity of its buffer; the capacity is 0 before the
first allocation. -/
structure ListText where
  text : Bytes := []
  cap : ℕ := 0
  deriving DecidableEq, Repr

/-- The doubling loop of `list_append_line`. A capacity that is not zero doubles past
`needed` in fewer than `needed` rounds, so the fuel is not used up. -/
def listGrow : ℕ → ℕ → ℕ → ℕ
  | 0, cap, _ => cap
  | fuel + 1, cap, needed => if cap < needed then listGrow fuel (cap * 2) needed else cap

/-- `list_append_line`. -/
def listAppendLine (list : ListText) (name : Bytes) : ListText where
  text := list.text ++ name ++ utf8 "\n"
  cap :=
    let needed := list.text.length + (name.length + 1) + 1
    if list.cap < needed then listGrow needed (if list.cap = 0 then 256 else list.cap) needed
    else list.cap

/-- `.` or `..`, which `readdir` yields of every directory and the source skips. -/
def isDotName (name : Bytes) : Bool := name = utf8 "." || name = utf8 ".."

/-- The path of an entry of a directory, with a slash in between also where the directory is
the root. -/
def childPath (dirpath name : Bytes) : Bytes := dirpath ++ [slash] ++ name

/-- The loop of `usb_responder_file_list` over the names to come, with the lists of files
and of directories so far. The first entry that cannot be inspected ends it. -/
def fileListLoop (os : Os σ) (dirpath : Bytes) :
    List Bytes → ListText → ListText → Op σ (Bytes × Bytes)
  | [], files, dirs => return (files.text, dirs.text)
  | name :: names, files, dirs =>
    if isDotName name then fileListLoop os dirpath names files dirs
    else
      let child := childPath dirpath name
      if pathMaxLen ≤ child.length then Op.failWith (utf8 "path too long")
      else do
        match ← Op.sys (os.lstat child) with
        | .error e => Op.failFile os (utf8 "lstat") child e
        | .ok st =>
          if st.kind = .directory then
            fileListLoop os dirpath names files (listAppendLine dirs name)
          else fileListLoop os dirpath names (listAppendLine files name) dirs

/-- `usb_responder_file_list`: the files and the directories. -/
def fileList (os : Os σ) (relativePath : Bytes) : Op σ (Bytes × Bytes) := do
  let (dirpath, _) ← buildPathOp relativePath
  match ← Op.sys (os.opendir dirpath) with
  | .error _ => Op.fail
  | .ok names => fileListLoop os dirpath names {} {}

section FileList

variable {os : Os σ} {relativePath dirpath : Bytes} {storage : Storage} {p : Proc σ} {s : σ}

/-- A list whose directory cannot be opened fails without setting the last error. -/
theorem fileList_of_unopened {e : Errno}
    (hpath : buildPath relativePath pathMaxLen = (dirpath, .ok storage))
    (hopen : os.opendir dirpath p.os = (.error e, s)) :
    (fileList os relativePath).run p = (none, { p with os := s }) := by
  rw [fileList, Op.run_bind_of_some (buildPathOp_run hpath p), Op.run_bind_of_some (Op.run_sys ..),
    hopen]
  rfl

theorem fileList_of_opened {names : List Bytes}
    (hpath : buildPath relativePath pathMaxLen = (dirpath, .ok storage))
    (hopen : os.opendir dirpath p.os = (.ok names, s)) :
    (fileList os relativePath).run p =
      (fileListLoop os dirpath names {} {}).run { p with os := s } := by
  rw [fileList, Op.run_bind_of_some (buildPathOp_run hpath p), Op.run_bind_of_some (Op.run_sys ..),
    hopen]

end FileList

/-! ### Inspecting a path -/

/-- `usb_responder_stat_info_t`. -/
structure StatInfo where
  owner : Bytes
  perm : Bytes
  size : Bytes
  type : Bytes
  deriving DecidableEq, Repr

/-- The name of a kind of file in a response. What is no file, directory or link is `other`. -/
def FileKind.typeName : FileKind → Bytes
  | .regular => utf8 "file"
  | .directory => utf8 "dir"
  | .link => utf8 "link"
  | .other => utf8 "other"

/-- The name of an owner, or the number when there is none. -/
def ownerName (name : Option Bytes) (id : ℕ) : Bytes :=
  snprintf 128 (name.getD (formatNat 10 0 id))

/-- `usb_responder_file_stat`. Links are not followed, and owners without a name are
numbers. -/
def fileStat (os : Os σ) (relativePath : Bytes) : Op σ StatInfo := do
  let (path, _) ← buildPathOp relativePath
  match ← Op.sys (os.lstat path) with
  | .error e => Op.failFile os (utf8 "lstat") path e
  | .ok st =>
    let user ← Op.sys (os.getpwuid st.uid)
    let group ← Op.sys (os.getgrgid st.gid)
    return {
      owner := snprintf 256 (ownerName user st.uid ++ utf8 ":" ++ ownerName group st.gid)
      perm := snprintf 16 (formatNat 8 4 (st.perm &&& 0o7777))
      size := snprintf 32 (formatNat 10 0 st.size)
      type := snprintf 16 st.kind.typeName }

/-! ### Deleting -/

/-- The loop of `remove_path_recursive` over the entries of a directory, with the function
that removes one of them. It stops at the first entry that cannot be removed. -/
def removeEntries (remove : Bytes → Op σ Unit) (absPath : Bytes) : List Bytes → Op σ Unit
  | [] => pure ()
  | name :: names =>
    if isDotName name then removeEntries remove absPath names
    else
      let child := childPath absPath name
      if pathMaxLen ≤ child.length then Op.failWith (utf8 "path too long")
      else do
        remove child
        removeEntries remove absPath names

/-- `remove_path_recursive`. Every level of the recursion makes the path longer, and paths
are shorter than `PATH_MAX_LEN`, so `fuel` from `PATH_MAX_LEN` on is never used up. -/
def removePathRecursive (os : Os σ) : ℕ → Bytes → Op σ Unit
  | 0, _ => Op.fail
  | fuel + 1, absPath => do
    match ← Op.sys (os.lstat absPath) with
    | .error e => Op.failFile os (utf8 "lstat") absPath e
    | .ok st =>
      if st.kind = .directory then
        match ← Op.sys (os.opendir absPath) with
        | .error e => Op.failFile os (utf8 "opendir") absPath e
        | .ok names =>
          removeEntries (removePathRecursive os fuel) absPath names
          match ← Op.sys (os.rmdir absPath) with
          | some e => Op.failFile os (utf8 "rmdir") absPath e
          | none => pure ()
      else
        match ← Op.sys (os.unlink absPath) with
        | some e => Op.failFile os (utf8 "unlink") absPath e
        | none => pure ()

/-- `usb_responder_file_delete`. The checks come first, so a refused deletion removes
nothing. -/
def fileDelete (os : Os σ) (relativePath : Bytes) (desireStorage : Option Bytes) : Op σ Unit := do
  let (path, storage) ← buildPathOp relativePath
  pathStorageMatchesDesire storage desireStorage
  ensureStorageWriteable os storage
  if pathIsStorageRoot path then Op.failWith (utf8 "refusing to delete storage root")
  else removePathRecursive os pathMaxLen path

/-! ### Creating directories -/

/-- The loop of `usb_responder_dir_mkdir` with `parents`: the rest of the path and the
prefix made so far. Every round uses up a byte of `r`, so `fuel` above the length of `r` is
never used up. -/
def mkdirLoop (os : Os σ) : ℕ → Bytes → Bytes → Op σ Unit
  | 0, _, _ => pure ()
  | fuel + 1, r, work =>
    let r := r.dropWhile (· == slash)
    if r = [] then pure ()
    else
      let seg := r.takeWhile (· != slash)
      let next := (r.drop seg.length).drop 1
      let sep := if work = [slash] then [] else [slash]
      let work := work ++ sep ++ seg
      if pathMaxLen ≤ work.length then Op.failWith (utf8 "path too long")
      else do
        match ← Op.sys (os.mkdir work 0o755) with
        | none => mkdirLoop os fuel next work
        | some e =>
          if e ≠ eExist then Op.failFile os (utf8 "mkdir") work e
          else
            match ← Op.sys (os.stat work) with
            | .error e => Op.failFile os (utf8 "stat") work e
            | .ok st =>
              if st.kind ≠ .directory then
                Op.failWith (utf8 "path exists and is not a directory")
              else mkdirLoop os fuel next work

/-- `usb_responder_dir_mkdir`. With `parents` it goes down the path one component at a time. -/
def dirMkdir (os : Os σ) (relativePath : Bytes) (parents : Bool) (desireStorage : Option Bytes) :
    Op σ Unit := do
  let (path, storage) ← buildPathOp relativePath
  pathStorageMatchesDesire storage desireStorage
  ensureStorageWriteable os storage
  if parents then mkdirLoop os (path.length + 1) (path.drop 1) [slash]
  else
    match ← Op.sys (os.mkdir path 0o755) with
    | some e => Op.failFile os (utf8 "mkdir") path e
    | none => pure ()

/-! ### Renaming -/

/-- The end of `usb_responder_file_rename`, after the checks of the storages: two paths on
the same storage, neither of which is a root. -/
def renameChecked (os : Os σ) (fromPath toPath : Bytes × Storage) : Op σ Unit := do
  if pathIsStorageRoot fromPath.1 || pathIsStorageRoot toPath.1 then
    Op.failWith (utf8 "refusing to rename storage root")
  else if fromPath.2 ≠ toPath.2 then
    Op.failWith (utf8 "cross-storage rename is not supported")
  else
    match ← Op.sys (os.rename fromPath.1 toPath.1) with
    | some e => Op.failFile os (utf8 "rename") toPath.1 e
    | none => pure ()

/-- `usb_responder_file_rename`. Both paths go through the checks before anything is
renamed. -/
def fileRename (os : Os σ) (fromRelative toRelative : Bytes) (desireStorage : Option Bytes) :
    Op σ Unit := do
  let (fromPath, fromStorage) ← buildPathOp fromRelative
  let (toPath, toStorage) ← buildPathOp toRelative
  pathStorageMatchesDesire fromStorage desireStorage
  pathStorageMatchesDesire toStorage desireStorage
  ensureStorageWriteable os fromStorage
  if toStorage ≠ fromStorage then ensureStorageWriteable os toStorage
  renameChecked os (fromPath, fromStorage) (toPath, toStorage)

/-! ### Storage figures -/

/-- `usb_responder_storage_info_t`. -/
structure StorageInfo where
  sdMounted : Bool
  nandTotalBytes : UInt64
  nandFreeBytes : UInt64
  sdTotalBytes : UInt64
  sdFreeBytes : UInt64
  deriving DecidableEq, Repr

/-- `storage_statvfs_or_zero`: the total and the free bytes. -/
def storageStatvfsOrZero (os : Os σ) (path : Bytes) : Op σ (UInt64 × UInt64) := do
  match ← Op.sys (os.statvfs path) with
  | none => return (0, 0)
  | some sv => return (sv.blocks * sv.frsize, sv.bavail * sv.frsize)

/-- `usb_responder_storage_info_read`. -/
def storageInfoRead (os : Os σ) : Op σ StorageInfo := do
  let (nandTotal, nandFree) ← storageStatvfsOrZero os (utf8 "/")
  let mounted ← isSdMounted os
  let (sdTotal, sdFree) ← if mounted then storageStatvfsOrZero os (utf8 "/sd") else pure (0, 0)
  return ⟨mounted, nandTotal, nandFree, sdTotal, sdFree⟩

end UsbResponder
