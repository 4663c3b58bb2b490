import UsbResponder.Base.CString
import UsbResponder.Base.SlotTable

/-!
# The process and its system calls

The responder is one process: its upload sessions, the message of its last error, and
everything outside it, which is a state of some type `σ` that only system calls read or
change. `Os σ` is the interface of these calls. Nothing is assumed about what they do, so a
result proved for every `Os` holds for any outcomes of the calls, in any order.

An operation of the program that may `return false` is an `Op`: it runs on the process and
either delivers a value or fails, and in both cases it keeps the effects it has had. This is
the one difference to a state monad with failure, and the reason for the type: an early
`return false` leaves behind what was done before it. Programs are written with `do`, and
proofs take them apart with `run_bind_of_some` and `run_bind_of_none`, one call at a time.

`errno` is returned with the call that sets it. Signals, threads and the memory of the
process are not modelled here; allocation is, as far as a failing one makes the program take
another exit.
-/

namespace UsbResponder

open CString

/-! ### System calls -/

/-- A value of `errno`. The program hands it to `strerror`, and compares it only where a
call may fail for a reason that is none. -/
abbrev Errno := ℕ

/-- `EEXIST`, with which `mkdir` fails where the directory may be there already. -/
def eExist : Errno := 17

/-- The kinds of files that `S_ISREG`, `S_ISDIR` and `S_ISLNK` tell apart. -/
inductive FileKind
  | regular
  | directory
  | link
  | other
  deriving DecidableEq, Repr

/-- `struct stat`, as far as it is read: `st_mode` is the kind and the twelve permission
bits, which are kept apart. -/
structure Stat where
  kind : FileKind
  perm : ℕ
  uid : ℕ
  gid : ℕ
  size : ℕ
  deriving DecidableEq, Repr

/-- `struct statvfs`, as far as it is read. -/
structure StatVfs where
  blocks : UInt64
  bavail : UInt64
  frsize : UInt64
  deriving DecidableEq, Repr

/-- The system calls and library calls of the responder, as functions on the state outside
the process. A stream (`FILE *`) is a number. A call that only succeeds or fails returns the
`errno` of the failure, `none` for success. -/
structure Os (σ : Type) where
  /-- `strerror`. -/
  strerror : Errno → Bytes
  /-- `ULONG_MAX` of the target. -/
  ulongMax : ℕ
  /-- Whether there is memory for a block of the given size. -/
  allocates : ℕ → σ → Bool
  /-- `fopen(path, "wb")`. -/
  fopenWb : Bytes → σ → Except Errno ℕ × σ
  /-- `fopen(path, "rb")`. -/
  fopenRb : Bytes → σ → Except Errno ℕ × σ
  /-- `fwrite(data, 1, size, fp)`: the number of bytes accepted, and `errno`. -/
  fwrite : ℕ → Bytes → σ → (ℕ × Errno) × σ
  /-- `fread(buf, 1, size, fp)`: the bytes read, and `errno`. -/
  fread : ℕ → ℕ → σ → (Bytes × Errno) × σ
  /-- `fseek(fp, 0, SEEK_END)`. -/
  fseekEnd : ℕ → σ → Option Errno × σ
  /-- `fseek(fp, 0, SEEK_SET)`. -/
  fseekSet : ℕ → σ → Option Errno × σ
  /-- `ftell`. -/
  ftell : ℕ → σ → Except Errno ℕ × σ
  /-- `fflush`. -/
  fflush : ℕ → σ → Option Errno × σ
  /-- `fsync(fileno(fp))`. -/
  fsync : ℕ → σ → Option Errno × σ
  /-- `fclose`. -/
  fclose : ℕ → σ → Option Errno × σ
  /-- `rename(from, to)`. -/
  rename : Bytes → Bytes → σ → Option Errno × σ
  /-- `chmod(path, mode)`. -/
  chmod : Bytes → ℕ → σ → Option Errno × σ
  /-- `unlink`. -/
  unlink : Bytes → σ → Option Errno × σ
  /-- `mkdir(path, mode)`. -/
  mkdir : Bytes → ℕ → σ → Option Errno × σ
  /-- `rmdir`. -/
  rmdir : Bytes → σ → Option Errno × σ
  /-- `lstat`. -/
  lstat : Bytes → σ → Except Errno Stat × σ
  /-- `stat`. -/
  stat : Bytes → σ → Except Errno Stat × σ
  /-- `opendir` and the names `readdir` then yields, in its order. -/
  opendir : Bytes → σ → Except Errno (List Bytes) × σ
  /-- `fopen("/proc/self/mountinfo", "r")`. -/
  fopenMountinfo : σ → Except Errno ℕ × σ
  /-- The lines `fgets` yields of this stream. -/
  fgetsMountinfo : ℕ → σ → List Bytes × σ
  /-- `fclose` of this stream. -/
  fcloseMountinfo : ℕ → σ → Option Errno × σ
  /-- `statvfs`. -/
  statvfs : Bytes → σ → Option StatVfs × σ
  /-- The login name `getpwuid_r` finds. -/
  getpwuid : ℕ → σ → Option Bytes × σ
  /-- The group name `getgrgid_r` finds. -/
  getgrgid : ℕ → σ → Option Bytes × σ
  /-- The `release` field `uname` fills in. -/
  uname : σ → Option Bytes × σ

/-- System calls of which none succeeds. They are a base for outsides in which only some
calls are given. -/
def Os.failing (σ : Type) : Os σ where
  strerror _ := []
  ulongMax := 2 ^ 32 - 1
  allocates _ _ := false
  fopenWb _ s := (.error 2, s)
  fopenRb _ s := (.error 2, s)
  fwrite _ _ s := ((0, 5), s)
  fread _ _ s := (([], 5), s)
  fseekEnd _ s := (some 9, s)
  fseekSet _ s := (some 9, s)
  ftell _ s := (.error 9, s)
  fflush _ s := (some 9, s)
  fsync _ s := (some 9, s)
  fclose _ s := (some 9, s)
  rename _ _ s := (some 2, s)
  chmod _ _ s := (some 2, s)
  unlink _ s := (some 2, s)
  mkdir _ _ s := (some 2, s)
  rmdir _ s := (some 2, s)
  lstat _ s := (.error 2, s)
  stat _ s := (.error 2, s)
  opendir _ s := (.error 2, s)
  fopenMountinfo s := (.error 2, s)
  fgetsMountinfo _ s := ([], s)
  fcloseMountinfo _ s := (some 9, s)
  statvfs _ s := (none, s)
  getpwuid _ s := (none, s)
  getgrgid _ s := (none, s)
  uname s := (none, s)

/-- The lines of `/proc/self/mountinfo`, `none` when it cannot be opened, and the outside
when it is closed again. The stream is opened, read to its end and closed, whatever is read. -/
def Os.mountinfo {σ : Type} (os : Os σ) (s : σ) : Option (List Bytes) × σ :=
  match os.fopenMountinfo s with
  | (.error _, s) => (none, s)
  | (.ok fp, s) =>
    let (lines, s) := os.fgetsMountinfo fp s
    (some lines, (os.fcloseMountinfo fp s).2)

/-- System calls with a mount table that is read off the outside. -/
def Os.withMountinfo {σ : Type} (os : Os σ) (lines : σ → Option (List Bytes)) : Os σ :=
  { os with
    fopenMountinfo := fun s => ((lines s).elim (.error 2) fun _ => .ok 0, s)
    fgetsMountinfo := fun _ s => ((lines s).getD [], s)
    fcloseMountinfo := fun _ s => (none, s) }

@[simp] theorem Os.withMountinfo_mountinfo {σ : Type} (os : Os σ)
    (lines : σ → Option (List Bytes)) (s : σ) :
    (os.withMountinfo lines).mountinfo s = (lines s, s) := by
  rw [mountinfo, withMountinfo]
  cases hlines : lines s with
  | none =>
    dsimp only
    rw [hlines]
    rfl
  | some table =>
    dsimp only
    rw [hlines]
    dsimp only [Option.elim]
    rw [hlines, Option.getD_some]

/-- `malloc(size)`, as far as it fails or not. -/
def Os.malloc {σ : Type} (os : Os σ) (size : ℕ) (s : σ) : Bool × σ := (os.allocates size s, s)

/-- `realloc(ptr, size)`, as far as it fails or not. A block of no bytes is none. -/
def Os.realloc {σ : Type} (os : Os σ) (size : ℕ) (s : σ) : Bool × σ :=
  (decide (0 < size) && os.allocates size s, s)

/-! ### Upload sessions -/

/-- `USB_RESPONDER_MAX_UPLOAD_SESSIONS`. -/
def maxUploadSessions : ℕ := 16

/-- `USB_RESPONDER_PATH_MAX_LEN`. -/
def pathMaxLen : ℕ := 4096

/-- `usb_responder_upload_session_t`; the defaults are those of `memset`. A slot that is not
used keeps what it was cleared to. -/
structure UploadSession where
  used : Bool := false
  transferId : UInt32 := 0
  fp : Option ℕ := none
  relativePath : Bytes := []
  tempPath : Bytes := []
  finalPath : Bytes := []
  bytesWritten : UInt64 := 0
  syncedBytes : UInt64 := 0
  applyPerm : Bool := false
  fileMode : ℕ := 0
  deriving DecidableEq, Repr

/-- The transfer a slot serves, none while it is free. Slots are looked up by it, and
whatever else the record holds plays no part in that. -/
def UploadSession.key (session : UploadSession) : Option UInt32 :=
  if session.used then some session.transferId else none

theorem UploadSession.key_eq_some_iff {session : UploadSession} {id : UInt32} :
    session.key = some id ↔ session.used = true ∧ session.transferId = id := by
  simp [UploadSession.key]

theorem UploadSession.key_eq_none_iff {session : UploadSession} :
    session.key = none ↔ session.used = false := by
  simp [UploadSession.key]

/-- `usb_responder_file_ops_t`: the array of upload sessions, which has a fixed size, as a
function of the index. -/
abbrev FileOps := Fin maxUploadSessions → UploadSession

/-! ### The process -/

/-- The state of the process that the file operations work on. The endpoints and the receive
buffer are kept around it, in `Device` and `Runtime`. -/
structure Proc (σ : Type) where
  /-- The upload sessions. -/
  sessions : FileOps
  /-- `g_last_error`. -/
  lastError : Bytes
  /-- Everything outside the process. -/
  os : σ

variable {σ α β : Type}

/-- `usb_responder_set_last_error`: the message is cut to the buffer of 256 bytes, NUL
included. -/
def Proc.setLastError (p : Proc σ) (msg : Bytes) : Proc σ :=
  { p with lastError := snprintf 256 msg }

@[simp] theorem Proc.setLastError_sessions (p : Proc σ) (msg : Bytes) :
    (p.setLastError msg).sessions = p.sessions := rfl

@[simp] theorem Proc.setLastError_os (p : Proc σ) (msg : Bytes) :
    (p.setLastError msg).os = p.os := rfl

/-- `set_file_error`. The text is formatted in a buffer of 512 bytes and then cut again when
it is stored. -/
def Proc.setFileError (os : Os σ) (pre path : Bytes) (e : Errno) (p : Proc σ) : Proc σ :=
  p.setLastError (snprintf 512 (pre ++ utf8 " " ++ path ++ utf8 ": " ++ os.strerror e))

@[simp] theorem Proc.setFileError_sessions (os : Os σ) (pre path : Bytes) (e : Errno)
    (p : Proc σ) : (p.setFileError os pre path e).sessions = p.sessions := rfl

@[simp] theorem Proc.setFileError_os (os : Os σ) (pre path : Bytes) (e : Errno)
    (p : Proc σ) : (p.setFileError os pre path e).os = p.os := rfl

/-- `set_errno_error`: the text of `errno` behind the name of what has failed, in a buffer
of 256 bytes. -/
def Proc.setErrnoError (os : Os σ) (pre : Bytes) (e : Errno) (p : Proc σ) : Proc σ :=
  p.setLastError (snprintf 256 (pre ++ utf8 ": " ++ os.strerror e))

/-- Writing one session. All other slots stay as they are. -/
def Proc.setSession (p : Proc σ) (i : Fin maxUploadSessions) (session : UploadSession) : Proc σ :=
  { p with sessions := Function.update p.sessions i session }

@[simp] theorem Proc.setSession_sessions (p : Proc σ) (i : Fin maxUploadSessions)
    (session : UploadSession) :
    (p.setSession i session).sessions = Function.update p.sessions i session := rfl

@[simp] theorem Proc.setSession_os (p : Proc σ) (i : Fin maxUploadSessions)
    (session : UploadSession) : (p.setSession i session).os = p.os := rfl

/-! ### Operations that may fail -/

/-- An operation of the program: a value, or `none` for `return false`, and the process
after it. Other than in a transaction, a failure does not undo anything. -/
structure Op (σ α : Type) where
  run : Proc σ → Option α × Proc σ

namespace Op

instance : Monad (Op σ) where
  pure a := ⟨fun p => (some a, p)⟩
  bind x f := ⟨fun p =>
    match x.run p with
    | (some a, p) => (f a).run p
    | (none, p) => (none, p)⟩

/-- `return false`, with no message. The last error stays what it was. -/
def fail : Op σ α := ⟨fun p => (none, p)⟩

/-- Set the last error and `return false`. Most checks of arguments leave in this way. -/
def failWith (msg : Bytes) : Op σ α := ⟨fun p => (none, p.setLastError msg)⟩

/-- Set the last error from `errno` and the path of the call that has failed, and
`return false`. -/
def failFile (os : Os σ) (pre path : Bytes) (e : Errno) : Op σ α :=
  ⟨fun p => (none, p.setFileError os pre path e)⟩

/-- A system call, whatever its result. Whether the result is a failure is for the caller to
see. -/
def sys (call : σ → β × σ) : Op σ β :=
  ⟨fun p => (some (call p.os).1, { p with os := (call p.os).2 })⟩

/-- `fclose(f)` and `return false`: the exit of the functions that hold a stream when
something goes wrong and have no message to set. -/
def failClosing (os : Os σ) (fp : ℕ) : Op σ α :=
  ⟨fun p => (none, { p with os := (os.fclose fp p.os).2 })⟩

@[simp] theorem run_pure (a : α) (p : Proc σ) : (pure a : Op σ α).run p = (some a, p) := rfl

@[simp] theorem run_failWith (msg : Bytes) (p : Proc σ) :
    (failWith msg : Op σ α).run p = (none, p.setLastError msg) := rfl

@[simp] theorem run_failFile (os : Os σ) (pre path : Bytes) (e : Errno) (p : Proc σ) :
    (failFile os pre path e : Op σ α).run p = (none, p.setFileError os pre path e) := rfl

@[simp] theorem run_failClosing (os : Os σ) (fp : ℕ) (p : Proc σ) :
    (failClosing os fp : Op σ α).run p = (none, { p with os := (os.fclose fp p.os).2 }) := rfl

@[simp] theorem run_sys (call : σ → β × σ) (p : Proc σ) :
    (sys call).run p = (some (call p.os).1, { p with os := (call p.os).2 }) := rfl

/-- A step that delivers a value hands it to the next one. -/
theorem run_bind_of_some {x : Op σ α} {f : α → Op σ β} {p p' : Proc σ} {a : α}
    (h : x.run p = (some a, p')) : (x >>= f).run p = (f a).run p' := by
  simp only [bind, h]

/-- A step that fails ends the operation. -/
theorem run_bind_of_none {x : Op σ α} {f : α → Op σ β} {p p' : Proc σ}
    (h : x.run p = (none, p')) : (x >>= f).run p = (none, p') := by
  simp only [bind, h]

end Op

end UsbResponder
