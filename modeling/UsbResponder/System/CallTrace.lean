import Mathlib.Data.List.Infix
import UsbResponder.System.Process

/-!
# The calls that change files

`Os.recording` runs the responder on given system calls and writes down the calls that
create, open, write, rename, change or remove a file, with the paths they are about. A
stream is a path only to the one who opened it, so the recorder keeps the streams it has
handed out and hands out each number once; what a stream is a number of underneath is up to
the system calls recorded.

`Op.Issues Q` says of an operation that all calls it makes satisfy `Q`. The rules below
reduce it to the calls an operation is built of, one rule for each way of putting operations
together, and a function of the program is then treated by following its text.
`Op.IssuesReading` is the variant for the part of an operation that holds a stream open for
reading: closing such a stream writes nothing, which is why the calls on it need not be
allowed by `Q`.

The recorder adds nothing that the program can see, so what it says of the recorded calls it
says of the calls underneath. Reads, and calls that only look, are passed on without a
record.
-/

namespace UsbResponder

variable {σ α β : Type}

/-! ### Recorded calls -/

/-- A call that changes files, or is about to: the record is made before the outcome is
known, so a call that fails is recorded as well. -/
inductive FileCall
  | create (path : Bytes)
  | write (path : Bytes)
  | rename (fromPath toPath : Bytes)
  | chmod (path : Bytes)
  | unlink (path : Bytes)
  | mkdir (path : Bytes)
  | rmdir (path : Bytes)
  deriving DecidableEq, Repr

/-- The paths a call is about, in the order of its arguments. -/
def FileCall.paths : FileCall → List Bytes
  | .create path => [path]
  | .write path => [path]
  | .rename fromPath toPath => [fromPath, toPath]
  | .chmod path => [path]
  | .unlink path => [path]
  | .mkdir path => [path]
  | .rmdir path => [path]

/-- A stream that was opened: the stream underneath, and the path if it was opened for
writing. -/
structure OpenedStream where
  fp : ℕ
  target : Option Bytes
  deriving DecidableEq, Repr

/-- The outside with the streams opened so far and the calls recorded. The record is in the
order of the calls. -/
structure Recorded (σ : Type) where
  inner : σ
  streams : List OpenedStream
  calls : List FileCall

namespace Recorded

/-- Record a call. What it does to the outside is not affected. -/
def issue (call : FileCall) (r : Recorded σ) : Recorded σ := { r with calls := r.calls ++ [call] }

/-- A call on the outside that is not recorded: it changes no file. -/
def lift (call : σ → β × σ) (r : Recorded σ) : β × Recorded σ :=
  ((call r.inner).1, { r with inner := (call r.inner).2 })

/-- The stream underneath. A number that was not handed out stands for itself. -/
def fd (r : Recorded σ) (fp : ℕ) : ℕ := (r.streams[fp]?.map OpenedStream.fp).getD fp

/-- The path a stream writes to. It is none for a stream that reads, and for a number that
was not handed out. -/
def target (r : Recorded σ) (fp : ℕ) : Option Bytes := r.streams[fp]?.bind OpenedStream.target

/-- Record a write, or a call that may write what the stream has buffered. Of a stream that
only reads nothing is recorded. -/
def issueWrite (fp : ℕ) (r : Recorded σ) : Recorded σ :=
  match r.target fp with
  | none => r
  | some path => r.issue (.write path)

/-- An opening: on success the stream gets the next number. A number is never given out
again, so a path can be kept for it for good. -/
def opening (target : Option Bytes) (call : σ → Except Errno ℕ × σ) (r : Recorded σ) :
    Except Errno ℕ × Recorded σ :=
  match call r.inner with
  | (.error e, s) => (.error e, { r with inner := s })
  | (.ok fp, s) =>
    (.ok r.streams.length, { r with inner := s, streams := r.streams ++ [⟨fp, target⟩] })

end Recorded

/-- The system calls `os`, recorded. `fflush`, `fsync` and `fclose` may write what a stream
has buffered. -/
def Os.recording (os : Os σ) : Os (Recorded σ) where
  strerror := os.strerror
  ulongMax := os.ulongMax
  allocates size r := os.allocates size r.inner
  fopenWb path r := (r.issue (.create path)).opening (some path) (os.fopenWb path)
  fopenRb path r := r.opening none (os.fopenRb path)
  fwrite fp data r := (r.issueWrite fp).lift (os.fwrite (r.fd fp) data)
  fread fp size r := r.lift (os.fread (r.fd fp) size)
  fseekEnd fp r := r.lift (os.fseekEnd (r.fd fp))
  fseekSet fp r := r.lift (os.fseekSet (r.fd fp))
  ftell fp r := r.lift (os.ftell (r.fd fp))
  fflush fp r := (r.issueWrite fp).lift (os.fflush (r.fd fp))
  fsync fp r := (r.issueWrite fp).lift (os.fsync (r.fd fp))
  fclose fp r := (r.issueWrite fp).lift (os.fclose (r.fd fp))
  rename fromPath toPath r := (r.issue (.rename fromPath toPath)).lift (os.rename fromPath toPath)
  chmod path mode r := (r.issue (.chmod path)).lift (os.chmod path mode)
  unlink path r := (r.issue (.unlink path)).lift (os.unlink path)
  mkdir path mode r := (r.issue (.mkdir path)).lift (os.mkdir path mode)
  rmdir path r := (r.issue (.rmdir path)).lift (os.rmdir path)
  lstat path := Recorded.lift (os.lstat path)
  stat path := Recorded.lift (os.stat path)
  opendir path := Recorded.lift (os.opendir path)
  fopenMountinfo := Recorded.lift os.fopenMountinfo
  fgetsMountinfo fp := Recorded.lift (os.fgetsMountinfo fp)
  fcloseMountinfo fp := Recorded.lift (os.fcloseMountinfo fp)
  statvfs path := Recorded.lift (os.statvfs path)
  getpwuid uid := Recorded.lift (os.getpwuid uid)
  getgrgid gid := Recorded.lift (os.getgrgid gid)
  uname := Recorded.lift os.uname

/-- Reading the mount table is not recorded. -/
theorem Os.recording_mountinfo (os : Os σ) (r : Recorded σ) :
    os.recording.mountinfo r = Recorded.lift os.mountinfo r := by
  simp only [Os.mountinfo, recording, Recorded.lift]
  rcases os.fopenMountinfo r.inner with ⟨e | fp, s⟩
  · rfl
  · rfl

/-! ### What is issued -/

/-- `r'` is `r` after calls that all satisfy `Q`; streams may have been opened. What was
recorded before stays in front. -/
structure Recorded.Issued (Q : FileCall → Prop) (r r' : Recorded σ) : Prop where
  calls : ∃ new, r'.calls = r.calls ++ new ∧ ∀ call ∈ new, Q call
  streams : r.streams <+: r'.streams

namespace Recorded.Issued

variable {Q : FileCall → Prop} {r r₁ r₂ : Recorded σ}

theorem refl (r : Recorded σ) : Issued Q r r := ⟨⟨[], by simp, by simp⟩, List.prefix_rfl⟩

theorem trans (h₁ : Issued Q r r₁) (h₂ : Issued Q r₁ r₂) : Issued Q r r₂ := by
  obtain ⟨new₁, hcalls₁, hnew₁⟩ := h₁.calls
  obtain ⟨new₂, hcalls₂, hnew₂⟩ := h₂.calls
  refine ⟨⟨new₁ ++ new₂, by rw [hcalls₂, hcalls₁, List.append_assoc], ?_⟩,
    h₁.streams.trans h₂.streams⟩
  intro call hcall
  exact (List.mem_append.mp hcall).elim (hnew₁ call) (hnew₂ call)

/-- A call that is not recorded. -/
theorem of_lift (call : σ → β × σ) (r : Recorded σ) : Issued Q r (r.lift call).2 :=
  ⟨⟨[], by simp [lift], by simp⟩, List.prefix_rfl⟩

/-- A reading of the mount table. -/
theorem of_mountinfo (os : Os σ) (r : Recorded σ) : Issued Q r (os.recording.mountinfo r).2 := by
  rw [os.recording_mountinfo]
  exact of_lift os.mountinfo r

/-- A recorded call. -/
theorem of_issue {call : FileCall} (h : Q call) (r : Recorded σ) : Issued Q r (r.issue call) :=
  ⟨⟨[call], rfl, by simpa using h⟩, List.prefix_rfl⟩

theorem of_issueWrite {fp : ℕ} (r : Recorded σ) (h : ∀ path ∈ r.target fp, Q (.write path)) :
    Issued Q r (r.issueWrite fp) := by
  rw [issueWrite]
  rcases htarget : r.target fp with _ | path
  · exact .refl r
  · exact .of_issue (h path htarget) r

theorem of_opening (target : Option Bytes) (call : σ → Except Errno ℕ × σ) (r : Recorded σ) :
    Issued Q r (r.opening target call).2 := by
  rw [opening]
  rcases call r.inner with ⟨e | fp, s⟩
  · exact ⟨⟨[], by simp, by simp⟩, List.prefix_rfl⟩
  · exact ⟨⟨[], by simp, by simp⟩, List.prefix_append ..⟩

end Recorded.Issued

/-- What was recorded stays recorded. So a call that was made early is among those of a
whole operation. -/
theorem Recorded.Issued.mem {Q : FileCall → Prop} {r r' : Recorded σ} (h : Recorded.Issued Q r r')
    {call : FileCall} (hcall : call ∈ r.calls) : call ∈ r'.calls := by
  obtain ⟨new, hcalls, -⟩ := h.calls
  rw [hcalls]
  exact List.mem_append_left new hcall

/-- A stream keeps its path, since the numbers of streams are never used again. -/
theorem Recorded.Issued.target {Q : FileCall → Prop} {r r' : Recorded σ}
    (h : Recorded.Issued Q r r') {fp : ℕ} (hfp : fp < r.streams.length) :
    r'.target fp = r.target fp := by
  obtain ⟨rest, hrest⟩ := h.streams
  rw [Recorded.target, Recorded.target, ← hrest, List.getElem?_append_left hfp]

/-- What an opening is recorded as. -/
theorem Recorded.target_of_opening {r r' : Recorded σ} {target : Option Bytes}
    {call : σ → Except Errno ℕ × σ} {fp : ℕ} (h : r.opening target call = (.ok fp, r')) :
    fp < r'.streams.length ∧ r'.target fp = target := by
  rw [Recorded.opening] at h
  rcases hcall : call r.inner with ⟨e | fd, s⟩
  · simp [hcall] at h
  · simp only [hcall, Prod.mk.injEq, Except.ok.injEq] at h
    obtain ⟨rfl, rfl⟩ := h
    refine ⟨by simp, ?_⟩
    rw [Recorded.target, List.getElem?_concat_length]
    rfl

/-- All calls that are recorded satisfy `Q`, when there were none before. -/
theorem Recorded.Issued.of_nil {Q : FileCall → Prop} {r r' : Recorded σ}
    (h : Recorded.Issued Q r r') (hnil : r.calls = []) : ∀ call ∈ r'.calls, Q call := by
  obtain ⟨new, hcalls, hnew⟩ := h.calls
  rwa [hcalls, hnil, List.nil_append]

/-- The stream `fp` was opened for reading. -/
def Recorded.ReadsOnly (fp : ℕ) (r : Recorded σ) : Prop :=
  fp < r.streams.length ∧ r.target fp = none

theorem Recorded.ReadsOnly.issued {Q : FileCall → Prop} {fp : ℕ} {r r' : Recorded σ}
    (h : r.ReadsOnly fp) (hissued : Recorded.Issued Q r r') : r'.ReadsOnly fp :=
  ⟨h.1.trans_le hissued.streams.length_le, (hissued.target h.1).trans h.2⟩

/-! ### Operations -/

/-- On the process `p` the operation makes only calls that satisfy `Q`, and leaves the
upload sessions as they are. -/
structure Op.IssuesAt (Q : FileCall → Prop) (x : Op (Recorded σ) α) (p : Proc (Recorded σ)) :
    Prop where
  issued : Recorded.Issued Q p.os (x.run p).2.os
  sessions : (x.run p).2.sessions = p.sessions

/-- So it does on every process. It is the form in which operations without a stream are
proved. -/
def Op.Issues (Q : FileCall → Prop) (x : Op (Recorded σ) α) : Prop := ∀ p, x.IssuesAt Q p

/-- So it does on every process that has the stream `fp` open for reading. -/
def Op.IssuesReading (fp : ℕ) (Q : FileCall → Prop) (x : Op (Recorded σ) α) : Prop :=
  ∀ p, p.os.ReadsOnly fp → x.IssuesAt Q p

namespace Op

variable {Q : FileCall → Prop}

theorem issues_pure (a : α) : (pure a : Op (Recorded σ) α).Issues Q := fun p => ⟨.refl p.os, rfl⟩

theorem issues_fail : (fail : Op (Recorded σ) α).Issues Q := fun p => ⟨.refl p.os, rfl⟩

theorem issues_failWith (msg : Bytes) : (failWith msg : Op (Recorded σ) α).Issues Q :=
  fun p => ⟨.refl p.os, rfl⟩

theorem issues_failFile (os : Os (Recorded σ)) (pre path : Bytes) (e : Errno) :
    (failFile os pre path e : Op (Recorded σ) α).Issues Q := fun p => ⟨.refl p.os, rfl⟩

theorem issues_ite {c : Prop} [Decidable c] {x y : Op (Recorded σ) α} (hx : x.Issues Q)
    (hy : y.Issues Q) : (if c then x else y).Issues Q := by
  split_ifs
  · exact hx
  · exact hy

/-- A call that is not recorded. -/
theorem issues_lift (call : σ → β × σ) : (sys (Recorded.lift call)).Issues Q :=
  fun p => ⟨.of_lift call p.os, rfl⟩

/-- A call on a stream that is not recorded. -/
theorem issues_stream (fp : ℕ) (call : ℕ → σ → β × σ) :
    (sys fun r : Recorded σ => r.lift (call (r.fd fp))).Issues Q :=
  fun p => ⟨.of_lift _ p.os, rfl⟩

/-- A recorded call on a path. It is allowed when `Q` holds of the record, whatever the call
does. -/
theorem issues_issue {fileCall : FileCall} (h : Q fileCall) (call : σ → β × σ) :
    (sys fun r : Recorded σ => (r.issue fileCall).lift call).Issues Q :=
  fun p => ⟨(Recorded.Issued.of_issue h p.os).trans (.of_lift call _), rfl⟩

/-- An operation in two steps; the second one runs on what the first one has left. -/
theorem IssuesAt.bind {x : Op (Recorded σ) β} {f : β → Op (Recorded σ) α} {p : Proc (Recorded σ)}
    (hx : x.IssuesAt Q p) (hf : ∀ b p', x.run p = (some b, p') → (f b).IssuesAt Q p') :
    (x >>= f).IssuesAt Q p := by
  obtain ⟨hissued, hsessions⟩ := hx
  rcases hrun : x.run p with ⟨_ | b, p'⟩
  · rw [hrun] at hissued hsessions
    refine ⟨?_, ?_⟩ <;> rwa [run_bind_of_none hrun]
  · rw [hrun] at hissued hsessions
    obtain ⟨hissued', hsessions'⟩ := hf b p' hrun
    constructor
    · rw [run_bind_of_some hrun]
      exact hissued.trans hissued'
    · rw [run_bind_of_some hrun]
      exact hsessions'.trans hsessions

theorem Issues.bind {x : Op (Recorded σ) β} {f : β → Op (Recorded σ) α} (hx : x.Issues Q)
    (hf : ∀ b, (f b).Issues Q) : (x >>= f).Issues Q :=
  fun p => (hx p).bind fun b p' _ => hf b p'

/-- A stream that is open for reading stays so. -/
theorem IssuesReading.bind {fp : ℕ} {x : Op (Recorded σ) β} {f : β → Op (Recorded σ) α}
    (hx : x.IssuesReading fp Q) (hf : ∀ b, (f b).IssuesReading fp Q) :
    (x >>= f).IssuesReading fp Q := by
  intro p hp
  refine (hx p hp).bind fun b p' hrun => hf b p' ?_
  have hissued := (hx p hp).issued
  rw [hrun] at hissued
  exact hp.issued hissued

theorem Issues.reading {x : Op (Recorded σ) α} (hx : x.Issues Q) (fp : ℕ) :
    x.IssuesReading fp Q := fun p _ => hx p

/-- Closing a stream that was opened for reading writes nothing. The recorder knows such a
stream by having no path for it. -/
theorem issuesReading_fclose (os : Os σ) (fp : ℕ) :
    (sys (os.recording.fclose fp)).IssuesReading fp Q := by
  intro p hp
  refine ⟨?_, rfl⟩
  have hnone : p.os.issueWrite fp = p.os := by rw [Recorded.issueWrite, hp.2]
  show Recorded.Issued Q p.os ((p.os.issueWrite fp).lift (os.fclose (p.os.fd fp))).2
  rw [hnone]
  exact .of_lift _ p.os

/-- An allocation is not recorded. -/
theorem issues_malloc (os : Os σ) (size : ℕ) : (sys (os.recording.malloc size)).Issues Q :=
  issues_lift (os.malloc size)

/-- Failing with the stream closed. -/
theorem issuesReading_failClosing (os : Os σ) (fp : ℕ) :
    (failClosing os.recording fp : Op (Recorded σ) α).IssuesReading fp Q := by
  intro p hp
  have hclose := issuesReading_fclose (Q := Q) os fp p hp
  exact ⟨hclose.issued, hclose.sessions⟩

/-- An opening for reading, and what is done with the stream. What follows may use that the
stream has no path to write to. -/
theorem issues_fopenRb_bind (os : Os σ) (path : Bytes)
    {f : Except Errno ℕ → Op (Recorded σ) α} (herror : ∀ e, (f (.error e)).Issues Q)
    (hok : ∀ fp, (f (.ok fp)).IssuesReading fp Q) :
    (sys (os.recording.fopenRb path) >>= f).Issues Q := by
  intro p
  refine IssuesAt.bind ⟨.of_opening none (os.fopenRb path) p.os, rfl⟩ fun opened p' hrun => ?_
  rcases opened with e | fp
  · exact herror e p'
  · have hopen : os.recording.fopenRb path p.os = (.ok fp, p'.os) :=
      Prod.ext (Option.some.inj (congrArg Prod.fst hrun)) (congrArg (fun r => r.2.os) hrun)
    exact hok fp p' (Recorded.target_of_opening hopen)

end Op

end UsbResponder
