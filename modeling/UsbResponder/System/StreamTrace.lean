import UsbResponder.Base.HandleUses
import UsbResponder.System.Process

/-!
# The streams of the process

`Os.tracing` runs the responder on given system calls and writes down what it does with
streams: the ones it opens, uses and closes. Underneath, a number may stand for one stream
now and for another one later, so the tracer hands out each number once. The stream on the
mount table is opened and closed through calls of its own and is traced like the others.

`Traced.Open held` says that the trace has kept to the rule of `Handles.openAfter` and has
left exactly `held` open. An operation either leaves what is open as it is (`Op.KeepsOpen`),
also while it uses a stream of its own (`Op.Uses`), or it closes that stream at its end
(`Op.Closes`). Between the two is `Op.ClosesOnFail`, for an operation that hands its stream
on when it succeeds.

Each of the four has its rules for sequencing, and a function of the program is treated by
applying them along its text: after an opening comes an operation that closes, on every
exit. Directory streams, descriptors and memory are not traced.
-/

namespace UsbResponder

open Handles

variable {σ α β : Type}

/-! ### Traced calls -/

/-- The outside, with the streams opened so far and what was done with them. The position of
a stream in the list is the number it was handed out as. -/
structure Traced (σ : Type) where
  inner : σ
  streams : List ℕ
  uses : List (HandleUse ℕ)

namespace Traced

/-- A call that is about no stream. -/
def lift (call : σ → β × σ) (r : Traced σ) : β × Traced σ :=
  ((call r.inner).1, { r with inner := (call r.inner).2 })

/-- The stream underneath. A number that was not handed out stands for itself. -/
def fd (r : Traced σ) (fp : ℕ) : ℕ := r.streams[fp]?.getD fp

/-- Write down what is done with a stream, behind all that was done before. -/
def note (r : Traced σ) (u : HandleUse ℕ) : Traced σ := { r with uses := r.uses ++ [u] }

/-- A call on a stream. -/
def onStream (fp : ℕ) (call : ℕ → σ → β × σ) (r : Traced σ) : β × Traced σ :=
  (r.note (.used fp)).lift (call (r.fd fp))

/-- An opening: on success the stream gets the next number. -/
def opening (call : σ → Except Errno ℕ × σ) (r : Traced σ) : Except Errno ℕ × Traced σ :=
  match call r.inner with
  | (.error e, s) => (.error e, { r with inner := s })
  | (.ok fp, s) =>
    (.ok r.streams.length,
      { inner := s, streams := r.streams ++ [fp], uses := r.uses ++ [.opened r.streams.length] })

end Traced

/-- The system calls `os`, with what is done with streams. Results and effects are those of
`os`, with the numbers exchanged. -/
def Os.tracing (os : Os σ) : Os (Traced σ) where
  strerror := os.strerror
  ulongMax := os.ulongMax
  allocates size r := os.allocates size r.inner
  fopenWb path := Traced.opening (os.fopenWb path)
  fopenRb path := Traced.opening (os.fopenRb path)
  fwrite fp data := Traced.onStream fp fun fd => os.fwrite fd data
  fread fp size := Traced.onStream fp fun fd => os.fread fd size
  fseekEnd fp := Traced.onStream fp os.fseekEnd
  fseekSet fp := Traced.onStream fp os.fseekSet
  ftell fp := Traced.onStream fp os.ftell
  fflush fp := Traced.onStream fp os.fflush
  fsync fp := Traced.onStream fp os.fsync
  fclose fp r := (r.note (.closed fp)).lift (os.fclose (r.fd fp))
  rename fromPath toPath := Traced.lift (os.rename fromPath toPath)
  chmod path mode := Traced.lift (os.chmod path mode)
  unlink path := Traced.lift (os.unlink path)
  mkdir path mode := Traced.lift (os.mkdir path mode)
  rmdir path := Traced.lift (os.rmdir path)
  lstat path := Traced.lift (os.lstat path)
  stat path := Traced.lift (os.stat path)
  opendir path := Traced.lift (os.opendir path)
  fopenMountinfo := Traced.opening os.fopenMountinfo
  fgetsMountinfo fp := Traced.onStream fp os.fgetsMountinfo
  fcloseMountinfo fp r := (r.note (.closed fp)).lift (os.fcloseMountinfo (r.fd fp))
  statvfs path := Traced.lift (os.statvfs path)
  getpwuid uid := Traced.lift (os.getpwuid uid)
  getgrgid gid := Traced.lift (os.getgrgid gid)
  uname := Traced.lift os.uname

/-! ### What is open -/

/-- Every use so far was allowed, and the streams in `held` are those that are open. A use
of a stream that is closed, or a second close, would have left no `held` at all. -/
structure Traced.Open (r : Traced σ) (held : Finset ℕ) : Prop where
  uses : openAfter r.uses ∅ = some held
  given : ∀ fp ∈ held, fp < r.streams.length

namespace Traced.Open

variable {r r' : Traced σ} {held : Finset ℕ} {fp : ℕ}

theorem lift (h : r.Open held) (call : σ → β × σ) : (r.lift call).2.Open held := ⟨h.uses, h.given⟩

theorem onStream (h : r.Open held) (hfp : fp ∈ held) (call : ℕ → σ → β × σ) :
    (r.onStream fp call).2.Open held :=
  ⟨openAfter_used h.uses hfp, h.given⟩

/-- The next number is that of no stream that is open. -/
private theorem notMem (h : r.Open held) : r.streams.length ∉ held :=
  fun hmem => lt_irrefl _ (h.given _ hmem)

theorem opening_ok {call : σ → Except Errno ℕ × σ} (h : r.Open held)
    (hopen : r.opening call = (.ok fp, r')) : fp ∉ held ∧ r'.Open (insert fp held) := by
  rw [opening] at hopen
  rcases hcall : call r.inner with ⟨e | fd, s⟩
  · simp [hcall] at hopen
  · simp only [hcall, Prod.mk.injEq, Except.ok.injEq] at hopen
    obtain ⟨rfl, rfl⟩ := hopen
    refine ⟨h.notMem, openAfter_opened h.uses h.notMem, fun fp hfp => ?_⟩
    rw [List.length_append, List.length_singleton]
    obtain rfl | hfp := Finset.mem_insert.mp hfp
    · exact Nat.lt_succ_self _
    · exact (h.given fp hfp).trans (Nat.lt_succ_self _)

theorem opening_error {call : σ → Except Errno ℕ × σ} {e : Errno} (h : r.Open held)
    (hopen : r.opening call = (.error e, r')) : r'.Open held := by
  rw [opening] at hopen
  rcases hcall : call r.inner with ⟨e' | fd, s⟩
  · simp only [hcall, Prod.mk.injEq] at hopen
    rw [← hopen.2]
    exact ⟨h.uses, h.given⟩
  · simp [hcall] at hopen

theorem fclose (h : r.Open held) (hfp : fp ∈ held) (os : Os σ) :
    (os.tracing.fclose fp r).2.Open (held.erase fp) :=
  ⟨openAfter_closed h.uses hfp, fun fp' hfp' => h.given fp' (Finset.mem_of_mem_erase hfp')⟩

/-- The stream on the mount table is closed again. -/
theorem mountinfo (h : r.Open held) (os : Os σ) : (os.tracing.mountinfo r).2.Open held := by
  rw [Os.mountinfo]
  rcases hopen : os.tracing.fopenMountinfo r with ⟨e | fp, r'⟩
  · exact h.opening_error hopen
  · obtain ⟨hnew, hopened⟩ := h.opening_ok hopen
    have hread := hopened.onStream (Finset.mem_insert_self fp held) os.fgetsMountinfo
    have hclosed := openAfter_closed hread.uses (Finset.mem_insert_self fp held)
    rw [Finset.erase_insert hnew] at hclosed
    exact ⟨hclosed, fun fp' hfp' => hread.given fp' (Finset.mem_insert_of_mem hfp')⟩

end Traced.Open

/-! ### Operations -/

/-- The operation leaves open what was open, and the upload sessions as they are. Streams it
opens itself are closed again. -/
def Op.KeepsOpen (x : Op (Traced σ) α) : Prop :=
  ∀ p held, p.os.Open held →
    (x.run p).2.os.Open held ∧ (x.run p).2.sessions = p.sessions

/-- So it does while the stream `fp` is open, which it may use. It is the rule for what
stands between an opening and a close. -/
def Op.Uses (fp : ℕ) (x : Op (Traced σ) α) : Prop :=
  ∀ p held, fp ∈ held → p.os.Open held →
    (x.run p).2.os.Open held ∧ (x.run p).2.sessions = p.sessions

/-- The operation closes the stream `fp`, and leaves open what else was open. -/
def Op.Closes (fp : ℕ) (x : Op (Traced σ) α) : Prop :=
  ∀ p held, fp ∉ held → p.os.Open (insert fp held) →
    (x.run p).2.os.Open held ∧ (x.run p).2.sessions = p.sessions

/-- The operation delivers a value and leaves open what was open, or it fails with the
stream `fp` closed. In the source these are the functions whose error exits call `fclose`. -/
def Op.ClosesOnFail (fp : ℕ) (x : Op (Traced σ) α) : Prop :=
  ∀ p held, fp ∉ held → p.os.Open (insert fp held) →
    (x.run p).2.os.Open (if (x.run p).1.isSome then insert fp held else held) ∧
      (x.run p).2.sessions = p.sessions

namespace Op

theorem keepsOpen_pure (a : α) : (pure a : Op (Traced σ) α).KeepsOpen := fun _ _ h => ⟨h, rfl⟩

theorem keepsOpen_fail : (fail : Op (Traced σ) α).KeepsOpen := fun _ _ h => ⟨h, rfl⟩

theorem keepsOpen_failWith (msg : Bytes) : (failWith msg : Op (Traced σ) α).KeepsOpen :=
  fun _ _ h => ⟨h, rfl⟩

theorem keepsOpen_failFile (os : Os (Traced σ)) (pre path : Bytes) (e : Errno) :
    (failFile os pre path e : Op (Traced σ) α).KeepsOpen := fun _ _ h => ⟨h, rfl⟩

/-- A call that is about no stream. -/
theorem keepsOpen_lift (call : σ → β × σ) : (sys (Traced.lift call)).KeepsOpen :=
  fun _ _ h => ⟨h.lift call, rfl⟩

theorem keepsOpen_ite {c : Prop} [Decidable c] {x y : Op (Traced σ) α} (hx : x.KeepsOpen)
    (hy : y.KeepsOpen) : (if c then x else y).KeepsOpen := by
  split_ifs
  · exact hx
  · exact hy

theorem KeepsOpen.bind {x : Op (Traced σ) β} {f : β → Op (Traced σ) α} (hx : x.KeepsOpen)
    (hf : ∀ b, (f b).KeepsOpen) : (x >>= f).KeepsOpen := by
  intro p held h
  obtain ⟨hopen, hsessions⟩ := hx p held h
  rcases hrun : x.run p with ⟨_ | b, p'⟩
  · rw [hrun] at hopen hsessions
    rw [run_bind_of_none hrun]
    exact ⟨hopen, hsessions⟩
  · rw [hrun] at hopen hsessions
    obtain ⟨hopen', hsessions'⟩ := hf b p' held hopen
    rw [run_bind_of_some hrun]
    exact ⟨hopen', hsessions'.trans hsessions⟩

theorem KeepsOpen.uses {x : Op (Traced σ) α} (hx : x.KeepsOpen) (fp : ℕ) : x.Uses fp :=
  fun p held _ h => hx p held h

/-- A call on the stream. -/
theorem uses_onStream (fp : ℕ) (call : ℕ → σ → β × σ) :
    (sys (Traced.onStream fp call)).Uses fp :=
  fun _ _ hfp h => ⟨h.onStream hfp call, rfl⟩

theorem Uses.bind {fp : ℕ} {x : Op (Traced σ) β} {f : β → Op (Traced σ) α} (hx : x.Uses fp)
    (hf : ∀ b, (f b).Uses fp) : (x >>= f).Uses fp := by
  intro p held hfp h
  obtain ⟨hopen, hsessions⟩ := hx p held hfp h
  rcases hrun : x.run p with ⟨_ | b, p'⟩
  · rw [hrun] at hopen hsessions
    rw [run_bind_of_none hrun]
    exact ⟨hopen, hsessions⟩
  · rw [hrun] at hopen hsessions
    obtain ⟨hopen', hsessions'⟩ := hf b p' held hfp hopen
    rw [run_bind_of_some hrun]
    exact ⟨hopen', hsessions'.trans hsessions⟩

/-- A system call on the stream, and then operations that close it whatever it has returned.
This is the rule for the checks in the middle of a function. -/
theorem Closes.sys_bind {fp : ℕ} {call : Traced σ → β × Traced σ} {f : β → Op (Traced σ) α}
    (hx : (sys call).Uses fp) (hf : ∀ b, (f b).Closes fp) : (sys call >>= f).Closes fp := by
  intro p held hfp h
  obtain ⟨hopen, hsessions⟩ := hx p _ (Finset.mem_insert_self fp held) h
  rw [run_bind_of_some (run_sys call p)]
  obtain ⟨hopen', hsessions'⟩ := hf (call p.os).1 { p with os := (call p.os).2 } held hfp hopen
  exact ⟨hopen', hsessions'⟩

/-- Closing the stream, and then nothing on streams: the regular end of a function that
reads a file. -/
theorem closes_fclose_bind (os : Os σ) (fp : ℕ) {f : Option Errno → Op (Traced σ) α}
    (hf : ∀ b, (f b).KeepsOpen) : (sys (os.tracing.fclose fp) >>= f).Closes fp := by
  intro p held hfp h
  have hclosed := h.fclose (Finset.mem_insert_self fp held) os
  rw [Finset.erase_insert hfp] at hclosed
  rw [run_bind_of_some (run_sys (os.tracing.fclose fp) p)]
  exact hf _ { p with os := (os.tracing.fclose fp p.os).2 } held hclosed

/-- Failing with the stream closed. -/
theorem closes_failClosing (os : Os σ) (fp : ℕ) :
    (failClosing os.tracing fp : Op (Traced σ) α).Closes fp := by
  intro p held hfp h
  have hclosed := h.fclose (Finset.mem_insert_self fp held) os
  rw [Finset.erase_insert hfp] at hclosed
  exact ⟨hclosed, rfl⟩

theorem closesOnFail_pure (fp : ℕ) (a : α) : (pure a : Op (Traced σ) α).ClosesOnFail fp :=
  fun _ _ _ h => ⟨h, rfl⟩

theorem closesOnFail_failClosing (os : Os σ) (fp : ℕ) :
    (failClosing os.tracing fp : Op (Traced σ) α).ClosesOnFail fp :=
  closes_failClosing os fp

/-- A system call on the stream, and then operations that close it if they fail. -/
theorem ClosesOnFail.sys_bind {fp : ℕ} {call : Traced σ → β × Traced σ}
    {f : β → Op (Traced σ) α} (hx : (sys call).Uses fp) (hf : ∀ b, (f b).ClosesOnFail fp) :
    (sys call >>= f).ClosesOnFail fp := by
  intro p held hfp h
  obtain ⟨hopen, hsessions⟩ := hx p _ (Finset.mem_insert_self fp held) h
  rw [run_bind_of_some (run_sys call p)]
  exact hf (call p.os).1 { p with os := (call p.os).2 } held hfp hopen

/-- What has closed the stream when it fails, and operations that close it otherwise. -/
theorem ClosesOnFail.bind {fp : ℕ} {x : Op (Traced σ) β} {f : β → Op (Traced σ) α}
    (hx : x.ClosesOnFail fp) (hf : ∀ b, (f b).Closes fp) : (x >>= f).Closes fp := by
  intro p held hfp h
  obtain ⟨hopen, hsessions⟩ := hx p held hfp h
  rcases hrun : x.run p with ⟨_ | b, p'⟩
  · rw [hrun] at hopen hsessions
    rw [run_bind_of_none hrun]
    exact ⟨hopen, hsessions⟩
  · rw [hrun] at hopen hsessions
    obtain ⟨hopen', hsessions'⟩ := hf b p' held hfp hopen
    rw [run_bind_of_some hrun]
    exact ⟨hopen', hsessions'.trans hsessions⟩

/-- An opening, and operations that close the stream if there is one. A failed opening
leaves nothing to close. -/
theorem keepsOpen_opening_bind (call : σ → Except Errno ℕ × σ)
    {f : Except Errno ℕ → Op (Traced σ) α} (herror : ∀ e, (f (.error e)).KeepsOpen)
    (hok : ∀ fp, (f (.ok fp)).Closes fp) : (sys (Traced.opening call) >>= f).KeepsOpen := by
  intro p held h
  rw [run_bind_of_some (run_sys (Traced.opening call) p)]
  rcases hopen : p.os.opening call with ⟨e | fp, r⟩
  · exact herror e { p with os := r } held (h.opening_error hopen)
  · obtain ⟨hfp, hopened⟩ := h.opening_ok hopen
    exact hok fp { p with os := r } held hfp hopened

end Op

end UsbResponder
