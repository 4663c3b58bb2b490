import UsbResponder.Base.GuardedLoop
import UsbResponder.Responder.Handlers

/-!
# Running a command

`usb_responder_exec_shell` in the parent process: it forks a shell with two pipes for its
output, waits for both pipes to end and for the child to be reaped, and past the deadline
signals the child's process group. The outside answers the system calls in any way
(`ShellOs`), so a state of it is a schedule of clock values, of `poll`, `read` and `waitpid`
results and of failures.

What the function does is written down in a log: the descriptors it obtains and closes, the
child it forks and reaps, the signals it sends, the bytes it reads, and for every round of
the loop the clock value and the time-out of `poll`. The results about time limits, captured
output and resources are about this log.

The local variables are a record, and every `goto cleanup` is the result `false` of a step,
which `andThen` passes on. For each part of a round there is an inductive relation that says
all it can do (`TickStep`, `ReadStep`, `ReapStep`), and `round_rule` puts together what the
three keep; so the three modules of results never unfold a round. The same holds for the
start (`Started`).

The loop need not end, since a pipe may be held open for ever. It is run with fuel, and
results are about the calls that return. What happens in the child between `fork` and `exec`
is left out.
-/

namespace UsbResponder

open CString

variable {σ : Type}

/-! ### The outside -/

/-- A status that `waitpid` stores, told apart by `WIFEXITED` and `WIFSIGNALED`. The code of
a child that was stopped or continued is of neither kind. -/
inductive WaitStatus
  | exited (code : UInt8)
  | signaled (sig : UInt8)
  | other
  deriving DecidableEq, Repr

/-- `SIGTERM`. -/
def sigTerm : ℕ := 15

/-- `SIGKILL`. -/
def sigKill : ℕ := 9

/-- `EINTR`. -/
def eIntr : Errno := 4

/-- `EAGAIN`. -/
def eAgain : Errno := 11

/-- `O_NONBLOCK`. -/
def oNonblock : ℕ := 0o4000

/-- The calls of `shell_exec.c`, as functions on the state outside. Descriptors are
integers, of which the negative ones are none. Nothing is assumed of the calls but what a
theorem names. -/
structure ShellOs (σ : Type) where
  /-- `monotonic_ms`. -/
  monotonicMs : σ → UInt64 × σ
  /-- `pipe`: the read end and the write end. -/
  pipe : σ → Option (ℤ × ℤ) × σ
  /-- `fork`, in the parent: the positive number of the child, which runs the command. -/
  fork : Bytes → σ → Option ℕ × σ
  /-- `setpgid`. -/
  setpgid : ℕ → σ → σ
  /-- `fcntl(fd, F_GETFL, 0)`. -/
  getfl : ℤ → σ → Option ℕ × σ
  /-- `fcntl(fd, F_SETFL, flags) == 0`. -/
  setfl : ℤ → ℕ → σ → Bool × σ
  /-- `killpg`. -/
  killpg : ℕ → ℕ → σ → σ
  /-- `poll` for `POLLIN | POLLHUP` with a time-out: for each descriptor whether one of the two is
  reported. None is when the time-out has passed. -/
  poll : List ℤ → ℕ → σ → Except Errno (List Bool) × σ
  /-- `read`: the bytes read, none at the end of the file. -/
  read : ℤ → ℕ → σ → Except Errno Bytes × σ
  /-- Whether `realloc` to a size succeeds. -/
  realloc : ℕ → σ → Bool × σ
  /-- `waitpid` with `WNOHANG`: the status if it has returned the child. -/
  waitpidNohang : ℕ → σ → Option WaitStatus × σ
  /-- `waitpid` without options, of a child that has not been reaped. -/
  waitpid : ℕ → σ → WaitStatus × σ
  /-- `close`. -/
  close : ℤ → σ → σ

/-- `pipe` returns descriptors that are not in use: the two of a pipe differ, and differ
from those of a pipe that was obtained right before. -/
def ShellOs.FreshPipes (os : ShellOs σ) : Prop :=
  ∀ σ₁ σ₂ out, os.pipe σ₁ = (some out, σ₂) → 0 ≤ out.1 ∧ 0 ≤ out.2 ∧ out.1 ≠ out.2 ∧
    ∀ σ₃ err, os.pipe σ₂ = (some err, σ₃) → [out.1, out.2].Disjoint [err.1, err.2]

/-! ### The log -/

/-- What the function does to the outside. Calls that change nothing which a result speaks
of are not written down. -/
inductive ShellEvent
  /-- A pipe was obtained. -/
  | piped (readEnd writeEnd : ℤ)
  /-- The child was forked. -/
  | forked (pid : ℕ)
  /-- A descriptor was closed. -/
  | closed (fd : ℤ)
  /-- A round of the loop has read the clock, subtracted it from the deadline or not, and set the
  time-out of `poll`. -/
  | tick (now : UInt64) (remain : Option UInt64) (timeoutMs : ℕ)
  /-- A signal was sent to the process group. -/
  | killed (sig : ℕ)
  /-- Bytes were read, none at the end of the file. -/
  | received (fd : ℤ) (data : Bytes)
  /-- `waitpid` has returned the child. -/
  | reaped (status : WaitStatus)
  deriving DecidableEq

/-- Whether the child has been reaped. The log of a call has at most one such event. -/
def ShellEvent.isReaped : ShellEvent → Bool
  | .reaped _ => true
  | _ => false

/-- Whether a child was forked. -/
def ShellEvent.isForked : ShellEvent → Bool
  | .forked _ => true
  | _ => false

/-- The descriptors that were obtained: the two of a `pipe`, and none with any other event. -/
def ShellEvent.obtainedFds : ShellEvent → List ℤ
  | .piped readEnd writeEnd => [readEnd, writeEnd]
  | _ => []

/-- The descriptor that was closed, by the loop when its pipe has ended or at `cleanup`. -/
def ShellEvent.closedFd? : ShellEvent → Option ℤ
  | .closed fd => some fd
  | _ => none

/-- The signal that was sent to the process group of the child. -/
def ShellEvent.signal? : ShellEvent → Option ℕ
  | .killed sig => some sig
  | _ => none

/-- The bytes that were read from a descriptor. Put together over a log they are all that
the descriptor has delivered, also what was thrown away as too much. -/
def ShellEvent.bytesFrom (fd : ℤ) : ShellEvent → Bytes
  | .received fd' data => if fd' = fd then data else []
  | _ => []

/-! ### The state of a run -/

/-- The local variables of `usb_responder_exec_shell`, `*out_result`, the outside, and the
log. A buffer of the result is `none` while its pointer is null. -/
structure ShellExec (σ : Type) where
  os : σ
  log : List ShellEvent := []
  outPipe : ℤ × ℤ := (-1, -1)
  errPipe : ℤ × ℤ := (-1, -1)
  pid : Option ℕ := none
  childRunning : Bool := true
  outOpen : Bool := true
  errOpen : Bool := true
  killSent : Bool := false
  startMs : UInt64 := 0
  deadlineMs : UInt64 := 0
  exitCode : Int32 := 0
  timedOut : Bool := false
  durationMs : UInt32 := 0
  stdoutData : Option Bytes := none
  stderrData : Option Bytes := none

namespace ShellExec

/-- Write down an event, with the outside after it. -/
def emit (s : ShellExec σ) (event : ShellEvent) (os : σ) : ShellExec σ :=
  { s with os := os, log := s.log ++ [event] }

/-- `close`. Its result is not looked at, so it is not kept. -/
def close (os : ShellOs σ) (fd : ℤ) (s : ShellExec σ) : ShellExec σ :=
  s.emit (.closed fd) (os.close fd s.os)

/-- `killpg` of the child's process group, which reaches what the shell has started too. -/
def killpg (os : ShellOs σ) (sig : ℕ) (s : ShellExec σ) : ShellExec σ :=
  s.emit (.killed sig) (os.killpg (s.pid.getD 0) sig s.os)

/-- `usb_responder_shell_exec_result_free`. -/
def resultFree (s : ShellExec σ) : ShellExec σ :=
  { s with
    exitCode := 0
    timedOut := false
    durationMs := 0
    stdoutData := none
    stderrData := none }

/-- What the caller reads from `*out_result`. A null pointer has no bytes behind it. -/
def result (s : ShellExec σ) : ShellExecResult where
  exitCode := s.exitCode
  timedOut := s.timedOut
  durationMs := s.durationMs
  stdoutData := s.stdoutData.getD []
  stderrData := s.stderrData.getD []

end ShellExec

/-- Go on with the next step, unless the one before has left for `cleanup`. -/
def ShellExec.andThen (r : Bool × ShellExec σ) (f : ShellExec σ → Bool × ShellExec σ) :
    Bool × ShellExec σ :=
  match r with
  | (true, s) => f s
  | (false, s) => (false, s)

/-! ### Starting -/

namespace ShellExec

/-- A call of `pipe` into the variable that `store` writes. When it fails the variable keeps
the negative descriptors it was initialised with. -/
def openPipe (os : ShellOs σ) (store : ℤ × ℤ → ShellExec σ → ShellExec σ) (s : ShellExec σ) :
    Bool × ShellExec σ :=
  match os.pipe s.os with
  | (none, σ') => (false, { s with os := σ' })
  | (some fds, σ') => (true, store fds (s.emit (.piped fds.1 fds.2) σ'))

/-- `set_nonblock`: the flags of the descriptor are read and written back with `O_NONBLOCK`. -/
def setNonblock (os : ShellOs σ) (fd : ℤ) (s : ShellExec σ) : Bool × ShellExec σ :=
  match os.getfl fd s.os with
  | (none, σ') => (false, { s with os := σ' })
  | (some fl, σ') =>
    ((os.setfl fd (fl ||| oNonblock) σ').1, { s with os := (os.setfl fd (fl ||| oNonblock) σ').2 })

/-- `fork`, and in the parent the process group and the write ends, which are closed at
once, so that the pipes end with the child's side. -/
def forkChild (os : ShellOs σ) (command : Bytes) (s : ShellExec σ) : Bool × ShellExec σ :=
  match os.fork command s.os with
  | (none, σ') => (false, { s with os := σ' })
  | (some pid, σ') =>
    let s := { s.emit (.forked pid) σ' with pid := some pid }
    let s := { s with os := os.setpgid pid s.os }
    let s := (s.close os s.outPipe.2).close os s.errPipe.2
    (true, { s with outPipe := (s.outPipe.1, -1), errPipe := (s.errPipe.1, -1) })

/-- The function up to its loop. Each of the five steps may leave for `cleanup`, with the
descriptors and the child it has until then. -/
def start (os : ShellOs σ) (command : Bytes) (options : ShellExecOptions) (σ₀ : σ) :
    Bool × ShellExec σ :=
  let startMs := (os.monotonicMs σ₀).1
  let s : ShellExec σ :=
    { os := (os.monotonicMs σ₀).2
      startMs := startMs
      deadlineMs := startMs + options.timeoutMs.toUInt64
      exitCode := -1 }
  let r := openPipe os (fun fds s => { s with outPipe := fds }) s
  let r := andThen r (openPipe os fun fds s => { s with errPipe := fds })
  let r := andThen r (forkChild os command)
  let r := andThen r fun s => setNonblock os s.outPipe.1 s
  andThen r fun s => setNonblock os s.errPipe.1 s

/-! ### The loop -/

/-- The beginning of a round: the signal past the deadline, and the time-out of `poll`. -/
def tick (os : ShellOs σ) (s : ShellExec σ) : ℕ × ShellExec σ :=
  let now := (os.monotonicMs s.os).1
  let σ' := (os.monotonicMs s.os).2
  if s.deadlineMs ≤ now ∧ s.childRunning = true then
    let s := { s.emit (.tick now none 100) σ' with timedOut := true }
    if s.killSent then (100, s.killpg os sigKill)
    else (100, { s.killpg os sigTerm with killSent := true })
  else if s.childRunning then
    let remain := s.deadlineMs - now
    let timeoutMs := if remain < 100 then remain.toNat else 100
    (timeoutMs, s.emit (.tick now (some remain) timeoutMs) σ')
  else (100, s.emit (.tick now none 100) σ')

/-- `append_limited`: whether it has succeeded, the buffer, and the outside. What goes
beyond the limit is read and thrown away. -/
def appendLimited (os : ShellOs σ) (dst : Option Bytes) (src : Bytes) (maxSize : ℕ) (σ₁ : σ) :
    Bool × Option Bytes × σ :=
  let dstSize := (dst.getD []).length
  if maxSize ≤ dstSize then (true, dst, σ₁)
  else
    let canWrite := if maxSize < dstSize + src.length then maxSize - dstSize else src.length
    if canWrite = 0 then (true, dst, σ₁)
    else
      match os.realloc (dstSize + canWrite) σ₁ with
      | (false, σ₂) => (false, dst, σ₂)
      | (true, σ₂) => (true, some (dst.getD [] ++ src.take canWrite), σ₂)

/-- One descriptor of which `poll` has reported something. There is one `read` a round for
it, so a descriptor with more to read is polled again. -/
def readPolled (os : ShellOs σ) (options : ShellExecOptions) (fd : ℤ) (s : ShellExec σ) :
    Bool × ShellExec σ :=
  let isOut := fd = s.outPipe.1
  match os.read fd 4096 s.os with
  | (.error e, σ') => (e = eAgain || e = eIntr, { s with os := σ' })
  | (.ok data, σ') =>
    let data := data.take 4096
    let s := s.emit (.received fd data) σ'
    if data ≠ [] then
      if isOut then
        let r := appendLimited os s.stdoutData data options.maxStdout.toNat s.os
        (r.1, { s with stdoutData := r.2.1, os := r.2.2 })
      else
        let r := appendLimited os s.stderrData data options.maxStderr.toNat s.os
        (r.1, { s with stderrData := r.2.1, os := r.2.2 })
    else if isOut then
      (true, { s.close os s.outPipe.1 with outPipe := (-1, s.outPipe.2), outOpen := false })
    else (true, { s.close os s.errPipe.1 with errPipe := (-1, s.errPipe.2), errOpen := false })

/-- The descriptors of `poll`, with what was reported of each. -/
def handlePolled (os : ShellOs σ) (options : ShellExecOptions) :
    List (ℤ × Bool) → ShellExec σ → Bool × ShellExec σ
  | [], s => (true, s)
  | (fd, reported) :: pfds, s =>
    if reported then andThen (readPolled os options fd s) (handlePolled os options pfds)
    else handlePolled os options pfds s

/-- The descriptors that are polled: the read ends of the pipes that have not ended. -/
def pollFds (s : ShellExec σ) : List ℤ :=
  (if s.outOpen then [s.outPipe.1] else []) ++ if s.errOpen then [s.errPipe.1] else []

/-- Wait for output and read it. When both pipes have ended there is nothing to wait for,
and `poll` is not called. -/
def pollOutput (os : ShellOs σ) (options : ShellExecOptions) (timeoutMs : ℕ) (s : ShellExec σ) :
    Bool × ShellExec σ :=
  if s.pollFds = [] then (true, s)
  else
    match os.poll s.pollFds timeoutMs s.os with
    | (.error e, σ') => (e = eIntr, { s with os := σ' })
    | (.ok flags, σ') => handlePolled os options (s.pollFds.zip flags) { s with os := σ' }

/-- The exit code of a status; another status leaves it as it is. -/
def exitCodeOf (status : WaitStatus) (exitCode : Int32) : Int32 :=
  match status with
  | .exited code => Int32.ofNat code.toNat
  | .signaled sig => Int32.ofNat (128 + sig.toNat)
  | .other => exitCode

/-- Look whether the child has ended, without waiting for it. Its status is stored once. -/
def reapChild (os : ShellOs σ) (s : ShellExec σ) : ShellExec σ :=
  if s.childRunning then
    match os.waitpidNohang (s.pid.getD 0) s.os with
    | (none, σ') => { s with os := σ' }
    | (some status, σ') =>
      { s.emit (.reaped status) σ' with
        childRunning := false
        exitCode := exitCodeOf status s.exitCode }
  else s

/-- A round of the loop. The signal comes before the output is read, and the output before
the child is looked at. -/
def round (os : ShellOs σ) (options : ShellExecOptions) (s : ShellExec σ) : Bool × ShellExec σ :=
  andThen (pollOutput os options (tick os s).1 (tick os s).2) fun s => (true, reapChild os s)

/-- The loop of `usb_responder_exec_shell`, which goes on while a pipe is open or the child
is not reaped. -/
def loop (os : ShellOs σ) (options : ShellExecOptions) : GuardedLoop (ShellExec σ) where
  guard s := s.childRunning || s.outOpen || s.errOpen
  round := round os options

/-! ### Ending -/

/-- Close a descriptor that is open. The variable is not reset after that, since `cleanup`
is the last to use it. -/
def closeOpen (os : ShellOs σ) (fd : ℤ) (s : ShellExec σ) : ShellExec σ :=
  if 0 ≤ fd then s.close os fd else s

/-- `waitpid` of the child. A child that has been reaped is not there any more. -/
def waitChild (os : ShellOs σ) (pid : ℕ) (s : ShellExec σ) : ShellExec σ :=
  if s.log.any ShellEvent.isReaped then s
  else s.emit (.reaped (os.waitpid pid s.os).1) (os.waitpid pid s.os).2

/-- The code at `cleanup`: the child is killed and waited for, if there is one, and whatever
is open is closed. -/
def cleanup (os : ShellOs σ) (s : ShellExec σ) : ShellExec σ :=
  let s :=
    match s.pid with
    | none => s
    | some pid => waitChild os pid (s.killpg os sigKill)
  let s := closeOpen os s.outPipe.1 s
  let s := closeOpen os s.outPipe.2 s
  let s := closeOpen os s.errPipe.1 s
  let s := closeOpen os s.errPipe.2 s
  s.resultFree

/-- The regular end. Both pipes are closed by then, and the child is reaped, so there is
nothing to clean up. -/
def finish (os : ShellOs σ) (s : ShellExec σ) : ShellExec σ :=
  { s with
    os := (os.monotonicMs s.os).2
    durationMs := ((os.monotonicMs s.os).1 - s.startMs).toUInt32 }

end ShellExec

/-- `usb_responder_exec_shell` with at most `fuel` rounds of its loop; `none` when they are
used up. -/
def execShell (os : ShellOs σ) (fuel : ℕ) (command : Bytes) (options : ShellExecOptions) (σ₀ : σ) :
    Option (Bool × ShellExec σ) :=
  match ShellExec.start os command options σ₀ with
  | (false, s) => some (false, s.cleanup os)
  | (true, s) =>
    ((ShellExec.loop os options).run fuel s).map fun
      | (true, s) => (true, s.finish os)
      | (false, s) => (false, s.cleanup os)

/-! ### What the steps do -/

namespace ShellExec

section Steps

variable (os : ShellOs σ) (options : ShellExecOptions) (s : ShellExec σ)

/-- What `monotonic_ms` returns in the round that starts here. Milliseconds are counted in
64 bits. -/
def now : UInt64 := (os.monotonicMs s.os).1

/-- The signal of a round past the deadline: `SIGTERM` in the first one, and `SIGKILL` in
all that follow. -/
def nextSignal : ℕ := if s.killSent then sigKill else sigTerm

/-- What the beginning of a round does: nothing before the deadline, and a signal past it
while the child is running. -/
inductive TickStep : ℕ → ShellExec σ → Prop
  /-- Past the deadline, with the child running. -/
  | late (σ' : σ) (hlate : s.deadlineMs ≤ s.now os) (hrunning : s.childRunning = true) :
    TickStep 100 { s with
      os := σ'
      log := s.log ++ [.tick (s.now os) none 100, .killed s.nextSignal]
      timedOut := true
      killSent := true }
  /-- Before the deadline, with the child running. -/
  | early (σ' : σ) (hearly : s.now os < s.deadlineMs) (hrunning : s.childRunning = true)
    (timeoutMs : ℕ) (hpos : 1 ≤ timeoutMs) (hle : timeoutMs ≤ 100) :
    TickStep timeoutMs { s with
      os := σ'
      log := s.log ++ [.tick (s.now os) (some (s.deadlineMs - s.now os)) timeoutMs] }
  /-- With the child reaped, at any time. -/
  | reaped (σ' : σ) (hreaped : s.childRunning = false) :
    TickStep 100 { s with os := σ', log := s.log ++ [.tick (s.now os) none 100] }

theorem tickStep_tick : TickStep os s (tick os s).1 (tick os s).2 := by
  rw [tick]
  dsimp only
  by_cases hlate : s.deadlineMs ≤ (os.monotonicMs s.os).1 ∧ s.childRunning = true
  · rw [if_pos hlate]
    have hstep := @TickStep.late _ os s
      (os.killpg (s.pid.getD 0) s.nextSignal (os.monotonicMs s.os).2) hlate.1 hlate.2
    rcases hkill : s.killSent with _ | _
    · simpa [nextSignal, hkill, emit, killpg, now] using hstep
    · simpa [nextSignal, hkill, emit, killpg, now] using hstep
  rw [if_neg hlate]
  rcases hrunning : s.childRunning with _ | _
  · exact .reaped _ hrunning
  · have hearly : s.now os < s.deadlineMs := by
      rw [hrunning, and_iff_left rfl] at hlate
      exact UInt64.not_le.mp hlate
    have hpos : 0 < (s.deadlineMs - s.now os).toNat := by
      rw [UInt64.toNat_sub_of_le _ _ (UInt64.le_of_lt hearly)]
      have := UInt64.lt_iff_toNat_lt.mp hearly
      omega
    have hstep := @TickStep.early _ os s (os.monotonicMs s.os).2 hearly hrunning
    simp only [if_true]
    split_ifs with hshort
    · refine hstep _ hpos ?_
      have := UInt64.lt_iff_toNat_lt.mp hshort
      exact Nat.le_of_lt this
    · exact hstep 100 (by decide) le_rfl

/-- What `append_limited` leaves in a buffer that is not over its limit: the bytes up to the
limit, if it succeeds, and the buffer as it was, if not. -/
def Appended (dst : Option Bytes) (src : Bytes) (maxSize : ℕ) (ok : Bool) (buf : Option Bytes) :
    Prop :=
  (dst.getD []).length ≤ maxSize →
    buf.getD [] = if ok then (dst.getD [] ++ src).take maxSize else dst.getD []

private theorem appended_appendLimited (dst : Option Bytes) (src : Bytes) (maxSize : ℕ) (σ₁ : σ) :
    Appended dst src maxSize (appendLimited os dst src maxSize σ₁).1
      (appendLimited os dst src maxSize σ₁).2.1 := by
  intro hle
  rw [appendLimited]
  dsimp only
  by_cases hfull : maxSize ≤ (dst.getD []).length
  · rw [if_pos hfull, if_pos rfl, List.take_append_of_le_length hfull,
      List.take_of_length_le hle]
  rw [if_neg hfull]
  obtain ⟨n, hn, htake⟩ : ∃ n, n = (if maxSize < (dst.getD []).length + src.length then
      maxSize - (dst.getD []).length else src.length) ∧
      (dst.getD [] ++ src).take maxSize = dst.getD [] ++ src.take n := by
    refine ⟨_, rfl, ?_⟩
    split_ifs with hover
    · rw [List.take_append, List.take_of_length_le hle]
    · rw [List.take_length, List.take_of_length_le]
      rw [List.length_append]
      omega
  rw [← hn, htake]
  by_cases hzero : n = 0
  · rw [if_pos hzero, if_pos rfl, hzero, List.take_zero, List.append_nil]
  · rw [if_neg hzero]
    rcases os.realloc ((dst.getD []).length + n) σ₁ with ⟨_ | _, σ₂⟩
    · rfl
    · rfl

/-- What a `read` of one of the descriptors does: it finds nothing or fails, delivers bytes
of one of the two pipes, or finds the end of one. -/
inductive ReadStep (fd : ℤ) : Bool → ShellExec σ → Prop
  | failed (σ' : σ) (ok : Bool) : ReadStep fd ok { s with os := σ' }
  | stdout (σ' : σ) (hout : fd = s.outPipe.1) {data : Bytes} (hdata : data ≠ []) {ok : Bool}
    {buf : Option Bytes} (hbuf : Appended s.stdoutData data options.maxStdout.toNat ok buf) :
    ReadStep fd ok { s with os := σ', log := s.log ++ [.received fd data], stdoutData := buf }
  | stderr (σ' : σ) (herr : fd ≠ s.outPipe.1) {data : Bytes} (hdata : data ≠ []) {ok : Bool}
    {buf : Option Bytes} (hbuf : Appended s.stderrData data options.maxStderr.toNat ok buf) :
    ReadStep fd ok { s with os := σ', log := s.log ++ [.received fd data], stderrData := buf }
  | outEof (σ' : σ) (hout : fd = s.outPipe.1) :
    ReadStep fd true { s with
      os := σ'
      log := s.log ++ [.received fd [], .closed s.outPipe.1]
      outPipe := (-1, s.outPipe.2)
      outOpen := false }
  | errEof (σ' : σ) (herr : fd ≠ s.outPipe.1) :
    ReadStep fd true { s with
      os := σ'
      log := s.log ++ [.received fd [], .closed s.errPipe.1]
      errPipe := (-1, s.errPipe.2)
      errOpen := false }

private theorem readStep_readPolled (fd : ℤ) :
    ReadStep options s fd (readPolled os options fd s).1 (readPolled os options fd s).2 := by
  rw [readPolled]
  dsimp only
  rcases os.read fd 4096 s.os with ⟨e | data, σ'⟩
  · exact .failed _ _
  dsimp only
  generalize data.take 4096 = data
  by_cases hout : fd = s.outPipe.1
  · by_cases hdata : data ≠ []
    · rw [if_pos hdata, if_pos hout]
      exact .stdout _ hout hdata (appended_appendLimited os _ _ _ _)
    · obtain rfl := not_not.mp hdata
      rw [if_neg hdata, if_pos hout]
      have hstep := @ReadStep.outEof _ options s _ (os.close s.outPipe.1 σ') hout
      simpa [emit, close] using hstep
  · by_cases hdata : data ≠ []
    · rw [if_pos hdata, if_neg hout]
      exact .stderr _ hout hdata (appended_appendLimited os _ _ _ _)
    · obtain rfl := not_not.mp hdata
      rw [if_neg hdata, if_neg hout]
      have hstep := @ReadStep.errEof _ options s _ (os.close s.errPipe.1 σ') hout
      simpa [emit, close] using hstep

/-- What looking for the end of the child does: nothing, or the status is stored and the
child is no longer running. -/
inductive ReapStep : ShellExec σ → Prop
  | none (σ' : σ) : ReapStep { s with os := σ' }
  | reaped (σ' : σ) (hrunning : s.childRunning = true) (status : WaitStatus) (exitCode : Int32) :
    ReapStep { s with
      os := σ'
      log := s.log ++ [.reaped status]
      childRunning := false
      exitCode := exitCode }

theorem reapStep_reapChild : ReapStep s (reapChild os s) := by
  rw [reapChild]
  by_cases hrunning : s.childRunning = true
  swap
  · rw [if_neg hrunning]
    exact .none s.os
  · rw [if_pos hrunning]
    rcases os.waitpidNohang (s.pid.getD 0) s.os with ⟨_ | status, σ'⟩
    · exact .none σ'
    · exact .reaped σ' hrunning status _

end Steps

/-! ### What a round and the start do -/

section Rounds

variable {os : ShellOs σ} {options : ShellExecOptions}

/-- What holds after every `read`, of the descriptors still to be looked at and for the way
in which it ends, holds when the pipes have been looked at. -/
theorem pollOutput_rule {P : Bool → List ℤ → ShellExec σ → Prop}
    (hsub : ∀ {fds fds' : List ℤ} {s : ShellExec σ}, fds'.Sublist fds → P true fds s →
      P true fds' s)
    (hos : ∀ {fds : List ℤ} {s : ShellExec σ} (ok : Bool) (σ' : σ), P true fds s →
      P ok fds { s with os := σ' })
    (hread : ∀ {fd : ℤ} {fds : List ℤ} {s s' : ShellExec σ} {ok : Bool}, P true (fd :: fds) s →
      ReadStep options s fd ok s' → P ok fds s')
    (timeoutMs : ℕ) {s : ShellExec σ} (h : P true s.pollFds s) :
    ∃ fds, P (pollOutput os options timeoutMs s).1 fds (pollOutput os options timeoutMs s).2 := by
  -- over the descriptors that `poll` was asked about, whether they are reported or not
  have hhandle : ∀ (pfds : List (ℤ × Bool)) (s : ShellExec σ), P true (pfds.map Prod.fst) s →
      ∃ fds, P (handlePolled os options pfds s).1 fds (handlePolled os options pfds s).2 := by
    intro pfds
    induction pfds with
    | nil => exact fun s hs => ⟨[], hs⟩
    | cons pfd pfds ih =>
      obtain ⟨fd, reported⟩ := pfd
      intro s hs
      rw [List.map_cons] at hs
      rw [handlePolled]
      split_ifs
      · have hstep := hread hs (readStep_readPolled os options s fd)
        rcases hresult : readPolled os options fd s with ⟨_ | _, s'⟩
        · rw [hresult] at hstep
          exact ⟨_, hstep⟩
        · rw [hresult] at hstep
          exact ih s' hstep
      · exact ih s (hsub (List.sublist_cons_self _ _) hs)
  rw [pollOutput]
  split_ifs
  · exact ⟨_, h⟩
  · rcases os.poll s.pollFds timeoutMs s.os with ⟨e | flags, σ'⟩
    · exact ⟨_, hos _ σ' h⟩
    · refine hhandle _ _ (hsub ?_ (hos true σ' h))
      rw [List.zip_eq_zip_take_min, List.map_fst_zip (by simp)]
      exact List.take_sublist _ _

/-- What the three parts of a round keep, a round keeps. A part that is not reached need not
be asked about. -/
theorem round_rule {P : Bool → ShellExec σ → Prop} {s : ShellExec σ}
    (htick : ∀ timeoutMs s', TickStep os s timeoutMs s' → P true s')
    (hpoll : ∀ timeoutMs s', P true s' →
      P (pollOutput os options timeoutMs s').1 (pollOutput os options timeoutMs s').2)
    (hreap : ∀ s' s'', P true s' → ReapStep s' s'' → P true s'') :
    P (round os options s).1 (round os options s).2 := by
  have hpolled := hpoll (tick os s).1 _ (htick _ _ (tickStep_tick os s))
  rw [round]
  rcases hresult : pollOutput os options (tick os s).1 (tick os s).2 with ⟨_ | _, s'⟩
  · rw [hresult] at hpolled
    exact hpolled
  · rw [hresult] at hpolled
    exact hreap _ _ hpolled (reapStep_reapChild os s')

/-- A round writes down more events and changes none. So what the log says stays true. -/
theorem log_prefix_round (os : ShellOs σ) (options : ShellExecOptions) (s : ShellExec σ) :
    s.log <+: (round os options s).2.log := by
  refine round_rule (P := fun _ s' => s.log <+: s'.log) (fun timeoutMs s' hstep => ?_)
    (fun timeoutMs s' hs' => ?_) fun s' s'' hs' hstep => ?_
  · rcases hstep with _ | _ | _
    all_goals exact List.prefix_append _ _
  · obtain ⟨-, hpolled⟩ := @pollOutput_rule _ os options (fun _ _ s' => s.log <+: s'.log)
      (fun _ h => h) (fun _ _ h => h) (fun {fd fds s' s'' ok} h hstep => by
        rcases hstep with _ | _ | _ | _ | _
        · exact h
        all_goals exact h.trans (List.prefix_append _ _)) timeoutMs _ hs'
    exact hpolled
  · rcases hstep with _ | _
    · exact hs'
    · exact hs'.trans (List.prefix_append _ _)

end Rounds

/-- The state before the first system call but `monotonic_ms`. All descriptors are negative
and there is no child. -/
def fresh (os : ShellOs σ) (options : ShellExecOptions) (σ₀ σ' : σ) : ShellExec σ where
  os := σ'
  startMs := (os.monotonicMs σ₀).1
  deadlineMs := (os.monotonicMs σ₀).1 + options.timeoutMs.toUInt64
  exitCode := -1

/-- Two pipes obtained one after the other, with nothing closed in between. -/
def PipesObtained (os : ShellOs σ) (out err : ℤ × ℤ) : Prop :=
  ∃ σ₁ σ₂ σ₃, os.pipe σ₁ = (some out, σ₂) ∧ os.pipe σ₂ = (some err, σ₃)

/-- The four descriptors of two pipes. -/
theorem PipesObtained.fresh {os : ShellOs σ} {out err : ℤ × ℤ} (h : PipesObtained os out err)
    (hpipes : os.FreshPipes) : [out.1, out.2, err.1, err.2].Nodup ∧
      ∀ fd ∈ [out.1, out.2, err.1, err.2], 0 ≤ fd := by
  obtain ⟨σ₁, σ₂, σ₃, hout, herr⟩ := h
  obtain ⟨hr, hw, hne, hdisjoint⟩ := hpipes _ _ _ hout
  obtain ⟨hr', hw', hne', -⟩ := hpipes _ _ _ herr
  constructor
  · have hnodup := List.nodup_append.mpr ⟨by simpa using hne, by simpa using hne',
      fun a ha b hb => (List.disjoint_iff_ne.mp (hdisjoint _ _ herr) a ha b hb)⟩
    exact hnodup
  · simp [hr, hw, hr', hw']

/-- What the function has done before its loop. There is a case for each stage it can come
to, with the descriptors obtained until then. -/
inductive Started (os : ShellOs σ) (options : ShellExecOptions) (σ₀ : σ) :
    Bool → ShellExec σ → Prop
  | noOutPipe (σ' : σ) : Started os options σ₀ false (fresh os options σ₀ σ')
  | noErrPipe (σ' : σ) {out : ℤ × ℤ} (hout : ∃ σ₁ σ₂, os.pipe σ₁ = (some out, σ₂)) :
    Started os options σ₀ false { fresh os options σ₀ σ' with
      log := [.piped out.1 out.2]
      outPipe := out }
  | noChild (σ' : σ) {out err : ℤ × ℤ} (hpipes : PipesObtained os out err) :
    Started os options σ₀ false { fresh os options σ₀ σ' with
      log := [.piped out.1 out.2, .piped err.1 err.2]
      outPipe := out
      errPipe := err }
  | child (σ' : σ) {out err : ℤ × ℤ} (hpipes : PipesObtained os out err) (ok : Bool) (pid : ℕ) :
    Started os options σ₀ ok { fresh os options σ₀ σ' with
      log := [.piped out.1 out.2, .piped err.1 err.2, .forked pid, .closed out.2, .closed err.2]
      outPipe := (out.1, -1)
      errPipe := (err.1, -1)
      pid := some pid }

theorem started_start (os : ShellOs σ) (command : Bytes) (options : ShellExecOptions) (σ₀ : σ) :
    Started os options σ₀ (start os command options σ₀).1 (start os command options σ₀).2 := by
  rw [start]
  rcases hout : os.pipe (os.monotonicMs σ₀).2 with ⟨_ | out, σ₁⟩
  · simp only [openPipe, hout, andThen]
    exact .noOutPipe σ₁
  rcases herr : os.pipe σ₁ with ⟨_ | err, σ₂⟩
  · simp only [openPipe, hout, herr, andThen, emit]
    exact .noErrPipe σ₂ ⟨_, _, hout⟩
  have hpipes : PipesObtained os out err := ⟨_, _, _, hout, herr⟩
  rcases hfork : os.fork command σ₂ with ⟨_ | pid, σ₃⟩
  · simp only [openPipe, hout, herr, hfork, forkChild, andThen, emit]
    exact .noChild σ₃ hpipes
  simp only [openPipe, hout, herr, hfork, forkChild, andThen, emit, close, setNonblock]
  rcases os.getfl out.1 _ with ⟨_ | fl, σ₄⟩
  · exact .child σ₄ hpipes false pid
  dsimp only
  rcases os.setfl out.1 (fl ||| oNonblock) σ₄ with ⟨_ | _, σ₅⟩
  · exact .child σ₅ hpipes false pid
  dsimp only
  rcases os.getfl err.1 σ₅ with ⟨_ | fl, σ₆⟩
  · exact .child σ₆ hpipes false pid
  · exact .child _ hpipes _ pid

/-- A start that comes to the loop has a child and the read ends of two pipes. -/
theorem exists_of_start_eq_true {os : ShellOs σ} {command : Bytes} {options : ShellExecOptions}
    {σ₀ : σ} {s : ShellExec σ} (h : start os command options σ₀ = (true, s)) :
    ∃ σ' out err pid, PipesObtained os out err ∧ s = { fresh os options σ₀ σ' with
      log := [.piped out.1 out.2, .piped err.1 err.2, .forked pid, .closed out.2, .closed err.2]
      outPipe := (out.1, -1)
      errPipe := (err.1, -1)
      pid := some pid } := by
  have hstarted := started_start os command options σ₀
  rw [h] at hstarted
  rcases hstarted with _ | _ | _ | ⟨σ', hpipes, _, pid⟩
  exact ⟨σ', _, _, pid, hpipes, rfl⟩

end ShellExec

/-- How a call returns: after a start that fails or a loop that is left for `cleanup`, or at
the regular end of the loop. -/
theorem execShell_eq_some {os : ShellOs σ} {fuel : ℕ} {command : Bytes}
    {options : ShellExecOptions} {σ₀ : σ} {ok : Bool} {s : ShellExec σ}
    (h : execShell os fuel command options σ₀ = some (ok, s)) :
    ok = false ∧ (∃ s', ShellExec.start os command options σ₀ = (false, s') ∧ s = s'.cleanup os) ∨
      ∃ s₀ s', ShellExec.start os command options σ₀ = (true, s₀) ∧
        (ShellExec.loop os options).run fuel s₀ = some (ok, s') ∧
        s = if ok then s'.finish os else s'.cleanup os := by
  rw [execShell] at h
  rcases hstart : ShellExec.start os command options σ₀ with ⟨_ | _, s₀⟩
  · rw [hstart] at h
    obtain ⟨rfl, rfl⟩ : false = ok ∧ s₀.cleanup os = s := by simpa using h
    exact .inl ⟨rfl, s₀, rfl, rfl⟩
  · rw [hstart] at h
    obtain ⟨⟨ended, s'⟩, hrun, hend⟩ := Option.map_eq_some_iff.mp h
    rcases ended with _ | _
    · obtain ⟨rfl, rfl⟩ : false = ok ∧ s'.cleanup os = s := by simpa using hend
      exact .inr ⟨s₀, s', rfl, hrun, rfl⟩
    · obtain ⟨rfl, rfl⟩ : true = ok ∧ s'.finish os = s := by simpa using hend
      exact .inr ⟨s₀, s', rfl, hrun, rfl⟩

/-- A run whose result passes a check returns `true`, with a state that passes it. -/
theorem exists_of_execShell_any {os : ShellOs σ} {fuel : ℕ} {command : Bytes}
    {options : ShellExecOptions} {σ₀ : σ} {p : ShellExec σ → Bool}
    (h : (execShell os fuel command options σ₀).any (fun r => r.1 && p r.2) = true) :
    ∃ s, execShell os fuel command options σ₀ = some (true, s) ∧ p s = true := by
  rcases hresult : execShell os fuel command options σ₀ with _ | ⟨ok, s⟩
  · rw [hresult] at h
    exact nomatch h
  · rw [hresult] at h
    obtain ⟨rfl, hp⟩ : ok = true ∧ p s = true := by simpa using h
    exact ⟨s, rfl, hp⟩

/-! ### A command -/

/-- The outside of a command that writes something and then runs until it is killed: the
time, the next descriptor, what was written and not read, and whether it was killed. -/
structure Sleeper where
  time : ℕ
  nextFd : ℕ
  output : Bytes
  killed : Bool

/-- The calls around such a command, whose output is the first descriptor. -/
def ShellOs.sleeper : ShellOs Sleeper where
  monotonicMs t := (UInt64.ofNat t.time, t)
  pipe t := (some (t.nextFd, t.nextFd + 1), { t with nextFd := t.nextFd + 2 })
  fork _ t := (some 100, t)
  setpgid _ t := t
  getfl _ t := (some 0, t)
  setfl _ _ t := (true, t)
  killpg _ _ t := { t with killed := true }
  poll fds timeoutMs t :=
    if t.output = [] ∧ t.killed = false then (.ok [], { t with time := t.time + timeoutMs })
    else (.ok (fds.map fun fd => fd = 3 || t.killed), t)
  read fd _ t := if fd = 3 then (.ok t.output, { t with output := [] }) else (.ok [], t)
  realloc _ t := (true, t)
  waitpidNohang _ t := (if t.killed then some (.signaled 15) else none, t)
  waitpid _ t := (.signaled 9, t)
  close _ t := t

theorem freshPipes_sleeper : ShellOs.sleeper.FreshPipes := by
  rintro σ₁ σ₂ out hout
  obtain ⟨rfl, rfl⟩ : ((σ₁.nextFd : ℤ), (σ₁.nextFd : ℤ) + 1) = out ∧
      { σ₁ with nextFd := σ₁.nextFd + 2 } = σ₂ := by
    simpa [ShellOs.sleeper] using hout
  refine ⟨Int.natCast_nonneg _, by simp only; omega, by simp only; omega, ?_⟩
  rintro σ₃ err herr
  obtain ⟨rfl, -⟩ : (((σ₁.nextFd + 2 : ℕ) : ℤ), ((σ₁.nextFd + 2 : ℕ) : ℤ) + 1) = err ∧
      { σ₁ with nextFd := σ₁.nextFd + 2 + 2 } = σ₃ := by
    simpa [ShellOs.sleeper] using herr
  simp
  omega

end UsbResponder
