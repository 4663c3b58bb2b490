import UsbResponder.Responder.ShellCapture
import UsbResponder.Responder.ShellTimeouts

/-!
# What a result says of a command

The result of a command that was run is an account of its log: the output that the two pipes
have delivered as far as the limits go, the exit code of the one status that `waitpid` has
returned, and whether a signal was sent (`execShell_reports`). The exit code is -1 until
then, and a status that is neither of an exit nor of a signal leaves it so.

The output comes from `exec_captures` and the signal from `TimeKept`; what is added here is
the exit code, with an invariant of its own (`CodeKept`): there is at most one status, and
the code is taken from it. The three are put together in `Reports`, which later modules use
as the specification of a run that returns `true`. The duration is a difference of two clock
values and is not described.
-/

namespace UsbResponder

variable {σ : Type}

/-- The status that was returned. -/
def ShellEvent.status? : ShellEvent → Option WaitStatus
  | .reaped status => some status
  | _ => none

namespace ShellExec

/-- The statuses that were returned, in their order. A child is reaped once, so there is at
most one in the log of a call. -/
def statuses (log : List ShellEvent) : List WaitStatus := log.filterMap ShellEvent.status?

/-! ### The exit code -/

/-- The exit code, before and after the child is reaped. Before, it is -1 and no status was
returned. -/
structure CodeKept (s : ShellExec σ) : Prop where
  running : s.childRunning = true → statuses s.log = [] ∧ s.exitCode = -1
  reaped : s.childRunning = false →
    ∃ status, statuses s.log = [status] ∧ s.exitCode = exitCodeOf status (-1)

section Rounds

variable {os : ShellOs σ} {options : ShellExecOptions} {s s' : ShellExec σ}

/-- Events that are not the end of the child. -/
theorem CodeKept.io (h : CodeKept s) {new : List ShellEvent} (hlog : s'.log = s.log ++ new)
    (hnew : statuses new = [])
    (hfields : s'.childRunning = s.childRunning ∧ s'.exitCode = s.exitCode) : CodeKept s' := by
  have hstatuses : statuses s'.log = statuses s.log := by
    rw [hlog, statuses, List.filterMap_append]
    exact (congrArg _ hnew).trans (List.append_nil _)
  obtain ⟨hchild, hcode⟩ := hfields
  constructor
  · rw [hchild, hcode, hstatuses]
    exact h.running
  · rw [hchild, hcode, hstatuses]
    exact h.reaped

theorem CodeKept.tick (h : CodeKept s) {timeoutMs : ℕ} (hstep : TickStep os s timeoutMs s') :
    CodeKept s' := by
  rcases hstep with _ | _ | _
  all_goals exact h.io rfl rfl ⟨rfl, rfl⟩

theorem CodeKept.read (h : CodeKept s) {fd : ℤ} {ok : Bool}
    (hstep : ReadStep options s fd ok s') : CodeKept s' := by
  rcases hstep with _ | _ | _ | _ | _
  · exact h.io (List.append_nil _).symm rfl ⟨rfl, rfl⟩
  all_goals exact h.io rfl rfl ⟨rfl, rfl⟩

/-- The code is taken from the first status, and there is no second one. -/
theorem CodeKept.reap (os : ShellOs σ) (h : CodeKept s) : CodeKept (reapChild os s) := by
  rw [reapChild]
  split_ifs with hrunning
  · obtain ⟨hnone, hcode⟩ := h.running hrunning
    rcases os.waitpidNohang (s.pid.getD 0) s.os with ⟨_ | status, σ'⟩
    · exact h.io (List.append_nil _).symm rfl ⟨rfl, rfl⟩
    · refine ⟨by simp, fun _ => ⟨status, ?_, ?_⟩⟩
      · show statuses (s.log ++ [.reaped status]) = [status]
        rw [statuses, List.filterMap_append, ← statuses, hnone]
        rfl
      · show exitCodeOf status s.exitCode = _
        rw [hcode]
  · exact h

theorem CodeKept.round (os : ShellOs σ) (options : ShellExecOptions) (h : CodeKept s) :
    CodeKept (round os options s).2 := by
  obtain ⟨-, hpolled⟩ := @pollOutput_rule _ os options (fun _ _ s => CodeKept s) (fun _ hs => hs)
    (fun _ σ' hs => hs.io (List.append_nil _).symm rfl ⟨rfl, rfl⟩) (fun hs hstep => hs.read hstep)
    (ShellExec.tick os s).1 _ (h.tick (tickStep_tick os s))
  rw [ShellExec.round]
  rcases hresult : pollOutput os options (ShellExec.tick os s).1 (ShellExec.tick os s).2
    with ⟨_ | _, s'⟩
  · rw [hresult] at hpolled
    exact hpolled
  · rw [hresult] at hpolled
    exact hpolled.reap os

private theorem codeKept_start {command : Bytes} {σ₀ : σ}
    (h : start os command options σ₀ = (true, s)) : CodeKept s := by
  obtain ⟨σ', out, err, pid, -, rfl⟩ := exists_of_start_eq_true h
  exact ⟨fun _ => ⟨rfl, rfl⟩, nofun⟩

end Rounds

/-! ### The account -/

/-- A result tells what is in a log, of a command whose output is in two pipes. It
determines all fields of the result but the duration. -/
structure Reports (options : ShellExecOptions) (out err : ℤ) (log : List ShellEvent)
    (r : ShellExecResult) : Prop where
  stdout_eq : r.stdoutData = (delivered out log).take options.maxStdout.toNat
  stderr_eq : r.stderrData = (delivered err log).take options.maxStderr.toNat
  exitCode_eq : ∃ status, statuses log = [status] ∧ r.exitCode = exitCodeOf status (-1)
  timedOut_iff : r.timedOut = true ↔ signals log ≠ []

/-- The state when the loop has ended, with the pipes read to their end and the child
reaped. -/
private theorem reports_of_kept {options : ShellExecOptions} {out err : ℤ} {deadline : UInt64}
    {s : ShellExec σ} (hcaptures : Captures out err options true s) (htime : TimeKept deadline s)
    (hcode : CodeKept s) (hend : s.childRunning = false) :
    Reports options out err s.log s.result := by
  obtain ⟨hout, herr⟩ := hcaptures rfl
  refine ⟨hout.buf_eq, herr.buf_eq, hcode.reaped hend, ?_⟩
  obtain ⟨n, hn⟩ := htime.sent
  show s.timedOut = true ↔ _
  rw [htime.flag, hn]
  rcases s.killSent with _ | _ <;> simp

end ShellExec

open ShellExec

/-- **Results.** A run that returns `true` has read its two pipes to the end, and its result
tells what is in its log. -/
theorem execShell_reports {os : ShellOs σ} (hpipes : os.FreshPipes) {fuel : ℕ} {command : Bytes}
    {options : ShellExecOptions} {σ₀ : σ} {s : ShellExec σ}
    (h : execShell os fuel command options σ₀ = some (true, s)) :
    ∃ out err : ℤ × ℤ, [.piped out.1 out.2, .piped err.1 err.2] <+: s.log ∧
      AtEof out.1 s.log ∧ AtEof err.1 s.log ∧ Reports options out.1 err.1 s.log s.result := by
  obtain ⟨hfalse, -⟩ | ⟨s₀, s', hstart, hrun, rfl⟩ := execShell_eq_some h
  · exact nomatch hfalse
  obtain ⟨σ', out, err, pid, hobtained, hs₀⟩ := exists_of_start_eq_true hstart
  obtain ⟨hnodup, hnonneg⟩ := hobtained.fresh hpipes
  have hne : out.1 ≠ err.1 := by
    simp only [List.nodup_cons, List.mem_cons, not_or] at hnodup
    exact hnodup.1.2.1
  have herr : 0 ≤ err.1 := hnonneg _ (by simp)
  have hroutes : Routed out.1 err.1 s₀ ∧ Captures out.1 err.1 options true s₀ := by
    rw [hs₀]
    exact ⟨⟨rfl, rfl⟩, fun _ => ⟨captured_nil.append (by simp), captured_nil.append (by simp)⟩⟩
  have hpiped : [ShellEvent.piped out.1 out.2, .piped err.1 err.2] <+: s₀.log := by
    rw [hs₀]
    exact ⟨_, rfl⟩
  -- what every round keeps, of the pipes, the clock and the child
  obtain ⟨hlog, ⟨-, hcaptures⟩, htime, hcode⟩ := GuardedLoop.run_invariant
    (P := fun ok t => [ShellEvent.piped out.1 out.2, .piped err.1 err.2] <+: t.log ∧
      (Routed out.1 err.1 t ∧ Captures out.1 err.1 options ok t) ∧ TimeKept _ t ∧ CodeKept t) hrun
    ⟨hpiped, hroutes, timeKept_start hstart, codeKept_start hstart⟩
    fun t ht _ => ⟨ht.1.trans (log_prefix_round os options t),
      ht.2.1.2.round os hne herr ht.2.1.1, ht.2.2.1.round os options, ht.2.2.2.round os options⟩
  obtain ⟨-, -, hguard⟩ | ⟨hfalse, -⟩ := GuardedLoop.run_eq_some hrun
  swap
  · exact nomatch hfalse
  have hguard : (s'.childRunning || s'.outOpen || s'.errOpen) = false := hguard
  simp only [Bool.or_eq_false_iff] at hguard
  obtain ⟨⟨hchild, houtOpen⟩, herrOpen⟩ := hguard
  obtain ⟨hout, herr'⟩ := hcaptures rfl
  have hreports := reports_of_kept hcaptures htime hcode hchild
  exact ⟨out, err, hlog, hout.eof houtOpen, herr'.eof herrOpen, hreports.stdout_eq,
    hreports.stderr_eq, hreports.exitCode_eq, hreports.timedOut_iff⟩

end UsbResponder
