import UsbResponder.Base.Handles
import UsbResponder.Responder.ShellCapture

/-!
# Resources of a command

`usb_responder_exec_shell` obtains two pipes, forks a child and collects output in two
buffers. It leaves through the end of its loop or through `cleanup`, which is reached from
before the first pipe, from between the system calls of the start, and from any round of the
loop.

At any time the descriptors that were obtained are those that were closed and those that the
four variables still hold (`Accounted`), and `child_running` says whether the child was
reaped. So however a run returns, every descriptor that was obtained has been closed once,
and a child that was forked has been reaped once (`exec_releases`).

The ledger is kept as a permutation, so that the order of closing does not matter, and the
start is covered by its cases. Both ends then close what the variables hold. That
descriptors are not confused needs that `pipe` returns descriptors which are not in use;
this is a hypothesis, and is what `pipe` documents. A second process that inherits
descriptors is not part of the ledger.
-/

namespace UsbResponder

open Handles

variable {σ : Type}

namespace ShellExec

/-! ### The ledger -/

/-- The descriptors that were obtained. -/
def obtained (log : List ShellEvent) : List ℤ := log.flatMap ShellEvent.obtainedFds

/-- The descriptors that were closed. -/
def closedFds (log : List ShellEvent) : List ℤ := log.filterMap ShellEvent.closedFd?

/-- The descriptors that the variables hold. A variable whose descriptor was closed in the
loop is negative. -/
def openFds (s : ShellExec σ) : List ℤ :=
  [s.outPipe.1, s.outPipe.2, s.errPipe.1, s.errPipe.2].filter (0 ≤ ·)

/-- What is true of the descriptors and the child at any time: the ledger, and that
`child_running` tells the truth. -/
structure Accounted (s : ShellExec σ) : Prop where
  balanced : Balanced (obtained s.log) (closedFds s.log) s.openFds
  nodup : (obtained s.log).Nodup
  forked : s.log.countP ShellEvent.isForked = if s.pid.isSome then 1 else 0
  reaped : s.log.countP ShellEvent.isReaped = if s.childRunning then 0 else 1
  child : s.childRunning = false → s.pid.isSome = true

section Ledger

variable {s s' : ShellExec σ} {log new : List ShellEvent}

private theorem obtained_append : obtained (log ++ new) = obtained log ++ obtained new :=
  List.flatMap_append

private theorem closedFds_append : closedFds (log ++ new) = closedFds log ++ closedFds new :=
  List.filterMap_append

/-- Events that neither obtain nor close a descriptor and are neither the start nor the end
of a child. -/
theorem Accounted.append (h : Accounted s) (hlog : s'.log = s.log ++ new)
    (hnew : ∀ e ∈ new, e.obtainedFds = [] ∧ e.closedFd? = none ∧ e.isForked = false ∧
      e.isReaped = false)
    (hfields : s'.outPipe = s.outPipe ∧ s'.errPipe = s.errPipe ∧ s'.pid = s.pid ∧
      s'.childRunning = s.childRunning) : Accounted s' := by
  obtain ⟨hout, herr, hpid, hrunning⟩ := hfields
  have hobtained : obtained new = [] := List.flatMap_eq_nil_iff.mpr fun e he => (hnew e he).1
  have hclosed : closedFds new = [] := List.filterMap_eq_nil_iff.mpr fun e he => (hnew e he).2.1
  have hforked : new.countP ShellEvent.isForked = 0 :=
    List.countP_eq_zero.mpr fun e he => by simp [(hnew e he).2.2.1]
  have hreaped : new.countP ShellEvent.isReaped = 0 :=
    List.countP_eq_zero.mpr fun e he => by simp [(hnew e he).2.2.2]
  have hopen : s'.openFds = s.openFds := by
    rw [openFds, openFds, hout, herr]
  refine ⟨?_, ?_, ?_, ?_, ?_⟩
  · rw [hlog, obtained_append, closedFds_append, hobtained, hclosed, List.append_nil,
      List.append_nil, hopen]
    exact h.balanced
  · rw [hlog, obtained_append, hobtained, List.append_nil]
    exact h.nodup
  · rw [hlog, List.countP_append, hforked, hpid]
    exact h.forked
  · rw [hlog, List.countP_append, hreaped, hrunning]
    exact h.reaped
  · rw [hrunning, hpid]
    exact h.child

end Ledger

/-! ### The start and the rounds -/

/-- Whatever the start has done is accounted for. -/
private theorem accounted_start {os : ShellOs σ} (hpipes : os.FreshPipes) (command : Bytes)
    (options : ShellExecOptions) (σ₀ : σ) : Accounted (start os command options σ₀).2 := by
  have hstarted := started_start os command options σ₀
  generalize (start os command options σ₀).1 = ok at hstarted
  generalize (start os command options σ₀).2 = s at hstarted
  rcases hstarted with ⟨σ'⟩ | ⟨σ', hout⟩ | ⟨σ', hobtained⟩ |
    ⟨σ', hobtained, ok, pid⟩
  · exact ⟨balanced_nil, List.nodup_nil, rfl, rfl, nofun⟩
  · rename_i out
    obtain ⟨σ₁, σ₂, hout⟩ := hout
    obtain ⟨hr, hw, hne, -⟩ := hpipes _ _ _ hout
    refine ⟨?_, ?_, rfl, rfl, nofun⟩
    · rw [show openFds _ = [out.1, out.2] by simp [openFds, fresh, hr, hw]]
      exact balanced_nil.take [out.1, out.2]
    · simpa [obtained, ShellEvent.obtainedFds] using hne
  · rename_i out err
    obtain ⟨hnodup, hnonneg⟩ := hobtained.fresh hpipes
    refine ⟨?_, hnodup, rfl, rfl, nofun⟩
    have hall : [out.1, out.2, err.1, err.2].filter (0 ≤ ·) = [out.1, out.2, err.1, err.2] :=
      List.filter_eq_self.mpr fun fd hfd => decide_eq_true (hnonneg fd hfd)
    rw [openFds, hall]
    exact balanced_nil.take [out.1, out.2, err.1, err.2]
  · rename_i out err
    obtain ⟨hnodup, hnonneg⟩ := hobtained.fresh hpipes
    refine ⟨?_, hnodup, rfl, rfl, nofun⟩
    have hr : 0 ≤ out.1 := hnonneg _ (by simp)
    have hr' : 0 ≤ err.1 := hnonneg _ (by simp)
    rw [show openFds _ = [out.1, err.1] by simp [openFds, hr, hr']]
    -- the write ends were closed
    have hswap : [out.1, out.2, err.1, err.2].Perm ([out.2, err.2] ++ [out.1, err.1]) :=
      List.perm_iff_count.mpr fun fd => by
        simp only [List.count_cons, List.cons_append, List.nil_append]
        omega
    exact ((balanced_nil.take [out.1, out.2, err.1, err.2]).perm hswap).give

section Rounds

variable {out err : ℤ} {options : ShellExecOptions} {s s' : ShellExec σ} {ok : Bool}

theorem Accounted.tick {os : ShellOs σ} {timeoutMs : ℕ} (h : Accounted s)
    (hstep : TickStep os s timeoutMs s') : Accounted s' := by
  rcases hstep with _ | _ | _
  all_goals
    refine h.append rfl ?_ ⟨rfl, rfl, rfl, rfl⟩
    simp [ShellEvent.obtainedFds, ShellEvent.closedFd?, ShellEvent.isForked, ShellEvent.isReaped]

/-- The descriptors of pipes that are open. -/
private theorem Routed.openFds (hout : 0 ≤ out) (herr : 0 ≤ err) (h : Routed out err s) :
    s.openFds = (if s.outOpen then [out] else []) ++ if s.errOpen then [err] else [] := by
  rw [ShellExec.openFds, h.outPipe, h.errPipe]
  rcases s.outOpen with _ | _ <;> rcases s.errOpen with _ | _ <;> simp [hout, herr]

/-- A pipe that has ended is closed, and its variable no longer holds it. -/
theorem Accounted.close {fd : ℤ} (h : Accounted s)
    (hlog : s'.log = s.log ++ [.received fd [], .closed fd])
    (hopen : s.openFds.Perm ([fd] ++ s'.openFds))
    (hfields : s'.pid = s.pid ∧ s'.childRunning = s.childRunning) : Accounted s' := by
  obtain ⟨hpid, hrunning⟩ := hfields
  have hobtained : obtained s'.log = obtained s.log := by
    rw [hlog, obtained_append]
    exact List.append_nil _
  refine ⟨?_, ?_, ?_, ?_, ?_⟩
  · rw [hobtained, hlog, closedFds_append]
    exact (h.balanced.perm hopen).give
  · rw [hobtained]
    exact h.nodup
  · rw [hlog, List.countP_append, hpid]
    exact h.forked
  · rw [hlog, List.countP_append, hrunning]
    exact h.reaped
  · rw [hrunning, hpid]
    exact h.child

theorem Accounted.read {fd : ℤ} (hout : 0 ≤ out) (herr : 0 ≤ err) (hrouted : Routed out err s)
    (h : Accounted s) (hstep : RoutedStep out err options s fd ok s') : Accounted s' := by
  have hbefore := hrouted.openFds hout herr
  have hafter := (hrouted.step hstep).openFds hout herr
  rcases hstep with _ | _ | _ | ⟨σ', hopen⟩ | ⟨σ', hopen⟩
  · exact h.append (List.append_nil _).symm (List.forall_mem_nil _) ⟨rfl, rfl, rfl, rfl⟩
  · refine h.append rfl ?_ ⟨rfl, rfl, rfl, rfl⟩
    simp [ShellEvent.obtainedFds, ShellEvent.closedFd?, ShellEvent.isForked, ShellEvent.isReaped]
  · refine h.append rfl ?_ ⟨rfl, rfl, rfl, rfl⟩
    simp [ShellEvent.obtainedFds, ShellEvent.closedFd?, ShellEvent.isForked, ShellEvent.isReaped]
  · refine h.close rfl ?_ ⟨rfl, rfl⟩
    rw [hbefore, hafter, hopen]
    rfl
  · refine h.close rfl ?_ ⟨rfl, rfl⟩
    rw [hbefore, hafter, hopen]
    show ((if s.outOpen then [out] else []) ++ [err]).Perm
      ([err] ++ ((if s.outOpen then [out] else []) ++ []))
    rw [List.append_nil]
    exact List.perm_append_comm

theorem Accounted.reap (h : Accounted s) (hpid : s.pid.isSome = true) (hstep : ReapStep s s') :
    Accounted s' := by
  rcases hstep with ⟨σ'⟩ | ⟨σ', hrunning, status, exitCode⟩
  · exact h.append (List.append_nil _).symm (List.forall_mem_nil _) ⟨rfl, rfl, rfl, rfl⟩
  · have hobtained : obtained (s.log ++ [.reaped status]) = obtained s.log := by
      rw [obtained_append]
      exact List.append_nil _
    have hclosed : closedFds (s.log ++ [.reaped status]) = closedFds s.log := by
      rw [closedFds_append]
      exact List.append_nil _
    have hreaped := h.reaped
    rw [hrunning] at hreaped
    refine ⟨?_, hobtained.symm ▸ h.nodup, ?_, ?_, fun _ => hpid⟩
    · rw [hobtained, hclosed]
      exact h.balanced
    · rw [List.countP_append]
      exact h.forked
    · rw [List.countP_append, hreaped]
      rfl

end Rounds

/-- **A round keeps the accounts**: what was obtained is held or closed, and nothing is
both. -/
theorem Accounted.round (os : ShellOs σ) (options : ShellExecOptions) {out err : ℤ}
    (hout : 0 ≤ out) (herr : 0 ≤ err) (hne : out ≠ err) {s : ShellExec σ}
    (hrouted : Routed out err s) (h : Accounted s) (hpid : s.pid.isSome = true) :
    Routed out err (round os options s).2 ∧ Accounted (round os options s).2 ∧
      (round os options s).2.pid.isSome = true := by
  refine round_routed (P := fun _ s => Accounted s ∧ s.pid.isSome = true) hne herr
    (fun ok σ' hs => ?_) (fun hs hstep => ?_) (fun hrouted hs hstep => ?_) (fun hs hstep => ?_)
    hrouted ⟨h, hpid⟩
  · exact ⟨hs.1.append (List.append_nil _).symm (List.forall_mem_nil _) ⟨rfl, rfl, rfl, rfl⟩, hs.2⟩
  · refine ⟨hs.1.tick hstep, ?_⟩
    rcases hstep with _ | _ | _
    all_goals exact hs.2
  · refine ⟨hs.1.read hout herr hrouted hstep, ?_⟩
    rcases hstep with _ | _ | _ | _ | _
    all_goals exact hs.2
  · refine ⟨hs.1.reap hs.2 hstep, ?_⟩
    rcases hstep with _ | _
    all_goals exact hs.2

/-! ### The end -/

section Cleanup

variable (os : ShellOs σ) (s : ShellExec σ)

private theorem log_closeOpen (fd : ℤ) :
    (closeOpen os fd s).log = s.log ++ ([fd].filter (0 ≤ ·)).map .closed := by
  rw [closeOpen]
  split_ifs with hopen
  · simp [hopen, close, emit]
  · simp [hopen]

private theorem pipes_closeOpen (fd : ℤ) :
    (closeOpen os fd s).outPipe = s.outPipe ∧ (closeOpen os fd s).errPipe = s.errPipe := by
  rw [closeOpen]
  split_ifs
  · exact ⟨rfl, rfl⟩
  · exact ⟨rfl, rfl⟩

/-- The four variables, one after the other. -/
private theorem log_closeOpens :
    let s₁ := closeOpen os s.outPipe.1 s
    let s₂ := closeOpen os s₁.outPipe.2 s₁
    let s₃ := closeOpen os s₂.errPipe.1 s₂
    (closeOpen os s₃.errPipe.2 s₃).log = s.log ++ s.openFds.map .closed := by
  intro s₁ s₂ s₃
  have hout : s₁.outPipe = s.outPipe := (pipes_closeOpen os s _).1
  have herr : s₂.errPipe = s.errPipe :=
    (pipes_closeOpen os s₁ _).2.trans (pipes_closeOpen os s _).2
  have herr' : s₃.errPipe = s.errPipe := (pipes_closeOpen os s₂ _).2.trans herr
  rw [log_closeOpen, log_closeOpen, log_closeOpen, log_closeOpen, hout, herr, herr']
  simp only [List.append_assoc, ← List.map_append, ← List.filter_append]
  rfl

/-- What `cleanup` does about a child: it kills its process group, and waits for it unless
it was reaped. -/
def childEnd : List ShellEvent :=
  match s.pid with
  | none => []
  | some pid => .killed sigKill ::
    if s.log.any ShellEvent.isReaped then [] else
      [.reaped (os.waitpid pid (os.killpg pid sigKill s.os)).1]

private theorem events_childEnd : obtained (childEnd os s) = [] ∧ closedFds (childEnd os s) = [] ∧
    (childEnd os s).countP ShellEvent.isForked = 0 := by
  rw [childEnd]
  rcases s.pid with _ | pid
  · exact ⟨rfl, rfl, rfl⟩
  · rcases s.log.any ShellEvent.isReaped with _ | _
    · exact ⟨rfl, rfl, rfl⟩
    · exact ⟨rfl, rfl, rfl⟩

omit s in
private theorem events_map_closed (fds : List ℤ) :
    obtained (fds.map .closed) = [] ∧ closedFds (fds.map .closed) = fds ∧
      (fds.map ShellEvent.closed).countP ShellEvent.isForked = 0 ∧
      (fds.map ShellEvent.closed).countP ShellEvent.isReaped = 0 := by
  induction fds with
  | nil => exact ⟨rfl, rfl, rfl, rfl⟩
  | cons fd fds ih =>
    obtain ⟨hobtained, hclosed, hforked, hreaped⟩ := ih
    exact ⟨hobtained, congrArg (fd :: ·) hclosed, hforked, hreaped⟩

/-- `cleanup` reaps the child if it was not reaped. -/
private theorem countP_childEnd {s : ShellExec σ} (h : Accounted s) :
    s.log.countP ShellEvent.isReaped + (childEnd os s).countP ShellEvent.isReaped =
      if s.pid.isSome then 1 else 0 := by
  have hany : s.log.any ShellEvent.isReaped = !s.childRunning := by
    have hreaped := h.reaped
    rcases hrunning : s.childRunning with _ | _
    · rw [hrunning] at hreaped
      have hpos : 0 < s.log.countP ShellEvent.isReaped := by
        rw [hreaped]
        decide
      exact List.any_eq_true.mpr (List.countP_pos_iff.mp hpos)
    · rw [hrunning] at hreaped
      exact List.any_eq_false.mpr (List.countP_eq_zero.mp hreaped)
  rw [h.reaped, childEnd, hany]
  rcases hpid : s.pid with _ | pid
  · rcases hrunning : s.childRunning with _ | _
    · have hchild := h.child hrunning
      rw [hpid] at hchild
      exact nomatch hchild
    · rfl
  · rcases s.childRunning with _ | _
    · rfl
    · rfl

/-- `cleanup` ends the child and closes whatever the variables hold. -/
private theorem log_cleanup :
    (cleanup os s).log = s.log ++ childEnd os s ++ s.openFds.map .closed := by
  rw [cleanup, childEnd]
  rcases hpid : s.pid with _ | pid
  · rw [List.append_nil]
    exact log_closeOpens os s
  · refine (log_closeOpens os (waitChild os pid (s.killpg os sigKill))).trans ?_
    rw [waitChild]
    have hany : (s.killpg os sigKill).log.any ShellEvent.isReaped =
        s.log.any ShellEvent.isReaped := by
      simp [killpg, emit, ShellEvent.isReaped]
    rw [hany]
    rcases s.log.any ShellEvent.isReaped with _ | _
    · simp [killpg, emit, hpid, openFds]
    · simp [killpg, emit, hpid, openFds]

end Cleanup

/-- Nothing is held any more, the child was reaped, and a call that has failed leaves no
buffer. It holds at either end. -/
structure Released (ok : Bool) (s : ShellExec σ) : Prop where
  balanced : Balanced (obtained s.log) (closedFds s.log) []
  nodup : (obtained s.log).Nodup
  forked : s.log.countP ShellEvent.isForked ≤ 1
  reaped : s.log.countP ShellEvent.isReaped = s.log.countP ShellEvent.isForked
  buffers : ok = false → s.stdoutData = none ∧ s.stderrData = none

theorem Accounted.cleanup (os : ShellOs σ) {s : ShellExec σ} (h : Accounted s) :
    Released false (s.cleanup os) := by
  obtain ⟨hobtained, hclosed, hforked, hreaped⟩ := events_map_closed s.openFds
  obtain ⟨hobtained', hclosed', hforked'⟩ := events_childEnd os s
  have hcount := countP_childEnd os h
  have hlog := log_cleanup os s
  have hchild := h.forked
  have hsame : obtained (s.cleanup os).log = obtained s.log := by
    rw [hlog, obtained_append, obtained_append, hobtained, hobtained', List.append_nil,
      List.append_nil]
  have hone : (s.cleanup os).log.countP ShellEvent.isForked = if s.pid.isSome then 1 else 0 := by
    rw [hlog, List.countP_append, List.countP_append, hforked, hforked']
    exact hchild
  refine ⟨?_, ?_, ?_, ?_, fun _ => ⟨rfl, rfl⟩⟩
  · rw [hsame, hlog, closedFds_append, closedFds_append, hclosed, hclosed', List.append_nil]
    refine Balanced.give ?_
    rw [List.append_nil]
    exact h.balanced
  · rw [hsame]
    exact h.nodup
  · rw [hone]
    split_ifs <;> decide
  · rw [hone, ← hcount, hlog, List.countP_append, List.countP_append, hreaped]
    rfl

theorem Accounted.finish (os : ShellOs σ) {s : ShellExec σ} (h : Accounted s)
    (hopen : s.openFds = []) (hchild : s.childRunning = false) : Released true (s.finish os) := by
  have hforked := h.forked
  have hreaped := h.reaped
  rw [h.child hchild, if_pos rfl] at hforked
  rw [hchild] at hreaped
  refine ⟨hopen ▸ h.balanced, h.nodup, hforked.le, ?_, nofun⟩
  exact hreaped.trans hforked.symm

end ShellExec

/-! ### The result -/

open ShellExec

/-- **Resources.** However a run returns, every descriptor that it has obtained was closed
exactly once and no other was closed, a child that was forked was reaped exactly once, and
if it returns `false` then the result owns no buffer. -/
theorem exec_releases (os : ShellOs σ) (hpipes : os.FreshPipes) (fuel : ℕ) (command : Bytes)
    (options : ShellExecOptions) (σ₀ : σ) {ok : Bool} {s : ShellExec σ}
    (h : execShell os fuel command options σ₀ = some (ok, s)) :
    (∀ fd, (closedFds s.log).count fd = if fd ∈ obtained s.log then 1 else 0) ∧
    s.log.countP ShellEvent.isForked ≤ 1 ∧
    s.log.countP ShellEvent.isReaped = s.log.countP ShellEvent.isForked ∧
    (ok = false → s.stdoutData = none ∧ s.stderrData = none) := by
  suffices hreleased : Released ok s from ⟨hreleased.balanced.count_eq hreleased.nodup,
    hreleased.forked, hreleased.reaped, hreleased.buffers⟩
  rcases execShell_eq_some h with ⟨rfl, s', hstart, rfl⟩ | ⟨s₀, s', hstart, hrun, rfl⟩
  · have haccounted := accounted_start hpipes command options σ₀
    rw [hstart] at haccounted
    exact haccounted.cleanup os
  have haccounted := accounted_start hpipes command options σ₀
  rw [hstart] at haccounted
  obtain ⟨σ', out, err, pid, hobtained, rfl⟩ := exists_of_start_eq_true hstart
  obtain ⟨hnodup, hnonneg⟩ := hobtained.fresh hpipes
  have hout : 0 ≤ out.1 := hnonneg _ (by simp)
  have herr : 0 ≤ err.1 := hnonneg _ (by simp)
  have hne : out.1 ≠ err.1 := by
    simp only [List.nodup_cons, List.mem_cons, not_or] at hnodup
    exact hnodup.1.2.1
  obtain ⟨hrouted, haccounted', -⟩ := GuardedLoop.run_invariant
    (P := fun _ t => Routed out.1 err.1 t ∧ Accounted t ∧ t.pid.isSome = true) hrun
    ⟨⟨rfl, rfl⟩, haccounted, rfl⟩
    fun t ht _ => ht.2.1.round os options hout herr hne ht.1 ht.2.2
  rcases ok with _ | _
  · exact haccounted'.cleanup os
  · -- the loop has ended, so both pipes are closed and the child was reaped
    obtain ⟨-, -, hguard⟩ | ⟨hfalse, -⟩ := GuardedLoop.run_eq_some hrun
    · have hguard : (s'.childRunning || s'.outOpen || s'.errOpen) = false := hguard
      simp only [Bool.or_eq_false_iff] at hguard
      refine haccounted'.finish os ?_ hguard.1.1
      rw [hrouted.openFds hout herr, hguard.1.2, hguard.2]
      rfl
    · exact nomatch hfalse

theorem exec_releases_sleeper :
    ∃ s, execShell .sleeper 5 (utf8 "sleep 9") ⟨50, 9, 9⟩ ⟨0, 3, [104, 105], false⟩ =
        some (true, s) ∧
      (closedFds s.log).count 3 = 1 ∧ s.log.countP ShellEvent.isReaped = 1 := by
  obtain ⟨s, hs, hcheck⟩ := @exists_of_execShell_any _ .sleeper 5 (utf8 "sleep 9") ⟨50, 9, 9⟩
    ⟨0, 3, [104, 105], false⟩
    (fun s => 3 ∈ obtained s.log ∧ s.log.countP ShellEvent.isForked = 1) (by decide +kernel)
  obtain ⟨hobtained, hforked⟩ := of_decide_eq_true hcheck
  obtain ⟨hclosed, -, hreaped, -⟩ := exec_releases _ freshPipes_sleeper _ _ _ _ hs
  exact ⟨s, hs, (hclosed 3).trans (if_pos hobtained), hreaped.trans hforked⟩

end UsbResponder
