import UsbResponder.Responder.ShellExec

/-!
# Time limits of commands

What `usb_responder_exec_shell` does about the deadline of a command. A run that returns
`true` has sent no signal, or `SIGTERM` and after it only `SIGKILL`, each past the deadline
and before the child was reaped, and `timed_out` says whether there was one
(`exec_signals`). Every round waits for at least one and at most 100 milliseconds.

Past the deadline a round signals the process group only while the child has not been
reaped. The loop goes on after that as long as a pipe is open, and a background process of
the command may hold it open; so the limit binds exactly in the runs in which no round
starts past the deadline with the child reaped (`timeLimitBinds_iff`).

The invariant of the loop is `TimeKept`, about the log: which signals were sent, after which
clock values, and that every time-out was computed without underflow. It is kept by each of
the three parts of a round. The clock may show anything, also times that go back; that it
goes forward is not used. How long a `poll` really takes is up to the outside.
-/

namespace UsbResponder

variable {σ : Type}

namespace ShellExec

/-! ### Signals in a log -/

/-- The signals that were sent, in their order, those of `cleanup` among them. -/
def signals (log : List ShellEvent) : List ℕ := log.filterMap ShellEvent.signal?

/-- Every signal was sent right after a clock value not before the deadline, and before the
child was reaped. It is a property of the log alone. -/
def SignalsLate (deadline : UInt64) (log : List ShellEvent) : Prop :=
  ∀ before sig after, log = before ++ .killed sig :: after →
    (∃ earlier now timeoutMs, before = earlier ++ [.tick now none timeoutMs] ∧ deadline ≤ now) ∧
      before.any ShellEvent.isReaped = false

/-- Every time-out of `poll` is between 1 and 100 milliseconds, and the clock value that was
subtracted from the deadline was not past it. -/
def TicksFit (deadline : UInt64) (log : List ShellEvent) : Prop :=
  ∀ now remain timeoutMs, .tick now remain timeoutMs ∈ log → 1 ≤ timeoutMs ∧ timeoutMs ≤ 100 ∧
    ∀ r, remain = some r → now ≤ deadline ∧ r.toNat + now.toNat = deadline.toNat

variable {deadline : UInt64} {log new : List ShellEvent}

/-- Events that are no signals. -/
theorem SignalsLate.append (h : SignalsLate deadline log) (hnew : signals new = []) :
    SignalsLate deadline (log ++ new) := by
  intro before sig after heq
  rcases List.append_eq_append_iff.mp heq with ⟨mid, -, hmid⟩ | ⟨mid, hlog, hmid⟩
  · rw [hmid, signals, List.filterMap_append] at hnew
    exact nomatch (List.append_eq_nil_iff.mp hnew).2
  · rcases mid with _ | ⟨event, mid⟩
    · rw [List.nil_append] at hmid
      rw [← hmid] at hnew
      exact nomatch hnew
    · obtain ⟨rfl, -⟩ := List.cons.inj hmid
      exact h before sig mid hlog

/-- A signal past the deadline. -/
private theorem SignalsLate.kill (h : SignalsLate deadline log) {now : UInt64}
    (hnow : deadline ≤ now) (hreaped : log.any ShellEvent.isReaped = false) (timeoutMs sig : ℕ) :
    SignalsLate deadline (log ++ [.tick now none timeoutMs, .killed sig]) := by
  intro before sig' after heq
  have htick : SignalsLate deadline (log ++ [.tick now none timeoutMs]) := h.append rfl
  rw [show log ++ [.tick now none timeoutMs, .killed sig] =
    (log ++ [.tick now none timeoutMs]) ++ [.killed sig] by simp] at heq
  rcases List.eq_nil_or_concat after with rfl | ⟨after, event, rfl⟩
  · obtain ⟨rfl, -⟩ := List.append_inj' heq rfl
    refine ⟨⟨log, now, timeoutMs, rfl, hnow⟩, ?_⟩
    rw [List.any_append, hreaped]
    rfl
  · rw [List.concat_eq_append, ← List.cons_append, ← List.append_assoc] at heq
    obtain ⟨hlog, -⟩ := List.append_inj' heq rfl
    exact htick before sig' after hlog

theorem TicksFit.append (h : TicksFit deadline log) (hnew : TicksFit deadline new) :
    TicksFit deadline (log ++ new) := by
  intro now remain timeoutMs hmem
  rcases List.mem_append.mp hmem with hmem | hmem
  · exact h now remain timeoutMs hmem
  · exact hnew now remain timeoutMs hmem

/-! ### The invariant -/

/-- What is true of the clock, the signals and the child at any time. The flags `timed_out`
and `kill_sent` are read off the signals. -/
structure TimeKept (deadline : UInt64) (s : ShellExec σ) : Prop where
  deadline_eq : s.deadlineMs = deadline
  running : s.childRunning = !s.log.any ShellEvent.isReaped
  sent : ∃ n, signals s.log = if s.killSent then sigTerm :: List.replicate n sigKill else []
  flag : s.timedOut = s.killSent
  late : SignalsLate deadline s.log
  ticks : TicksFit deadline s.log

/-- Events that are neither signals nor clock values nor the end of the child. -/
theorem TimeKept.io {s s' : ShellExec σ} (h : TimeKept deadline s)
    (hlog : ∃ new, s'.log = s.log ++ new ∧
      ∀ e ∈ new, e.signal? = none ∧ e.isReaped = false ∧ ∀ now r t, e ≠ .tick now r t)
    (hfields : s'.deadlineMs = s.deadlineMs ∧ s'.childRunning = s.childRunning ∧
      s'.killSent = s.killSent ∧ s'.timedOut = s.timedOut) : TimeKept deadline s' := by
  obtain ⟨new, hlog, hnew⟩ := hlog
  obtain ⟨hdeadline, hrunning, hkill, htimed⟩ := hfields
  have hsignals : signals new = [] :=
    List.filterMap_eq_nil_iff.mpr fun e he => (hnew e he).1
  have hreaped : new.any ShellEvent.isReaped = false := by
    rw [List.any_eq_false]
    exact fun e he => by simp [(hnew e he).2.1]
  refine ⟨hdeadline.trans h.deadline_eq, ?_, ?_, by rw [htimed, hkill, h.flag], ?_, ?_⟩
  · rw [hrunning, h.running, hlog, List.any_append, hreaped, Bool.or_false]
  · obtain ⟨n, hn⟩ := h.sent
    refine ⟨n, ?_⟩
    rw [hlog, signals, List.filterMap_append, hkill, ← hn]
    exact (congrArg _ hsignals).trans (List.append_nil _)
  · rw [hlog]
    exact h.late.append hsignals
  · rw [hlog]
    exact h.ticks.append fun now r t hmem => absurd rfl ((hnew _ hmem).2.2 now r t)

/-- A single clock value. -/
private theorem ticksFit_singleton {now : UInt64} {remain : Option UInt64} {timeoutMs : ℕ}
    (hpos : 1 ≤ timeoutMs) (hle : timeoutMs ≤ 100)
    (hremain : ∀ r, remain = some r → now ≤ deadline ∧ r.toNat + now.toNat = deadline.toNat) :
    TicksFit deadline [.tick now remain timeoutMs] := by
  intro now' remain' timeoutMs' hmem
  obtain ⟨rfl, rfl, rfl⟩ : now' = now ∧ remain' = remain ∧ timeoutMs' = timeoutMs := by
    simpa using hmem
  exact ⟨hpos, hle, hremain⟩

/-- A clock value without a signal. -/
private theorem TimeKept.quietTick {s : ShellExec σ} (h : TimeKept deadline s) {now : UInt64}
    {remain : Option UInt64} {timeoutMs : ℕ}
    (hfit : TicksFit deadline [.tick now remain timeoutMs]) (σ' : σ) :
    TimeKept deadline { s with os := σ', log := s.log ++ [.tick now remain timeoutMs] } := by
  obtain ⟨n, hn⟩ := h.sent
  refine ⟨h.deadline_eq, ?_, ⟨n, ?_⟩, h.flag, h.late.append rfl, h.ticks.append hfit⟩
  · show s.childRunning = _
    rw [h.running, List.any_append]
    simp [ShellEvent.isReaped]
  · rw [← hn, signals, List.filterMap_append]
    exact List.append_nil _

theorem TimeKept.tick {os : ShellOs σ} {s s' : ShellExec σ} {timeoutMs : ℕ}
    (h : TimeKept deadline s) (hstep : TickStep os s timeoutMs s') : TimeKept deadline s' := by
  rcases hstep with ⟨σ', hlate, hchild⟩ | ⟨σ', hearly, hchild, t, hpos, hle⟩ | ⟨σ', hchild⟩
  · obtain ⟨n, hn⟩ := h.sent
    have hreaped : s.log.any ShellEvent.isReaped = false := by
      have hrunning := h.running
      rw [hchild] at hrunning
      simpa using hrunning.symm
    have hfit : TicksFit deadline [.tick (s.now os) none 100, .killed s.nextSignal] := by
      intro now r t hmem
      have hmem : ShellEvent.tick now r t ∈ [ShellEvent.tick (s.now os) none 100] := by
        simpa using hmem
      exact ticksFit_singleton (by decide) le_rfl (by simp) now r t hmem
    refine ⟨h.deadline_eq, ?_, ?_, rfl, h.late.kill (h.deadline_eq ▸ hlate) hreaped _ _,
      h.ticks.append hfit⟩
    · show s.childRunning = _
      rw [h.running, List.any_append]
      simp [ShellEvent.isReaped]
    · -- the first signal, or another one
      rcases hkill : s.killSent with _ | _
      · rw [hkill] at hn
        refine ⟨0, ?_⟩
        show signals (s.log ++ [_, .killed s.nextSignal]) = _
        rw [signals, List.filterMap_append, ← signals, hn, nextSignal, hkill]
        rfl
      · rw [hkill] at hn
        refine ⟨n + 1, ?_⟩
        show signals (s.log ++ [_, .killed s.nextSignal]) = _
        rw [signals, List.filterMap_append, ← signals, hn, nextSignal, hkill,
          List.replicate_succ']
        rfl
  · refine h.quietTick (ticksFit_singleton hpos hle fun r hr => ?_) σ'
    obtain rfl := Option.some.inj hr
    rw [← h.deadline_eq]
    have hlt := UInt64.lt_iff_toNat_lt.mp hearly
    refine ⟨UInt64.le_of_lt hearly, ?_⟩
    rw [UInt64.toNat_sub_of_le _ _ (UInt64.le_of_lt hearly)]
    omega
  · exact h.quietTick (ticksFit_singleton (by decide) le_rfl (by simp)) σ'

/-- Reading from the pipes. -/
theorem TimeKept.read {options : ShellExecOptions} {s s' : ShellExec σ} {fd : ℤ} {ok : Bool}
    (h : TimeKept deadline s) (hstep : ReadStep options s fd ok s') : TimeKept deadline s' := by
  rcases hstep with _ | _ | _ | _ | _
  · exact h.io ⟨[], by simp, by simp⟩ ⟨rfl, rfl, rfl, rfl⟩
  all_goals
    refine h.io ⟨_, rfl, ?_⟩ ⟨rfl, rfl, rfl, rfl⟩
    simp [ShellEvent.signal?, ShellEvent.isReaped]

/-- The end of the child. -/
theorem TimeKept.reap {s s' : ShellExec σ} (h : TimeKept deadline s) (hstep : ReapStep s s') :
    TimeKept deadline s' := by
  rcases hstep with ⟨σ'⟩ | ⟨σ', hrunning, status, exitCode⟩
  · exact h.io ⟨[], by simp, by simp⟩ ⟨rfl, rfl, rfl, rfl⟩
  · obtain ⟨n, hn⟩ := h.sent
    refine ⟨h.deadline_eq, ?_, ⟨n, ?_⟩, h.flag, h.late.append rfl,
      h.ticks.append fun now r t hmem => ?_⟩
    · show false = _
      rw [List.any_append]
      simp [ShellEvent.isReaped]
    · rw [← hn, signals, List.filterMap_append]
      exact List.append_nil _
    · simp at hmem

/-- **A round keeps time.** -/
theorem TimeKept.round (os : ShellOs σ) (options : ShellExecOptions) {s : ShellExec σ}
    (h : TimeKept deadline s) : TimeKept deadline (round os options s).2 := by
  refine round_rule (P := fun _ s => TimeKept deadline s) (fun timeoutMs s' hstep => h.tick hstep)
    (fun timeoutMs s' hs' => ?_) fun s' s'' hs' hstep => hs'.reap hstep
  obtain ⟨-, hpolled⟩ := pollOutput_rule (P := fun _ _ s => TimeKept deadline s)
    (fun _ hs => hs) (fun _ σ' hs => hs.io ⟨[], by simp, by simp⟩ ⟨rfl, rfl, rfl, rfl⟩)
    (fun hs hstep => hs.read hstep) timeoutMs hs'
  exact hpolled

/-- Time is kept when the loop begins. -/
theorem timeKept_start {os : ShellOs σ} {command : Bytes} {options : ShellExecOptions} {σ₀ : σ}
    {s : ShellExec σ} (h : start os command options σ₀ = (true, s)) :
    TimeKept ((os.monotonicMs σ₀).1 + options.timeoutMs.toUInt64) s := by
  obtain ⟨σ', out, err, pid, -, rfl⟩ := exists_of_start_eq_true h
  refine ⟨rfl, rfl, ⟨0, rfl⟩, rfl, fun before sig after heq => ?_, fun now r t hmem => ?_⟩
  · have hmem : ShellEvent.killed sig ∈ [ShellEvent.piped out.1 out.2, .piped err.1 err.2,
        .forked pid, .closed out.2, .closed err.2] := by
      refine (congrArg (fun log => ShellEvent.killed sig ∈ log) heq).mpr ?_
      simp
    simp at hmem
  · simp at hmem

end ShellExec

/-! ### The results -/

open ShellExec

/-- **Signals.** A run that returns `true` has sent no signal, or `SIGTERM` and then only
`SIGKILL`. Each was sent at a clock value not before the deadline and before the child was
reaped, `timed_out` says whether there was one, and every time-out of `poll` is between 1
and 100 milliseconds, computed without underflow. -/
theorem exec_signals (os : ShellOs σ) (fuel : ℕ) (command : Bytes) (options : ShellExecOptions)
    (σ₀ : σ) {s : ShellExec σ} (h : execShell os fuel command options σ₀ = some (true, s)) :
    let deadline := (os.monotonicMs σ₀).1 + options.timeoutMs.toUInt64
    (signals s.log = [] ∨ ∃ n, signals s.log = sigTerm :: List.replicate n sigKill) ∧
    (∀ before sig after, s.log = before ++ .killed sig :: after →
      (∃ earlier now timeoutMs, before = earlier ++ [.tick now none timeoutMs] ∧ deadline ≤ now) ∧
        ∀ status, .reaped status ∉ before) ∧
    (s.result.timedOut = true ↔ signals s.log ≠ []) ∧
    ∀ now remain timeoutMs, .tick now remain timeoutMs ∈ s.log → 1 ≤ timeoutMs ∧ timeoutMs ≤ 100 ∧
      ∀ r, remain = some r → now ≤ deadline ∧ r.toNat + now.toNat = deadline.toNat := by
  intro deadline
  obtain ⟨s', hs', rfl⟩ : ∃ s', TimeKept deadline s' ∧ s = s'.finish os := by
    obtain ⟨hfalse, -⟩ | ⟨s₀, s', hstart, hrun, hs⟩ := execShell_eq_some h
    · exact nomatch hfalse
    · exact ⟨s', GuardedLoop.run_invariant (P := fun _ s => TimeKept _ s) hrun
        (timeKept_start hstart) fun t ht _ => ht.round os options, hs⟩
  obtain ⟨n, hn⟩ := hs'.sent
  refine ⟨?_, fun before sig after heq => ?_, ?_, hs'.ticks⟩
  · show signals s'.log = [] ∨ _
    rcases hkill : s'.killSent with _ | _
    · rw [hkill] at hn
      exact .inl hn
    · rw [hkill] at hn
      exact .inr ⟨n, hn⟩
  · obtain ⟨htick, hreaped⟩ := hs'.late before sig after heq
    refine ⟨htick, fun status hmem => ?_⟩
    rw [List.any_eq_false] at hreaped
    exact hreaped _ hmem rfl
  · show s'.timedOut = true ↔ signals s'.log ≠ []
    rw [hs'.flag, hn]
    rcases s'.killSent with _ | _ <;> simp

theorem exec_signals_sleeper :
    ∃ s, execShell .sleeper 5 (utf8 "sleep 9") ⟨50, 9, 9⟩ ⟨0, 3, [104, 105], false⟩ =
        some (true, s) ∧
      s.result.timedOut = true ∧ ∃ n, signals s.log = sigTerm :: List.replicate n sigKill := by
  obtain ⟨s, hs, htimed⟩ := @exists_of_execShell_any _ .sleeper 5 (utf8 "sleep 9") ⟨50, 9, 9⟩
    ⟨0, 3, [104, 105], false⟩ (fun s => s.result.timedOut) (by decide +kernel)
  obtain ⟨hsignals, -, hflag, -⟩ := exec_signals _ _ _ _ _ hs
  exact ⟨s, hs, htimed, hsignals.resolve_left (hflag.mp htimed)⟩

namespace ShellExec

/-- The round that starts here sends a signal to the process group. -/
def Signals (os : ShellOs σ) (options : ShellExecOptions) (s : ShellExec σ) : Prop :=
  ∃ new sig, (round os options s).2.log = s.log ++ new ∧ .killed sig ∈ new ∧
    (sig = sigTerm ∨ sig = sigKill)

/-- The time limit binds: every round that starts at or after the deadline sends a signal.
Otherwise a round only waits. -/
def TimeLimitBinds (os : ShellOs σ) (options : ShellExecOptions) (s₀ : ShellExec σ) : Prop :=
  ∀ s, (loop os options).Heads s₀ s → (loop os options).guard s = true →
    s.deadlineMs ≤ s.now os → s.Signals os options

/-- Apart from its beginning a round sends no signal. -/
private theorem exists_round_log (os : ShellOs σ) (options : ShellExecOptions) (s : ShellExec σ) :
    ∃ io, (round os options s).2.log = (tick os s).2.log ++ io ∧ signals io = [] := by
  have hnone : ∀ s' : ShellExec σ, s'.log = (tick os s).2.log → ∃ io,
      s'.log = (tick os s).2.log ++ io ∧ signals io = [] := fun s' hlog => ⟨[], by simp [hlog], rfl⟩
  have happend : ∀ (s' s'' : ShellExec σ) (new : List ShellEvent), s''.log = s'.log ++ new →
      signals new = [] → (∃ io, s'.log = (tick os s).2.log ++ io ∧ signals io = []) →
        ∃ io, s''.log = (tick os s).2.log ++ io ∧ signals io = [] := by
    rintro s' s'' new hlog hnew ⟨io, hio, hquiet⟩
    refine ⟨io ++ new, by rw [hlog, hio, List.append_assoc], ?_⟩
    rw [signals, List.filterMap_append]
    exact (congrArg₂ _ hquiet hnew).trans rfl
  obtain ⟨-, hpolled⟩ := @pollOutput_rule _ os options
    (P := fun _ _ s' => ∃ io, s'.log = (tick os s).2.log ++ io ∧ signals io = [])
    (fun _ h => h) (fun _ _ h => h) (fun {fd fds s' s'' ok} h hstep => by
      rcases hstep with _ | _ | _ | _ | _
      · exact h
      all_goals exact happend s' _ _ rfl rfl h) (tick os s).1 _ (hnone _ rfl)
  rw [round]
  rcases hresult : pollOutput os options (tick os s).1 (tick os s).2 with ⟨_ | _, s'⟩
  · rw [hresult] at hpolled
    exact hpolled
  · rw [hresult] at hpolled
    have hreap := reapStep_reapChild os s'
    show ∃ io, (reapChild os s').log = _ ∧ _
    generalize reapChild os s' = s'' at hreap
    rcases hreap with _ | _
    · exact hpolled
    · exact happend s' _ _ rfl rfl hpolled

/-- Past the deadline a round sends a signal exactly while the child is running. Nothing is
sent for the processes it may have left behind. -/
private theorem signals_iff (os : ShellOs σ) (options : ShellExecOptions) {s : ShellExec σ}
    (hlate : s.deadlineMs ≤ s.now os) : s.Signals os options ↔ s.childRunning = true := by
  obtain ⟨io, hlog, hquiet⟩ := exists_round_log os options s
  have htick := tickStep_tick os s
  generalize (tick os s).1 = timeoutMs at htick
  generalize (tick os s).2 = s' at htick hlog
  constructor
  · rintro ⟨new, sig, hround, hsig, -⟩
    by_contra hreaped
    have heq : s'.log = s.log ++ [.tick (s.now os) none 100] := by
      rcases htick with ⟨_, _, hrunning⟩ | ⟨_, hearly, _⟩ | ⟨_, _⟩
      · exact absurd hrunning hreaped
      · exact absurd hlate (UInt64.not_le.mpr hearly)
      · rfl
    rw [hround, heq, List.append_assoc] at hlog
    rw [List.append_cancel_left hlog] at hsig
    have hmem : sig ∈ signals io := List.mem_filterMap.mpr ⟨.killed sig, by simpa using hsig, rfl⟩
    rw [hquiet] at hmem
    exact nomatch hmem
  · intro hrunning
    have heq : s'.log = s.log ++ [.tick (s.now os) none 100, .killed s.nextSignal] := by
      rcases htick with ⟨_, _, _⟩ | ⟨_, hearly, _⟩ | ⟨_, hreaped⟩
      · rfl
      · exact absurd hlate (UInt64.not_le.mpr hearly)
      · rw [hrunning] at hreaped
        exact nomatch hreaped
    rw [heq, List.append_assoc] at hlog
    refine ⟨_, s.nextSignal, hlog, by simp, ?_⟩
    rw [nextSignal]
    split_ifs
    · exact .inr rfl
    · exact .inl rfl

end ShellExec

/-- **The time limit.** It binds exactly in the runs in which no round starts at or after
the deadline with the child reaped, that is, with only a background process keeping a pipe
open. -/
theorem timeLimitBinds_iff {os : ShellOs σ} {command : Bytes} {options : ShellExecOptions} {σ₀ : σ}
    {s₀ : ShellExec σ} (hstart : start os command options σ₀ = (true, s₀)) :
    TimeLimitBinds os options s₀ ↔ ∀ s, (loop os options).Heads s₀ s →
      (loop os options).guard s = true → s.deadlineMs ≤ s.now os →
        ∀ status, .reaped status ∉ s.log := by
  refine forall₄_congr fun s hhead _ hlate => ?_
  have hkept := hhead.invariant (timeKept_start hstart) fun t t' ht _ hround => by
    have hkept := ht.round os options
    have heq : round os options t = (true, t') := hround
    rwa [heq] at hkept
  rw [signals_iff os options hlate, hkept.running, Bool.not_eq_true', List.any_eq_false]
  constructor
  · exact fun h status hmem => h _ hmem rfl
  · intro h event hmem hreaped
    rcases event with _ | _ | _ | _ | _ | _ | status
    all_goals first
      | exact h status hmem
      | exact nomatch hreaped

/-- A shell that ends at once and leaves a process behind which keeps both pipes open. The
outside is the time and the next descriptor. -/
def ShellOs.background : ShellOs (ℕ × ℕ) where
  monotonicMs t := (UInt64.ofNat t.1, t)
  pipe t := (some (t.2, t.2 + 1), (t.1, t.2 + 2))
  fork _ t := (some 100, t)
  setpgid _ t := t
  getfl _ t := (some 0, t)
  setfl _ _ t := (true, t)
  killpg _ _ t := t
  poll _ timeoutMs t := (.ok [], (t.1 + timeoutMs, t.2))
  read _ _ t := (.error eAgain, t)
  realloc _ t := (true, t)
  waitpidNohang _ t := (some (.exited 0), t)
  waitpid _ t := (.exited 0, t)
  close _ t := t

theorem timeLimitBinds_iff_background :
    TimeLimitBinds .background ⟨50, 0, 0⟩
        (start .background (utf8 "sleep 9 &") ⟨50, 0, 0⟩ (0, 3)).2 ↔
      ∀ s, (loop .background ⟨50, 0, 0⟩).Heads
          (start .background (utf8 "sleep 9 &") ⟨50, 0, 0⟩ (0, 3)).2 s →
        (loop .background ⟨50, 0, 0⟩).guard s = true → s.deadlineMs ≤ s.now .background →
          ∀ status, .reaped status ∉ s.log :=
  timeLimitBinds_iff (Prod.ext
    (show (start .background (utf8 "sleep 9 &") ⟨50, 0, 0⟩ (0, 3)).1 = true by decide +kernel) rfl)

theorem not_timeLimitBinds :
    (start .background (utf8 "sleep 9 &") ⟨50, 0, 0⟩ (0, 3)).1 = true ∧
      ¬TimeLimitBinds .background ⟨50, 0, 0⟩
        (start .background (utf8 "sleep 9 &") ⟨50, 0, 0⟩ (0, 3)).2 := by
  refine ⟨by decide +kernel, fun hbinds => ?_⟩
  -- in the first round the child is reaped, and the deadline is reached
  have hhead := (GuardedLoop.Heads.start (l := loop .background ⟨50, 0, 0⟩)
    (s := (start .background (utf8 "sleep 9 &") ⟨50, 0, 0⟩ (0, 3)).2)).next
    (by decide +kernel) (Prod.ext (by decide +kernel) rfl)
  have hlate := hbinds _ hhead (by decide +kernel) (by decide +kernel)
  rw [signals_iff _ _ (by decide +kernel)] at hlate
  revert hlate
  decide +kernel

end UsbResponder
