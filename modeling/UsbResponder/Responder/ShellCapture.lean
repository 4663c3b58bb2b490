import UsbResponder.Responder.ShellExec

/-!
# Captured output

The bytes that `usb_responder_exec_shell` reads from the two pipes of a command and what it
keeps of them. The pipes share one array for `poll`, a read is told apart by comparing its
descriptor with `out_pipe[0]`, and a descriptor is overwritten with -1 when its pipe ends;
as long as the two pipes have different descriptors, each read still comes to the buffer of
its own pipe (`routedStep_of_readStep`).

A run that returns `true` has read both pipes to their end, and the two buffers are the
bytes that the pipes delivered, up to the limits (`exec_captures`).

First the routing: `Routed` says which descriptors the variables hold, every read keeps it,
and with it a round can be reasoned about by pipes (`round_routed`). The streams are then
simple. For each pipe `Captured` relates the buffer to the reads of this pipe in the log,
and a read of one leaves the other as it is. That the reads of a pipe are what its writers
wrote, in their order, is what a pipe is, and is not modelled; the interleaving of the two
pipes is whatever `poll` makes it.
-/

namespace UsbResponder

variable {σ : Type}

namespace ShellExec

/-! ### Descriptors -/

/-- The descriptors while the loop runs: the read ends of the pipes that are open. A pipe
that has ended has -1 in its variable. -/
structure Routed (out err : ℤ) (s : ShellExec σ) : Prop where
  outPipe : s.outPipe = (if s.outOpen then out else -1, -1)
  errPipe : s.errPipe = (if s.errOpen then err else -1, -1)

/-- Different descriptors of pipes that are open. -/
def Polled (out err : ℤ) (fds : List ℤ) (s : ShellExec σ) : Prop :=
  fds.Nodup ∧ ∀ fd ∈ fds, (fd = out ∧ s.outOpen = true) ∨ (fd = err ∧ s.errOpen = true)

/-- What a `read` does, by the pipe it is from. -/
inductive RoutedStep (out err : ℤ) (options : ShellExecOptions) (s : ShellExec σ) :
    ℤ → Bool → ShellExec σ → Prop
  | failed (fd : ℤ) (σ' : σ) (ok : Bool) : RoutedStep out err options s fd ok { s with os := σ' }
  | stdout (σ' : σ) (hopen : s.outOpen = true) {data : Bytes} (hdata : data ≠ []) {ok : Bool}
    {buf : Option Bytes} (hbuf : Appended s.stdoutData data options.maxStdout.toNat ok buf) :
    RoutedStep out err options s out ok { s with
      os := σ'
      log := s.log ++ [.received out data]
      stdoutData := buf }
  | stderr (σ' : σ) (hopen : s.errOpen = true) {data : Bytes} (hdata : data ≠ []) {ok : Bool}
    {buf : Option Bytes} (hbuf : Appended s.stderrData data options.maxStderr.toNat ok buf) :
    RoutedStep out err options s err ok { s with
      os := σ'
      log := s.log ++ [.received err data]
      stderrData := buf }
  | outEof (σ' : σ) (hopen : s.outOpen = true) :
    RoutedStep out err options s out true { s with
      os := σ'
      log := s.log ++ [.received out [], .closed out]
      outPipe := (-1, -1)
      outOpen := false }
  | errEof (σ' : σ) (hopen : s.errOpen = true) :
    RoutedStep out err options s err true { s with
      os := σ'
      log := s.log ++ [.received err [], .closed err]
      errPipe := (-1, -1)
      errOpen := false }

section Routing

variable {out err : ℤ} {os : ShellOs σ} {options : ShellExecOptions} {s s' : ShellExec σ}
  {ok : Bool}

/-- **Routing.** A read of a descriptor that is polled is one of the pipe the descriptor is
of. -/
theorem routedStep_of_readStep (hne : out ≠ err) (herr : 0 ≤ err) (h : Routed out err s) {fd : ℤ}
    (hfd : (fd = out ∧ s.outOpen = true) ∨ (fd = err ∧ s.errOpen = true))
    (hstep : ReadStep options s fd ok s') : RoutedStep out err options s fd ok s' := by
  have hout : fd = s.outPipe.1 → fd = out ∧ s.outOpen = true := by
    intro heq
    rcases hfd with hfd | ⟨rfl, -⟩
    · exact hfd
    · rw [h.outPipe] at heq
      split_ifs at heq
      · exact absurd heq.symm hne
      · simp only at heq
        omega
  have hnot : fd ≠ s.outPipe.1 → fd = err ∧ s.errOpen = true := by
    intro hfd'
    rcases hfd with ⟨rfl, hopen⟩ | hfd
    · rw [h.outPipe, if_pos hopen] at hfd'
      exact absurd rfl hfd'
    · exact hfd
  rcases hstep with ⟨σ', ok⟩ | ⟨σ', heq, hdata, hbuf⟩ | ⟨σ', hne', hdata, hbuf⟩ | ⟨σ', heq⟩ |
    ⟨σ', hne'⟩
  · exact .failed fd σ' ok
  · obtain ⟨rfl, hopen⟩ := hout heq
    exact .stdout σ' hopen hdata hbuf
  · obtain ⟨rfl, hopen⟩ := hnot hne'
    exact .stderr σ' hopen hdata hbuf
  · obtain ⟨rfl, hopen⟩ := hout heq
    rw [← heq, h.outPipe]
    exact .outEof σ' hopen
  · obtain ⟨rfl, hopen⟩ := hnot hne'
    rw [h.errPipe, if_pos hopen]
    exact .errEof σ' hopen

theorem Routed.step {fd : ℤ} (h : Routed out err s)
    (hstep : RoutedStep out err options s fd ok s') : Routed out err s' := by
  rcases hstep with _ | _ | _ | _ | _
  · exact ⟨h.outPipe, h.errPipe⟩
  · exact ⟨h.outPipe, h.errPipe⟩
  · exact ⟨h.outPipe, h.errPipe⟩
  · exact ⟨rfl, h.errPipe⟩
  · exact ⟨h.outPipe, rfl⟩

/-- The descriptors still to be looked at after a read. -/
theorem Polled.step {fd : ℤ} {fds : List ℤ} (h : Polled out err (fd :: fds) s)
    (hstep : RoutedStep out err options s fd ok s') : Polled out err fds s' := by
  obtain ⟨hnotin, hnodup⟩ := List.nodup_cons.mp h.1
  have hrest : ∀ fd' ∈ fds, (fd' = out ∧ s.outOpen = true) ∨ (fd' = err ∧ s.errOpen = true) :=
    fun fd' hfd' => h.2 fd' (List.mem_cons_of_mem _ hfd')
  rcases hstep with _ | _ | _ | _ | _
  · exact ⟨hnodup, hrest⟩
  · exact ⟨hnodup, hrest⟩
  · exact ⟨hnodup, hrest⟩
  · refine ⟨hnodup, fun fd' hfd' => (hrest fd' hfd').imp_left fun hout => ?_⟩
    exact absurd (hout.1 ▸ hfd') hnotin
  · refine ⟨hnodup, fun fd' hfd' => (hrest fd' hfd').imp_right fun herr => ?_⟩
    exact absurd (herr.1 ▸ hfd') hnotin

theorem Routed.polled (hne : out ≠ err) (h : Routed out err s) : Polled out err s.pollFds s := by
  rw [pollFds, h.outPipe, h.errPipe]
  rcases hout : s.outOpen with _ | _ <;> rcases herr : s.errOpen with _ | _ <;>
    simp [Polled, hout, herr, hne]

/-- **Rounds, by pipes.** What the beginning of a round, the reads and the end of the child
establish, a round establishes, while the descriptors stay with their pipes. -/
theorem round_routed {P : Bool → ShellExec σ → Prop} (hne : out ≠ err) (herr : 0 ≤ err)
    (hos : ∀ {s : ShellExec σ} (ok : Bool) (σ' : σ), P true s → P ok { s with os := σ' })
    (htick : ∀ {s s' : ShellExec σ} {timeoutMs : ℕ}, P true s → TickStep os s timeoutMs s' →
      P true s')
    (hread : ∀ {s s' : ShellExec σ} {fd : ℤ} {ok : Bool}, Routed out err s → P true s →
      RoutedStep out err options s fd ok s' → P ok s')
    (hreap : ∀ {s s' : ShellExec σ}, P true s → ReapStep s s' → P true s')
    (h : Routed out err s) (hP : P true s) :
    Routed out err (round os options s).2 ∧ P (round os options s).1 (round os options s).2 := by
  refine round_rule (P := fun ok s => Routed out err s ∧ P ok s) (fun timeoutMs s' hstep => ?_)
    (fun timeoutMs s' hs' => ?_) (fun s' s'' hs' hstep => ?_)
  · refine ⟨?_, htick hP hstep⟩
    rcases hstep with _ | _ | _
    · exact ⟨h.outPipe, h.errPipe⟩
    · exact ⟨h.outPipe, h.errPipe⟩
    · exact ⟨h.outPipe, h.errPipe⟩
  · obtain ⟨-, hpolled, -⟩ := @pollOutput_rule _ os options
      (fun ok fds s => (Routed out err s ∧ P ok s) ∧ Polled out err fds s)
      (fun hsub hs => ⟨hs.1, hs.2.1.sublist hsub, fun fd hfd => hs.2.2 fd (hsub.subset hfd)⟩)
      (fun ok σ' hs => ⟨⟨⟨hs.1.1.outPipe, hs.1.1.errPipe⟩, hos ok σ' hs.1.2⟩, hs.2⟩)
      (fun {fd fds s s' ok} hs hstep => by
        have hrouted := routedStep_of_readStep hne herr hs.1.1 (hs.2.2 fd List.mem_cons_self) hstep
        exact ⟨⟨hs.1.1.step hrouted, hread hs.1.1 hs.1.2 hrouted⟩, hs.2.step hrouted⟩)
      timeoutMs _ ⟨hs', hs'.1.polled hne⟩
    exact hpolled
  · refine ⟨?_, hreap hs'.2 hstep⟩
    rcases hstep with _ | _
    · exact ⟨hs'.1.outPipe, hs'.1.errPipe⟩
    · exact ⟨hs'.1.outPipe, hs'.1.errPipe⟩

end Routing

/-! ### Streams -/

/-- The bytes that were delivered by a descriptor, whether they were kept or not. -/
def delivered (fd : ℤ) (log : List ShellEvent) : Bytes := log.flatMap (ShellEvent.bytesFrom fd)

/-- A pipe was read to its end: the last read of it, and no other, was at the end of the
file. -/
def AtEof (fd : ℤ) (log : List ShellEvent) : Prop :=
  ∃ before after, log = before ++ .received fd [] :: after ∧ .received fd [] ∉ before ∧
    ∀ data, .received fd data ∉ after

/-- A pipe and the buffer for it: the buffer holds what was delivered, up to the limit, and
the pipe is open as long as its end was not read. A null buffer holds nothing. -/
structure Captured (fd : ℤ) (maxSize : ℕ) (isOpen : Bool) (buf : Option Bytes)
    (log : List ShellEvent) : Prop where
  buf_eq : buf.getD [] = (delivered fd log).take maxSize
  notEof : isOpen = true → .received fd [] ∉ log
  eof : isOpen = false → AtEof fd log

section Streams

variable {fd : ℤ} {maxSize : ℕ} {isOpen : Bool} {buf buf' : Option Bytes}
  {log new : List ShellEvent}

private theorem delivered_append : delivered fd (log ++ new) =
    delivered fd log ++ delivered fd new :=
  List.flatMap_append

/-- Nothing was read. -/
theorem captured_nil : Captured fd maxSize true none [] := by
  refine ⟨?_, fun _ hmem => (nomatch hmem), nofun⟩
  exact List.take_nil.symm

/-- Events that are no reads of the pipe. -/
theorem Captured.append (h : Captured fd maxSize isOpen buf log)
    (hnew : ∀ data, .received fd data ∉ new) : Captured fd maxSize isOpen buf (log ++ new) := by
  have hnone : delivered fd new = [] := by
    refine List.flatMap_eq_nil_iff.mpr fun event hevent => ?_
    rcases event with _ | _ | _ | _ | _ | ⟨fd', data⟩ | _
    · rfl
    · rfl
    · rfl
    · rfl
    · rfl
    · exact if_neg fun heq : fd' = fd => hnew data (heq ▸ hevent)
    · rfl
  refine ⟨?_, fun hopen hmem => ?_, fun hclosed => ?_⟩
  · rw [delivered_append, hnone, List.append_nil, h.buf_eq]
  · rcases List.mem_append.mp hmem with hmem | hmem
    · exact h.notEof hopen hmem
    · exact hnew [] hmem
  · obtain ⟨before, after, rfl, hbefore, hafter⟩ := h.eof hclosed
    refine ⟨before, after ++ new, by simp, hbefore, fun data hmem => ?_⟩
    rcases List.mem_append.mp hmem with hmem | hmem
    · exact hafter data hmem
    · exact hnew data hmem

/-- A read of the pipe whose bytes were appended, as far as the limit allows. -/
theorem Captured.data (h : Captured fd maxSize isOpen buf log) (hopen : isOpen = true)
    {data : Bytes} (hdata : data ≠ []) (hbuf : Appended buf data maxSize true buf') :
    Captured fd maxSize isOpen buf' (log ++ [.received fd data]) := by
  have hle : (buf.getD []).length ≤ maxSize := by
    rw [h.buf_eq, List.length_take]
    exact min_le_left _ _
  refine ⟨?_, fun _ hmem => ?_, fun hclosed => nomatch hopen.symm.trans hclosed⟩
  · have hone : delivered fd [.received fd data] = data := by
      simp [delivered, ShellEvent.bytesFrom]
    rw [hbuf hle, if_pos rfl, h.buf_eq, delivered_append, hone, List.take_append, List.take_take,
      min_self, List.length_take, List.take_append]
    congr 2
    omega
  · rcases List.mem_append.mp hmem with hmem | hmem
    · exact h.notEof hopen hmem
    · obtain ⟨-, hnil⟩ : fd = fd ∧ [] = data := by simpa using hmem
      exact hdata hnil.symm

/-- The end of the pipe. From here on nothing more is delivered. -/
theorem Captured.close (h : Captured fd maxSize isOpen buf log) (hopen : isOpen = true) :
    Captured fd maxSize false buf (log ++ [.received fd [], .closed fd]) := by
  refine ⟨?_, fun hnot => (nomatch hnot), fun _ => ?_⟩
  · have hnone : delivered fd [.received fd [], .closed fd] = [] := by
      simp [delivered, ShellEvent.bytesFrom]
    rw [delivered_append, hnone, List.append_nil, h.buf_eq]
  · exact ⟨log, [.closed fd], rfl, h.notEof hopen, by simp⟩

end Streams

/-- Both pipes with their buffers, while no call has failed. -/
def Captures (out err : ℤ) (options : ShellExecOptions) (ok : Bool) (s : ShellExec σ) : Prop :=
  ok = true → Captured out options.maxStdout.toNat s.outOpen s.stdoutData s.log ∧
    Captured err options.maxStderr.toNat s.errOpen s.stderrData s.log

section Runs

variable {out err : ℤ} {options : ShellExecOptions} {s s' : ShellExec σ} {ok : Bool}

/-- Events that are no reads. -/
theorem Captures.append (h : Captures out err options true s) {new : List ShellEvent}
    (hnew : ∀ fd data, .received fd data ∉ new) (hlog : s'.log = s.log ++ new)
    (hfields : s'.outOpen = s.outOpen ∧ s'.errOpen = s.errOpen ∧ s'.stdoutData = s.stdoutData ∧
      s'.stderrData = s.stderrData) : Captures out err options ok s' := by
  obtain ⟨hout, herr, hstdout, hstderr⟩ := hfields
  intro _
  rw [hlog, hout, herr, hstdout, hstderr]
  exact ⟨(h rfl).1.append (hnew out), (h rfl).2.append (hnew err)⟩

/-- A read goes to its own buffer and leaves the other pipe as it is. Here the descriptors
of the two pipes have to differ. -/
theorem Captures.read (hne : out ≠ err) {fd : ℤ} (h : Captures out err options true s)
    (hstep : RoutedStep out err options s fd ok s') : Captures out err options ok s' := by
  obtain ⟨hout, herr⟩ := h rfl
  rcases hstep with ⟨fd, σ', ok⟩ | ⟨σ', hopen, hdata, hbuf⟩ | ⟨σ', hopen, hdata, hbuf⟩ |
    ⟨σ', hopen⟩ | ⟨σ', hopen⟩
  · exact fun _ => ⟨hout, herr⟩
  · rintro rfl
    exact ⟨hout.data hopen hdata hbuf, herr.append (by simp [hne.symm])⟩
  · rintro rfl
    exact ⟨hout.append (by simp [hne]), herr.data hopen hdata hbuf⟩
  · exact fun _ => ⟨hout.close hopen, herr.append (by simp [hne.symm])⟩
  · exact fun _ => ⟨hout.append (by simp [hne]), herr.close hopen⟩

/-- A round keeps the buffers in step with what was delivered, of both pipes. -/
theorem Captures.round (os : ShellOs σ) (hne : out ≠ err) (herr : 0 ≤ err)
    (hrouted : Routed out err s) (h : Captures out err options true s) :
    Routed out err (round os options s).2 ∧
      Captures out err options (round os options s).1 (round os options s).2 := by
  refine round_routed hne herr (fun ok σ' hs => ?_) (fun hs hstep => ?_)
    (fun _ hs hstep => hs.read hne hstep) (fun hs hstep => ?_) hrouted h
  · exact fun _ => hs rfl
  · rcases hstep with _ | _ | _
    all_goals exact hs.append (by simp) rfl ⟨rfl, rfl, rfl, rfl⟩
  · rcases hstep with _ | _
    · exact fun _ => hs rfl
    · exact hs.append (by simp) rfl ⟨rfl, rfl, rfl, rfl⟩

end Runs

end ShellExec

/-! ### The result -/

open ShellExec

/-- **Captured output.** A run that returns `true` has read both pipes to their end, and the
two buffers are the bytes that the pipes delivered, up to the limits. -/
theorem exec_captures (os : ShellOs σ) (hpipes : os.FreshPipes) (fuel : ℕ) (command : Bytes)
    (options : ShellExecOptions) (σ₀ : σ) {s : ShellExec σ}
    (h : execShell os fuel command options σ₀ = some (true, s)) :
    ∃ out err : ℤ × ℤ, [.piped out.1 out.2, .piped err.1 err.2] <+: s.log ∧
      s.result.stdoutData = (delivered out.1 s.log).take options.maxStdout.toNat ∧
      s.result.stderrData = (delivered err.1 s.log).take options.maxStderr.toNat ∧
      AtEof out.1 s.log ∧ AtEof err.1 s.log := by
  obtain ⟨hfalse, -⟩ | ⟨s₀, s', hstart, hrun, rfl⟩ := execShell_eq_some h
  · exact nomatch hfalse
  obtain ⟨σ', out, err, pid, hobtained, rfl⟩ := exists_of_start_eq_true hstart
  obtain ⟨hnodup, hnonneg⟩ := hobtained.fresh hpipes
  have hne : out.1 ≠ err.1 := by
    simp only [List.nodup_cons, List.mem_cons, not_or] at hnodup
    exact hnodup.1.2.1
  have herr : 0 ≤ err.1 := hnonneg _ (by simp)
  -- both pipes are open when the loop begins, and nothing was read
  obtain ⟨hlog, -, hcaptures⟩ := GuardedLoop.run_invariant
    (P := fun ok t => [ShellEvent.piped out.1 out.2, .piped err.1 err.2] <+: t.log ∧
      Routed out.1 err.1 t ∧ Captures out.1 err.1 options ok t) hrun
    ⟨⟨_, rfl⟩, ⟨rfl, rfl⟩, fun _ => ⟨captured_nil.append (by simp), captured_nil.append (by simp)⟩⟩
    fun t ht _ => ⟨ht.1.trans (log_prefix_round os options t),
      ht.2.2.round os hne herr ht.2.1⟩
  obtain ⟨hout, herr'⟩ := hcaptures rfl
  -- and none when it ends
  obtain ⟨houtOpen, herrOpen⟩ : s'.outOpen = false ∧ s'.errOpen = false := by
    obtain ⟨-, -, hguard⟩ | ⟨hfalse, -⟩ := GuardedLoop.run_eq_some hrun
    · have hguard : (s'.childRunning || s'.outOpen || s'.errOpen) = false := hguard
      simp only [Bool.or_eq_false_iff] at hguard
      exact ⟨hguard.1.2, hguard.2⟩
    · exact nomatch hfalse
  exact ⟨out, err, hlog, hout.buf_eq, herr'.buf_eq, hout.eof houtOpen, herr'.eof herrOpen⟩

theorem exec_captures_sleeper :
    ∃ s, execShell .sleeper 5 (utf8 "sleep 9") ⟨50, 1, 9⟩ ⟨0, 3, [104, 105], false⟩ =
        some (true, s) ∧
      s.result.stdoutData = [104] ∧ ∃ out, AtEof out s.log := by
  obtain ⟨s, hs, hstdout⟩ := @exists_of_execShell_any _ .sleeper 5 (utf8 "sleep 9") ⟨50, 1, 9⟩
    ⟨0, 3, [104, 105], false⟩ (fun s => s.result.stdoutData = [104]) (by decide +kernel)
  obtain ⟨out, -, -, -, -, heof, -⟩ := exec_captures _ freshPipes_sleeper _ _ _ _ hs
  exact ⟨s, hs, by simpa using hstdout, out.1, heof⟩

end UsbResponder
