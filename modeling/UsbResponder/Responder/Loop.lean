import UsbResponder.Responder.Handlers
import UsbResponder.Responder.Receive

/-!
# The I/O loop

`handle_io_loop` of `responder.c`, one round at a time. What `poll` reports in a round, what
a read of `ep0` returns and how opening the endpoints ends are the input of the round; the
reads and writes on the bulk endpoints are scripted in the state. A round either goes on,
ends the loop, or waits inside `rx_read_some` for the host.

`ioStep_cases` is the inversion of a round: nothing but silent events, or one receive, which
ends with a frame passed to `handle_frame` or with the endpoints closed. `runLoop_induction`
lifts an invariant of the rounds to runs. Later modules use a round through these two and do
not unfold it.

The loop of the source asks for the flag `should_stop` before every round. It is part of the
state, and `handleIoLoop` asks for it; nothing in the program sets it, so the loop is left
only when a round fails (`handleIoLoop_state`). This is why `runLoop`, the rounds without
the flag, is what the results are about.

Time passes only in `poll`, whose result is an input. That `poll` may be interrupted, or
report readiness that a later read does not find, is covered by the inputs there are.
-/

namespace UsbResponder

variable {σ : Type}

/-! ### Inputs and states -/

/-- What reading `ep0` returns: nothing yet, an error, a size that is not a multiple of the
size of an event, or events. Several events may come in one read. -/
inductive Ep0Read
  | again
  | failed
  | badSize
  | events (events : List Ep0Event)
  deriving DecidableEq, Repr

/-- What `poll` reports in a round, with the results of the calls it can lead to. -/
structure Ready where
  /-- What reading `ep0` returns, if it is reported as readable. -/
  ep0 : Option Ep0Read := none
  /-- The descriptor that opening `ep1` would return. -/
  openIn : Option ℕ := none
  /-- The descriptor that opening `ep2` would return. -/
  openOut : Option ℕ := none
  /-- Whether the bulk OUT endpoint is reported as readable. -/
  outReadable : Bool := false
  /-- Whether a hang-up or an error is reported for it. -/
  outHangup : Bool := false
  deriving DecidableEq, Repr

/-- The input of a round of the loop. -/
inductive LoopInput
  | pollEintr
  | pollError
  | ready (r : Ready)
  deriving DecidableEq, Repr

/-- The state of the loop between two rounds: what the loop keeps in its own variables, and
the rest of the responder. -/
structure LoopState (σ : Type) where
  enabled : Bool
  rt : Runtime σ
  shouldStop : Bool := false

/-- How a round ends: the loop goes on, it returns a result, or it waits for the host, and
may do so for ever. -/
inductive StepResult (σ : Type)
  | next (st : LoopState σ)
  | returned (ok : Bool) (st : LoopState σ)
  | waiting (st : LoopState σ)

/-- The state a round ends in. -/
def StepResult.state : StepResult σ → LoopState σ
  | .next st => st
  | .returned _ st => st
  | .waiting st => st

/-! ### The source -/

/-- `close_eps`. What is open is closed, and calling it again does nothing. -/
def closeEps (rt : Runtime σ) : Runtime σ :=
  let rt :=
    match rt.epIn with
    | none => rt
    | some fd => { rt with epIn := none }.record (.closed .epIn fd)
  let rt :=
    match rt.epOut with
    | none => rt
    | some fd => { rt with epOut := none }.record (.closed .epOut fd)
  { rt with rxBuf := [], epShutdown := false }

/-- The endpoints are closed and `enabled` is reset, which is what every error path of the
loop does before it goes on. -/
def LoopState.disabled (st : LoopState σ) (rt : Runtime σ) : LoopState σ :=
  { st with enabled := false, rt := closeEps rt }

@[simp] theorem LoopState.disabled_enabled (st : LoopState σ) (rt : Runtime σ) :
    (st.disabled rt).enabled = false := rfl

@[simp] theorem LoopState.disabled_rt (st : LoopState σ) (rt : Runtime σ) :
    (st.disabled rt).rt = closeEps rt := rfl

/-- One event of `process_ep0_events`. No event sets `should_stop`. -/
def processEp0Event (st : LoopState σ) (event : Ep0Event) : LoopState σ :=
  let rt := st.rt.record (.ep0 event)
  match event with
  | .enable => { st with enabled := true, rt := rt }
  | .disable => st.disabled rt
  | .unbind => st.disabled rt
  | _ => { st with rt := rt }

/-- `process_ep0_events`; `none` is the result `false`. -/
def processEp0Events (read : Ep0Read) (st : LoopState σ) : Option (LoopState σ) :=
  match read with
  | .again => some st
  | .failed => none
  | .badSize => none
  | .events events => some (events.foldl processEp0Event st)

/-- The two calls of `open_ep` in the loop. When the second one fails, the first endpoint is
closed again. -/
def openEps (r : Ready) (st : LoopState σ) : LoopState σ :=
  match r.openIn with
  | none => st.disabled st.rt
  | some fdIn =>
    let rt := { st.rt with epIn := some fdIn }.record (.opened .epIn fdIn)
    match r.openOut with
    | none => st.disabled rt
    | some fdOut =>
      { st with rt := { rt with epOut := some fdOut }.record (.opened .epOut fdOut) }

/-- The part of a round that looks at `ep0`, if `poll` has reported it. It has no result
when the round fails here. -/
def ep0Round (r : Ready) (st : LoopState σ) : Option (LoopState σ) :=
  match r.ep0 with
  | none => some st
  | some read =>
    match processEp0Events read st with
    | none => none
    | some st => some (if st.enabled && st.rt.epIn.isNone then openEps r st else st)

/-- The part of a round that receives and handles a frame. Whether the handler succeeds
makes no difference to the loop; whether the receive does decides about the endpoints. -/
def receiveRound (os : Os σ) (shell : ExecShell σ) (st : LoopState σ) : StepResult σ :=
  match readFrameBuffered os st.rt with
  | none => .waiting st
  | some (none, rt) => .next (st.disabled rt)
  | some (some frame, rt) =>
    let rt := rt.record (.handling frame)
    .next { st with rt := { rt with dev := (handleFrame os shell frame rt.dev).2 } }

/-- One round of the loop of `handle_io_loop`. Whether the bulk OUT endpoint is polled is
decided before the events are read. -/
def ioStep (os : Os σ) (shell : ExecShell σ) (input : LoopInput) (st : LoopState σ) :
    StepResult σ :=
  match input with
  | .pollEintr => .next st
  | .pollError => .returned false st
  | .ready r =>
    let polled := st.enabled && st.rt.epOut.isSome
    match ep0Round r st with
    | none => .returned false st
    | some st =>
      if st.enabled && polled && r.outReadable then receiveRound os shell st
      else if st.enabled && polled && r.outHangup then .next (st.disabled st.rt)
      else .next st

/-- `handle_io_loop` on the inputs of its first rounds, with the way its last round ended.
The flag is looked at before each input is taken. -/
def handleIoLoop (os : Os σ) (shell : ExecShell σ) : List LoopInput → LoopState σ → StepResult σ
  | [], st => if st.shouldStop then .returned true st else .next st
  | input :: inputs, st =>
    if st.shouldStop then .returned true st
    else
      match ioStep os shell input st with
      | .next st => handleIoLoop os shell inputs st
      | .returned ok st => .returned ok st
      | .waiting st => .waiting st

/-- The rounds of `handle_io_loop` on their inputs: the state they have reached, and whether
the loop polls for the next input. The flag `should_stop` is left out, which is never set
(`handleIoLoop_state`). -/
def runLoop (os : Os σ) (shell : ExecShell σ) : List LoopInput → LoopState σ → Bool × LoopState σ
  | [], st => (true, st)
  | input :: inputs, st =>
    match ioStep os shell input st with
    | .next st => runLoop os shell inputs st
    | .returned _ st => (false, st)
    | .waiting st => (false, st)

/-- The defaults `usb_responder_run` fills in, for fields that are zero. -/
def Config.withDefaults (cfg : Config) : Config where
  defaultTimeoutMs := orDefault cfg.defaultTimeoutMs 8000
  maxStdout := orDefault cfg.maxStdout (64 * 1024)
  maxStderr := orDefault cfg.maxStderr (64 * 1024)

/-- The state in which `usb_responder_run` enters the loop. -/
def startState (cfg : Config) (s : σ) (tx : List WriteOutcome) (rx : List RxOutcome) :
    LoopState σ where
  enabled := false
  rt :=
    { dev := { cfg := cfg.withDefaults, proc := ⟨fileOpsInit, [], s⟩, tx := tx, log := [] }
      epIn := none
      epOut := none
      rxBuf := []
      rxCap := 0
      epShutdown := false
      rx := rx }

/-! ### What a round can do -/

/-- An event that neither handles a frame nor writes to the bulk IN endpoint. Reading,
opening, closing and the events of `ep0` are of this kind. -/
def IoEvent.IsSilent : IoEvent → Prop
  | .handling _ | .sending _ | .write _ _ => False
  | _ => True

/-- `dev'` is `dev` after nothing but silent events: the handlers' part differs at most in
the last error. -/
structure Device.Silent (dev dev' : Device σ) : Prop where
  cfg : dev'.cfg = dev.cfg
  sessions : dev'.proc.sessions = dev.proc.sessions
  os : dev'.proc.os = dev.proc.os
  tx : dev'.tx = dev.tx
  log : ∃ events, dev'.log = dev.log ++ events ∧ ∀ event ∈ events, event.IsSilent

theorem Device.Silent.refl (dev : Device σ) : dev.Silent dev :=
  ⟨rfl, rfl, rfl, rfl, [], by simp⟩

theorem Device.Silent.trans {dev₁ dev₂ dev₃ : Device σ} (h₁ : dev₁.Silent dev₂)
    (h₂ : dev₂.Silent dev₃) : dev₁.Silent dev₃ where
  cfg := h₂.cfg.trans h₁.cfg
  sessions := h₂.sessions.trans h₁.sessions
  os := h₂.os.trans h₁.os
  tx := h₂.tx.trans h₁.tx
  log := by
    obtain ⟨events₁, hlog₁, hsilent₁⟩ := h₁.log
    obtain ⟨events₂, hlog₂, hsilent₂⟩ := h₂.log
    refine ⟨events₁ ++ events₂, by rw [hlog₂, hlog₁, List.append_assoc], ?_⟩
    intro event hevent
    exact (List.mem_append.mp hevent).elim (hsilent₁ event) (hsilent₂ event)

theorem Device.Silent.record (dev : Device σ) (event : IoEvent) (h : event.IsSilent) :
    dev.Silent (dev.record event) :=
  ⟨rfl, rfl, rfl, rfl, [event], rfl, by simpa using h⟩

/-- Reads are silent: they send nothing, handle no frame and open or close nothing. -/
theorem Runtime.AfterReads.silent {rt rt' : Runtime σ} (h : rt.AfterReads rt') :
    rt.dev.Silent rt'.dev := by
  obtain ⟨reads, hlog⟩ := h.log
  refine ⟨h.cfg, h.sessions, h.os, h.tx, _, hlog, ?_⟩
  intro event hevent
  obtain ⟨data, -, rfl⟩ := List.mem_map.mp hevent
  trivial

theorem closeEps_silent (rt : Runtime σ) : rt.dev.Silent (closeEps rt).dev := by
  rcases rt with ⟨dev, _ | fdIn, _ | fdOut, buf, cap, shutdown, rx⟩
  · exact .refl dev
  · exact .record dev (.closed .epOut fdOut) trivial
  · exact .record dev (.closed .epIn fdIn) trivial
  · exact .trans (.record dev (.closed .epIn fdIn) trivial)
      (.record _ (.closed .epOut fdOut) trivial)

private theorem processEp0Event_silent (st : LoopState σ) (event : Ep0Event) :
    st.rt.dev.Silent (processEp0Event st event).rt.dev := by
  have hrecord : st.rt.dev.Silent (st.rt.record (.ep0 event)).dev :=
    .record st.rt.dev (.ep0 event) trivial
  cases event with
  | disable => exact hrecord.trans (closeEps_silent _)
  | unbind => exact hrecord.trans (closeEps_silent _)
  | _ => exact hrecord

private theorem processEp0Events_silent {read : Ep0Read} {st st' : LoopState σ}
    (h : processEp0Events read st = some st') : st.rt.dev.Silent st'.rt.dev := by
  cases read with
  | again =>
    obtain rfl := Option.some.inj h
    exact .refl _
  | failed => exact absurd h (Option.some_ne_none st').symm
  | badSize => exact absurd h (Option.some_ne_none st').symm
  | events events =>
    obtain rfl := Option.some.inj h
    clear h
    induction events generalizing st with
    | nil => exact .refl _
    | cons event events ih => exact (processEp0Event_silent st event).trans ih

private theorem openEps_silent (r : Ready) (st : LoopState σ) :
    st.rt.dev.Silent (openEps r st).rt.dev := by
  rw [openEps]
  cases r.openIn with
  | none => exact closeEps_silent _
  | some fdIn =>
    have hopened : st.rt.dev.Silent (st.rt.dev.record (.opened .epIn fdIn)) :=
      .record st.rt.dev (.opened .epIn fdIn) trivial
    cases r.openOut with
    | none =>
      exact hopened.trans (closeEps_silent
        ({ st.rt with epIn := some fdIn }.record (.opened .epIn fdIn)))
    | some fdOut => exact hopened.trans (.record _ (.opened .epOut fdOut) trivial)

theorem ep0Round_silent {r : Ready} {st st' : LoopState σ} (h : ep0Round r st = some st') :
    st.rt.dev.Silent st'.rt.dev := by
  rw [ep0Round] at h
  cases hep0 : r.ep0 with
  | none =>
    rw [hep0] at h
    obtain rfl := Option.some.inj h
    exact .refl _
  | some read =>
    rw [hep0] at h
    dsimp only at h
    cases hread : processEp0Events read st with
    | none => simp [hread] at h
    | some st₁ =>
      rw [hread] at h
      obtain rfl := Option.some.inj h
      have hsilent := processEp0Events_silent hread
      split_ifs
      · exact hsilent.trans (openEps_silent r st₁)
      · exact hsilent

/-- **What a round can do.** Seen from the handlers, a round is silent, or it is silent up
to one call of `handle_frame` and nothing after that. -/
theorem ioStep_cases (os : Os σ) (shell : ExecShell σ) (input : LoopInput) (st : LoopState σ) :
    st.rt.dev.Silent (ioStep os shell input st).state.rt.dev ∨
    ∃ dev frame, st.rt.dev.Silent dev ∧ (ioStep os shell input st).state.rt.dev =
      (handleFrame os shell frame (dev.record (.handling frame))).2 := by
  cases input with
  | pollEintr => exact .inl (.refl _)
  | pollError => exact .inl (.refl _)
  | ready r =>
    rw [ioStep]
    cases hep0 : ep0Round r st with
    | none => exact .inl (.refl _)
    | some st₁ =>
      have hsilent := ep0Round_silent hep0
      dsimp only
      split_ifs
      · rw [receiveRound]
        cases hread : readFrameBuffered os st₁.rt with
        | none => exact .inl hsilent
        | some received =>
          obtain ⟨_ | frame, rt⟩ := received
          · exact .inl ((hsilent.trans (readFrameBuffered_afterReads hread).silent).trans
              (closeEps_silent rt))
          · exact .inr ⟨rt.dev, frame,
              hsilent.trans (readFrameBuffered_afterReads hread).silent, rfl⟩
      · exact .inl (hsilent.trans (closeEps_silent st₁.rt))
      · exact .inl hsilent

/-- **Invariants of the loop.** What every round preserves holds after every run. -/
theorem runLoop_induction (os : Os σ) (shell : ExecShell σ) {P : LoopState σ → Prop}
    (hstep : ∀ input st, P st → P (ioStep os shell input st).state) (inputs : List LoopInput)
    {st : LoopState σ} (h : P st) : P (runLoop os shell inputs st).2 := by
  induction inputs generalizing st with
  | nil => exact h
  | cons input inputs ih =>
    have hnext := hstep input st h
    rw [runLoop]
    cases hresult : ioStep os shell input st with
    | next st' =>
      rw [hresult] at hnext
      exact ih hnext
    | returned ok st' =>
      rw [hresult] at hnext
      exact hnext
    | waiting st' =>
      rw [hresult] at hnext
      exact hnext

/-! ### The flag `should_stop` -/

private theorem processEp0Event_shouldStop (st : LoopState σ) (event : Ep0Event) :
    (processEp0Event st event).shouldStop = st.shouldStop := by
  cases event with
  | _ => rfl

private theorem processEp0Events_shouldStop {read : Ep0Read} {st st' : LoopState σ}
    (h : processEp0Events read st = some st') : st'.shouldStop = st.shouldStop := by
  cases read with
  | again =>
    obtain rfl := Option.some.inj h
    rfl
  | failed => exact absurd h (Option.some_ne_none st').symm
  | badSize => exact absurd h (Option.some_ne_none st').symm
  | events events =>
    obtain rfl := Option.some.inj h
    clear h
    induction events generalizing st with
    | nil => rfl
    | cons event events ih => exact ih.trans (processEp0Event_shouldStop st event)

private theorem openEps_shouldStop (r : Ready) (st : LoopState σ) :
    (openEps r st).shouldStop = st.shouldStop := by
  rw [openEps]
  rcases r.openIn with _ | fdIn
  · rfl
  rcases r.openOut with _ | fdOut
  · rfl
  · rfl

private theorem ep0Round_shouldStop {r : Ready} {st st' : LoopState σ}
    (h : ep0Round r st = some st') : st'.shouldStop = st.shouldStop := by
  rw [ep0Round] at h
  rcases hep0 : r.ep0 with _ | read
  · rw [hep0] at h
    obtain rfl := Option.some.inj h
    rfl
  rw [hep0] at h
  dsimp only at h
  rcases hread : processEp0Events read st with _ | st₁
  · simp [hread] at h
  have hkept := processEp0Events_shouldStop hread
  rw [hread] at h
  obtain rfl := Option.some.inj h
  split_ifs
  · exact (openEps_shouldStop r st₁).trans hkept
  · exact hkept

/-- No round sets the flag, and a round that returns has failed. -/
private theorem ioStep_shouldStop (os : Os σ) (shell : ExecShell σ) (input : LoopInput)
    (st : LoopState σ) :
    (ioStep os shell input st).state.shouldStop = st.shouldStop ∧
      ∀ ok st', ioStep os shell input st = .returned ok st' → ok = false := by
  rcases input with _ | _ | r
  · exact ⟨rfl, fun ok st' h => by simp [ioStep] at h⟩
  · exact ⟨rfl, fun ok st' h => (StepResult.returned.inj h).1.symm⟩
  rw [ioStep]
  rcases hep0 : ep0Round r st with _ | st₁
  · exact ⟨rfl, fun ok st' h => (StepResult.returned.inj h).1.symm⟩
  have hkept := ep0Round_shouldStop hep0
  dsimp only
  split_ifs
  · rw [receiveRound]
    rcases readFrameBuffered os st₁.rt with _ | ⟨_ | frame, rt⟩
    · exact ⟨hkept, fun ok st' h => by simp at h⟩
    · exact ⟨hkept, fun ok st' h => by simp at h⟩
    · exact ⟨hkept, fun ok st' h => by simp at h⟩
  · exact ⟨hkept, fun ok st' h => by simp at h⟩
  · exact ⟨hkept, fun ok st' h => by simp at h⟩

/-- What every round preserves holds in the state in which the loop is left. -/
theorem handleIoLoop_induction (os : Os σ) (shell : ExecShell σ) {P : LoopState σ → Prop}
    (hstep : ∀ input st, P st → P (ioStep os shell input st).state) (inputs : List LoopInput)
    {st : LoopState σ} (h : P st) : P (handleIoLoop os shell inputs st).state := by
  induction inputs generalizing st with
  | nil =>
    rw [handleIoLoop]
    split_ifs
    · exact h
    · exact h
  | cons input inputs ih =>
    have hnext := hstep input st h
    rw [handleIoLoop]
    split_ifs
    · exact h
    rcases hresult : ioStep os shell input st with st' | ⟨ok, st'⟩ | st'
    · rw [hresult] at hnext
      exact ih hnext
    · rw [hresult] at hnext
      exact hnext
    · rw [hresult] at hnext
      exact hnext

/-- The loop is never left through `should_stop`: it has gone through its rounds, and when
it returns, a round has failed. So it returns `false`. -/
theorem handleIoLoop_state (os : Os σ) (shell : ExecShell σ) (inputs : List LoopInput)
    {st : LoopState σ} (h : st.shouldStop = false) :
    (handleIoLoop os shell inputs st).state = (runLoop os shell inputs st).2 ∧
      ∀ ok st', handleIoLoop os shell inputs st = .returned ok st' → ok = false := by
  induction inputs generalizing st with
  | nil =>
    rw [handleIoLoop, h]
    exact ⟨rfl, fun ok st' hreturned => by simp at hreturned⟩
  | cons input inputs ih =>
    obtain ⟨hkept, hfailed⟩ := ioStep_shouldStop os shell input st
    rw [handleIoLoop, h, runLoop, if_neg Bool.false_ne_true]
    rcases hresult : ioStep os shell input st with st' | ⟨ok, st'⟩ | st'
    · rw [hresult] at hkept
      exact ih (hkept.trans h)
    · refine ⟨rfl, fun ok' st'' hreturned => ?_⟩
      rw [← (StepResult.returned.inj hreturned).1]
      exact hfailed ok st' hresult
    · exact ⟨rfl, fun ok' st'' hreturned => by simp at hreturned⟩

end UsbResponder
