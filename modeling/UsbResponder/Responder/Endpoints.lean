import UsbResponder.Base.Handles
import UsbResponder.Responder.Responses

/-!
# The life of the bulk endpoints

The loop opens both bulk endpoints when the function is enabled, and closes them when it is
disabled or unbound, when opening the second one fails, when a receive fails, on a hang-up
and on the way out of `usb_responder_run`. The flag `enabled`, the two descriptors and the
receive buffer are changed in all of these places. `LoopState.Consistent` is what holds at
every moment, also between two events of one batch; at the `poll` call the flag and the
descriptors agree as well (`LoopState.Polling`). The result is `endpoint_lifecycle`.

That nothing is closed twice and nothing is left open is said of the log: the openings and
closings of an endpoint, in their order, are a trace of the library of handles, and
`Runtime.Tracked` says that the trace ends with the descriptors the state has. Each place
that closes goes through `close_eps`, so one lemma about it serves them all.

The way out is `usbResponderRun`, which has a result only when the loop is left; by
`exists_of_usbResponderRun` the state it is left in has every invariant of the rounds. The
descriptor of `ep0` is followed in `Program.Descriptors`.
-/

namespace UsbResponder

open Handles

variable {σ : Type}

/-! ### The whole run -/

/-- The way out of `usb_responder_run`. -/
def runExit (os : Os σ) (rt : Runtime σ) : Runtime σ :=
  let rt := closeEps rt
  { rt with dev.proc := fileOpsShutdown os rt.dev.proc }

/-- `usb_responder_run`, `none` as long as the loop goes on: `setup` says whether `ep0`
could be opened and the descriptors be written. Without `ep0` the loop is not entered. -/
def usbResponderRun (os : Os σ) (shell : ExecShell σ) (setup : Bool) (inputs : List LoopInput)
    (st : LoopState σ) : Option (Bool × Runtime σ) :=
  if setup then
    match handleIoLoop os shell inputs st with
    | .next _ => none
    | .returned ok st => some (ok, runExit os st.rt)
    | .waiting _ => none
  else some (false, runExit os st.rt)

/-- `usb_responder_run` leaves from a state that has what every round preserves, and returns
`false` when `should_stop` was not set before the loop. -/
theorem exists_of_usbResponderRun {os : Os σ} {shell : ExecShell σ} {P : LoopState σ → Prop}
    (hstep : ∀ input st, P st → P (ioStep os shell input st).state) {setup ok : Bool}
    {inputs : List LoopInput} {st : LoopState σ} {rt : Runtime σ} (h : P st)
    (hrun : usbResponderRun os shell setup inputs st = some (ok, rt)) :
    (∃ st' : LoopState σ, P st' ∧ rt = runExit os st'.rt) ∧
      (st.shouldStop = false → ok = false) := by
  rw [usbResponderRun] at hrun
  split_ifs at hrun
  · have hstate := handleIoLoop_induction os shell hstep inputs h
    have hfailed := fun hstop : st.shouldStop = false =>
      (handleIoLoop_state os shell inputs hstop).2
    rcases hloop : handleIoLoop os shell inputs st with st' | ⟨ok', st'⟩ | st'
    · simp [hloop] at hrun
    · rw [hloop] at hrun hstate
      obtain ⟨rfl, rfl⟩ := Prod.mk.inj (Option.some.inj hrun)
      exact ⟨⟨st', hstate, rfl⟩, fun hstop => hfailed hstop _ st' hloop⟩
    · simp [hloop] at hrun
  · obtain ⟨rfl, rfl⟩ := Prod.mk.inj (Option.some.inj hrun)
    exact ⟨⟨st, h, rfl⟩, fun _ => rfl⟩

/-! ### Descriptors in the log -/

/-- The descriptor of an endpoint, none while it is closed. -/
def Runtime.fd (rt : Runtime σ) : Endpoint → Option ℕ
  | .epIn => rt.epIn
  | .epOut => rt.epOut

/-- What an event does to the descriptor of an endpoint. -/
def IoEvent.handleEvent? (ep : Endpoint) : IoEvent → Option (HandleEvent ℕ)
  | .opened ep' fd => if ep' = ep then some (.opened fd) else none
  | .closed ep' fd => if ep' = ep then some (.closed fd) else none
  | _ => none

/-- The descriptors of an endpoint that were opened and closed. -/
def endpointTrace (ep : Endpoint) (log : List IoEvent) : List (HandleEvent ℕ) :=
  log.filterMap (IoEvent.handleEvent? ep)

private theorem endpointTrace_append (ep : Endpoint) (log₁ log₂ : List IoEvent) :
    endpointTrace ep (log₁ ++ log₂) = endpointTrace ep log₁ ++ endpointTrace ep log₂ :=
  List.filterMap_append

/-- The log agrees with the descriptors that are open: for each endpoint its openings and
closings alternate, and end with the descriptor it has now. -/
def Runtime.Tracked (rt : Runtime σ) : Prop :=
  ∀ ep, Holds (endpointTrace ep rt.dev.log) (rt.fd ep)

/-- An event that opens or closes no endpoint. Most events of a round are of this kind. -/
def IoEvent.NoHandle (event : IoEvent) : Prop := ∀ ep, event.handleEvent? ep = none

/-- Events that open or close nothing leave the log in agreement. -/
theorem Runtime.Tracked.of_log {rt rt' : Runtime σ} (h : rt.Tracked) {events : List IoEvent}
    (hlog : rt'.dev.log = rt.dev.log ++ events) (hevents : ∀ event ∈ events, event.NoHandle)
    (hin : rt'.epIn = rt.epIn) (hout : rt'.epOut = rt.epOut) : rt'.Tracked := by
  intro ep
  have hfd : rt'.fd ep = rt.fd ep := by
    cases ep with
    | epIn => exact hin
    | epOut => exact hout
  have hnone : endpointTrace ep events = [] :=
    List.filterMap_eq_nil_iff.mpr fun event hevent => hevents event hevent ep
  rw [hfd, hlog, endpointTrace_append, hnone, List.append_nil]
  exact h ep

private theorem IoEvent.IsWrite.noHandle {event : IoEvent} (h : event.IsWrite) :
    event.NoHandle := by
  cases event with
  | write data accepted => exact fun _ => rfl
  | _ => exact h.elim

/-- A receive opens and closes nothing. -/
private theorem Runtime.Tracked.of_afterReads {rt rt' : Runtime σ} (h : rt.Tracked)
    (hreads : rt.AfterReads rt') : rt'.Tracked := by
  obtain ⟨reads, hlog⟩ := hreads.log
  refine h.of_log hlog ?_ hreads.epIn hreads.epOut
  intro event hevent
  obtain ⟨data, -, rfl⟩ := List.mem_map.mp hevent
  exact fun _ => rfl

/-- `close_eps` records the closing of what is open. -/
private theorem closeEps_log (rt : Runtime σ) :
    (closeEps rt).dev.log = rt.dev.log ++ (rt.epIn.toList.map (IoEvent.closed .epIn) ++
      rt.epOut.toList.map (IoEvent.closed .epOut)) := by
  obtain ⟨dev, _ | fdIn, _ | fdOut, buf, cap, shutdown, rx⟩ := rt <;>
    simp [closeEps, Runtime.record, Device.record]

theorem closeEps_fd (rt : Runtime σ) (ep : Endpoint) : (closeEps rt).fd ep = none := by
  obtain ⟨dev, _ | fdIn, _ | fdOut, buf, cap, shutdown, rx⟩ := rt <;> cases ep <;> rfl

/-- `close_eps` closes each descriptor that is open once, and nothing else. -/
theorem Runtime.Tracked.closeEps {rt : Runtime σ} (h : rt.Tracked) : (closeEps rt).Tracked := by
  intro ep
  have htrace : endpointTrace ep (rt.epIn.toList.map (IoEvent.closed .epIn) ++
      rt.epOut.toList.map (IoEvent.closed .epOut)) = (rt.fd ep).toList.map .closed := by
    obtain ⟨dev, _ | fdIn, _ | fdOut, buf, cap, shutdown, rx⟩ := rt <;> cases ep <;> rfl
  rw [closeEps_fd, closeEps_log, endpointTrace_append, htrace]
  exact (h ep).release

/-- Opening an endpoint that is closed. -/
private theorem Runtime.Tracked.openEp {rt rt' : Runtime σ} (h : rt.Tracked) {ep : Endpoint}
    {fd : ℕ} (hlog : rt'.dev.log = rt.dev.log ++ [.opened ep fd]) (hclosed : rt.fd ep = none)
    (hopen : rt'.fd ep = some fd) (hother : ∀ ep', ep' ≠ ep → rt'.fd ep' = rt.fd ep') :
    rt'.Tracked := by
  intro ep'
  rw [hlog, endpointTrace_append]
  by_cases hep : ep' = ep
  · subst hep
    have hheld := h ep'
    rw [hclosed] at hheld
    have htrace : endpointTrace ep' [.opened ep' fd] = [.opened fd] := by
      simp [endpointTrace, IoEvent.handleEvent?]
    rw [hopen, htrace]
    exact hheld.opened fd
  · have htrace : endpointTrace ep' [.opened ep fd] = [] := by
      simp [endpointTrace, IoEvent.handleEvent?, Ne.symm hep]
    rw [hother ep' hep, htrace, List.append_nil]
    exact h ep'

/-! ### What holds between two steps -/

/-- What holds at every moment of the loop, also in the middle of a batch of events. In a
batch the function may be enabled before the endpoints are opened. -/
structure LoopState.Consistent (st : LoopState σ) : Prop where
  /-- The endpoints are open together. -/
  pair : st.rt.epIn.isSome = st.rt.epOut.isSome
  /-- They are open only while the function is enabled. -/
  enabled : st.rt.epIn.isSome = true → st.enabled = true
  /-- Without them nothing is buffered. -/
  idle : st.rt.epIn = none → st.rt.rxBuf = [] ∧ st.rt.epShutdown = false
  tracked : st.rt.Tracked

/-- What holds at the `poll` call, in addition: enabled is the same as open. -/
structure LoopState.Polling (st : LoopState σ) : Prop extends st.Consistent where
  opened : st.enabled = true → st.rt.epIn.isSome = true

private theorem closeEps_consistent {rt : Runtime σ} (h : rt.Tracked) (st : LoopState σ) :
    (st.disabled rt).Consistent where
  pair := by rw [show (st.disabled rt).rt.epIn = none from closeEps_fd rt .epIn,
    show (st.disabled rt).rt.epOut = none from closeEps_fd rt .epOut]
  enabled := by
    rw [show (st.disabled rt).rt.epIn = none from closeEps_fd rt .epIn]
    exact fun h => absurd h Bool.false_ne_true
  idle _ := ⟨rfl, rfl⟩
  tracked := h.closeEps

/-- After the endpoints were closed for good. -/
private theorem closeEps_polling {rt : Runtime σ} (h : rt.Tracked) (st : LoopState σ) :
    (st.disabled rt).Polling where
  toConsistent := closeEps_consistent h st
  opened := fun h => absurd h Bool.false_ne_true

theorem LoopState.Consistent.processEp0Event {st : LoopState σ} (h : st.Consistent)
    (event : Ep0Event) : (processEp0Event st event).Consistent := by
  have hrecord : (st.rt.record (.ep0 event)).Tracked :=
    h.tracked.of_log rfl (by simp [IoEvent.NoHandle, IoEvent.handleEvent?]) rfl rfl
  cases event with
  | enable => exact ⟨h.pair, fun _ => rfl, h.idle, hrecord⟩
  | disable => exact closeEps_consistent hrecord st
  | unbind => exact closeEps_consistent hrecord st
  | _ => exact ⟨h.pair, h.enabled, h.idle, hrecord⟩

/-- A batch of events, in any order. In between the function may be enabled with its
endpoints still closed. -/
theorem LoopState.Consistent.processEp0Events {st st' : LoopState σ} (h : st.Consistent)
    {read : Ep0Read} (hrun : processEp0Events read st = some st') : st'.Consistent := by
  cases read with
  | again => exact Option.some.inj hrun ▸ h
  | failed => exact absurd hrun (Option.some_ne_none st').symm
  | badSize => exact absurd hrun (Option.some_ne_none st').symm
  | events events =>
    obtain rfl := Option.some.inj hrun
    clear hrun
    induction events generalizing st with
    | nil => exact h
    | cons event events ih => exact ih (h.processEp0Event event)

/-- Opening the endpoints opens both or none. If the second one cannot be opened, the first
one is closed again. -/
theorem LoopState.Consistent.openEps {st : LoopState σ} (h : st.Consistent)
    (henabled : st.enabled = true) (hclosed : st.rt.epIn = none) (r : Ready) :
    (openEps r st).Polling := by
  have hclosed' : st.rt.epOut = none := by
    have hpair := h.pair
    rw [hclosed] at hpair
    exact Option.isNone_iff_eq_none.mp (by simpa using hpair.symm)
  rw [UsbResponder.openEps]
  rcases r.openIn with _ | fdIn
  · exact closeEps_polling h.tracked st
  have hopenIn : ({ st.rt with epIn := some fdIn }.record (.opened .epIn fdIn)).Tracked := by
    refine h.tracked.openEp rfl hclosed rfl ?_
    rintro (_ | _) hne
    · exact absurd rfl hne
    · rfl
  rcases r.openOut with _ | fdOut
  · exact closeEps_polling hopenIn st
  · refine ⟨⟨rfl, fun _ => henabled, fun hnone => absurd hnone (Option.some_ne_none fdIn), ?_⟩,
      fun _ => rfl⟩
    refine hopenIn.openEp rfl hclosed' rfl ?_
    rintro (_ | _) hne
    · rfl
    · exact absurd rfl hne

/-- After its events a round is back in a state as at the `poll` call. -/
theorem LoopState.Polling.ep0Round {st st' : LoopState σ} (h : st.Polling) {r : Ready}
    (hrun : ep0Round r st = some st') : st'.Polling := by
  rw [UsbResponder.ep0Round] at hrun
  rcases hep0 : r.ep0 with _ | read
  · rw [hep0] at hrun
    exact Option.some.inj hrun ▸ h
  rw [hep0] at hrun
  dsimp only at hrun
  rcases hread : UsbResponder.processEp0Events read st with _ | st₁
  · simp [hread] at hrun
  have hst₁ := h.toConsistent.processEp0Events hread
  rw [hread] at hrun
  obtain rfl := Option.some.inj hrun
  split_ifs with hopen
  · obtain ⟨henabled, hclosed⟩ := Bool.and_eq_true_iff.mp hopen
    exact hst₁.openEps henabled (Option.isNone_iff_eq_none.mp hclosed) r
  · refine ⟨hst₁, fun henabled => ?_⟩
    rw [henabled, Bool.true_and] at hopen
    simpa [Option.isSome_iff_ne_none] using hopen

/-- A frame has been received and handled, which opens and closes nothing. -/
theorem LoopState.Polling.handled {st : LoopState σ} (h : st.Polling)
    (henabled : st.enabled = true) {rt : Runtime σ} (hreads : st.rt.AfterReads rt) {os : Os σ}
    {shell : ExecShell σ} (frame : Frame) :
    LoopState.Polling
      { st with rt := { rt.record (.handling frame) with
          dev := (handleFrame os shell frame (rt.record (.handling frame)).dev).2 } } := by
  have hpair := h.pair
  have hopen := h.opened henabled
  have htracked : (rt.record (.handling frame)).Tracked :=
    (h.tracked.of_afterReads hreads).of_log rfl
      (by simp [IoEvent.NoHandle, IoEvent.handleEvent?]) rfl rfl
  obtain ⟨resp, writes, hlog, hwrites⟩ := handleFrame_log os frame
    (rt.record (.handling frame)).dev shell
  rw [← hreads.epIn, ← hreads.epOut] at hpair
  rw [← hreads.epIn] at hopen
  refine ⟨⟨hpair, fun _ => henabled, fun hnone => ?_, ?_⟩, fun _ => hopen⟩
  · exact absurd hopen (by simp [show rt.epIn = none from hnone])
  · refine htracked.of_log hlog ?_ rfl rfl
    intro event hevent
    obtain rfl | hwrite := List.mem_cons.mp hevent
    · exact fun _ => rfl
    · exact (hwrites event hwrite).noHandle

/-- **A round of the loop.** However it ends, the endpoints are open exactly when the
function is enabled. -/
theorem LoopState.Polling.ioStep {st : LoopState σ} (h : st.Polling) (os : Os σ)
    (shell : ExecShell σ) (input : LoopInput) : (ioStep os shell input st).state.Polling := by
  rcases input with _ | _ | r
  · exact h
  · exact h
  rw [UsbResponder.ioStep]
  rcases hep0 : UsbResponder.ep0Round r st with _ | st₁
  · exact h
  have hst₁ := h.ep0Round hep0
  dsimp only
  split_ifs with hreceive
  · obtain ⟨henabled, -⟩ := Bool.and_eq_true_iff.mp (Bool.and_eq_true_iff.mp hreceive).1
    rw [receiveRound]
    rcases hread : readFrameBuffered os st₁.rt with _ | ⟨_ | frame, rt⟩
    · exact hst₁
    · exact closeEps_polling (hst₁.tracked.of_afterReads (readFrameBuffered_afterReads hread)) st₁
    · exact hst₁.handled henabled (readFrameBuffered_afterReads hread) frame
  · exact closeEps_polling hst₁.tracked st₁
  · exact hst₁

theorem startState_polling (cfg : Config) (s : σ) (tx : List WriteOutcome) (rx : List RxOutcome) :
    (startState cfg s tx rx).Polling where
  pair := rfl
  enabled := fun h => absurd h Bool.false_ne_true
  idle _ := ⟨rfl, rfl⟩
  tracked ep := by cases ep <;> exact .nil
  opened := fun h => absurd h Bool.false_ne_true

/-- **The endpoint lifecycle.** For every sequence of inputs, whatever the reads and writes
on the endpoints and the handlers do: in the state the loop has reached, in particular at
each `poll` call, the function is enabled exactly when the bulk IN endpoint is open, which
is so exactly when the bulk OUT endpoint is, and when it is not enabled nothing is buffered
and no shutdown is noted; at any time an endpoint is opened only while it is closed, and
only the descriptor it has is closed; and when `usb_responder_run` returns, every descriptor
that was opened has been closed exactly once. -/
theorem endpoint_lifecycle (os : Os σ) (shell : ExecShell σ) (cfg : Config) (s : σ)
    (tx : List WriteOutcome) (rx : List RxOutcome) (inputs : List LoopInput) :
    let start := startState cfg s tx rx
    let st := (runLoop os shell inputs start).2
    ((st.enabled = true ↔ st.rt.epIn.isSome = true) ∧
      (st.rt.epIn.isSome = true ↔ st.rt.epOut.isSome = true) ∧
      (st.enabled = false → st.rt.rxBuf = [] ∧ st.rt.epShutdown = false)) ∧
    (∀ log, log <+: st.rt.dev.log → ∀ ep, ∃ held, Holds (endpointTrace ep log) held) ∧
    ∀ setup ok rt, usbResponderRun os shell setup inputs start = some (ok, rt) →
      ∀ ep, ∃ fds : List ℕ,
        endpointTrace ep rt.dev.log = fds.flatMap fun fd => [.opened fd, .closed fd] := by
  intro start st
  have hstart : start.Polling := startState_polling cfg s tx rx
  have hst : st.Polling :=
    runLoop_induction os shell (fun input _ h => h.ioStep os shell input) inputs hstart
  refine ⟨⟨⟨hst.opened, hst.enabled⟩, by rw [hst.pair], fun hdisabled => hst.idle ?_⟩, ?_, ?_⟩
  · rw [← Option.not_isSome_iff_eq_none]
    exact fun hopen => Bool.false_ne_true (hdisabled.symm.trans (hst.enabled hopen))
  · rintro log ⟨rest, hlog⟩ ep
    refine (hst.tracked ep).of_take ?_
    rw [← hlog, endpointTrace_append]
    exact List.prefix_append _ _
  · intro setup ok rt hrun ep
    obtain ⟨⟨st', hst', rfl⟩, -⟩ :=
      exists_of_usbResponderRun (fun input _ h => h.ioStep os shell input) hstart hrun
    exact holds_none_iff.mp (closeEps_fd st'.rt ep ▸ hst'.tracked.closeEps ep)

end UsbResponder
