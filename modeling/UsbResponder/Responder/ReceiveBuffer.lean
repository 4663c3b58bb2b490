import UsbResponder.Responder.Endpoints
import UsbResponder.Responder.Rounds

/-!
# What stays in the receive buffer

One read can bring more than the frame being received. What it brings beyond that frame
stays in the receive buffer when the loop goes back to `poll`, and this has two
consequences, for each of which the exact condition is given.

The loop handles one frame for each readiness report, so a complete frame can be held back
at the `poll` call; this does not happen in runs in which no read brings the end of one
frame together with the whole of the next one (`no_frame_held_back`).

Only `close_eps` empties the buffer. An `ENABLE` that finds the endpoints open does not go
through it, so bytes of the previous session can become part of a request of the new one;
this does not happen in runs in which every `ENABLE` finds the buffer empty or comes in one
batch with an event that empties it (`session_starts_clean`).

Both conditions are about the state before a round and the reads and events to come in it,
never about what the round makes of them. For the second, the buffer is located in the
stream of all bytes read (`Runtime.Fresh`): it is the end of this stream, and nothing that
was read before an `ENABLE` is in it. Each step of a round keeps this, and a frame handled
is the part taken off the front.
-/

namespace UsbResponder

variable {σ : Type}

/-! ### Events and the buffer -/

private theorem not_holdsFrame_nil : ¬HoldsFrame [] := by decide

private theorem processEp0Event_rxBuf (st : LoopState σ) (event : Ep0Event) :
    (processEp0Event st event).rt.rxBuf =
      if event = .disable ∨ event = .unbind then [] else st.rt.rxBuf := by
  cases event <;> rfl

/-- A batch of events empties the buffer if one of them disables or unbinds the function,
and otherwise leaves it as it is. The order within the batch plays no role. -/
private theorem foldl_processEp0Event_rxBuf (events : List Ep0Event) (st : LoopState σ) :
    (events.foldl processEp0Event st).rt.rxBuf =
      if .disable ∈ events ∨ .unbind ∈ events then [] else st.rt.rxBuf := by
  induction events generalizing st with
  | nil => simp
  | cons event events ih =>
    rw [List.foldl_cons, ih, processEp0Event_rxBuf]
    cases event <;> simp

/-- Opening the endpoints leaves the buffer as it is, or it fails. -/
private theorem openEps_rxBuf (r : Ready) (st : LoopState σ) :
    (openEps r st).rt.rxBuf = st.rt.rxBuf ∨ (openEps r st).rt.rxBuf = [] := by
  rw [openEps]
  rcases r.openIn with _ | fdIn
  · exact .inr rfl
  rcases r.openOut with _ | fdOut
  · exact .inr rfl
  · exact .inl rfl

/-- The events of a round leave the buffer as it is or empty it. -/
private theorem ep0Round_rxBuf {r : Ready} {st st' : LoopState σ} (h : ep0Round r st = some st') :
    st'.rt.rxBuf = st.rt.rxBuf ∨ st'.rt.rxBuf = [] := by
  rw [ep0Round] at h
  rcases hep0 : r.ep0 with _ | read
  · rw [hep0] at h
    obtain rfl := Option.some.inj h
    exact .inl rfl
  rw [hep0] at h
  dsimp only at h
  rcases hread : processEp0Events read st with _ | st₁
  · simp [hread] at h
  have hst₁ : st₁.rt.rxBuf = st.rt.rxBuf ∨ st₁.rt.rxBuf = [] := by
    rcases read with _ | _ | _ | events
    · obtain rfl := Option.some.inj hread
      exact .inl rfl
    · exact absurd hread (Option.some_ne_none st₁).symm
    · exact absurd hread (Option.some_ne_none st₁).symm
    · obtain rfl := Option.some.inj hread
      rw [foldl_processEp0Event_rxBuf]
      split_ifs
      · exact .inr rfl
      · exact .inl rfl
  rw [hread] at h
  obtain rfl := Option.some.inj h
  split_ifs
  · obtain hopen | hopen := openEps_rxBuf r st₁
    · rw [hopen]
      exact hst₁
    · exact .inr hopen
  · exact hst₁

/-! ### Frames held back at the `poll` call -/

/-- The read that completes the frame being received does not bring the whole of the next
one: when `n` reads are the fewest that complete a frame, what is left behind it is no
complete frame. A part of the next frame may well be there. -/
def NoFrameBehind (buf : Bytes) (reads : List Bytes) : Prop :=
  ∀ n ≤ reads.length, HoldsFrame (buf ++ (reads.take n).flatten) →
    (∀ j < n, ¬HoldsFrame (buf ++ (reads.take j).flatten)) →
    ¬HoldsFrame ((buf ++ (reads.take n).flatten).drop (frameEnd (buf ++ (reads.take n).flatten)))

/-- The input of a round that receives only frames that arrive one by one. -/
def FramesArriveSingly (input : LoopInput) (st : LoopState σ) : Prop :=
  ∀ st', receiving? input st = some st' → NoFrameBehind st'.rt.rxBuf (pieces st'.rt.rx)

/-- **A round leaves no frame behind** when the frame it receives arrives alone. -/
theorem ioStep_not_holdsFrame (os : Os σ) (shell : ExecShell σ) {input : LoopInput}
    {st : LoopState σ} (hsingly : FramesArriveSingly input st) (h : ¬HoldsFrame st.rt.rxBuf) :
    ¬HoldsFrame (ioStep os shell input st).state.rt.rxBuf := by
  have hevents : ∀ {r st'}, ep0Round r st = some st' → ¬HoldsFrame st'.rt.rxBuf := by
    intro r st' hep0
    obtain hbuf | hbuf := ep0Round_rxBuf hep0
    · rwa [hbuf]
    · rw [hbuf]
      exact not_holdsFrame_nil
  rcases hreceiving : receiving? input st with _ | st'
  · obtain hstate | ⟨r, st', -, hep0, hstate | hstate⟩ :=
      ioStep_of_not_receiving os shell hreceiving
    · rwa [hstate]
    · rw [hstate]
      exact hevents hep0
    · rw [hstate]
      exact not_holdsFrame_nil
  obtain ⟨r, -, hep0⟩ := exists_ep0Round_of_receiving hreceiving
  rw [ioStep_of_receiving os shell hreceiving, receiveRound]
  rcases hread : readFrameBuffered os st'.rt with _ | ⟨_ | frame, rt⟩
  · exact hevents hep0
  · exact not_holdsFrame_nil
  · obtain ⟨reads, -, hrx, -, hbuf, hholds, hminimal⟩ := readFrameBuffered_taken hread
    have htake : (pieces st'.rt.rx).take reads.length = reads := by
      rw [hrx, List.take_left]
    have hbehind := hsingly st' hreceiving reads.length (by rw [hrx, List.length_append]; omega)
    rw [htake, ← hbuf] at hbehind
    refine hbehind hholds fun j hj => ?_
    rw [hrx, List.take_append_of_le_length hj.le]
    exact hminimal j hj

/-- **No frame is held back.** In every run in which each read that completes a frame leaves
no complete frame behind it, the receive buffer holds no complete frame in the state the
loop has reached, in particular at each `poll` call. -/
theorem no_frame_held_back (os : Os σ) (shell : ExecShell σ) (cfg : Config) (s : σ)
    (tx : List WriteOutcome) (rx : List RxOutcome) (inputs : List LoopInput)
    (hsingly : StepsMeet os shell FramesArriveSingly inputs (startState cfg s tx rx)) :
    ¬HoldsFrame (runLoop os shell inputs (startState cfg s tx rx)).2.rt.rxBuf :=
  hsingly.induction (P := fun st => ¬HoldsFrame st.rt.rxBuf)
    (fun _ _ hsingly h => ioStep_not_holdsFrame os shell hsingly h) not_holdsFrame_nil

/-- The state in which the loop is entered, with calls that all fail. -/
def startOf (rx : List RxOutcome) : LoopState Unit := startState ⟨0, 0, 0⟩ () [] rx

/-- `no_frame_held_back` for a `HELLO` that arrives in two pieces. -/
theorem no_frame_held_back_hello :
    ¬HoldsFrame (runLoop (Os.failing Unit) noShell enableAndRead
      (startOf [.data ((encodeFrame helloFrame).take 10),
        .data ((encodeFrame helloFrame).drop 10)])).2.rt.rxBuf := by
  refine no_frame_held_back (Os.failing Unit) noShell ⟨0, 0, 0⟩ () [] _ enableAndRead ?_
  refine .cons (fun st' hst' => by cases hst') fun st₁ hst₁ => ?_
  cases hst₁
  refine .cons (fun st' hst' => ?_) fun st₂ _ => .nil st₂
  cases hst'
  unfold NoFrameBehind
  decide

/-- **A frame can be held back.** Two `HELLO` requests arrive with one read; the loop
answers the first one and goes back to `poll` with the second one in the buffer. -/
theorem not_no_frame_held_back :
    ¬∀ inputs : List LoopInput,
      let run := runLoop (Os.failing Unit) noShell inputs
        (startOf [.data (encodeFrame helloFrame ++ encodeFrame helloFrame)])
      run.1 = true → run.2.enabled = true → ¬HoldsFrame run.2.rt.rxBuf := by
  intro hclaim
  exact hclaim enableAndRead rfl rfl (by decide)

/-! ### Bytes of an earlier session -/

/-- The buffer is the end of the stream of bytes read, and everything read before an
`ENABLE` lies before it. With an empty buffer this is always so. -/
def Runtime.Fresh (rt : Runtime σ) : Prop :=
  ∃ old, receivedBytes rt.dev.log = old ++ rt.rxBuf ∧
    ∀ pre, pre ++ [.ep0 .enable] <+: rt.dev.log → receivedBytes pre <+: old

/-- Nothing buffered is old. -/
private theorem Runtime.Fresh.of_empty {rt : Runtime σ} (h : rt.rxBuf = []) : rt.Fresh := by
  refine ⟨receivedBytes rt.dev.log, by rw [h, List.append_nil], fun pre hpre => ?_⟩
  obtain ⟨rest, hrest⟩ := hpre
  rw [← hrest, List.append_assoc, receivedBytes_append]
  exact List.prefix_append _ _

/-- Events behind the last `ENABLE` do not change which prefixes end with one. -/
private theorem prefix_of_notMem {pre log events : List IoEvent} {event : IoEvent}
    (h : pre ++ [event] <+: log ++ events) (hevents : event ∉ events) : pre ++ [event] <+: log := by
  obtain h' | ⟨tail, htail⟩ := List.prefix_or_prefix_of_prefix h (List.prefix_append log events)
  · exact h'
  rw [← htail, List.prefix_append_right_inj] at h
  rcases List.eq_nil_or_concat' tail with rfl | ⟨tail', last, rfl⟩
  · exact ⟨[], by rw [List.append_nil, ← htail, List.append_nil]⟩
  · rw [← List.append_assoc] at htail
    obtain ⟨-, hlast⟩ := List.append_inj' htail rfl
    exact absurd (h.subset (List.mem_append_right tail' (hlast ▸ List.mem_singleton_self event)))
      hevents

/-- Reads go to the end of the buffer, and what is taken comes off its front. So the buffer
stays the end of the stream. -/
theorem Runtime.Fresh.of_log {rt rt' : Runtime σ} (h : rt.Fresh) {events : List IoEvent}
    (hlog : rt'.dev.log = rt.dev.log ++ events) (hevents : .ep0 .enable ∉ events) {taken : Bytes}
    (hbuf : rt.rxBuf ++ receivedBytes events = taken ++ rt'.rxBuf) :
    ∃ old, receivedBytes rt'.dev.log = old ++ taken ++ rt'.rxBuf ∧
      ∀ pre, pre ++ [.ep0 .enable] <+: rt'.dev.log → receivedBytes pre <+: old := by
  obtain ⟨old, hold, hpre⟩ := h
  refine ⟨old, ?_, fun pre hprefix => hpre pre ?_⟩
  · rw [hlog, receivedBytes_append, hold, List.append_assoc, hbuf, List.append_assoc]
  · rw [hlog] at hprefix
    exact prefix_of_notMem hprefix hevents

/-- Events that read nothing. -/
private theorem Runtime.Fresh.of_silent {rt rt' : Runtime σ} (h : rt.Fresh) {events : List IoEvent}
    (hlog : rt'.dev.log = rt.dev.log ++ events) (hevents : .ep0 .enable ∉ events)
    (hread : receivedBytes events = []) (hbuf : rt'.rxBuf = rt.rxBuf) : rt'.Fresh := by
  have hstream : rt.rxBuf ++ receivedBytes events = [] ++ rt'.rxBuf := by
    rw [hread, hbuf, List.append_nil, List.nil_append]
  obtain ⟨old, hold, hpre⟩ := h.of_log hlog hevents hstream
  exact ⟨old, by rwa [List.append_nil] at hold, hpre⟩

/-- The input of a round in which an `ENABLE` finds nothing buffered, or comes together with
an event that closes the endpoints. -/
def EnableFindsNothing (input : LoopInput) (st : LoopState σ) : Prop :=
  ∀ r events, input = .ready r → r.ep0 = some (.events events) → .enable ∈ events →
    st.rt.rxBuf = [] ∨ .disable ∈ events ∨ .unbind ∈ events

/-- An event that is no `ENABLE`. -/
theorem Runtime.Fresh.processEp0Event {st : LoopState σ} (h : st.rt.Fresh) {event : Ep0Event}
    (hevent : event ≠ .enable) : (processEp0Event st event).rt.Fresh := by
  have hrecord : (st.rt.record (.ep0 event)).Fresh :=
    h.of_silent rfl (by simpa using hevent.symm) rfl rfl
  cases event with
  | disable => exact .of_empty rfl
  | unbind => exact .of_empty rfl
  | _ => exact hrecord

/-- A batch of events. -/
private theorem Runtime.Fresh.foldl_processEp0Event {st : LoopState σ} (h : st.rt.Fresh)
    {events : List Ep0Event}
    (hevents : .enable ∈ events → st.rt.rxBuf = [] ∨ .disable ∈ events ∨ .unbind ∈ events) :
    (events.foldl UsbResponder.processEp0Event st).rt.Fresh := by
  by_cases henable : .enable ∈ events
  · -- whatever the order of the events, the buffer is empty after them
    refine .of_empty ?_
    rw [foldl_processEp0Event_rxBuf]
    split_ifs with hclosed
    · rfl
    · exact (hevents henable).resolve_right hclosed
  · clear hevents
    induction events generalizing st with
    | nil => exact h
    | cons event events ih =>
      rw [List.mem_cons, not_or] at henable
      exact ih (h.processEp0Event (Ne.symm henable.1)) henable.2

/-- The events of a round and the opening of the endpoints. -/
theorem Runtime.Fresh.ep0Round {r : Ready} {st st' : LoopState σ} (h : st.rt.Fresh)
    (henable : EnableFindsNothing (.ready r) st) (hrun : ep0Round r st = some st') :
    st'.rt.Fresh := by
  rw [UsbResponder.ep0Round] at hrun
  rcases hep0 : r.ep0 with _ | read
  · rw [hep0] at hrun
    exact Option.some.inj hrun ▸ h
  rw [hep0] at hrun
  dsimp only at hrun
  rcases hread : processEp0Events read st with _ | st₁
  · simp [hread] at hrun
  have hst₁ : st₁.rt.Fresh := by
    rcases read with _ | _ | _ | events
    · exact Option.some.inj hread ▸ h
    · exact absurd hread (Option.some_ne_none st₁).symm
    · exact absurd hread (Option.some_ne_none st₁).symm
    · exact Option.some.inj hread ▸ h.foldl_processEp0Event (henable r events rfl hep0)
  rw [hread] at hrun
  obtain rfl := Option.some.inj hrun
  split_ifs
  · rw [openEps]
    rcases r.openIn with _ | fdIn
    · exact .of_empty rfl
    rcases r.openOut with _ | fdOut
    · exact .of_empty rfl
    · have hopened : ({ st₁.rt with epIn := some fdIn }.record (.opened .epIn fdIn)).Fresh :=
        hst₁.of_silent rfl (by simp) rfl rfl
      exact hopened.of_silent rfl (by simp) rfl rfl
  · exact hst₁

/-- The round from `st` to `st'` keeps sessions apart: if it has passed a frame to
`handle_frame`, then the bytes read so far are some old ones, the bytes of this frame and
those still buffered, and whatever was read before an `ENABLE` is among the old ones. The
events of a round come before the frame it handles, so all the `ENABLE`s in question come
before the frame. -/
def KeepsSessionsApart (st st' : LoopState σ) : Prop :=
  ∀ frame, handledFrames st'.rt.dev.log = handledFrames st.rt.dev.log ++ [frame] →
    ∃ old, receivedBytes st'.rt.dev.log = old ++ encodeFrame frame ++ st'.rt.rxBuf ∧
      ∀ pre, pre ++ [.ep0 .enable] <+: st'.rt.dev.log → receivedBytes pre <+: old

/-- A round that handles no frame. -/
private theorem KeepsSessionsApart.of_silent {st st' : LoopState σ}
    (h : st.rt.dev.Silent st'.rt.dev) : KeepsSessionsApart st st' := by
  intro frame hframe
  rw [h.handledFrames] at hframe
  exact absurd hframe (by simp)

/-- A frame is received and handled. -/
theorem Runtime.Fresh.receive {rt rt' : Runtime σ} (h : rt.Fresh) {os : Os σ}
    (shell : ExecShell σ) {frame : Frame}
    (hread : readFrameBuffered os rt = some (some frame, rt')) :
    ∃ old, receivedBytes (handleFrame os shell frame (rt'.record (.handling frame)).dev).2.log =
        old ++ encodeFrame frame ++ rt'.rxBuf ∧
      ∀ pre, pre ++ [.ep0 .enable] <+:
          (handleFrame os shell frame (rt'.record (.handling frame)).dev).2.log →
        receivedBytes pre <+: old := by
  obtain ⟨reads, hlog, -, hframe, hbuf, -, -⟩ := readFrameBuffered_taken hread
  obtain ⟨resp, writes, hlog', hwrites⟩ := handleFrame_log os frame
    (rt'.record (.handling frame)).dev shell
  -- handling a frame reads nothing, and reports no event of the control endpoint
  have hnone : receivedBytes (.handling frame :: .sending resp :: writes) = [] := by
    refine List.flatMap_eq_nil_iff.mpr fun event hevent => ?_
    obtain rfl | hevent := List.mem_cons.mp hevent
    · rfl
    obtain rfl | hevent := List.mem_cons.mp hevent
    · rfl
    · have hwrite := hwrites event hevent
      cases event with
      | write data accepted => rfl
      | _ => exact hwrite.elim
  have hevents : .ep0 .enable ∉
      reads.map IoEvent.received ++ .handling frame :: .sending resp :: writes := by
    intro henable
    obtain hmem | hmem := List.mem_append.mp henable
    · obtain ⟨data, -, hdata⟩ := List.mem_map.mp hmem
      exact IoEvent.noConfusion hdata
    · exact hwrites (.ep0 .enable) (by simpa using hmem)
  have hstream : rt.rxBuf ++ receivedBytes
      (reads.map IoEvent.received ++ .handling frame :: .sending resp :: writes) =
        encodeFrame frame ++ rt'.rxBuf := by
    rw [receivedBytes_append, receivedBytes_reads, hnone, List.append_nil, hframe, hbuf]
    exact (List.take_append_drop _ _).symm
  have hlog'' : ({ rt' with dev := (handleFrame os shell frame
      (rt'.record (.handling frame)).dev).2 } : Runtime σ).dev.log = rt.dev.log ++
        (reads.map IoEvent.received ++ .handling frame :: .sending resp :: writes) := by
    rw [hlog', Runtime.record, Device.record, hlog]
    simp
  exact h.of_log hlog'' hevents hstream

/-- **A round keeps sessions apart** when an `ENABLE` in it finds nothing buffered. -/
theorem ioStep_keepsSessionsApart (os : Os σ) (shell : ExecShell σ) {input : LoopInput}
    {st : LoopState σ} (henable : EnableFindsNothing input st) (h : st.rt.Fresh) :
    (ioStep os shell input st).state.rt.Fresh ∧
      KeepsSessionsApart st (ioStep os shell input st).state := by
  rcases hreceiving : receiving? input st with _ | st'
  · obtain hstate | ⟨r, st', rfl, hep0, hstate⟩ := ioStep_of_not_receiving os shell hreceiving
    · rw [hstate]
      exact ⟨h, .of_silent (.refl _)⟩
    · have hst' := h.ep0Round henable hep0
      obtain hstate | hstate := hstate
      · rw [hstate]
        exact ⟨hst', .of_silent (ep0Round_silent hep0)⟩
      · rw [hstate]
        exact ⟨.of_empty rfl, .of_silent ((ep0Round_silent hep0).trans (closeEps_silent st'.rt))⟩
  obtain ⟨r, rfl, hep0⟩ := exists_ep0Round_of_receiving hreceiving
  have hst' := h.ep0Round henable hep0
  rw [ioStep_of_receiving os shell hreceiving, receiveRound]
  rcases hread : readFrameBuffered os st'.rt with _ | ⟨_ | frame, rt⟩
  · exact ⟨hst', .of_silent (ep0Round_silent hep0)⟩
  · have hreads := (readFrameBuffered_afterReads hread).silent
    exact ⟨.of_empty rfl,
      .of_silent (((ep0Round_silent hep0).trans hreads).trans (closeEps_silent rt))⟩
  · have hreads := (ep0Round_silent hep0).trans (readFrameBuffered_afterReads hread).silent
    obtain ⟨old, hold, hpre⟩ := hst'.receive shell hread
    refine ⟨⟨old ++ encodeFrame frame, hold, ?_⟩, ?_⟩
    · exact fun pre hprefix => (hpre pre hprefix).trans (List.prefix_append _ _)
    · intro frame' hframe'
      have hhandled : handledFrames (handleFrame os shell frame
          (rt.record (.handling frame)).dev).2.log = handledFrames st.rt.dev.log ++ [frame] := by
        rw [handleFrame_handledFrames, ← hreads.handledFrames]
        exact handledFrames_append rt.dev.log [.handling frame]
      obtain rfl : frame = frame' := by
        have heq := hhandled.symm.trans hframe'
        simpa using heq
      exact ⟨old, hold, hpre⟩

/-- **A session starts clean.** In every run in which each `ENABLE` finds an empty receive
buffer, or comes in one batch with a `DISABLE` or `UNBIND`, no frame passed to
`handle_frame` contains a byte that was read before an `ENABLE` that was reported before the
frame was handled. -/
theorem session_starts_clean (os : Os σ) (shell : ExecShell σ) (cfg : Config) (s : σ)
    (tx : List WriteOutcome) (rx : List RxOutcome) (inputs : List LoopInput) (input : LoopInput)
    (henable : StepsMeet os shell EnableFindsNothing (inputs ++ [input])
      (startState cfg s tx rx))
    (hpolls : (runLoop os shell inputs (startState cfg s tx rx)).1 = true) :
    KeepsSessionsApart (runLoop os shell inputs (startState cfg s tx rx)).2
      (runLoop os shell (inputs ++ [input]) (startState cfg s tx rx)).2 := by
  have hbefore : StepsMeet os shell EnableFindsNothing inputs (startState cfg s tx rx) :=
    fun done input' hdone => henable done input' (hdone.trans (List.prefix_append _ _))
  have hfresh : (runLoop os shell inputs (startState cfg s tx rx)).2.rt.Fresh :=
    hbefore.induction (P := fun st => st.rt.Fresh)
      (fun _ _ henable h => (ioStep_keepsSessionsApart os shell henable h).1) (.of_empty rfl)
  rw [runLoop_concat hpolls]
  exact (ioStep_keepsSessionsApart os shell (henable inputs input List.prefix_rfl hpolls) hfresh).2

/-- A round in which the function is enabled once more while a report of readiness is
pending. -/
def enableAgain : LoopInput :=
  .ready { ep0 := some (.events [.enable]), outReadable := true }

/-- `session_starts_clean` for a `HELLO` that arrives after the function was enabled again. -/
theorem session_starts_clean_hello :
    KeepsSessionsApart
      (runLoop (Os.failing Unit) noShell [enableRound] (startOf [.data (encodeFrame helloFrame)])).2
      (runLoop (Os.failing Unit) noShell ([enableRound] ++ [enableAgain])
        (startOf [.data (encodeFrame helloFrame)])).2 := by
  refine session_starts_clean (Os.failing Unit) noShell ⟨0, 0, 0⟩ () [] _ [enableRound] enableAgain
    ?_ rfl
  refine .cons (fun r events _ _ _ => .inl rfl) fun st₁ hst₁ => ?_
  cases hst₁
  exact .cons (fun r events _ _ _ => .inl rfl) fun st₂ _ => .nil st₂

/-- **A session can start with bytes of the one before.** Two `HELLO` requests arrive with
one read, and the first one is answered; then the host connects again, and the second one is
handled as a request of the new session. -/
theorem not_session_starts_clean :
    ¬∀ (inputs : List LoopInput) (input : LoopInput),
      let start := startOf [.data (encodeFrame helloFrame ++ encodeFrame helloFrame)]
      (runLoop (Os.failing Unit) noShell inputs start).1 = true →
      KeepsSessionsApart (runLoop (Os.failing Unit) noShell inputs start).2
        (runLoop (Os.failing Unit) noShell (inputs ++ [input]) start).2 := by
  intro hclaim
  obtain ⟨old, hold, hpre⟩ := hclaim enableAndRead enableAgain rfl
    (frameOf MsgType.hello.code 0 1 []) (by decide +kernel)
  have hprefix := hpre (runLoop (Os.failing Unit) noShell enableAndRead
    (startOf [.data (encodeFrame helloFrame ++ encodeFrame helloFrame)])).2.rt.dev.log
    (by decide +kernel)
  have hlength := congrArg List.length hold
  have hle := hprefix.length_le
  rw [List.length_append, List.length_append] at hlength
  -- 48 bytes were read before the second `ENABLE`, and 24 of them are those of the frame
  have hread : (receivedBytes (runLoop (Os.failing Unit) noShell enableAndRead
      (startOf [.data (encodeFrame helloFrame ++ encodeFrame helloFrame)])).2.rt.dev.log).length =
        48 := by decide +kernel
  have hframe : (encodeFrame (frameOf MsgType.hello.code 0 1 [])).length = 24 := by decide +kernel
  have hall : (receivedBytes (runLoop (Os.failing Unit) noShell (enableAndRead ++ [enableAgain])
      (startOf [.data (encodeFrame helloFrame ++ encodeFrame helloFrame)])).2.rt.dev.log).length =
        48 := by decide +kernel
  omega

end UsbResponder
