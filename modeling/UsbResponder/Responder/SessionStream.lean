import Mathlib.Data.List.ModifyLast
import UsbResponder.Base.PartialTransfers
import UsbResponder.Responder.Endpoints
import UsbResponder.Responder.Rounds

/-!
# The bulk IN stream of a session

What the bulk IN endpoint accepts from one opening to the next is the stream the host takes
apart. A response whose `write` fails half-way is cut off in it, and the loop goes on with
the next request, so the bytes of a later response can follow in the middle of an earlier
one. The stream is in step as long as nothing of a later response is accepted in such a
session (`in_stream_aligned`).

Responses and bytes of the session are read off the log by one fold each, which an opening
of the endpoint resets. What a handler adds is one response of which a prefix was accepted
(`handleFrame_sent`), and nothing if the first `write` fails; with the condition this keeps
`SessionAligned`. Zero-length packets add no bytes.

The condition is met when the endpoint is dead for good once a `write` has failed, as after
a disconnection, or when no request follows. That an endpoint recovers within a session is
what it excludes.
-/

namespace UsbResponder

open PartialTransfers

variable {σ : Type}

/-! ### The responses of a session -/

/-- The responses of the session, each with what was accepted of it. A write is counted for
the last response that was begun. -/
def trackResponse (responses : List (Frame × Bytes)) : IoEvent → List (Frame × Bytes)
  | .opened .epIn _ => []
  | .sending frame => responses ++ [(frame, [])]
  | .write data accepted =>
    responses.modifyLast fun t => (t.1, t.2 ++ (IoEvent.write data accepted).sentBytes)
  | _ => responses

/-- The responses begun since the bulk IN endpoint was last opened. -/
def sessionResponses (log : List IoEvent) : List (Frame × Bytes) := log.foldl trackResponse []

/-- The bytes of the session. -/
def trackBytes (bytes : Bytes) : IoEvent → Bytes
  | .opened .epIn _ => []
  | event => bytes ++ event.sentBytes

/-- The bytes accepted since the bulk IN endpoint was last opened. -/
def sessionBytes (log : List IoEvent) : Bytes := log.foldl trackBytes []

/-- In the session so far the responses make up the bytes, each is accepted up to a point,
and only the last one of which something was accepted may be incomplete. -/
structure SessionAligned (log : List IoEvent) : Prop where
  bytes : sessionBytes log = (sessionResponses log).flatMap Prod.snd
  part : ∀ t ∈ sessionResponses log, t.2 <+: encodeFrame t.1
  aligned : Aligned encodeFrame (sessionResponses log)

/-- A silent event adds nothing to the session, or begins a new one. -/
private theorem track_silent {event : IoEvent} (h : event.IsSilent)
    (responses : List (Frame × Bytes)) (bytes : Bytes) :
    (trackResponse responses event = responses ∧ trackBytes bytes event = bytes) ∨
      (trackResponse responses event = [] ∧ trackBytes bytes event = []) := by
  cases event with
  | opened ep fd =>
    cases ep with
    | epIn => exact .inr ⟨rfl, rfl⟩
    | epOut => exact .inl ⟨rfl, List.append_nil bytes⟩
  | handling frame => exact h.elim
  | sending frame => exact h.elim
  | write data accepted => exact h.elim
  | _ => exact .inl ⟨rfl, List.append_nil bytes⟩

/-- Silent events add nothing to the session, or begin a new one. -/
private theorem session_append_silent (log : List IoEvent) {events : List IoEvent}
    (h : ∀ event ∈ events, event.IsSilent) :
    (sessionResponses (log ++ events) = sessionResponses log ∧
      sessionBytes (log ++ events) = sessionBytes log) ∨
    (sessionResponses (log ++ events) = [] ∧ sessionBytes (log ++ events) = []) := by
  induction events using List.reverseRecOn with
  | nil => exact .inl ⟨by rw [List.append_nil], by rw [List.append_nil]⟩
  | append_singleton events event ih =>
    have hbefore := ih fun e he => h e (List.mem_append_left _ he)
    have hevent := track_silent (h event (by simp)) (sessionResponses (log ++ events))
      (sessionBytes (log ++ events))
    rw [← List.append_assoc, sessionResponses, sessionBytes, List.foldl_concat, List.foldl_concat,
      ← sessionResponses, ← sessionBytes]
    obtain ⟨hresponses, hbytes⟩ | hnew := hevent
    · rwa [hresponses, hbytes]
    · exact .inr hnew

/-- Writes add what was accepted to the last response. -/
private theorem foldl_trackResponse_writes {writes : List IoEvent}
    (h : ∀ event ∈ writes, event.IsWrite)
    (responses : List (Frame × Bytes)) (frame : Frame) (sent : Bytes) :
    writes.foldl trackResponse (responses ++ [(frame, sent)]) =
      responses ++ [(frame, sent ++ sentBytes writes)] := by
  induction writes generalizing sent with
  | nil => exact congrArg (fun bytes => responses ++ [(frame, bytes)]) (List.append_nil sent).symm
  | cons event writes ih =>
    have hrest := ih fun e he => h e (List.mem_cons_of_mem event he)
    have hevent := h event List.mem_cons_self
    cases event with
    | write data accepted =>
      have htrack : trackResponse (responses ++ [(frame, sent)]) (.write data accepted) =
          responses ++ [(frame, sent ++ (IoEvent.write data accepted).sentBytes)] := by
        rw [trackResponse, List.modifyLast_concat]
      rw [List.foldl_cons, htrack, hrest, List.append_assoc]
      rfl
    | _ => exact hevent.elim

private theorem foldl_trackBytes_writes {writes : List IoEvent}
    (h : ∀ event ∈ writes, event.IsWrite)
    (bytes : Bytes) : writes.foldl trackBytes bytes = bytes ++ sentBytes writes := by
  induction writes generalizing bytes with
  | nil => exact (List.append_nil bytes).symm
  | cons event writes ih =>
    have hrest := ih fun e he => h e (List.mem_cons_of_mem event he)
    have hevent := h event List.mem_cons_self
    cases event with
    | write data accepted =>
      rw [List.foldl_cons, hrest]
      exact List.append_assoc ..
    | _ => exact hevent.elim

/-- A response adds one record to the session. -/
private theorem session_append_response (log : List IoEvent) (req resp : Frame)
    {writes : List IoEvent} (h : ∀ event ∈ writes, event.IsWrite) :
    sessionResponses (log ++ .handling req :: .sending resp :: writes) =
        sessionResponses log ++ [(resp, sentBytes writes)] ∧
      sessionBytes (log ++ .handling req :: .sending resp :: writes) =
        sessionBytes log ++ sentBytes writes := by
  constructor
  · rw [sessionResponses, List.foldl_append]
    exact foldl_trackResponse_writes h _ resp []
  · rw [sessionBytes, List.foldl_append]
    refine (foldl_trackBytes_writes h _).trans ?_
    rw [show trackBytes (trackBytes (log.foldl trackBytes []) (.handling req)) (.sending resp) =
      log.foldl trackBytes [] ++ [] ++ [] from rfl, List.append_nil, List.append_nil, sessionBytes]

/-! ### What is accepted of a response -/

/-- The first `write` that is not interrupted fails, or takes nothing. Then nothing of the
response is accepted. -/
def firstWriteFails : List WriteOutcome → Bool
  | [] => false
  | .accept n :: _ => n = 0
  | .eintr :: script => firstWriteFails script
  | .error _ :: _ => true

/-- `dev'` is `dev` after `write` calls of which `sent` was accepted. -/
def Device.Sent (dev dev' : Device σ) (sent : Bytes) : Prop :=
  ∃ writes, dev'.log = dev.log ++ writes ∧ (∀ event ∈ writes, event.IsWrite) ∧
    sentBytes writes = sent

theorem Device.Sent.refl {dev dev' : Device σ} (h : dev'.log = dev.log) : dev.Sent dev' [] :=
  ⟨[], by rw [h, List.append_nil], by simp, rfl⟩

theorem Device.Sent.trans {dev₁ dev₂ dev₃ : Device σ} {sent₁ sent₂ : Bytes}
    (h₁ : dev₁.Sent dev₂ sent₁) (h₂ : dev₂.Sent dev₃ sent₂) : dev₁.Sent dev₃ (sent₁ ++ sent₂) := by
  obtain ⟨writes₁, hlog₁, hwrites₁, hsent₁⟩ := h₁
  obtain ⟨writes₂, hlog₂, hwrites₂, hsent₂⟩ := h₂
  refine ⟨writes₁ ++ writes₂, by rw [hlog₂, hlog₁, List.append_assoc], ?_, ?_⟩
  · intro event hevent
    exact (List.mem_append.mp hevent).elim (hwrites₁ event) (hwrites₂ event)
  · rw [sentBytes_append, hsent₁, hsent₂]

/-- One call of `write`. -/
theorem Device.Sent.call {dev dev' : Device σ} {data sent : Bytes} {accepted : Option ℕ}
    (h : dev'.log = dev.log ++ [.write data accepted])
    (hsent : (IoEvent.write data accepted).sentBytes = sent) : dev.Sent dev' sent :=
  ⟨[.write data accepted], h, by simp [IoEvent.IsWrite], by simp [sentBytes, hsent]⟩

/-- `r` is what writing data has turned `dev` into: a prefix of the data was accepted, all
of it on success, and nothing if the first `write` fails. -/
structure Device.Attempt (dev : Device σ) (r : Bool × Device σ) (data : Bytes) (sent : Bytes) :
    Prop where
  writes : dev.Sent r.2 sent
  part : sent <+: data
  all : r.1 = true → sent = data
  none : firstWriteFails dev.tx = true → sent = []

private theorem writeFullLoop_attempt (os : Os σ) (script : List WriteOutcome) (data : Bytes)
    (dev : Device σ) :
    ∃ sent, ({ dev with tx := script } : Device σ).Attempt (writeFullLoop os script data dev)
      data sent := by
  induction script generalizing data dev with
  | nil =>
    cases data with
    | nil => exact ⟨[], .refl rfl, List.prefix_rfl, fun _ => rfl, fun _ => rfl⟩
    | cons b data =>
      exact ⟨b :: data, .call rfl List.take_length, List.prefix_rfl, fun _ => rfl,
        fun hfails => absurd hfails Bool.false_ne_true⟩
  | cons outcome script ih =>
    cases data with
    | nil => exact ⟨[], .refl rfl, List.prefix_rfl, fun _ => rfl, fun _ => rfl⟩
    | cons b data =>
      cases outcome with
      | accept n =>
        obtain ⟨sent, hattempt⟩ := ih ((b :: data).drop (min n (b :: data).length))
          (dev.record (.write (b :: data) (some (min n (b :: data).length))))
        rw [writeFullLoop]
        · split_ifs with hzero
          · -- a call that takes nothing ends the attempt
            refine ⟨[], .call rfl ?_, List.nil_prefix, fun hok => absurd hok Bool.false_ne_true,
              fun _ => rfl⟩
            rw [IoEvent.sentBytes, hzero, List.take_zero]
          · have hcall : ({ dev with tx := .accept n :: script } : Device σ).Sent
                { dev.record (.write (b :: data) (some (min n (b :: data).length))) with
                  tx := script } ((b :: data).take (min n (b :: data).length)) := .call rfl rfl
            refine ⟨_, hcall.trans hattempt.writes, ?_, fun hok => ?_, fun hfails => ?_⟩
            · obtain ⟨rest, hrest⟩ := hattempt.part
              exact ⟨rest, by rw [List.append_assoc, hrest, List.take_append_drop]⟩
            · rw [hattempt.all hok, List.take_append_drop]
            · simp [firstWriteFails] at hfails
              simp [hfails] at hzero
        · simp
      | eintr =>
        -- an interrupted call has sent nothing and is made again
        obtain ⟨sent, hattempt⟩ := ih (b :: data) (dev.record (.write (b :: data) none))
        rw [writeFullLoop]
        · have hcall : ({ dev with tx := .eintr :: script } : Device σ).Sent
              { dev.record (.write (b :: data) none) with tx := script } [] := .call rfl rfl
          exact ⟨sent, hcall.trans hattempt.writes, hattempt.part, hattempt.all, hattempt.none⟩
        · simp
      | error e =>
        rw [writeFullLoop]
        · exact ⟨[], .call rfl rfl, List.nil_prefix, fun hok => absurd hok Bool.false_ne_true,
            fun _ => rfl⟩
        · simp

private theorem writeZlpLoop_sent (os : Os σ) (script : List WriteOutcome) (dev : Device σ) :
    dev.Sent (writeZlpLoop os script dev).2 [] := by
  induction script generalizing dev with
  | nil => exact .call rfl rfl
  | cons outcome script ih =>
    cases outcome with
    | accept n => exact .call rfl rfl
    | eintr =>
      have hcall : dev.Sent (dev.record (.write [] none)) [] := .call rfl rfl
      exact hcall.trans (ih _)
    | error e => exact .call rfl rfl

private theorem writeLimitedLoop_attempt (os : Os σ) {fuel : ℕ} {data : Bytes} (dev : Device σ)
    (hfuel : data.length ≤ fuel) :
    ∃ sent, dev.Attempt (writeLimitedLoop os fuel data dev) data sent := by
  induction fuel generalizing data dev with
  | zero =>
    obtain rfl := List.length_eq_zero_iff.mp (Nat.le_zero.mp hfuel)
    exact ⟨[], .refl rfl, List.prefix_rfl, fun _ => rfl, fun _ => rfl⟩
  | succ fuel ih =>
    cases data with
    | nil => exact ⟨[], .refl rfl, List.prefix_rfl, fun _ => rfl, fun _ => rfl⟩
    | cons b data =>
      obtain ⟨sent, hslice⟩ : ∃ sent, dev.Attempt (writeFull os ((b :: data).take ioChunk) dev)
          ((b :: data).take ioChunk) sent := writeFullLoop_attempt os dev.tx _ dev
      rw [writeLimitedLoop]
      · rcases hrun : writeFull os ((b :: data).take ioChunk) dev with ⟨_ | _, dev₁⟩
        · rw [hrun] at hslice
          exact ⟨sent, hslice.writes, hslice.part.trans (List.take_prefix ..),
            fun hok => absurd hok Bool.false_ne_true, hslice.none⟩
        · rw [hrun] at hslice
          have hall := hslice.all rfl
          have hshorter : ((b :: data).drop ioChunk).length ≤ fuel := by
            rw [List.length_drop, ioChunk]
            omega
          obtain ⟨sent', hrest⟩ := ih dev₁ hshorter
          refine ⟨sent ++ sent', hslice.writes.trans hrest.writes, ?_, fun hok => ?_,
            fun hfails => ?_⟩
          · obtain ⟨rest, hrest'⟩ := hrest.part
            exact ⟨rest, by rw [hall, List.append_assoc, hrest', List.take_append_drop]⟩
          · rw [hall, hrest.all hok, List.take_append_drop]
          · -- the first slice is not empty, so it has not gone through
            rw [hslice.none hfails] at hall
            simp [ioChunk] at hall
      · simp

/-- What is accepted of a response. -/
private theorem writeFrame_sent (os : Os σ) (frame : Frame) (dev : Device σ) :
    ∃ sent, (dev.record (.sending frame)).Sent (writeFrame os frame dev).2 sent ∧
      sent <+: encodeFrame frame ∧ (firstWriteFails dev.tx = true → sent = []) := by
  obtain ⟨sent, hattempt⟩ := writeLimitedLoop_attempt os (dev.record (.sending frame))
    (le_refl (encodeFrame frame).length)
  refine ⟨sent, ?_, hattempt.part, hattempt.none⟩
  have hwrites := hattempt.writes
  rw [writeFrame, writeLimited]
  rcases hrun : writeLimitedLoop os (encodeFrame frame).length (encodeFrame frame)
    (dev.record (.sending frame)) with ⟨_ | _, dev₁⟩
  · rw [hrun] at hwrites
    exact hwrites
  · rw [hrun] at hwrites
    dsimp only
    split_ifs
    · have hzlp := hwrites.trans (writeZlpLoop_sent os dev₁.tx dev₁)
      rwa [List.append_nil] at hzlp
    · exact hwrites

/-- What a call of `handle_frame` adds to the log. -/
private theorem handleFrame_sent (os : Os σ) (shell : ExecShell σ) (frame : Frame)
    (dev : Device σ) :
    ∃ resp writes, (handleFrame os shell frame dev).2.log = dev.log ++ .sending resp :: writes ∧
      (∀ event ∈ writes, event.IsWrite) ∧ sentBytes writes <+: encodeFrame resp ∧
      (firstWriteFails dev.tx = true → sentBytes writes = []) := by
  obtain ⟨type, payload, dev', -, hsame, hr⟩ := handleFrame_responds os frame dev shell
  obtain ⟨sent, ⟨writes, hlog, hwrites, rfl⟩, hpart, hnone⟩ := writeFrame_sent os
    (responseFrame type frame.header.requestId payload) dev'
  rw [hsame.tx] at hnone
  refine ⟨responseFrame type frame.header.requestId payload, writes, ?_, hwrites, hpart, hnone⟩
  rw [hr, hlog, Device.record, hsame.log, List.append_assoc, List.singleton_append]

/-! ### Runs -/

/-- The input of a round that handles no request in a session in which a response was cut
off, unless the first `write` of its response fails. It is a condition on the state before
the round. -/
def StopsWhenCutOff (os : Os σ) (input : LoopInput) (st : LoopState σ) : Prop :=
  ∀ st' frame rt, receiving? input st = some st' →
    readFrameBuffered os st'.rt = some (some frame, rt) →
    CutOff encodeFrame (sessionResponses st'.rt.dev.log) → firstWriteFails st'.rt.dev.tx = true

theorem SessionAligned.nil : SessionAligned [] := ⟨rfl, by simp [sessionResponses], .nil⟩

/-- Silent events keep a session in step, since neither side has sent or received anything. -/
theorem SessionAligned.append_silent {dev dev' : Device σ} (h : SessionAligned dev.log)
    (hsilent : dev.Silent dev') : SessionAligned dev'.log := by
  obtain ⟨events, hlog, hevents⟩ := hsilent.log
  rw [hlog]
  obtain ⟨hresponses, hbytes⟩ | ⟨hresponses, hbytes⟩ := session_append_silent dev.log hevents
  · refine ⟨?_, ?_, ?_⟩
    · rw [hresponses, hbytes]
      exact h.bytes
    · rw [hresponses]
      exact h.part
    · rw [hresponses]
      exact h.aligned
  · refine ⟨?_, ?_, ?_⟩
    · rw [hresponses, hbytes]
      rfl
    · rw [hresponses]
      simp
    · rw [hresponses]
      exact .nil

/-- A response that is added to a session. -/
private theorem SessionAligned.append_response {log writes : List IoEvent} (h : SessionAligned log)
    (req : Frame) {resp : Frame} (hwrites : ∀ event ∈ writes, event.IsWrite)
    (hpart : sentBytes writes <+: encodeFrame resp)
    (hcut : CutOff encodeFrame (sessionResponses log) → sentBytes writes = []) :
    SessionAligned (log ++ .handling req :: .sending resp :: writes) := by
  obtain ⟨hresponses, hbytes⟩ := session_append_response log req resp hwrites
  refine ⟨?_, ?_, ?_⟩
  · rw [hresponses, hbytes, h.bytes, List.flatMap_append, List.flatMap_singleton]
  · rw [hresponses]
    intro t ht
    obtain ht | ht := List.mem_append.mp ht
    · exact h.part t ht
    · obtain rfl := List.mem_singleton.mp ht
      exact hpart
  · rw [hresponses]
    exact h.aligned.concat hcut

/-- **A round keeps the stream in step** when it sends nothing behind a response that was
cut off. -/
theorem ioStep_sessionAligned (os : Os σ) (shell : ExecShell σ) {input : LoopInput}
    {st : LoopState σ} (hstops : StopsWhenCutOff os input st) (h : SessionAligned st.rt.dev.log) :
    SessionAligned (ioStep os shell input st).state.rt.dev.log := by
  rcases hreceiving : receiving? input st with _ | st'
  · obtain hstate | ⟨r, st', -, hep0, hstate | hstate⟩ :=
      ioStep_of_not_receiving os shell hreceiving
    · rwa [hstate]
    · rw [hstate]
      exact h.append_silent (ep0Round_silent hep0)
    · rw [hstate]
      exact h.append_silent ((ep0Round_silent hep0).trans (closeEps_silent st'.rt))
  obtain ⟨r, -, hep0⟩ := exists_ep0Round_of_receiving hreceiving
  have hst' := h.append_silent (ep0Round_silent hep0)
  rw [ioStep_of_receiving os shell hreceiving, receiveRound]
  rcases hread : readFrameBuffered os st'.rt with _ | ⟨_ | frame, rt⟩
  · exact hst'
  · exact hst'.append_silent
      ((readFrameBuffered_afterReads hread).silent.trans (closeEps_silent rt))
  · have hreads := readFrameBuffered_afterReads hread
    have hrt : SessionAligned rt.dev.log := hst'.append_silent hreads.silent
    obtain ⟨resp, writes, hlog, hwrites, hpart, hnone⟩ := handleFrame_sent os shell frame
      (rt.record (.handling frame)).dev
    have htx : (rt.record (.handling frame)).dev.tx = st'.rt.dev.tx := hreads.tx
    dsimp only [StepResult.state]
    rw [hlog, Runtime.record, Device.record, List.append_assoc, List.singleton_append]
    refine hrt.append_response frame hwrites hpart fun hcut => hnone ?_
    rw [htx]
    refine hstops st' frame rt hreceiving hread ?_
    -- the reads of this round belong to the session they are made in
    obtain ⟨events, hevents, hsilent⟩ := hreads.silent.log
    rw [hevents] at hcut
    obtain ⟨hresponses, -⟩ | ⟨hresponses, -⟩ := session_append_silent st'.rt.dev.log hsilent
    · rwa [hresponses] at hcut
    · obtain ⟨t, ht, -⟩ := hresponses ▸ hcut
      exact absurd ht List.not_mem_nil

/-- **The bulk IN stream stays in step.** In every run in which, once a response was cut
off, the first `write` of every later response in the same session fails, the bytes the bulk
IN endpoint has accepted in the session are complete encoded responses followed by at most
one that was cut off, after which nothing is accepted. -/
theorem in_stream_aligned (os : Os σ) (shell : ExecShell σ) (cfg : Config) (s : σ)
    (tx : List WriteOutcome) (rx : List RxOutcome) (inputs : List LoopInput)
    (hstops : StepsMeet os shell (StopsWhenCutOff os) inputs (startState cfg s tx rx)) :
    let log := (runLoop os shell inputs (startState cfg s tx rx)).2.rt.dev.log
    SessionAligned log ∧ ∃ (full : List Frame) (rest : Bytes),
      sessionBytes log = full.flatMap encodeFrame ++ rest ∧
        (rest = [] ∨ ∃ frame, rest <+: encodeFrame frame) := by
  intro log
  have haligned : SessionAligned log :=
    hstops.induction (P := fun st => SessionAligned st.rt.dev.log)
      (fun _ _ hstops h => ioStep_sessionAligned os shell hstops h) .nil
  obtain ⟨full, rest, hbytes, hrest⟩ := haligned.aligned.exists_records haligned.part
  exact ⟨haligned, full, rest, haligned.bytes.trans hbytes, hrest⟩

/-- The state in which the loop is entered when the first response is to be cut off after
ten bytes; `later` are the outcomes of the writes after that. -/
def cutOffStart (later : List WriteOutcome) (rx : List RxOutcome) : LoopState Unit :=
  startState ⟨0, 0, 0⟩ () ([.accept 10, .error 5] ++ later) rx

/-- The endpoints are opened, and two requests are received. -/
def enableAndReadTwo : List LoopInput := enableAndRead ++ [.ready { outReadable := true }]

/-- `in_stream_aligned` for two `HELLO` requests: the first response is cut off, and no byte
of the second one is accepted. -/
theorem in_stream_aligned_hello :
    let log := (runLoop (Os.failing Unit) noShell enableAndReadTwo
      (cutOffStart [.error 5]
        [.data (encodeFrame helloFrame), .data (encodeFrame helloFrame)])).2.rt.dev.log
    SessionAligned log ∧ ∃ (full : List Frame) (rest : Bytes),
      sessionBytes log = full.flatMap encodeFrame ++ rest ∧
        (rest = [] ∨ ∃ frame, rest <+: encodeFrame frame) := by
  refine in_stream_aligned (Os.failing Unit) noShell ⟨0, 0, 0⟩ () _ _ enableAndReadTwo ?_
  refine .cons (fun st' frame rt hst' => by cases hst') fun st₁ hst₁ => ?_
  cases hst₁
  refine .cons (fun st' frame rt hst' _ hcut => ?_) fun st₂ hst₂ => ?_
  · -- nothing was sent before
    cases hst'
    obtain ⟨t, ht, -⟩ := hcut
    exact absurd ht List.not_mem_nil
  · obtain rfl := StepResult.next.inj hst₂
    refine .cons (fun st' frame rt hst' _ _ => ?_) fun st₃ _ => .nil st₃
    obtain rfl := Option.some.inj hst'
    decide +kernel

/-- The log of a session in which two `HELLO` requests are handled and the first response is
cut off. -/
def cutOffLog : List IoEvent :=
  (runLoop (Os.failing Unit) noShell enableAndReadTwo
    (cutOffStart [] [.data (encodeFrame helloFrame), .data (encodeFrame helloFrame)])).2.rt.dev.log

/-- **A response can begin in the middle of another one.** The response to the first of two
`HELLO` requests is cut off after ten bytes, and the second response is written behind it. -/
theorem not_in_stream_aligned :
    ¬∀ inputs : List LoopInput, SessionAligned (runLoop (Os.failing Unit) noShell inputs
      (cutOffStart [] [.data (encodeFrame helloFrame),
        .data (encodeFrame helloFrame)])).2.rt.dev.log := by
  intro hclaim
  have haligned : Aligned encodeFrame (sessionResponses cutOffLog) := (hclaim _).aligned
  have hlengths : (sessionResponses cutOffLog).map
      (fun t => (t.2.length, (encodeFrame t.1).length)) = [(10, 62), (62, 62)] := by
    decide +kernel
  obtain ⟨t, u, hresponses⟩ := List.length_eq_two.mp
    ((List.length_map _).symm.trans (congrArg List.length hlengths))
  rw [hresponses] at haligned hlengths
  simp only [List.map_cons, List.map_nil, List.cons.injEq, Prod.mk.injEq] at hlengths
  obtain ⟨⟨ht, hwhole⟩, ⟨hu, -⟩, -⟩ := hlengths
  have hcomplete := haligned.eq_whole (fun hnil => by simp [hnil] at ht)
    (fun hnil => by simp [hnil] at hu)
  rw [hcomplete, hwhole] at ht
  exact absurd ht (by decide)

end UsbResponder
