import UsbResponder.Responder.Reassembly
import UsbResponder.Responder.Responses

/-!
# Rounds that receive

What a round of the I/O loop does to the receive buffer. A round calls `read_frame_buffered`
at most once, in the state its events have left (`receiving?`), and what a receive reads
goes to the end of the buffer while the frame it returns comes off the front
(`readFrameBuffered_taken`). So the buffer is at any time the end of the stream of bytes
read, and the bytes of a frame are known by their place in that stream.

Properties that need the inputs of every round to meet a condition are lifted to runs by
`StepsMeet.induction`. The condition may look at the state a round starts from, which is
what a claim about the session so far needs; with a condition that is always met this is
`runLoop_induction`.

The splitting of a round at its receive is shared by the modules on the receive buffer and
on the stream of responses. Nothing here depends on what the handlers do.
-/

namespace UsbResponder

open LittleEndian

variable {σ : Type}

/-! ### Runs whose steps meet a condition -/

/-- Every round of a run starts from an input and a state that meet the condition. A run
that has ended has no further rounds. -/
def StepsMeet (os : Os σ) (shell : ExecShell σ) (C : LoopInput → LoopState σ → Prop)
    (inputs : List LoopInput) (st : LoopState σ) : Prop :=
  ∀ done input, done ++ [input] <+: inputs → (runLoop os shell done st).1 = true →
    C input (runLoop os shell done st).2

section StepsMeet

variable {os : Os σ} {shell : ExecShell σ} {C : LoopInput → LoopState σ → Prop}
  {input : LoopInput} {inputs : List LoopInput} {st st' : LoopState σ}

theorem StepsMeet.head (h : StepsMeet os shell C (input :: inputs) st) : C input st :=
  h [] input (List.prefix_append [input] inputs) rfl

theorem StepsMeet.nil (st : LoopState σ) : StepsMeet os shell C [] st := by
  intro done input hdone
  simp at hdone

private theorem runLoop_cons_of_next (hnext : ioStep os shell input st = .next st') :
    runLoop os shell (input :: inputs) st = runLoop os shell inputs st' := by
  rw [runLoop, hnext]

theorem StepsMeet.tail (h : StepsMeet os shell C (input :: inputs) st)
    (hnext : ioStep os shell input st = .next st') : StepsMeet os shell C inputs st' := by
  intro done input' hdone hpolls
  have hstep := h (input :: done) input' ((List.prefix_cons_inj input).mpr hdone)
  rw [runLoop_cons_of_next hnext] at hstep
  exact hstep hpolls

theorem StepsMeet.cons (h : C input st)
    (htail : ∀ st', ioStep os shell input st = .next st' → StepsMeet os shell C inputs st') :
    StepsMeet os shell C (input :: inputs) st := by
  rintro (_ | ⟨input₁, done⟩) input' hdone hpolls
  · obtain ⟨rfl, -⟩ := List.cons_prefix_cons.mp hdone
    exact h
  obtain ⟨rfl, hdone'⟩ := List.cons_prefix_cons.mp hdone
  rcases hresult : ioStep os shell input₁ st with st' | st' | st'
  · rw [runLoop_cons_of_next hresult] at hpolls ⊢
    exact htail st' hresult done input' hdone' hpolls
  · simp [runLoop, hresult] at hpolls
  · simp [runLoop, hresult] at hpolls

/-- **Invariants under a condition.** What every round preserves whose input and state meet
the condition holds after every run whose rounds meet it. -/
theorem StepsMeet.induction {P : LoopState σ → Prop}
    (hstep : ∀ input st, C input st → P st → P (ioStep os shell input st).state)
    (hmeets : StepsMeet os shell C inputs st) (h : P st) : P (runLoop os shell inputs st).2 := by
  induction inputs generalizing st with
  | nil => exact h
  | cons input inputs ih =>
    have hnext := hstep input st hmeets.head h
    rcases hresult : ioStep os shell input st with st' | st' | st'
    · rw [hresult] at hnext
      rw [runLoop_cons_of_next hresult]
      exact ih (hmeets.tail hresult) hnext
    · rw [hresult] at hnext
      rw [runLoop, hresult]
      exact hnext
    · rw [hresult] at hnext
      rw [runLoop, hresult]
      exact hnext

/-- A run up to a round, and that round. -/
theorem runLoop_concat (hpolls : (runLoop os shell inputs st).1 = true) (input : LoopInput) :
    (runLoop os shell (inputs ++ [input]) st).2 =
      (ioStep os shell input (runLoop os shell inputs st).2).state := by
  induction inputs generalizing st with
  | nil =>
    have hdone : (runLoop os shell [] st).2 = st := rfl
    rw [List.nil_append, hdone, runLoop]
    rcases ioStep os shell input st with st' | st' | st' <;> rfl
  | cons input' inputs ih =>
    rw [List.cons_append]
    rcases hresult : ioStep os shell input' st with st' | st' | st'
    · rw [runLoop_cons_of_next hresult] at hpolls ⊢
      rw [runLoop_cons_of_next hresult]
      exact ih hpolls
    · simp [runLoop, hresult] at hpolls
    · simp [runLoop, hresult] at hpolls

end StepsMeet

/-! ### The round up to the receive -/

/-- The state in which a round calls `read_frame_buffered`, if it does: the events have been
processed, and the endpoints are open. -/
def receiving? (input : LoopInput) (st : LoopState σ) : Option (LoopState σ) :=
  match input with
  | .ready r =>
    (ep0Round r st).filter fun st' =>
      st'.enabled && (st.enabled && st.rt.epOut.isSome) && r.outReadable
  | _ => none

theorem exists_ep0Round_of_receiving {input : LoopInput} {st st' : LoopState σ}
    (h : receiving? input st = some st') :
    ∃ r, input = .ready r ∧ ep0Round r st = some st' := by
  rcases input with _ | _ | r
  · simp [receiving?] at h
  · simp [receiving?] at h
  · exact ⟨r, rfl, (Option.filter_eq_some_iff.mp h).1⟩

/-- A round that receives does nothing else after its events. -/
theorem ioStep_of_receiving (os : Os σ) (shell : ExecShell σ) {input : LoopInput}
    {st st' : LoopState σ} (h : receiving? input st = some st') :
    ioStep os shell input st = receiveRound os shell st' := by
  rcases input with _ | _ | r
  · simp [receiving?] at h
  · simp [receiving?] at h
  obtain ⟨hep0, hreceives⟩ := Option.filter_eq_some_iff.mp h
  rw [ioStep]
  simp only [hep0]
  exact if_pos hreceives

/-- A round that does not receive ends as it began, after its events, or with the endpoints
closed. -/
theorem ioStep_of_not_receiving (os : Os σ) (shell : ExecShell σ) {input : LoopInput}
    {st : LoopState σ} (h : receiving? input st = none) :
    (ioStep os shell input st).state = st ∨ ∃ r st', input = .ready r ∧
      ep0Round r st = some st' ∧ ((ioStep os shell input st).state = st' ∨
        (ioStep os shell input st).state = st'.disabled st'.rt) := by
  rcases input with _ | _ | r
  · exact .inl rfl
  · exact .inl rfl
  rw [ioStep]
  rcases hep0 : ep0Round r st with _ | st'
  · exact .inl rfl
  refine .inr ⟨r, st', rfl, hep0, ?_⟩
  have hreceives :
      (st'.enabled && (st.enabled && st.rt.epOut.isSome) && r.outReadable) = false := by
    simpa [receiving?, hep0, Option.filter_some] using h
  dsimp only
  rw [hreceives, if_neg Bool.false_ne_true]
  split_ifs
  · exact .inr rfl
  · exact .inl rfl

/-! ### What a receive reads -/

/-- The bytes of an event that were read from the bulk OUT endpoint. -/
def IoEvent.receivedBytes : IoEvent → Bytes
  | .received data => data
  | _ => []

/-- The bytes read from the bulk OUT endpoint, in the order in which they were read. -/
def receivedBytes (log : List IoEvent) : Bytes := log.flatMap IoEvent.receivedBytes

theorem receivedBytes_append (log₁ log₂ : List IoEvent) :
    receivedBytes (log₁ ++ log₂) = receivedBytes log₁ ++ receivedBytes log₂ := List.flatMap_append

theorem receivedBytes_reads (reads : List Bytes) :
    receivedBytes (reads.map IoEvent.received) = reads.flatten := by
  rw [receivedBytes, List.flatMap_map]
  exact List.flatMap_id

/-- Where the frame at the front of the buffer ends, as far as its header tells. Whether the
header is one to be accepted is not asked. -/
def frameEnd (buf : Bytes) : ℕ := headerSize + (readLe32 (buf.drop 16)).toNat

/-- The buffer holds a complete frame: its header, and as many bytes as the header
announces. -/
def HoldsFrame (buf : Bytes) : Prop := headerSize ≤ buf.length ∧ frameEnd buf ≤ buf.length

instance (buf : Bytes) : Decidable (HoldsFrame buf) := inferInstanceAs (Decidable (_ ∧ _))

/-- `rt'` is `rt` after the calls of `read` that returned `reads`. -/
structure Runtime.Read (rt rt' : Runtime σ) (reads : List Bytes) : Prop where
  buf : rt'.rxBuf = rt.rxBuf ++ reads.flatten
  log : rt'.dev.log = rt.dev.log ++ reads.map IoEvent.received
  rx : pieces rt.rx = reads ++ pieces rt'.rx

theorem Runtime.Read.refl (rt : Runtime σ) : rt.Read rt [] :=
  ⟨(List.append_nil _).symm, (List.append_nil _).symm, rfl⟩

theorem Runtime.Read.trans {rt₁ rt₂ rt₃ : Runtime σ} {reads₁ reads₂ : List Bytes}
    (h₁ : rt₁.Read rt₂ reads₁) (h₂ : rt₂.Read rt₃ reads₂) : rt₁.Read rt₃ (reads₁ ++ reads₂) where
  buf := by rw [h₂.buf, h₁.buf, List.flatten_append, List.append_assoc]
  log := by rw [h₂.log, h₁.log, List.map_append, List.append_assoc]
  rx := by rw [h₁.rx, h₂.rx, List.append_assoc]

section Read

variable {os : Os σ} {rt rt' : Runtime σ} {ok : Bool}

/-- One call of `rx_read_some` reads at most once. -/
private theorem rxReadLoop_read {script : List RxOutcome}
    (h : rxReadLoop os script rt = some (ok, rt')) :
    ∃ reads, ({ rt with rx := script } : Runtime σ).Read rt' reads ∧ reads.length ≤ 1 := by
  induction script generalizing rt with
  | nil => simp [rxReadLoop] at h
  | cons outcome script ih =>
    -- an outcome without data ends the call or is waited out
    have hnone : ∀ rt'' : Runtime σ, rt''.rxBuf = rt.rxBuf → rt''.dev.log = rt.dev.log →
        pieces (outcome :: script) = pieces rt''.rx →
        ∃ reads, ({ rt with rx := outcome :: script } : Runtime σ).Read rt'' reads ∧
          reads.length ≤ 1 :=
      fun rt'' hbuf hlog hrx => ⟨[], ⟨by simpa using hbuf, by simpa using hlog, hrx⟩, by simp⟩
    have hagain : pieces (outcome :: script) = pieces script →
        rxReadLoop os script rt = some (ok, rt') →
        ∃ reads, ({ rt with rx := outcome :: script } : Runtime σ).Read rt' reads ∧
          reads.length ≤ 1 := by
      intro hrx h
      obtain ⟨reads, hread, hone⟩ := ih h
      exact ⟨reads, ⟨hread.buf, hread.log, hrx.trans hread.rx⟩, hone⟩
    cases outcome with
    | pollTimeout => exact hagain rfl h
    | pollEintr => exact hagain rfl h
    | readEintr => exact hagain rfl h
    | pollError e =>
      obtain ⟨-, rfl⟩ := Prod.mk.inj (Option.some.inj h)
      exact hnone _ rfl rfl rfl
    | pollHangup =>
      obtain ⟨-, rfl⟩ := Prod.mk.inj (Option.some.inj h)
      exact hnone _ rfl rfl rfl
    | readError e =>
      obtain ⟨-, rfl⟩ := Prod.mk.inj (Option.some.inj h)
      exact hnone _ rfl rfl rfl
    | data bytes =>
      rw [rxReadLoop] at h
      dsimp only at h
      refine ⟨[bytes], ?_, le_refl 1⟩
      split_ifs at h with hempty
      · obtain ⟨-, rfl⟩ := Prod.mk.inj (Option.some.inj h)
        exact ⟨by simp [hempty, Runtime.setLastError, Runtime.record], rfl, rfl⟩
      · obtain ⟨-, rfl⟩ := Prod.mk.inj (Option.some.inj h)
        exact ⟨by simp [Runtime.record], rfl, rfl⟩

/-- A refill reads as often as the buffer is too short, and no more. So the last read is the
one that completes what was asked for. -/
private theorem rxFill_read {n fuel : ℕ} (h : rxFill os n fuel rt = some (ok, rt')) :
    ∃ reads, rt.Read rt' reads ∧ (ok = true → n ≤ rt'.rxBuf.length) ∧
      ∀ j < reads.length, (rt.rxBuf ++ (reads.take j).flatten).length < n := by
  induction fuel generalizing rt with
  | zero => simp [rxFill] at h
  | succ fuel ih =>
    rw [rxFill] at h
    split_ifs at h with hshort
    · rcases hread : rxReadSome os rt with _ | ⟨ok₁, rt₁⟩
      · simp [hread] at h
      obtain ⟨first, hfirst, hone⟩ := rxReadLoop_read hread
      rw [hread] at h
      cases ok₁ with
      | false =>
        obtain ⟨rfl, rfl⟩ := Prod.mk.inj (Option.some.inj h)
        refine ⟨first, hfirst, fun hok => absurd hok Bool.false_ne_true, ?_⟩
        intro j hj
        obtain rfl : j = 0 := by omega
        simpa using hshort
      | true =>
        obtain ⟨reads, hreads, hlong, hminimal⟩ := ih h
        refine ⟨first ++ reads, hfirst.trans hreads, hlong, ?_⟩
        intro j hj
        rw [List.length_append] at hj
        by_cases hj' : j < first.length
        · obtain rfl : j = 0 := by omega
          simpa using hshort
        · -- the later reads are made with what the first one has added
          have hrest := hminimal (j - first.length) (by omega)
          have hbuf : rt₁.rxBuf = rt.rxBuf ++ first.flatten := hfirst.buf
          rw [hbuf] at hrest
          rwa [List.take_append, List.take_of_length_le (not_lt.mp hj'), List.flatten_append,
            ← List.append_assoc]
    · obtain ⟨-, rfl⟩ := Prod.mk.inj (Option.some.inj h)
      exact ⟨[], .refl rt, fun _ => not_lt.mp hshort, fun j hj => absurd hj (Nat.not_lt_zero j)⟩

/-- More bytes behind a header leave it as it is. -/
private theorem frameEnd_append {buf : Bytes} (h : headerSize ≤ buf.length) (more : Bytes) :
    frameEnd (buf ++ more) = frameEnd buf := by
  have hheader : readHeader (buf ++ more) = readHeader buf := by
    rw [← readHeader_take (by rw [List.length_append]; omega),
      List.take_append_of_le_length h, readHeader_take h]
  exact congrArg (fun header => headerSize + header.payloadLen.toNat) hheader

/-- **What a receive takes.** A receive that returns a frame has read until the buffer held
a complete frame and no further, and the frame is what it has taken off the front of the
buffer. -/
theorem readFrameBuffered_taken {frame : Frame}
    (h : readFrameBuffered os rt = some (some frame, rt')) :
    ∃ reads : List Bytes, rt'.dev.log = rt.dev.log ++ reads.map IoEvent.received ∧
      pieces rt.rx = reads ++ pieces rt'.rx ∧
      encodeFrame frame = (rt.rxBuf ++ reads.flatten).take (frameEnd (rt.rxBuf ++ reads.flatten)) ∧
      rt'.rxBuf = (rt.rxBuf ++ reads.flatten).drop (frameEnd (rt.rxBuf ++ reads.flatten)) ∧
      HoldsFrame (rt.rxBuf ++ reads.flatten) ∧
      ∀ j < reads.length, ¬HoldsFrame (rt.rxBuf ++ (reads.take j).flatten) := by
  rw [readFrameBuffered] at h
  rcases hfill : rxFill os headerSize (rt.rx.length + 1) rt with _ | ⟨_ | _, rt₁⟩
  · simp [hfill] at h
  · simp [hfill] at h
  obtain ⟨reads₁, hread₁, hlong₁, hminimal₁⟩ := rxFill_read hfill
  simp only [hfill] at h
  split_ifs at h
  · simp at h
  · simp at h
  rw [show headerSize + (readLe32 (rt₁.rxBuf.drop 16)).toNat = frameEnd rt₁.rxBuf from rfl] at h
  rcases hfill₂ : rxFill os (frameEnd rt₁.rxBuf) (rt₁.rx.length + 1) rt₁ with _ | ⟨_ | _, rt₂⟩
  · simp [hfill₂] at h
  · simp [hfill₂] at h
  obtain ⟨reads₂, hread₂, hlong₂, hminimal₂⟩ := rxFill_read hfill₂
  rw [hfill₂] at h
  dsimp only at h
  rcases hdecode : decodeFrame (rt₂.rxBuf.take (frameEnd rt₁.rxBuf)) with _ | frame'
  · simp [hdecode] at h
  rw [hdecode] at h
  obtain ⟨rfl, rfl⟩ : frame' = frame ∧ _ = rt' := by simpa using h
  have hreads := hread₁.trans hread₂
  have hend : frameEnd rt₂.rxBuf = frameEnd rt₁.rxBuf := by
    rw [hread₂.buf, frameEnd_append (hlong₁ rfl)]
  refine ⟨reads₁ ++ reads₂, hreads.log, hreads.rx, ?_, ?_, ?_, ?_⟩
  · rw [← hreads.buf, hend]
    exact encodeFrame_of_decodeFrame hdecode
  · rw [← hreads.buf, hend]
  · rw [← hreads.buf, HoldsFrame, hend]
    exact ⟨(hlong₁ rfl).trans (by rw [hread₂.buf, List.length_append]; omega), hlong₂ rfl⟩
  · -- up to the header the buffer is too short for one, after it too short for the frame
    intro j hj
    rw [List.length_append] at hj
    by_cases hj' : j < reads₁.length
    · have hshort := hminimal₁ j hj'
      rw [List.take_append_of_le_length hj'.le]
      exact fun hholds => absurd hholds.1 (not_le.mpr hshort)
    · have hshort := hminimal₂ (j - reads₁.length) (by omega)
      rw [List.take_append, List.take_of_length_le (not_lt.mp hj'), List.flatten_append,
        ← List.append_assoc, ← hread₁.buf]
      intro hholds
      rw [HoldsFrame, frameEnd_append (hlong₁ rfl)] at hholds
      exact absurd hholds.2 (not_le.mpr hshort)

end Read

end UsbResponder
