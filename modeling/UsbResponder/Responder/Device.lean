import UsbResponder.Protocol.Frame
import UsbResponder.System.Process

/-!
# Writing frames to the bulk IN endpoint

`io_utils.c` and the writing half of `protocol.c`: a frame is encoded and written in slices
of at most 16 KiB, each slice with as many `write` calls as it takes, and a zero-length
packet follows when the frame length is a multiple of 64.

What the `write` calls do is scripted: `tx` lists the outcomes of the calls to come, and a
call beyond the script takes all it is given. Everything the responder does on its endpoints
is recorded in order in `log`; the frames it begins to send are recorded too, where the
source logs `tx frame begin`. `sentBytes` are the bytes the endpoint has accepted.

The main result is `writeFrame_of_benign`: as long as no call fails, sending a frame adds
exactly its encoding to the bytes sent. Its proof is one lemma a loop, each by induction on
what the loop consumes, and `Device.Wrote` is the relation they compose in. What the calls
can do when they fail is only bounded here, by `Device.OnlyWrites`; the exact account is in
`Responder.FrameWrites`.

A `write` that blocks is not an outcome of the script. The side of the host is in
`Responder.Rendezvous`.
-/

namespace UsbResponder

variable {σ : Type}

/-- `USB_RESPONDER_IO_CHUNK`, the most a single `read` or slice of a `write` asks for. -/
def ioChunk : ℕ := 16 * 1024

/-- `usb_responder_config_t`, without the mount point and the verbosity. -/
structure Config where
  defaultTimeoutMs : UInt32
  maxStdout : UInt32
  maxStderr : UInt32
  deriving DecidableEq, Repr

/-- What a `write` does: it takes at most `n` of the bytes it is given, is interrupted, or
fails. It may take none. -/
inductive WriteOutcome
  | accept (n : ℕ)
  | eintr
  | error (e : Errno)
  deriving DecidableEq, Repr

/-- The files of the two bulk endpoints. The control endpoint is opened once and for all. -/
inductive Endpoint
  | epIn
  | epOut
  deriving DecidableEq, Repr

/-- The events FunctionFS reports on `ep0`. Only some of them make the loop do anything. -/
inductive Ep0Event
  | bind
  | unbind
  | enable
  | disable
  | setup
  | suspend
  | resume
  | other
  deriving DecidableEq, Repr

/-- What the responder does on its endpoints. Reads and writes are recorded with what they
have returned, frames where a function of the source begins or hands them on. -/
inductive IoEvent
  /-- An endpoint was opened. -/
  | opened (ep : Endpoint) (fd : ℕ)
  /-- An endpoint was closed. -/
  | closed (ep : Endpoint) (fd : ℕ)
  /-- An event was read from `ep0`. -/
  | ep0 (event : Ep0Event)
  /-- A `read` of the bulk OUT endpoint returned these bytes. -/
  | received (data : Bytes)
  /-- A frame is passed to `handle_frame`. -/
  | handling (frame : Frame)
  /-- A frame is about to be written to the bulk IN endpoint. -/
  | sending (frame : Frame)
  /-- A `write` on the bulk IN endpoint, with what it was given and the number of bytes it took,
  `none` when it failed or was interrupted. -/
  | write (data : Bytes) (accepted : Option ℕ)
  deriving DecidableEq, Repr

/-- The bytes of an event that the bulk IN endpoint accepted. A call that fails or is
interrupted has none. -/
def IoEvent.sentBytes : IoEvent → Bytes
  | .write data (some n) => data.take n
  | _ => []

/-- The bytes the bulk IN endpoint has accepted, in their order. Where one frame ends and
the next begins is not seen in them. -/
def sentBytes (log : List IoEvent) : Bytes := log.flatMap IoEvent.sentBytes

/-- The frame of an event that begins to send one. -/
def IoEvent.sentFrame? : IoEvent → Option Frame
  | .sending frame => some frame
  | _ => none

/-- The frames the responder began to send, also those of which a `write` has failed. -/
def sentFrames (log : List IoEvent) : List Frame := log.filterMap IoEvent.sentFrame?

/-- The frame of an event that passes one to `handle_frame`. -/
def IoEvent.handledFrame? : IoEvent → Option Frame
  | .handling frame => some frame
  | _ => none

/-- The frames passed to `handle_frame`, in their order. -/
def handledFrames (log : List IoEvent) : List Frame := log.filterMap IoEvent.handledFrame?

/-- The part of the responder that the handlers of requests work on: the process, the
configuration, the outcomes of the `write` calls to come, and the log. -/
structure Device (σ : Type) where
  cfg : Config
  proc : Proc σ
  /-- The outcomes of the next `write` calls on the bulk IN endpoint. -/
  tx : List WriteOutcome
  log : List IoEvent

/-- Record an event. Nothing that the responder does depends on the record. -/
def Device.record (dev : Device σ) (event : IoEvent) : Device σ :=
  { dev with log := dev.log ++ [event] }

/-- `usb_responder_set_last_error`. -/
def Device.setLastError (dev : Device σ) (msg : Bytes) : Device σ :=
  { dev with proc := dev.proc.setLastError msg }

/-! ### `io_utils.c` -/

/-- The loop of `usb_responder_write_full` on what is left of the data. An interrupted call
is made again, and a call that takes nothing is an error. -/
def writeFullLoop (os : Os σ) : List WriteOutcome → Bytes → Device σ → Bool × Device σ
  | script, [], dev => (true, { dev with tx := script })
  | [], data, dev => (true, { dev with tx := [] }.record (.write data (some data.length)))
  | .accept n :: script, data, dev =>
    let w := min n data.length
    let dev := dev.record (.write data (some w))
    if w = 0 then (false, { dev with tx := script }.setLastError (utf8 "write returned 0"))
    else writeFullLoop os script (data.drop w) dev
  | .eintr :: script, data, dev => writeFullLoop os script data (dev.record (.write data none))
  | .error e :: script, data, dev =>
    let dev := dev.record (.write data none)
    (false, { dev with tx := script, proc := dev.proc.setErrnoError os (utf8 "write") e })

/-- `usb_responder_write_full`: all of the data is written, or a call has failed. -/
def writeFull (os : Os σ) (data : Bytes) (dev : Device σ) : Bool × Device σ :=
  writeFullLoop os dev.tx data dev

/-- `usb_responder_bulk_in_needs_zlp`. The 64 is that of full speed, and is used at high
speed as well. -/
def bulkInNeedsZlp (nbytes : ℕ) : Bool := nbytes ≠ 0 && nbytes % 64 = 0

/-- The loop of `usb_responder_write_zlp`. A `write` of no bytes returns 0 unless it fails. -/
def writeZlpLoop (os : Os σ) : List WriteOutcome → Device σ → Bool × Device σ
  | [], dev => (true, { dev with tx := [] }.record (.write [] (some 0)))
  | .accept _ :: script, dev => (true, { dev with tx := script }.record (.write [] (some 0)))
  | .eintr :: script, dev => writeZlpLoop os script (dev.record (.write [] none))
  | .error e :: script, dev =>
    let dev := dev.record (.write [] none)
    (false, { dev with tx := script, proc := dev.proc.setErrnoError os (utf8 "bulk IN ZLP") e })

/-- `usb_responder_write_zlp`. It is a call of `write` with no data, made again when it is
interrupted. -/
def writeZlp (os : Os σ) (dev : Device σ) : Bool × Device σ := writeZlpLoop os dev.tx dev

/-! ### `protocol.c` -/

/-- The loop of `write_limited` on what is left of the data. Every round writes at least a
byte, so `fuel` from the length of the data on is never used up. -/
def writeLimitedLoop (os : Os σ) : ℕ → Bytes → Device σ → Bool × Device σ
  | _, [], dev => (true, dev)
  | 0, _, dev => (true, dev)
  | fuel + 1, data, dev =>
    match writeFull os (data.take ioChunk) dev with
    | (false, dev) => (false, dev)
    | (true, dev) => writeLimitedLoop os fuel (data.drop ioChunk) dev

/-- `write_limited`: slices of at most `ioChunk` bytes, each written in full before the
next. -/
def writeLimited (os : Os σ) (data : Bytes) (dev : Device σ) : Bool × Device σ :=
  match writeLimitedLoop os data.length data dev with
  | (false, dev) => (false, dev)
  | (true, dev) => if bulkInNeedsZlp data.length then writeZlp os dev else (true, dev)

/-- `usb_responder_protocol_write_frame`: the encoding of the frame, and a zero-length
packet behind it where one is due. -/
def writeFrame (os : Os σ) (frame : Frame) (dev : Device σ) : Bool × Device σ :=
  writeLimited os (encodeFrame frame) (dev.record (.sending frame))

/-! ### What writing leaves in the log -/

/-- An event that is a `write`, of data or of a zero-length packet. -/
def IoEvent.IsWrite : IoEvent → Prop
  | .write _ _ => True
  | _ => False

/-- Whatever the `write` calls do, writing data adds `write` events to the log, and changes
the process at most in its last error. -/
structure Device.OnlyWrites (dev dev' : Device σ) : Prop where
  cfg : dev'.cfg = dev.cfg
  sessions : dev'.proc.sessions = dev.proc.sessions
  os : dev'.proc.os = dev.proc.os
  log : ∃ writes, dev'.log = dev.log ++ writes ∧ ∀ event ∈ writes, event.IsWrite

/-- Nothing but the script of outcomes has changed. -/
private theorem Device.OnlyWrites.of_tx (dev : Device σ) (script : List WriteOutcome) :
    dev.OnlyWrites { dev with tx := script } :=
  ⟨rfl, rfl, rfl, [], (List.append_nil _).symm, by simp⟩

theorem Device.OnlyWrites.trans {dev₁ dev₂ dev₃ : Device σ} (h₁ : dev₁.OnlyWrites dev₂)
    (h₂ : dev₂.OnlyWrites dev₃) : dev₁.OnlyWrites dev₃ := by
  obtain ⟨writes₁, hlog₁, hwrites₁⟩ := h₁.log
  obtain ⟨writes₂, hlog₂, hwrites₂⟩ := h₂.log
  refine ⟨h₂.cfg.trans h₁.cfg, h₂.sessions.trans h₁.sessions, h₂.os.trans h₁.os,
    writes₁ ++ writes₂, by rw [hlog₂, hlog₁, List.append_assoc], ?_⟩
  intro event hevent
  exact (List.mem_append.mp hevent).elim (hwrites₁ event) (hwrites₂ event)

/-- One call of `write`. -/
private theorem Device.OnlyWrites.call (dev : Device σ) (data : Bytes) (accepted : Option ℕ) :
    dev.OnlyWrites (dev.record (.write data accepted)) :=
  ⟨rfl, rfl, rfl, [_], rfl, by simp [IoEvent.IsWrite]⟩

/-- One call of `write` after which the script and the last error are set. -/
private theorem Device.OnlyWrites.last (dev : Device σ) (data : Bytes) (accepted : Option ℕ)
    (script : List WriteOutcome) (lastError : Bytes) :
    dev.OnlyWrites { dev.record (.write data accepted) with
      tx := script, proc.lastError := lastError } :=
  ⟨rfl, rfl, rfl, [_], rfl, by simp [IoEvent.IsWrite]⟩

private theorem writeFullLoop_onlyWrites (os : Os σ) (script : List WriteOutcome) (data : Bytes)
    (dev : Device σ) : dev.OnlyWrites (writeFullLoop os script data dev).2 := by
  induction script generalizing data dev with
  | nil =>
    cases data with
    | nil => exact .of_tx dev []
    | cons b data => exact .last dev ..
  | cons outcome script ih =>
    cases data with
    | nil => exact .of_tx dev _
    | cons b data =>
      cases outcome with
      | accept n =>
        rw [writeFullLoop]
        · split_ifs
          · exact .last dev ..
          · exact .trans (.call dev ..) (ih _ _)
        · simp
      | eintr =>
        rw [writeFullLoop]
        · exact .trans (.call dev ..) (ih _ _)
        · simp
      | error e =>
        rw [writeFullLoop]
        · exact .last dev ..
        · simp

private theorem writeZlpLoop_onlyWrites (os : Os σ) (script : List WriteOutcome) (dev : Device σ) :
    dev.OnlyWrites (writeZlpLoop os script dev).2 := by
  induction script generalizing dev with
  | nil => exact .last dev ..
  | cons outcome script ih =>
    cases outcome with
    | accept n => exact .last dev ..
    | eintr => exact .trans (.call dev ..) (ih _)
    | error e => exact .last dev ..

private theorem writeLimitedLoop_onlyWrites (os : Os σ) (fuel : ℕ) (data : Bytes) (dev : Device σ) :
    dev.OnlyWrites (writeLimitedLoop os fuel data dev).2 := by
  induction fuel generalizing data dev with
  | zero => cases data <;> exact .of_tx dev dev.tx
  | succ fuel ih =>
    cases data with
    | nil => exact .of_tx dev dev.tx
    | cons b data =>
      have hfull : dev.OnlyWrites (writeFull os ((b :: data).take ioChunk) dev).2 :=
        writeFullLoop_onlyWrites ..
      rw [writeLimitedLoop]
      · rcases hrun : writeFull os ((b :: data).take ioChunk) dev with ⟨_ | _, dev₁⟩
        · rw [hrun] at hfull
          exact hfull
        · rw [hrun] at hfull
          exact hfull.trans (ih _ _)
      · simp

/-- Sending a frame records it and adds `write` events after it. -/
theorem writeFrame_onlyWrites (os : Os σ) (frame : Frame) (dev : Device σ) :
    (dev.record (.sending frame)).OnlyWrites (writeFrame os frame dev).2 := by
  have hloop := writeLimitedLoop_onlyWrites os (encodeFrame frame).length (encodeFrame frame)
    (dev.record (.sending frame))
  rw [writeFrame, writeLimited]
  rcases hrun : writeLimitedLoop os (encodeFrame frame).length (encodeFrame frame)
    (dev.record (.sending frame)) with ⟨_ | _, dev₁⟩
  · rw [hrun] at hloop
    exact hloop
  · rw [hrun] at hloop
    dsimp only
    split_ifs
    · exact hloop.trans (writeZlpLoop_onlyWrites ..)
    · exact hloop

/-! ### Writes that succeed -/

/-- A `write` that makes progress or is interrupted. One that takes nothing is an error to
the caller. -/
def WriteOutcome.Benign : WriteOutcome → Prop
  | .accept n => 0 < n
  | .eintr => True
  | .error _ => False

/-- No `write` to come fails. How much each of them takes, and how often it is interrupted,
is open. -/
def Device.Benign (dev : Device σ) : Prop := ∀ outcome ∈ dev.tx, outcome.Benign

/-- `dev'` is `dev` after nothing but `write` calls, none of which failed for good and which
together sent `data`. The outcomes used up are some at the front of the script. -/
structure Device.Wrote (dev dev' : Device σ) (data : Bytes) : Prop where
  cfg : dev'.cfg = dev.cfg
  proc : dev'.proc = dev.proc
  tx : dev'.tx <:+ dev.tx
  log : ∃ events, dev'.log = dev.log ++ events ∧ (∀ event ∈ events, event.IsWrite) ∧
    sentBytes events = data

theorem Device.Wrote.refl (dev : Device σ) : dev.Wrote dev [] :=
  ⟨rfl, rfl, List.suffix_rfl, [], by simp, by simp, rfl⟩

theorem sentBytes_append (log₁ log₂ : List IoEvent) :
    sentBytes (log₁ ++ log₂) = sentBytes log₁ ++ sentBytes log₂ := List.flatMap_append

theorem Device.Wrote.trans {dev₁ dev₂ dev₃ : Device σ} {data₁ data₂ : Bytes}
    (h₁ : dev₁.Wrote dev₂ data₁) (h₂ : dev₂.Wrote dev₃ data₂) :
    dev₁.Wrote dev₃ (data₁ ++ data₂) := by
  obtain ⟨events₁, hlog₁, hwrite₁, hsent₁⟩ := h₁.log
  obtain ⟨events₂, hlog₂, hwrite₂, hsent₂⟩ := h₂.log
  refine ⟨h₂.cfg.trans h₁.cfg, h₂.proc.trans h₁.proc, h₂.tx.trans h₁.tx, events₁ ++ events₂, ?_,
    ?_, ?_⟩
  · rw [hlog₂, hlog₁, List.append_assoc]
  · intro event hevent
    obtain h | h := List.mem_append.mp hevent
    · exact hwrite₁ event h
    · exact hwrite₂ event h
  · rw [sentBytes_append, hsent₁, hsent₂]

theorem Device.Wrote.benign {dev dev' : Device σ} {data : Bytes} (h : dev.Wrote dev' data)
    (hb : dev.Benign) : dev'.Benign := fun outcome ho => hb outcome (h.tx.subset ho)

/-- One `write` call, which uses up the first outcomes of the script. -/
private theorem Device.Wrote.call (dev : Device σ) (data : Bytes) (accepted : Option ℕ)
    {script script' : List WriteOutcome} (h : script' <:+ script) :
    ({ dev with tx := script } : Device σ).Wrote
      { dev.record (.write data accepted) with tx := script' }
      (IoEvent.sentBytes (.write data accepted)) where
  cfg := rfl
  proc := rfl
  tx := h
  log := ⟨[.write data accepted], rfl, by simp [IoEvent.IsWrite], by simp [UsbResponder.sentBytes]⟩

private theorem writeFullLoop_of_benign {os : Os σ} {script : List WriteOutcome}
    (h : ∀ outcome ∈ script, outcome.Benign) (data : Bytes) (dev : Device σ) :
    ∃ dev', writeFullLoop os script data dev = (true, dev') ∧
      ({ dev with tx := script } : Device σ).Wrote dev' data := by
  induction script generalizing data dev with
  | nil =>
    cases data with
    | nil => exact ⟨_, rfl, .refl _⟩
    | cons b data =>
      have hcall := Device.Wrote.call dev (b :: data) (some (b :: data).length)
        (List.suffix_refl [])
      rw [IoEvent.sentBytes, List.take_length] at hcall
      exact ⟨_, rfl, hcall⟩
  | cons outcome script ih =>
    have hrest : ∀ o ∈ script, o.Benign := fun o ho => h o (by simp [ho])
    cases data with
    | nil => exact ⟨_, rfl, .refl _⟩
    | cons b data =>
      cases houtcome : outcome with
      | accept n =>
        -- a benign call takes a byte at least, and the rest of the script writes what is left
        have hpos : 0 < n := by simpa [houtcome, WriteOutcome.Benign] using h outcome (by simp)
        obtain ⟨dev', hrun, hwrote⟩ := ih hrest ((b :: data).drop (min n (b :: data).length))
          (dev.record (.write (b :: data) (some (min n (b :: data).length))))
        have hw : min n (b :: data).length ≠ 0 := by simp; omega
        refine ⟨dev', ?_, ?_⟩
        · rw [writeFullLoop]
          · simp only [hw, if_false, hrun]
          · simp
        · have hcall := Device.Wrote.call dev (b :: data) (some (min n (b :: data).length))
            (List.suffix_cons (.accept n) script)
          rw [IoEvent.sentBytes] at hcall
          have := hcall.trans hwrote
          rwa [List.take_append_drop] at this
      | eintr =>
        obtain ⟨dev', hrun, hwrote⟩ := ih hrest (b :: data)
          (dev.record (.write (b :: data) none))
        refine ⟨dev', ?_, ?_⟩
        · rw [writeFullLoop]
          · exact hrun
          · simp
        · have hcall := Device.Wrote.call dev (b :: data) none
            (List.suffix_cons .eintr script)
          exact hcall.trans hwrote
      | error e => exact absurd (h outcome (by simp)) (by simp [houtcome, WriteOutcome.Benign])

private theorem writeFull_of_benign {dev : Device σ} (h : dev.Benign) (os : Os σ) (data : Bytes) :
    ∃ dev', writeFull os data dev = (true, dev') ∧ dev.Wrote dev' data :=
  writeFullLoop_of_benign h data dev

private theorem writeZlpLoop_of_benign (os : Os σ) {script : List WriteOutcome}
    (h : ∀ outcome ∈ script, outcome.Benign) (dev : Device σ) :
    ∃ dev', writeZlpLoop os script dev = (true, dev') ∧
      ({ dev with tx := script } : Device σ).Wrote dev' [] := by
  induction script generalizing dev with
  | nil => exact ⟨_, rfl, Device.Wrote.call _ [] (some 0) List.suffix_rfl⟩
  | cons outcome script ih =>
    cases houtcome : outcome with
    | accept n =>
      exact ⟨_, rfl, Device.Wrote.call _ [] (some 0) (List.suffix_cons ..)⟩
    | eintr =>
      obtain ⟨dev', hrun, hwrote⟩ := ih (fun o ho => h o (by simp [ho]))
        (dev.record (.write [] none))
      have hcall := Device.Wrote.call dev [] none (List.suffix_cons .eintr script)
      exact ⟨dev', hrun, hcall.trans hwrote⟩
    | error e => exact absurd (h outcome (by simp)) (by simp [houtcome, WriteOutcome.Benign])

private theorem writeLimitedLoop_of_benign (os : Os σ) {fuel : ℕ} (data : Bytes) {dev : Device σ}
    (h : dev.Benign) (hfuel : data.length ≤ fuel) :
    ∃ dev', writeLimitedLoop os fuel data dev = (true, dev') ∧ dev.Wrote dev' data := by
  induction fuel generalizing data dev with
  | zero =>
    obtain rfl := List.length_eq_zero_iff.mp (Nat.le_zero.mp hfuel)
    exact ⟨dev, by rw [writeLimitedLoop], .refl dev⟩
  | succ fuel ih =>
    cases data with
    | nil => exact ⟨dev, by rw [writeLimitedLoop], .refl dev⟩
    | cons b data =>
      obtain ⟨dev₁, hrun, hwrote⟩ := writeFull_of_benign h os ((b :: data).take ioChunk)
      obtain ⟨dev₂, hrun', hwrote'⟩ := ih ((b :: data).drop ioChunk) (hwrote.benign h) (by
        rw [List.length_drop, ioChunk]
        omega)
      refine ⟨dev₂, ?_, ?_⟩
      · rw [writeLimitedLoop]
        · simp only [hrun, hrun']
        · simp
      · have := hwrote.trans hwrote'
        rwa [List.take_append_drop] at this

/-- **Sending a frame.** When no `write` fails, sending a frame records it and adds exactly
its encoding to the bytes sent. -/
theorem writeFrame_of_benign {dev : Device σ} (h : dev.Benign) (os : Os σ) (frame : Frame) :
    ∃ dev', writeFrame os frame dev = (true, dev') ∧
      (dev.record (.sending frame)).Wrote dev' (encodeFrame frame) := by
  obtain ⟨dev₁, hrun, hwrote⟩ := writeLimitedLoop_of_benign os (encodeFrame frame)
    (show (dev.record (.sending frame)).Benign from h) (le_refl _)
  rw [writeFrame, writeLimited, hrun]
  dsimp only
  split_ifs with hzlp
  · obtain ⟨dev₂, hrun', hwrote'⟩ := writeZlpLoop_of_benign os (hwrote.benign h) dev₁
    have := hwrote.trans hwrote'
    rw [List.append_nil] at this
    exact ⟨dev₂, hrun', this⟩
  · exact ⟨dev₁, rfl, hwrote⟩

end UsbResponder
