import UsbResponder.Base.BulkTransfer
import UsbResponder.Host.Client
import UsbResponder.Responder.Reassembly
import UsbResponder.Responder.Responses

/-!
# Requests as the host transfers them

`_send_frame` writes a frame in slices of 16 KiB and closes the transfer with a zero-length
packet when the frame length is a multiple of the packet size; `rx_read_some` reads 16 KiB
at a time and takes a read of no bytes for the end of the stream. A zero-length packet is
part of the last read of its frame, unless that read was full already. So a frame whose
length is a multiple of 16 KiB is followed by a read of no bytes, and the next round of the
loop closes the endpoints.

`host_frames_handled_iff` says that this is the only way in which the frames of the host
break the session: it survives exactly when no frame length is a multiple of 16 KiB.

What the reads return is the general result about bulk transfers, and what a round makes of
them is `ioStep_of_request`. The state between two frames is described by
`LoopState.Expects`: an empty buffer, and reads to come that are those of the frames, with
time-outs and interrupted calls between them. One frame takes it to the state that expects
the others (`LoopState.Expects.step`), or leaves an empty read at the front, which is the
end.

Frames are taken as the client sends them, one transfer each; a host that puts two frames
into one transfer is treated in `Responder.Reassembly`.
-/

namespace UsbResponder

open BulkTransfer

variable {σ : Type}

/-! ### What the device reads of a host's frames -/

namespace Host

/-- What the device's reads of 16 KiB return of a frame: full ones and a shorter last one,
or an empty one at the end. -/
def Frame.reads (f : Frame) : List Bytes := transferReads ioChunk f.raw.length f.raw

/-- The writes of a frame are the requests of a transfer. -/
theorem sendWrites_eq (wMaxPacketSize : ℕ) (raw : Bytes) :
    sendWrites wMaxPacketSize raw = transferWrites ioChunk wMaxPacketSize raw := by
  have hexact : ∀ (fuel : ℕ) (data : Bytes), writeExact fuel data = slices ioChunk fuel data := by
    intro fuel
    induction fuel with
    | zero =>
      intro data
      cases data <;> rfl
    | succ fuel ih =>
      intro data
      cases data with
      | nil => rfl
      | cons b data => exact congrArg (_ :: ·) (ih _)
  rw [sendWrites, transferWrites, hexact]

/-- Frames that are sent without an exception have fields that fit, and the device reads
them one after another. -/
theorem reads_of_sendFrames {mps : ℕ} (hmps : mps = 64 ∨ mps = 512) {frames : List Frame}
    {writes : List Bytes} (h : sendFrames mps frames = .ok writes) :
    (∀ f ∈ frames, f.type < 2 ^ 16 ∧ f.flags < 2 ^ 32 ∧ f.requestId < 2 ^ 32) ∧
      reads ioChunk mps [] (writes.flatMap (packets mps)) = frames.flatMap Frame.reads := by
  have hpos : 0 < mps := by omega
  have hdvd : mps ∣ ioChunk := by
    obtain rfl | rfl := hmps
    · decide
    · decide
  induction frames generalizing writes with
  | nil =>
    obtain rfl : [] = writes := Except.ok.inj h
    exact ⟨by simp, rfl⟩
  | cons f fs ih =>
    rw [sendFrames, sendFrame] at h
    cases hraw : f.encode with
    | error e =>
      rw [hraw] at h
      exact absurd h (by simp [bind, Except.bind])
    | ok raw =>
      cases hrest : sendFrames mps fs with
      | error e =>
        rw [hraw, hrest] at h
        exact absurd h (by simp [bind, Except.bind, pure, Except.pure])
      | ok rest =>
        rw [hraw, hrest] at h
        -- an exception at any frame would have left no writes
        obtain rfl : sendWrites mps raw ++ rest = writes := Except.ok.inj h
        obtain ⟨htype, hflags, hid, -, hwire⟩ := Frame.encode_eq_ok_iff.mp hraw
        obtain ⟨hfit, hreads⟩ := ih hrest
        constructor
        · intro g hg
          obtain rfl | hg := List.mem_cons.mp hg
          · exact ⟨htype, hflags, hid⟩
          · exact hfit g hg
        · rw [sendWrites_eq, List.flatMap_append,
            reads_transferWrites hpos (by decide) hdvd, hreads, List.flatMap_cons, Frame.reads,
            show f.raw = raw from hwire.symm]

/-- A single frame is sent as its own writes. -/
theorem sendFrames_singleton {f : Frame} (h : f.encode = .ok f.raw) (mps : ℕ) :
    sendFrames mps [f] = .ok (sendWrites mps f.raw ++ []) := by
  rw [sendFrames, sendFrame, h]
  rfl

/-- At the front of a stream the device finds a frame that was sent. -/
theorem Frame.next_raw {f : Frame} (hfit : f.type < 2 ^ 16 ∧ f.flags < 2 ^ 32 ∧
    f.requestId < 2 ^ 32) (hmax : f.payload.length ≤ maxPayload) :
    requestFormat.next f.raw = .item f.toDevice [] ∧ Frame.ofDevice f.toDevice = f := by
  obtain ⟨htype, hflags, hid⟩ := hfit
  have htype' : (UInt16.ofNat f.type).toNat = f.type := UInt16.toNat_ofNat_of_lt' htype
  have hflags' : (UInt32.ofNat f.flags).toNat = f.flags := UInt32.toNat_ofNat_of_lt' hflags
  have hid' : (UInt32.ofNat f.requestId).toNat = f.requestId := UInt32.toNat_ofNat_of_lt' hid
  refine ⟨?_, Frame.ofDevice_toDevice htype hflags hid⟩
  have hnext := requestFormat_next_wire (UInt16.ofNat f.type) (UInt32.ofNat f.flags)
    (UInt32.ofNat f.requestId) hmax []
  rwa [htype', hflags', hid', List.append_nil] at hnext

end Host

/-! ### Rounds in which only the bulk OUT endpoint is ready -/

/-- A round in which the bulk OUT endpoint is readable and nothing else is reported. -/
def readable : LoopInput := .ready { outReadable := true }

/-- The state after `n` such rounds. -/
def afterRounds (os : Os σ) (shell : ExecShell σ) (n : ℕ) (st : LoopState σ) : LoopState σ :=
  (runLoop os shell (List.replicate n readable) st).2

/-- The endpoints are enabled and open, as they are while a session lasts. -/
structure LoopState.Connected (st : LoopState σ) : Prop where
  enabled : st.enabled = true
  epIn : st.rt.epIn.isSome
  epOut : st.rt.epOut.isSome

/-- An outcome that delivers bytes, if only none, or makes the responder try again. Errors
of the endpoint are no such outcomes. -/
def RxOutcome.Quiet : RxOutcome → Prop
  | .data _ | .pollTimeout | .pollEintr | .readEintr => True
  | .pollError _ | .pollHangup | .readError _ => False

/-- Quiet outcomes whose pieces are those of a delivery deliver them. -/
theorem delivers_of_quiet {script : List RxOutcome} (hquiet : ∀ outcome ∈ script, outcome.Quiet)
    (hpieces : ∀ piece ∈ pieces script, piece ≠ [] ∧ piece.length ≤ ioChunk) :
    ∀ outcome ∈ script, outcome.Delivers := by
  intro outcome houtcome
  have hq := hquiet outcome houtcome
  cases outcome with
  | data bytes => exact hpieces bytes (List.mem_filterMap.mpr ⟨_, houtcome, rfl⟩)
  | _ => exact hq

section Rounds

variable (os : Os σ) (shell : ExecShell σ) {st : LoopState σ}

theorem ioStep_readable (h : st.Connected) :
    ioStep os shell readable st = receiveRound os shell st := by
  have hep0 : ep0Round { outReadable := true } st = some st := rfl
  simp only [ioStep, readable, hep0, h.enabled, h.epOut, Bool.and_self, if_true]

theorem afterRounds_next {os : Os σ} {shell : ExecShell σ} {st' : LoopState σ}
    (h : ioStep os shell readable st = .next st') (n : ℕ) :
    afterRounds os shell (n + 1) st = afterRounds os shell n st' := by
  rw [afterRounds, List.replicate_succ, runLoop, h]
  rfl

theorem afterRounds_waiting {os : Os σ} {shell : ExecShell σ} {st' : LoopState σ}
    (h : ioStep os shell readable st = .waiting st') (n : ℕ) :
    afterRounds os shell (n + 1) st = st' := by
  rw [afterRounds, List.replicate_succ, runLoop, h]

/-- **A round that receives a frame.** When the outcomes up to a point deliver exactly one
frame, the round passes it to `handle_frame`, and at most outcomes that deliver nothing are
left of them. -/
theorem ioStep_of_request {frame : Frame} {raw : Bytes} {pre more : List RxOutcome}
    (hst : st.Connected) (hbuf : st.rt.rxBuf = []) (hrx : st.rt.rx = pre ++ more)
    (hpre : ∀ outcome ∈ pre, outcome.Delivers) (hraw : (pieces pre).flatten = raw)
    (hnext : requestFormat.next raw = .item frame []) :
    ∃ st' rest, ioStep os shell readable st = .next st' ∧ st'.Connected ∧ st'.rt.rxBuf = [] ∧
      st'.rt.rx = rest ++ more ∧ pieces rest = [] ∧ (∀ outcome ∈ rest, outcome.Delivers) ∧
      handledFrames st'.rt.dev.log = handledFrames st.rt.dev.log ++ [frame] := by
  obtain ⟨rt, hrt⟩ : ∃ rt : Runtime σ, rt = { st.rt with rx := pre } := ⟨_, rfl⟩
  have hextend : rt.extendRx more = st.rt := by
    rw [hrt, Runtime.extendRx, ← hrx]
  have hunread : rt.reader.unread = raw := by
    rw [hrt, ← hraw, ← List.nil_append (pieces pre).flatten, ← hbuf]
    rfl
  have hdel : ∀ outcome ∈ rt.rx, outcome.Delivers := by
    rw [hrt]
    exact hpre
  rw [← hunread] at hnext
  obtain ⟨rt', hread, hrest, hdel'⟩ := (readFrameBuffered_readBy os).item hdel hnext
  have hread' := readFrameBuffered_extendRx hread more
  rw [hextend] at hread'
  have hreads := readFrameBuffered_afterReads hread'
  -- nothing is left unread, and a delivery has no empty piece
  obtain ⟨hbuf', hpieces⟩ : rt'.rxBuf = [] ∧ (pieces rt'.rx).flatten = [] :=
    List.append_eq_nil_iff.mp hrest
  have hnone : pieces rt'.rx = [] := by
    rw [List.eq_nil_iff_forall_not_mem]
    intro piece hpiece
    obtain ⟨outcome, houtcome, hsome⟩ := List.mem_filterMap.mp hpiece
    have hempty : piece = [] := List.flatten_eq_nil_iff.mp hpieces piece hpiece
    have := hdel' outcome houtcome
    cases outcome <;> simp [RxOutcome.piece?] at hsome
    exact this.1 (hsome.trans hempty)
  obtain ⟨rt₁, hrt₁⟩ : ∃ rt₁, rt₁ = (rt'.extendRx more).record (.handling frame) := ⟨_, rfl⟩
  have hstep : ioStep os shell readable st =
      .next { st with rt := { rt₁ with dev := (handleFrame os shell frame rt₁.dev).2 } } := by
    rw [ioStep_readable os shell hst, receiveRound, hread', hrt₁]
  subst hrt₁
  refine ⟨_, rt'.rx, hstep, ⟨hst.enabled, ?_, ?_⟩, hbuf', rfl, hnone, hdel', ?_⟩
  · exact hreads.epIn ▸ hst.epIn
  · exact hreads.epOut ▸ hst.epOut
  · dsimp only
    rw [handleFrame_handledFrames os shell]
    have hsame : handledFrames (rt'.extendRx more).dev.log = handledFrames st.rt.dev.log :=
      hreads.silent.handledFrames
    rw [Runtime.record, Device.record, handledFrames_append, hsame]
    rfl

/-- A round that finds nothing waits for the host, and changes nothing. -/
theorem ioStep_of_nothing (hst : st.Connected) (hbuf : st.rt.rxBuf = [])
    (hrx : ∀ outcome ∈ st.rt.rx, outcome.Delivers) (hpieces : pieces st.rt.rx = []) :
    ioStep os shell readable st = .waiting st := by
  have hunread : st.rt.reader.unread = [] := by
    rw [Runtime.reader, hbuf, hpieces]
    rfl
  have hnext : requestFormat.next st.rt.reader.unread = .more := by
    rw [hunread]
    rfl
  rw [ioStep_readable os shell hst, receiveRound, (readFrameBuffered_readBy os).more hrx hnext]

/-- **A read of no bytes** between two frames closes the endpoints. -/
theorem ioStep_of_empty_read (hst : st.Connected) (hbuf : st.rt.rxBuf = [])
    (hrx : ∀ outcome ∈ st.rt.rx, outcome.Quiet) {rest : List Bytes}
    (hpieces : pieces st.rt.rx = [] :: rest) :
    ∃ st', ioStep os shell readable st = .next st' ∧ st'.enabled = false ∧
      st.rt.dev.Silent st'.rt.dev := by
  -- what is waited out comes before the empty read
  have hloop : ∀ {script : List RxOutcome} (rt : Runtime σ),
      (∀ outcome ∈ script, outcome.Quiet) → pieces script = [] :: rest →
      ∃ rt', rxReadLoop os script rt = some (false, rt') := by
    intro script
    induction script with
    | nil =>
      intro rt _ hpieces
      exact absurd hpieces (by simp [pieces])
    | cons outcome script ih =>
      intro rt hquiet hpieces
      have hrest : ∀ o ∈ script, o.Quiet := fun o ho => hquiet o (by simp [ho])
      have hout := hquiet outcome (by simp)
      cases outcome with
      | pollTimeout => exact ih rt hrest hpieces
      | pollEintr => exact ih rt hrest hpieces
      | readEintr => exact ih rt hrest hpieces
      | pollError e => exact hout.elim
      | pollHangup => exact hout.elim
      | readError e => exact hout.elim
      | data bytes =>
        obtain ⟨rfl, -⟩ : bytes = [] ∧ pieces script = rest := by
          simpa [pieces, RxOutcome.piece?] using hpieces
        exact ⟨_, rfl⟩
  obtain ⟨rt', hread⟩ := hloop st.rt hrx hpieces
  have hshort : st.rt.rxBuf.length < headerSize := by
    rw [hbuf]
    decide
  have hreceive : readFrameBuffered os st.rt = some (none, rt') := by
    rw [readFrameBuffered, rxFill, if_pos hshort, rxReadSome, hread]
  have hstep : ioStep os shell readable st = .next (st.disabled rt') := by
    rw [ioStep_readable os shell hst, receiveRound, hreceive]
  exact ⟨_, hstep, rfl, (readFrameBuffered_afterReads hreceive).silent.trans (closeEps_silent rt')⟩

/-- With the endpoints closed, a round in which nothing but the bulk OUT endpoint is
reported does nothing. -/
theorem afterRounds_of_disabled (hst : st.enabled = false) (n : ℕ) :
    afterRounds os shell n st = st := by
  have hstep : ioStep os shell readable st = .next st := by
    have hep0 : ep0Round { outReadable := true } st = some st := rfl
    simp only [ioStep, readable, hep0, hst, Bool.false_and, Bool.false_eq_true, if_false]
  induction n with
  | zero => rfl
  | succ n ih => rw [afterRounds_next hstep, ih]

end Rounds

/-! ### Sessions of host frames -/

/-- The session survives the frames: the endpoints stay open in every round, and after some
number of rounds exactly these frames have been passed to `handle_frame`. -/
def SessionSurvives (os : Os σ) (shell : ExecShell σ) (st : LoopState σ)
    (frames : List Host.Frame) : Prop :=
  (∀ n, (afterRounds os shell n st).Connected) ∧
    ∃ n, (handledFrames (afterRounds os shell n st).rt.dev.log).map Host.Frame.ofDevice =
      (handledFrames st.rt.dev.log).map Host.Frame.ofDevice ++ frames

/-- A state in which the bytes of some frames are about to be read, and nothing else. The
receive buffer is empty, so the session is between two frames. -/
structure LoopState.Expects (st : LoopState σ) (frames : List Host.Frame) : Prop where
  connected : st.Connected
  rxBuf : st.rt.rxBuf = []
  quiet : ∀ outcome ∈ st.rt.rx, outcome.Quiet
  pieces : pieces st.rt.rx = frames.flatMap Host.Frame.reads
  fits : ∀ f ∈ frames, f.type < 2 ^ 16 ∧ f.flags < 2 ^ 32 ∧ f.requestId < 2 ^ 32
  payload_le : ∀ f ∈ frames, f.payload.length ≤ maxPayload

section Session

variable (os : Os σ) (shell : ExecShell σ) {st : LoopState σ} {f : Host.Frame}
  {frames : List Host.Frame}

/-- The next frame is handled, and the reads after it begin with an empty one exactly when
its length is a multiple of 16 KiB. -/
theorem LoopState.Expects.step (h : st.Expects (f :: frames)) :
    ∃ st', ioStep os shell readable st = .next st' ∧ st'.Connected ∧ st'.rt.rxBuf = [] ∧
      (∀ outcome ∈ st'.rt.rx, outcome.Quiet) ∧
      UsbResponder.pieces st'.rt.rx =
        (if ioChunk ∣ f.raw.length then [[]] else []) ++ frames.flatMap Host.Frame.reads ∧
      (handledFrames st'.rt.dev.log).map Host.Frame.ofDevice =
        (handledFrames st.rt.dev.log).map Host.Frame.ofDevice ++ [f] := by
  obtain ⟨hnext, hdevice⟩ := Host.Frame.next_raw (h.fits f (by simp)) (h.payload_le f (by simp))
  obtain ⟨ps, hps, hflat, hpiece⟩ := transferReads_eq (show 0 < ioChunk by decide) f.raw
  have hpieces := h.pieces
  rw [List.flatMap_cons, Host.Frame.reads, hps, List.append_assoc] at hpieces
  -- the part of the script that delivers this frame
  obtain ⟨pre, more, hrx, hpre, hmore⟩ := List.filterMap_eq_append_iff.mp hpieces
  have hquiet := h.quiet
  rw [hrx] at hquiet
  have hdelivers : ∀ outcome ∈ pre, outcome.Delivers :=
    delivers_of_quiet (fun outcome ho => hquiet outcome (List.mem_append_left _ ho))
      fun piece hmem => hpiece piece (hpre ▸ hmem)
  obtain ⟨st', rest, hstep, hconn, hbuf, hrx', hnone, hrest, hhandled⟩ :=
    ioStep_of_request os shell h.connected h.rxBuf hrx hdelivers
      ((congrArg List.flatten hpre).trans hflat) hnext
  refine ⟨st', hstep, hconn, hbuf, ?_, ?_, ?_⟩
  · intro outcome houtcome
    rw [hrx'] at houtcome
    obtain houtcome | houtcome := List.mem_append.mp houtcome
    · have hd := hrest outcome houtcome
      cases outcome <;> trivial
    · exact hquiet outcome (List.mem_append_right _ houtcome)
  · rw [hrx', UsbResponder.pieces, List.filterMap_append]
    rw [UsbResponder.pieces] at hnone
    rw [hnone, List.nil_append]
    exact hmore
  · rw [hhandled, List.map_append, List.map_singleton, hdevice]

/-- Without a length that is a multiple of 16 KiB, every frame is handled and the endpoints
stay open. -/
private theorem LoopState.Expects.survives (h : st.Expects frames)
    (hlen : ∀ f ∈ frames, ¬ioChunk ∣ f.raw.length) (n : ℕ) :
    (afterRounds os shell n st).Connected ∧ (frames.length ≤ n →
      (handledFrames (afterRounds os shell n st).rt.dev.log).map Host.Frame.ofDevice =
        (handledFrames st.rt.dev.log).map Host.Frame.ofDevice ++ frames) := by
  induction n generalizing st frames with
  | zero =>
    refine ⟨h.connected, fun hn => ?_⟩
    obtain rfl := List.length_eq_zero_iff.mp (Nat.le_zero.mp hn)
    rw [List.append_nil]
    rfl
  | succ n ih =>
    cases frames with
    | nil =>
      have hnone : UsbResponder.pieces st.rt.rx = [] := h.pieces
      have hdelivers : ∀ outcome ∈ st.rt.rx, outcome.Delivers :=
        delivers_of_quiet h.quiet fun piece hmem =>
          absurd hmem (List.eq_nil_iff_forall_not_mem.mp hnone piece)
      rw [afterRounds_waiting (ioStep_of_nothing os shell h.connected h.rxBuf hdelivers hnone),
        List.append_nil]
      exact ⟨h.connected, fun _ => rfl⟩
    | cons f frames =>
      obtain ⟨st', hstep, hconn, hbuf, hquiet, hpieces, hhandled⟩ := h.step os shell
      rw [if_neg (hlen f (by simp)), List.nil_append] at hpieces
      have hexpects : st'.Expects frames := ⟨hconn, hbuf, hquiet, hpieces,
        fun g hg => h.fits g (by simp [hg]), fun g hg => h.payload_le g (by simp [hg])⟩
      obtain ⟨hconn', hhandled'⟩ := ih hexpects fun g hg => hlen g (by simp [hg])
      rw [afterRounds_next hstep]
      refine ⟨hconn', fun hn => ?_⟩
      rw [hhandled' (by rw [List.length_cons] at hn; omega), hhandled, List.append_assoc]
      rfl

/-- With such a length the endpoints are closed at some point: in the round after the first
such frame, at the latest. -/
private theorem LoopState.Expects.disconnects (h : st.Expects frames)
    (hlen : ∃ f ∈ frames, ioChunk ∣ f.raw.length) :
    ∃ n, ¬(afterRounds os shell n st).Connected := by
  induction frames generalizing st with
  | nil =>
    obtain ⟨f, hf, -⟩ := hlen
    exact absurd hf List.not_mem_nil
  | cons f frames ih =>
    obtain ⟨st', hstep, hconn, hbuf, hquiet, hpieces, -⟩ := h.step os shell
    by_cases hdvd : ioChunk ∣ f.raw.length
    · -- the zero-length packet of this frame is read in the next round
      rw [if_pos hdvd] at hpieces
      obtain ⟨st'', hstep', hoff, -⟩ := ioStep_of_empty_read os shell hconn hbuf hquiet hpieces
      refine ⟨2, fun hconn'' => ?_⟩
      have henabled := hconn''.enabled
      rw [afterRounds_next hstep, afterRounds_next hstep'] at henabled
      exact absurd (hoff.symm.trans henabled) (by decide)
    · rw [if_neg hdvd, List.nil_append] at hpieces
      have hexpects : st'.Expects frames := ⟨hconn, hbuf, hquiet, hpieces,
        fun g hg => h.fits g (by simp [hg]), fun g hg => h.payload_le g (by simp [hg])⟩
      obtain ⟨g, hg, hgdvd⟩ := hlen
      have hg' : g ∈ frames := by
        obtain rfl | hg := List.mem_cons.mp hg
        · exact absurd hgdvd hdvd
        · exact hg
      obtain ⟨n, hn⟩ := ih hexpects ⟨g, hg', hgdvd⟩
      refine ⟨n + 1, ?_⟩
      rw [afterRounds_next hstep]
      exact hn

end Session

/-- **When the frames of the host break the session.** Take frames with payloads of at most
8 MiB that the host sends one after another on an endpoint with packets of 64 or 512 bytes,
and a responder with open endpoints whose reads of 16 KiB complete when they are full or a
short packet arrives, with time-outs and interrupted calls in between. Every frame is passed
to `handle_frame` and the endpoints stay open exactly when no frame length is a multiple of
16 KiB. -/
theorem host_frames_handled_iff (os : Os σ) (shell : ExecShell σ) {mps : ℕ}
    (hmps : mps = 64 ∨ mps = 512) {frames : List Host.Frame}
    (hmax : ∀ f ∈ frames, f.payload.length ≤ Host.maxPayload) {writes : List Bytes}
    (hsend : Host.sendFrames mps frames = .ok writes) {st : LoopState σ} (hconn : st.Connected)
    (hbuf : st.rt.rxBuf = []) (hquiet : ∀ outcome ∈ st.rt.rx, outcome.Quiet)
    (hreads : pieces st.rt.rx = reads ioChunk mps [] (writes.flatMap (packets mps))) :
    SessionSurvives os shell st frames ↔
      ∀ f ∈ frames, ¬ioChunk ∣ headerSize + f.payload.length := by
  obtain ⟨hfits, heq⟩ := Host.reads_of_sendFrames hmps hsend
  have hexpects : st.Expects frames :=
    ⟨hconn, hbuf, hquiet, hreads.trans heq, hfits, hmax⟩
  constructor
  · rintro ⟨hopen, -⟩ f hf hdvd
    rw [← Host.Frame.length_raw] at hdvd
    obtain ⟨n, hn⟩ := hexpects.disconnects os shell ⟨f, hf, hdvd⟩
    exact hn (hopen n)
  · intro hlen
    have hlen' : ∀ f ∈ frames, ¬ioChunk ∣ f.raw.length := by
      intro f hf
      rw [Host.Frame.length_raw]
      exact hlen f hf
    have hsurvives := hexpects.survives os shell hlen'
    exact ⟨fun n => (hsurvives n).1, frames.length, (hsurvives frames.length).2 le_rfl⟩

/-- The loop after the endpoints have been opened, with these reads to come. -/
def enabledState (reads : List Bytes) : LoopState Unit :=
  (runLoop (Os.failing Unit) (fun _ _ s => (none, s)) [enableRound]
    (startState ⟨0, 0, 0⟩ () [] (reads.map .data))).2

theorem enabledState_expects {mps : ℕ} (hmps : mps = 64 ∨ mps = 512) {frames : List Host.Frame}
    (hmax : ∀ f ∈ frames, f.payload.length ≤ Host.maxPayload) {writes : List Bytes}
    (hsend : Host.sendFrames mps frames = .ok writes) :
    (enabledState (reads ioChunk mps [] (writes.flatMap (packets mps)))).Expects frames := by
  obtain ⟨hfits, heq⟩ := Host.reads_of_sendFrames hmps hsend
  refine ⟨⟨rfl, rfl, rfl⟩, rfl, ?_, ?_, hfits, hmax⟩
  · intro outcome houtcome
    obtain ⟨bytes, -, rfl⟩ := List.mem_map.mp houtcome
    trivial
  · refine Eq.trans ?_ heq
    exact (List.filterMap_map ..).trans List.filterMap_some

/-- A `HELLO` of the host. -/
def hostHello : Host.Frame where
  type := 1
  requestId := 1

/-- `host_frames_handled_iff` for a `HELLO` on a high-speed link. -/
theorem host_frames_handled_iff_hello :
    SessionSurvives (Os.failing Unit) (fun _ _ s => (none, s))
        (enabledState (reads ioChunk 512 [] ((Host.sendWrites 512 hostHello.raw ++ []).flatMap
          (packets 512)))) [hostHello] ↔
      ∀ f ∈ [hostHello], ¬ioChunk ∣ headerSize + f.payload.length := by
  have hmax : ∀ f ∈ [hostHello], f.payload.length ≤ Host.maxPayload := by
    simp [hostHello]
  have hencode : hostHello.encode = .ok hostHello.raw :=
    Host.Frame.encode_eq_ok_iff.mpr ⟨by decide, by decide, by decide, by decide, rfl⟩
  have hsend := Host.sendFrames_singleton hencode 512
  have hexpects := enabledState_expects (.inr rfl) hmax hsend
  refine host_frames_handled_iff _ _ (.inr rfl) hmax hsend hexpects.connected hexpects.rxBuf
    hexpects.quiet ?_
  exact hexpects.pieces.trans (Host.reads_of_sendFrames (.inr rfl) hsend).2.symm

/-- A frame of exactly 16 KiB. -/
def alignedFrame : Host.Frame where
  type := 11
  requestId := 1
  payload := List.replicate 16360 0

/-- A single frame of 16 KiB ends the session: the read of the empty packet behind it is
taken for the end. -/
theorem not_host_frames_handled :
    ∃ writes, Host.sendFrames 512 [alignedFrame] = .ok writes ∧
      ¬SessionSurvives (Os.failing Unit) (fun _ _ s => (none, s))
        (enabledState (reads ioChunk 512 [] (writes.flatMap (packets 512)))) [alignedFrame] := by
  have hlength : alignedFrame.payload.length = 16360 := List.length_replicate
  have hmax : ∀ f ∈ [alignedFrame], f.payload.length ≤ Host.maxPayload := by
    intro f hf
    rw [List.mem_singleton.mp hf, hlength]
    decide
  have hencode : alignedFrame.encode = .ok alignedFrame.raw := by
    refine Host.Frame.encode_eq_ok_iff.mpr ⟨?_, ?_, ?_, ?_, rfl⟩
    · exact show 11 < 2 ^ 16 by decide
    · exact show 0 < 2 ^ 32 by decide
    · exact show 1 < 2 ^ 32 by decide
    · rw [hlength]
      decide
  have hsend := Host.sendFrames_singleton hencode 512
  refine ⟨_, hsend, ?_⟩
  rintro ⟨hopen, -⟩
  have hdvd : ioChunk ∣ alignedFrame.raw.length := by
    rw [Host.Frame.length_raw, hlength]
    decide
  obtain ⟨n, hn⟩ := (enabledState_expects (.inr rfl) hmax hsend).disconnects (Os.failing Unit)
    (fun _ _ s => (none, s)) ⟨alignedFrame, List.mem_singleton_self _, hdvd⟩
  exact hn (hopen n)

end UsbResponder
