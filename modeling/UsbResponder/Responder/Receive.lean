import UsbResponder.Base.Framing
import UsbResponder.Responder.Device

/-!
# Receiving frames from the bulk OUT endpoint

The receive buffer of `responder.c`. `read_frame_buffered` reads until the buffer holds a
header, checks it, reads until the buffer holds the frame it announces, takes the frame from
the front of the buffer and decodes it. One read may end anywhere in a frame and may hold
several.

The outcomes of the `poll` and `read` calls to come are scripted in `rx`. When the script is
used up the responder waits for the host, which is the result `none` of a receive.

Two facts about a receive are proved here because everything after depends on them. It
leaves alone what the handlers work on, but for the last error and the reads in the log
(`AfterReads`); and when it returns, the outcomes it has not used make no difference
(`readFrameBuffered_extendRx`). Both go through the three loops, each by induction on the
outcomes or the fuel.

The memory of the buffer is a capacity: `rx_reserve` that fails for want of memory is not
among the outcomes, and the sizes are in `Responder.ReceiveBounds`.
-/

namespace UsbResponder

open LittleEndian CString

variable {σ : Type}

/-- `USB_RESPONDER_MAX_PAYLOAD`. A header that announces more is refused, and the connection
closed. -/
def maxPayload : ℕ := 8 * 1024 * 1024

/-- What happens while `rx_read_some` waits for data: `poll` times out, is interrupted,
fails or reports a hang-up, or `read` is interrupted, fails or returns bytes. No bytes are
the end of the stream. -/
inductive RxOutcome
  | pollTimeout
  | pollEintr
  | pollError (e : Errno)
  | pollHangup
  | readEintr
  | readError (e : Errno)
  | data (bytes : Bytes)
  deriving DecidableEq, Repr

/-- `responder_runtime_t`. The receive buffer is `rx_buf[0 .. rx_size)`, and a closed
endpoint has no descriptor. The part that the handlers see is the device. -/
structure Runtime (σ : Type) where
  dev : Device σ
  epIn : Option ℕ
  epOut : Option ℕ
  rxBuf : Bytes
  rxCap : ℕ
  epShutdown : Bool
  /-- The outcomes of the next `poll` and `read` calls on the bulk OUT endpoint. -/
  rx : List RxOutcome

/-- `usb_responder_set_last_error`. -/
def Runtime.setLastError (rt : Runtime σ) (msg : Bytes) : Runtime σ :=
  { rt with dev := rt.dev.setLastError msg }

/-- Record an event. -/
def Runtime.record (rt : Runtime σ) (event : IoEvent) : Runtime σ :=
  { rt with dev := rt.dev.record event }

/-! ### `rx_reserve` and `rx_read_some` -/

/-- `is_ep_shutdown_errno`: `ESHUTDOWN`, `ENODEV`, `EPIPE` or `ECONNRESET`. -/
def isEpShutdownErrno (e : Errno) : Bool := e = 108 || e = 19 || e = 32 || e = 104

/-- The doubling loop of `rx_reserve`. A capacity that is not zero doubles past `needed` in
fewer than `needed` rounds. -/
def growCap : ℕ → ℕ → ℕ → ℕ
  | 0, cap, _ => cap
  | fuel + 1, cap, needed => if cap < needed then growCap fuel (cap * 2) needed else cap

/-- `rx_reserve`. The capacity is doubled until there is room, so the block is not moved for
every read. -/
def rxReserve (rt : Runtime σ) (needed : ℕ) : Runtime σ :=
  { rt with
    rxCap :=
      if needed ≤ rt.rxCap then rt.rxCap
      else growCap needed (if rt.rxCap = 0 then 4096 else rt.rxCap) needed }

/-- The loop of `rx_read_some` over the outcomes to come. Time-outs and interrupted calls
use up an outcome and go on. -/
def rxReadLoop (os : Os σ) : List RxOutcome → Runtime σ → Option (Bool × Runtime σ)
  | [], _ => none
  | .pollTimeout :: script, rt => rxReadLoop os script rt
  | .pollEintr :: script, rt => rxReadLoop os script rt
  | .readEintr :: script, rt => rxReadLoop os script rt
  | .pollError e :: script, rt =>
    some (false, { rt with rx := script }.setLastError
      (snprintf 256 (utf8 "ep_out poll: " ++ os.strerror e)))
  | .pollHangup :: script, rt =>
    some (false, { rt with rx := script, epShutdown := true }.setLastError
      (utf8 "ep_out poll shutdown"))
  | .readError e :: script, rt =>
    some (false, { rt with rx := script, epShutdown := rt.epShutdown || isEpShutdownErrno e
      }.setLastError (snprintf 256 (utf8 "ep_out read: " ++ os.strerror e)))
  | .data bytes :: script, rt =>
    let rt := { rt with rx := script }.record (.received bytes)
    if bytes = [] then some (false, rt.setLastError (utf8 "ep_out EOF"))
    else some (true, { rxReserve rt (rt.rxBuf.length + bytes.length) with
      rxBuf := rt.rxBuf ++ bytes })

/-- `rx_read_some`. It has no result while the host sends nothing. -/
def rxReadSome (os : Os σ) (rt : Runtime σ) : Option (Bool × Runtime σ) := rxReadLoop os rt.rx rt

/-! ### `read_frame_buffered` -/

/-- The loop that reads until the buffer holds `n` bytes. Every round uses up an outcome, so
`fuel` above their number is never used up. -/
def rxFill (os : Os σ) (n : ℕ) : ℕ → Runtime σ → Option (Bool × Runtime σ)
  | 0, _ => none
  | fuel + 1, rt =>
    if rt.rxBuf.length < n then
      match rxReadSome os rt with
      | none => none
      | some (false, rt) => some (false, rt)
      | some (true, rt) => rxFill os n fuel rt
    else some (true, rt)

/-- `read_frame_buffered`: the frame, or `none` for `false`. Bytes behind the frame stay in
the buffer for the next call. -/
def readFrameBuffered (os : Os σ) (rt : Runtime σ) : Option (Option Frame × Runtime σ) :=
  match rxFill os headerSize (rt.rx.length + 1) rt with
  | none => none
  | some (false, rt) => some (none, rt)
  | some (true, rt) =>
    let m := readLe32 rt.rxBuf
    let v := readLe16 (rt.rxBuf.drop 4)
    if m ≠ magic ∨ v ≠ version then
      some (none, rt.setLastError (snprintf 256 (utf8 "bad frame header magic=0x" ++
        formatNat 16 8 m.toNat ++ utf8 " version=" ++ formatNat 10 0 v.toNat ++
        utf8 " buffered=" ++ formatNat 10 0 rt.rxBuf.length)))
    else
      let payloadLen := (readLe32 (rt.rxBuf.drop 16)).toNat
      if maxPayload < payloadLen then some (none, rt.setLastError (utf8 "payload too large"))
      else
        let frameSize := headerSize + payloadLen
        match rxFill os frameSize (rt.rx.length + 1) rt with
        | none => none
        | some (false, rt) => some (none, rt)
        | some (true, rt) =>
          let raw := rt.rxBuf.take frameSize
          let rt := { rt with rxBuf := rt.rxBuf.drop frameSize }
          match decodeFrame raw with
          | none => some (none, rt.setLastError (utf8 "decode frame failed"))
          | some frame => some (some frame, rt)

/-! ### What a receive leaves alone -/

/-- `rt'` is `rt` after reads: the handlers' part differs at most in the last error and in
reads recorded at the end of the log, and no endpoint was opened or closed. -/
structure Runtime.AfterReads (rt rt' : Runtime σ) : Prop where
  cfg : rt'.dev.cfg = rt.dev.cfg
  sessions : rt'.dev.proc.sessions = rt.dev.proc.sessions
  os : rt'.dev.proc.os = rt.dev.proc.os
  tx : rt'.dev.tx = rt.dev.tx
  epIn : rt'.epIn = rt.epIn
  epOut : rt'.epOut = rt.epOut
  log : ∃ reads : List Bytes, rt'.dev.log = rt.dev.log ++ reads.map IoEvent.received

theorem Runtime.AfterReads.refl (rt : Runtime σ) : rt.AfterReads rt :=
  ⟨rfl, rfl, rfl, rfl, rfl, rfl, [], by simp⟩

theorem Runtime.AfterReads.trans {rt₁ rt₂ rt₃ : Runtime σ} (h₁ : rt₁.AfterReads rt₂)
    (h₂ : rt₂.AfterReads rt₃) : rt₁.AfterReads rt₃ where
  cfg := h₂.cfg.trans h₁.cfg
  sessions := h₂.sessions.trans h₁.sessions
  os := h₂.os.trans h₁.os
  tx := h₂.tx.trans h₁.tx
  epIn := h₂.epIn.trans h₁.epIn
  epOut := h₂.epOut.trans h₁.epOut
  log := by
    obtain ⟨reads₁, hlog₁⟩ := h₁.log
    obtain ⟨reads₂, hlog₂⟩ := h₂.log
    exact ⟨reads₁ ++ reads₂, by rw [hlog₂, hlog₁, List.map_append, List.append_assoc]⟩

/-- Setting the last error reads nothing. -/
private theorem Runtime.AfterReads.of_error {rt rt' : Runtime σ} (h : rt.AfterReads rt')
    (msg : Bytes) : rt.AfterReads (rt'.setLastError msg) :=
  ⟨h.cfg, h.sessions, h.os, h.tx, h.epIn, h.epOut, h.log⟩

/-- Taking a frame from the receive buffer reads nothing. -/
private theorem Runtime.AfterReads.of_rxBuf {rt rt' : Runtime σ} (h : rt.AfterReads rt')
    (buf : Bytes) : rt.AfterReads { rt' with rxBuf := buf } :=
  ⟨h.cfg, h.sessions, h.os, h.tx, h.epIn, h.epOut, h.log⟩

private theorem rxReadLoop_afterReads {os : Os σ} {script : List RxOutcome} {rt rt' : Runtime σ}
    {ok : Bool} (h : rxReadLoop os script rt = some (ok, rt')) : rt.AfterReads rt' := by
  induction script generalizing rt with
  | nil => simp [rxReadLoop] at h
  | cons outcome script ih =>
    cases outcome with
    | pollTimeout => exact ih h
    | pollEintr => exact ih h
    | readEintr => exact ih h
    | pollError e =>
      obtain ⟨-, rfl⟩ := Prod.mk.inj (Option.some.inj h)
      exact ⟨rfl, rfl, rfl, rfl, rfl, rfl, [], by simp [Runtime.setLastError, Device.setLastError]⟩
    | pollHangup =>
      obtain ⟨-, rfl⟩ := Prod.mk.inj (Option.some.inj h)
      exact ⟨rfl, rfl, rfl, rfl, rfl, rfl, [], by simp [Runtime.setLastError, Device.setLastError]⟩
    | readError e =>
      obtain ⟨-, rfl⟩ := Prod.mk.inj (Option.some.inj h)
      exact ⟨rfl, rfl, rfl, rfl, rfl, rfl, [], by simp [Runtime.setLastError, Device.setLastError]⟩
    | data bytes =>
      rw [rxReadLoop] at h
      dsimp only at h
      split_ifs at h
      · obtain ⟨-, rfl⟩ := Prod.mk.inj (Option.some.inj h)
        exact ⟨rfl, rfl, rfl, rfl, rfl, rfl, [bytes], rfl⟩
      · obtain ⟨-, rfl⟩ := Prod.mk.inj (Option.some.inj h)
        exact ⟨rfl, rfl, rfl, rfl, rfl, rfl, [bytes], rfl⟩

private theorem rxFill_afterReads {os : Os σ} {n fuel : ℕ} {rt rt' : Runtime σ} {ok : Bool}
    (h : rxFill os n fuel rt = some (ok, rt')) : rt.AfterReads rt' := by
  induction fuel generalizing rt with
  | zero => simp [rxFill] at h
  | succ fuel ih =>
    rw [rxFill] at h
    split_ifs at h with hshort
    · cases hread : rxReadSome os rt with
      | none => simp [hread] at h
      | some r =>
        obtain ⟨_ | _, rt₁⟩ := r
        · simp only [hread, Option.some.injEq, Prod.mk.injEq] at h
          exact h.2 ▸ rxReadLoop_afterReads hread
        · simp only [hread] at h
          exact (rxReadLoop_afterReads hread).trans (ih h)
    · obtain ⟨-, rfl⟩ := Prod.mk.inj (Option.some.inj h)
      exact .refl rt

/-- A receive leaves the handlers' part alone but for the last error, whatever it returns. -/
theorem readFrameBuffered_afterReads {os : Os σ} {rt rt' : Runtime σ} {frame? : Option Frame}
    (h : readFrameBuffered os rt = some (frame?, rt')) : rt.AfterReads rt' := by
  rw [readFrameBuffered] at h
  split at h
  · simp at h
  · rename_i rt₁ hfill
    obtain ⟨-, rfl⟩ := Prod.mk.inj (Option.some.inj h)
    exact rxFill_afterReads hfill
  · rename_i rt₁ hfill
    have hreads := rxFill_afterReads hfill
    dsimp only at h
    split_ifs at h
    · obtain ⟨-, rfl⟩ := Prod.mk.inj (Option.some.inj h)
      exact hreads.of_error _
    · obtain ⟨-, rfl⟩ := Prod.mk.inj (Option.some.inj h)
      exact hreads.of_error _
    · split at h
      · simp at h
      · rename_i rt₂ hfill₂
        obtain ⟨-, rfl⟩ := Prod.mk.inj (Option.some.inj h)
        exact hreads.trans (rxFill_afterReads hfill₂)
      · rename_i rt₂ hfill₂
        have hreads₂ := hreads.trans (rxFill_afterReads hfill₂)
        split at h
        · obtain ⟨-, rfl⟩ := Prod.mk.inj (Option.some.inj h)
          exact (hreads₂.of_rxBuf _).of_error _
        · obtain ⟨-, rfl⟩ := Prod.mk.inj (Option.some.inj h)
          exact hreads₂.of_rxBuf _

/-! ### Outcomes a receive does not reach -/

/-- More outcomes after the ones to come. -/
def Runtime.extendRx (rt : Runtime σ) (more : List RxOutcome) : Runtime σ :=
  { rt with rx := rt.rx ++ more }

private theorem rxReadLoop_extendRx {os : Os σ} {script : List RxOutcome} {rt rt' : Runtime σ}
    {ok : Bool} (h : rxReadLoop os script rt = some (ok, rt')) (more : List RxOutcome) :
    rxReadLoop os (script ++ more) (rt.extendRx more) = some (ok, rt'.extendRx more) := by
  induction script generalizing rt with
  | nil => simp [rxReadLoop] at h
  | cons outcome script ih =>
    cases outcome with
    | pollTimeout => exact ih h
    | pollEintr => exact ih h
    | readEintr => exact ih h
    | pollError e =>
      obtain ⟨rfl, rfl⟩ := Prod.mk.inj (Option.some.inj h)
      rfl
    | pollHangup =>
      obtain ⟨rfl, rfl⟩ := Prod.mk.inj (Option.some.inj h)
      rfl
    | readError e =>
      obtain ⟨rfl, rfl⟩ := Prod.mk.inj (Option.some.inj h)
      rfl
    | data bytes =>
      rw [rxReadLoop] at h
      rw [List.cons_append, rxReadLoop]
      dsimp only at h ⊢
      split_ifs at h ⊢ with hempty
      · obtain ⟨rfl, rfl⟩ := Prod.mk.inj (Option.some.inj h)
        rfl
      · obtain ⟨rfl, rfl⟩ := Prod.mk.inj (Option.some.inj h)
        rfl

private theorem rxFill_extendRx {os : Os σ} {n fuel : ℕ} {rt rt' : Runtime σ} {ok : Bool}
    (h : rxFill os n fuel rt = some (ok, rt')) (more : List RxOutcome) (extra : ℕ) :
    rxFill os n (fuel + extra) (rt.extendRx more) = some (ok, rt'.extendRx more) := by
  induction fuel generalizing rt with
  | zero => simp [rxFill] at h
  | succ fuel ih =>
    rw [rxFill] at h
    rw [show fuel + 1 + extra = fuel + extra + 1 by omega, rxFill]
    have hbuf : (rt.extendRx more).rxBuf = rt.rxBuf := rfl
    rw [hbuf]
    split_ifs at h ⊢ with hshort
    · cases hread : rxReadSome os rt with
      | none => simp [hread] at h
      | some r =>
        obtain ⟨ok₁, rt₁⟩ := r
        have hread' : rxReadSome os (rt.extendRx more) = some (ok₁, rt₁.extendRx more) :=
          rxReadLoop_extendRx hread more
        rw [hread] at h
        rw [hread']
        cases ok₁ with
        | false =>
          obtain ⟨rfl, rfl⟩ := Prod.mk.inj (Option.some.inj h)
          rfl
        | true => exact ih h
    · obtain ⟨rfl, rfl⟩ := Prod.mk.inj (Option.some.inj h)
      rfl

/-- A receive that returns does not depend on the outcomes after those it used. -/
theorem readFrameBuffered_extendRx {os : Os σ} {rt rt' : Runtime σ} {frame? : Option Frame}
    (h : readFrameBuffered os rt = some (frame?, rt')) (more : List RxOutcome) :
    readFrameBuffered os (rt.extendRx more) = some (frame?, rt'.extendRx more) := by
  -- more outcomes are more fuel, which does not matter to a fill that has returned
  have hfuel : ∀ rt : Runtime σ, (rt.extendRx more).rx.length + 1 =
      rt.rx.length + 1 + more.length := by
    intro rt
    rw [Runtime.extendRx, List.length_append]
    omega
  rw [readFrameBuffered] at h ⊢
  rw [hfuel]
  split at h
  · simp at h
  · rename_i rt₁ hfill
    obtain ⟨rfl, rfl⟩ := Prod.mk.inj (Option.some.inj h)
    rw [rxFill_extendRx hfill]
  · rename_i rt₁ hfill
    rw [rxFill_extendRx hfill]
    have hbuf : (rt₁.extendRx more).rxBuf = rt₁.rxBuf := rfl
    dsimp only at h ⊢
    rw [hbuf, hfuel]
    split_ifs at h ⊢
    · obtain ⟨rfl, rfl⟩ := Prod.mk.inj (Option.some.inj h)
      rfl
    · obtain ⟨rfl, rfl⟩ := Prod.mk.inj (Option.some.inj h)
      rfl
    · split at h
      · simp at h
      · rename_i rt₂ hfill₂
        obtain ⟨rfl, rfl⟩ := Prod.mk.inj (Option.some.inj h)
        rw [rxFill_extendRx hfill₂]
      · rename_i rt₂ hfill₂
        rw [rxFill_extendRx hfill₂]
        have hbuf₂ : (rt₂.extendRx more).rxBuf = rt₂.rxBuf := rfl
        dsimp only
        rw [hbuf₂]
        split at h
        · obtain ⟨rfl, rfl⟩ := Prod.mk.inj (Option.some.inj h)
          rfl
        · obtain ⟨rfl, rfl⟩ := Prod.mk.inj (Option.some.inj h)
          rfl

end UsbResponder
