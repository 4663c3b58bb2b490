import UsbResponder.Responder.ReceiveBuffer

/-!
# The size of the receive buffer

A host that sends without end does not make the responder buffer without end: `rx_read_some`
is called only while a header or a frame that has been admitted is incomplete, so what a
read finds in the buffer is shorter than the longest frame, and what it leaves is longer by
one read at most. The capacity grows by doubling from 4 KiB and stays below twice the size
asked for.

`Receiving` are the states `read_frame_buffered` goes through, and `receive_buffer_bounded`
gives the bounds in all of them, in every round of every run. A `realloc` that fails leaves
the buffer as it is, so it is not among the outcomes of a read here.

The invariant is `RxKept`: the capacity is 4 KiB doubled at most twelve times, the buffer
fits into it, and no read to come returns more than it is asked for. One read keeps it, when
it is made where the program makes it; the rest of a round only shortens the buffer. That 32
bits are enough for the arithmetic of `rx_reserve` is part of the bounds (`ReserveSafe`),
since the sizes are unbounded in the model.
-/

namespace UsbResponder

open LittleEndian

variable {σ : Type}

/-! ### The doubling loop -/

/-- The doubling loop stops after `k` rounds, at the first value that is not below `needed`.
So the capacity is less than twice what is needed. -/
private theorem growCap_eq {fuel cap needed : ℕ} (hcap : 0 < cap)
    (hfuel : needed ≤ cap * 2 ^ fuel) :
    ∃ k, growCap fuel cap needed = cap * 2 ^ k ∧ needed ≤ cap * 2 ^ k ∧
      ∀ j < k, cap * 2 ^ j < needed := by
  induction fuel generalizing cap with
  | zero =>
    have hneeded : needed ≤ cap * 2 ^ 0 := hfuel
    exact ⟨0, (mul_one cap).symm, hneeded, fun j hj => absurd hj (Nat.not_lt_zero j)⟩
  | succ fuel ih =>
    rw [growCap]
    split_ifs with hshort
    · have hfuel' : needed ≤ cap * 2 * 2 ^ fuel := by rwa [mul_assoc, ← pow_succ']
      obtain ⟨k, hgrow, hneeded, hbelow⟩ := ih (by omega) hfuel'
      have hdouble : ∀ j, cap * 2 * 2 ^ j = cap * 2 ^ (j + 1) := by
        intro j
        rw [mul_assoc, ← pow_succ']
      refine ⟨k + 1, by rw [hgrow, hdouble], by rwa [← hdouble], ?_⟩
      rintro (_ | j) hj
      · simpa using hshort
      · rw [← hdouble]
        exact hbelow j (by omega)
    · exact ⟨0, (mul_one cap).symm, by simpa using hshort,
        fun j hj => absurd hj (Nat.not_lt_zero j)⟩

/-- The value `new_cap` has when the doubling loop of `rx_reserve` begins. -/
def Runtime.firstCap (rt : Runtime σ) : ℕ := if rt.rxCap = 0 then 4096 else rt.rxCap

private theorem rxReserve_rxCap (rt : Runtime σ) (needed : ℕ) :
    (rxReserve rt needed).rxCap =
      if needed ≤ rt.rxCap then rt.rxCap else growCap needed rt.firstCap needed := rfl

/-- The capacity is a size `rx_reserve` allocates: 4 KiB doubled at most twelve times. -/
def Runtime.CapDoubled (rt : Runtime σ) : Prop := rt.rxCap = 0 ∨ ∃ k ≤ 12, rt.rxCap = 4096 * 2 ^ k

private theorem Runtime.CapDoubled.exists_firstCap {rt : Runtime σ} (h : rt.CapDoubled) :
    ∃ k ≤ 12, rt.firstCap = 4096 * 2 ^ k := by
  obtain hzero | ⟨k, hk, hcap⟩ := h
  · exact ⟨0, Nat.zero_le 12, by rw [Runtime.firstCap, if_pos hzero, pow_zero, mul_one]⟩
  · exact ⟨k, hk, by rw [Runtime.firstCap, if_neg (by rw [hcap]; positivity), hcap]⟩

theorem Runtime.CapDoubled.le {rt : Runtime σ} (h : rt.CapDoubled) :
    rt.rxCap ≤ 16 * 1024 * 1024 := by
  obtain hzero | ⟨k, hk, hcap⟩ := h
  · omega
  · calc rt.rxCap = 4096 * 2 ^ k := hcap
      _ ≤ 4096 * 2 ^ 12 := Nat.mul_le_mul_left 4096 (Nat.pow_le_pow_right Nat.two_pos hk)
      _ = 16 * 1024 * 1024 := by norm_num

/-- The size the buffer may reach: the longest frame but one byte, and one read. This is
just above 8 MiB. -/
def rxLimit : ℕ := headerSize + maxPayload - 1 + ioChunk

/-- `rx_reserve` for `needed` bytes does its arithmetic without overflow of a 32-bit
`size_t`, and its doubling loop ends. -/
structure ReserveSafe (rt : Runtime σ) (needed : ℕ) : Prop where
  needed_lt : needed < 2 ^ 32
  loop : ∃ k, growCap needed rt.firstCap needed = rt.firstCap * 2 ^ k ∧
    (∀ j < k, rt.firstCap * 2 ^ j < needed) ∧ needed ≤ rt.firstCap * 2 ^ k ∧
    rt.firstCap * 2 ^ k < 2 ^ 32

/-- **Reserving.** For no more bytes than the buffer may hold, `rx_reserve` does not
overflow, and the capacity it leaves is enough and again a size it allocates. -/
theorem Runtime.CapDoubled.reserve {rt : Runtime σ} (h : rt.CapDoubled) {needed : ℕ}
    (hneeded : needed ≤ rxLimit) :
    ReserveSafe rt needed ∧ (rxReserve rt needed).CapDoubled ∧
      needed ≤ (rxReserve rt needed).rxCap := by
  have hlimit : rxLimit < 4096 * 2 ^ 12 := by decide
  obtain ⟨i, hi, hfirst⟩ := h.exists_firstCap
  have hpos : 0 < rt.firstCap := by
    rw [hfirst]
    positivity
  have hfuel : needed ≤ rt.firstCap * 2 ^ needed :=
    Nat.lt_two_pow_self.le.trans (Nat.le_mul_of_pos_left _ hpos)
  obtain ⟨k, hgrow, henough, hbelow⟩ := growCap_eq hpos hfuel
  -- a thirteenth doubling would start from 16 MiB, which is enough already
  have hdoublings : i + k ≤ 12 := by
    by_contra hmany
    have hlast := hbelow (12 - i) (by omega)
    rw [hfirst, mul_assoc, ← pow_add, show i + (12 - i) = 12 by omega] at hlast
    omega
  have hvalue : rt.firstCap * 2 ^ k = 4096 * 2 ^ (i + k) := by
    rw [hfirst, mul_assoc, ← pow_add]
  refine ⟨⟨?_, k, hgrow, hbelow, henough, ?_⟩, ?_, ?_⟩
  · have h32 : 4096 * 2 ^ 12 < 2 ^ 32 := by norm_num
    omega
  · rw [hvalue]
    calc 4096 * 2 ^ (i + k) ≤ 4096 * 2 ^ 12 :=
          Nat.mul_le_mul_left 4096 (Nat.pow_le_pow_right Nat.two_pos hdoublings)
      _ < 2 ^ 32 := by norm_num
  · rw [Runtime.CapDoubled, rxReserve_rxCap]
    split_ifs
    · exact h
    · exact .inr ⟨i + k, hdoublings, by rw [hgrow, hvalue]⟩
  · rw [rxReserve_rxCap]
    split_ifs with hfits
    · exact hfits
    · rwa [hgrow]

/-! ### What a receive preserves -/

/-- The bounds on the receive buffer: what it holds fits its capacity and is at most a frame
and a read, and the capacity is at most 16 MiB. -/
structure Runtime.RxBounded (rt : Runtime σ) : Prop where
  size_le_cap : rt.rxBuf.length ≤ rt.rxCap
  size_le : rt.rxBuf.length ≤ rxLimit
  cap_le : rt.rxCap ≤ 16 * 1024 * 1024

/-- The invariant behind the bounds. The capacity is a size `rx_reserve` allocates, and no
read to come returns more than it is asked for. -/
structure Runtime.RxKept (rt : Runtime σ) : Prop where
  size_le_cap : rt.rxBuf.length ≤ rt.rxCap
  size_le : rt.rxBuf.length ≤ rxLimit
  cap : rt.CapDoubled
  reads : ∀ bytes, .data bytes ∈ rt.rx → bytes.length ≤ ioChunk

theorem Runtime.RxKept.bounded {rt : Runtime σ} (h : rt.RxKept) : rt.RxBounded :=
  ⟨h.size_le_cap, h.size_le, h.cap.le⟩

/-- Nothing but the buffer, its capacity and the reads to come matters, and the buffer may
get shorter. -/
private theorem Runtime.RxKept.of_le {rt rt' : Runtime σ} (h : rt.RxKept)
    (hbuf : rt'.rxBuf.length ≤ rt.rxBuf.length) (hcap : rt'.rxCap = rt.rxCap)
    (hrx : ∀ outcome ∈ rt'.rx, outcome ∈ rt.rx) : rt'.RxKept where
  size_le_cap := by rw [hcap]; exact hbuf.trans h.size_le_cap
  size_le := hbuf.trans h.size_le
  cap := by rw [Runtime.CapDoubled, hcap]; exact h.cap
  reads := fun bytes hbytes => h.reads bytes (hrx _ hbytes)

/-- A call of `rx_read_some` leaves the buffer as it is, or reserves room for what `read`
returned and appends it. -/
private theorem rxReadLoop_rx {os : Os σ} {script : List RxOutcome} {rt rt' : Runtime σ} {ok : Bool}
    (h : rxReadLoop os script rt = some (ok, rt')) :
    (∀ outcome ∈ rt'.rx, outcome ∈ script) ∧
      (rt'.rxBuf = rt.rxBuf ∧ rt'.rxCap = rt.rxCap ∨
        ∃ bytes, .data bytes ∈ script ∧ rt'.rxBuf = rt.rxBuf ++ bytes ∧
          rt'.rxCap = (rxReserve rt (rt.rxBuf.length + bytes.length)).rxCap) := by
  induction script generalizing rt with
  | nil => simp [rxReadLoop] at h
  | cons outcome script ih =>
    -- an outcome that is waited out leaves the rest of the script to read from
    have hagain : rxReadLoop os script rt = some (ok, rt') →
        (∀ outcome' ∈ rt'.rx, outcome' ∈ outcome :: script) ∧
          (rt'.rxBuf = rt.rxBuf ∧ rt'.rxCap = rt.rxCap ∨
            ∃ bytes, .data bytes ∈ outcome :: script ∧ rt'.rxBuf = rt.rxBuf ++ bytes ∧
              rt'.rxCap = (rxReserve rt (rt.rxBuf.length + bytes.length)).rxCap) := by
      intro h
      obtain ⟨hrx, hsame | ⟨bytes, hbytes, hread⟩⟩ := ih h
      · exact ⟨fun outcome' ho => List.mem_cons_of_mem _ (hrx outcome' ho), .inl hsame⟩
      · exact ⟨fun outcome' ho => List.mem_cons_of_mem _ (hrx outcome' ho),
          .inr ⟨bytes, List.mem_cons_of_mem _ hbytes, hread⟩⟩
    cases outcome with
    | pollTimeout => exact hagain h
    | pollEintr => exact hagain h
    | readEintr => exact hagain h
    | pollError e =>
      obtain ⟨-, rfl⟩ := Prod.mk.inj (Option.some.inj h)
      exact ⟨fun outcome' ho => List.mem_cons_of_mem _ ho, .inl ⟨rfl, rfl⟩⟩
    | pollHangup =>
      obtain ⟨-, rfl⟩ := Prod.mk.inj (Option.some.inj h)
      exact ⟨fun outcome' ho => List.mem_cons_of_mem _ ho, .inl ⟨rfl, rfl⟩⟩
    | readError e =>
      obtain ⟨-, rfl⟩ := Prod.mk.inj (Option.some.inj h)
      exact ⟨fun outcome' ho => List.mem_cons_of_mem _ ho, .inl ⟨rfl, rfl⟩⟩
    | data bytes =>
      rw [rxReadLoop] at h
      dsimp only at h
      split_ifs at h with hempty
      · obtain ⟨-, rfl⟩ := Prod.mk.inj (Option.some.inj h)
        exact ⟨fun outcome' ho => List.mem_cons_of_mem _ ho, .inl ⟨rfl, rfl⟩⟩
      · obtain ⟨-, rfl⟩ := Prod.mk.inj (Option.some.inj h)
        exact ⟨fun outcome' ho => List.mem_cons_of_mem _ ho,
          .inr ⟨bytes, List.mem_cons_self, rfl, rfl⟩⟩

/-- **One read.** A call of `rx_read_some` made while the buffer is shorter than the longest
frame keeps the invariant, whatever it returns. -/
theorem Runtime.RxKept.read {rt rt' : Runtime σ} (h : rt.RxKept) {os : Os σ} {ok : Bool}
    (hshort : rt.rxBuf.length < headerSize + maxPayload)
    (hread : rxReadSome os rt = some (ok, rt')) : rt'.RxKept := by
  obtain ⟨hrx, ⟨hbuf, hcap⟩ | ⟨bytes, hbytes, hbuf, hcap⟩⟩ := rxReadLoop_rx hread
  · exact h.of_le (by rw [hbuf]) hcap hrx
  have hfits : rt.rxBuf.length + bytes.length ≤ rxLimit := by
    have hbytes' := h.reads bytes hbytes
    rw [rxLimit]
    omega
  obtain ⟨-, hdoubled, henough⟩ := h.cap.reserve hfits
  have hlength : rt'.rxBuf.length = rt.rxBuf.length + bytes.length := by
    rw [hbuf, List.length_append]
  exact {
    size_le_cap := by rw [hlength, hcap]; exact henough
    size_le := by rw [hlength]; exact hfits
    cap := by rw [Runtime.CapDoubled, hcap]; exact hdoubled
    reads := fun bytes' hbytes' => h.reads bytes' (hrx _ hbytes') }

/-- The states `read_frame_buffered` goes through when it is called in the state `rt₀`: in
`Receiving os rt₀ n rt` it tests in the state `rt` whether the buffer holds `n` bytes. -/
inductive Receiving (os : Os σ) (rt₀ : Runtime σ) : ℕ → Runtime σ → Prop
  /-- The loop that waits for the header begins. -/
  | header : Receiving os rt₀ headerSize rt₀
  /-- The buffer was too short, and a read has made it longer. -/
  | read {n rt rt'} : Receiving os rt₀ n rt → rt.rxBuf.length < n →
    rxReadSome os rt = some (true, rt') → Receiving os rt₀ n rt'
  /-- The header is there and admits the frame, and the loop that waits for its payload begins. -/
  | payload {rt} : Receiving os rt₀ headerSize rt → headerSize ≤ rt.rxBuf.length →
    readLe32 rt.rxBuf = magic → readLe16 (rt.rxBuf.drop 4) = version →
    (readLe32 (rt.rxBuf.drop 16)).toNat ≤ maxPayload → Receiving os rt₀ (frameEnd rt.rxBuf) rt

section Receiving

variable {os : Os σ} {rt₀ rt rt' : Runtime σ} {n : ℕ}

/-- No loop waits for more than the longest frame, because a longer one is refused when its
header is there. -/
theorem Receiving.le (h : Receiving os rt₀ n rt) : n ≤ headerSize + maxPayload := by
  induction h with
  | header => exact Nat.le_add_right ..
  | read _ _ _ ih => exact ih
  | payload _ _ _ _ hadmitted _ => exact Nat.add_le_add_left hadmitted headerSize

/-- Every state of a receive keeps the invariant. The induction is on the way to the state. -/
theorem Receiving.kept (h : Receiving os rt₀ n rt) (h₀ : rt₀.RxKept) : rt.RxKept := by
  induction h with
  | header => exact h₀
  | read hrec hshort hread ih => exact ih.read (hshort.trans_le hrec.le) hread
  | payload _ _ _ _ _ ih => exact ih

/-- The states of the loop that reads until the buffer holds `n` bytes are states of the
receive, and the one it returns in after a failed read keeps the invariant too. -/
theorem Receiving.rxFill (h : Receiving os rt₀ n rt) (h₀ : rt₀.RxKept) {fuel : ℕ} {ok : Bool}
    (hfill : UsbResponder.rxFill os n fuel rt = some (ok, rt')) :
    rt'.RxKept ∧ (ok = true → Receiving os rt₀ n rt' ∧ n ≤ rt'.rxBuf.length) := by
  induction fuel generalizing rt with
  | zero => simp [UsbResponder.rxFill] at hfill
  | succ fuel ih =>
    rw [UsbResponder.rxFill] at hfill
    split_ifs at hfill with hshort
    · cases hread : rxReadSome os rt with
      | none => simp [hread] at hfill
      | some r =>
        obtain ⟨_ | _, rt₁⟩ := r
        · rw [hread] at hfill
          obtain ⟨rfl, rfl⟩ := Prod.mk.inj (Option.some.inj hfill)
          exact ⟨(h.kept h₀).read (hshort.trans_le h.le) hread,
            fun hok => absurd hok Bool.false_ne_true⟩
        · rw [hread] at hfill
          exact ih (h.read hshort hread) hfill
    · obtain ⟨rfl, rfl⟩ := Prod.mk.inj (Option.some.inj hfill)
      exact ⟨h.kept h₀, fun _ => ⟨h, not_lt.mp hshort⟩⟩

/-- A receive that returns keeps the invariant. -/
theorem Runtime.RxKept.receive (h₀ : rt₀.RxKept) {frame? : Option Frame}
    (h : readFrameBuffered os rt₀ = some (frame?, rt')) : rt'.RxKept := by
  rw [readFrameBuffered] at h
  -- the header is filled, and behind an accepted header the payload
  rcases hfill : rxFill os headerSize (rt₀.rx.length + 1) rt₀ with _ | ⟨_ | _, rt₁⟩
  · simp [hfill] at h
  · rw [hfill] at h
    obtain ⟨-, rfl⟩ := Prod.mk.inj (Option.some.inj h)
    exact (Receiving.header.rxFill h₀ hfill).1
  obtain ⟨hkept₁, hrec⟩ := Receiving.header.rxFill h₀ hfill
  obtain ⟨hrec₁, hlong₁⟩ := hrec rfl
  simp only [hfill] at h
  split_ifs at h with hbad hbig
  · obtain ⟨-, rfl⟩ := Prod.mk.inj (Option.some.inj h)
    exact hkept₁.of_le le_rfl rfl fun _ ho => ho
  · obtain ⟨-, rfl⟩ := Prod.mk.inj (Option.some.inj h)
    exact hkept₁.of_le le_rfl rfl fun _ ho => ho
  rw [not_or, not_not, not_not] at hbad
  have hpayload := hrec₁.payload hlong₁ hbad.1 hbad.2 (not_lt.mp hbig)
  rw [show headerSize + (readLe32 (rt₁.rxBuf.drop 16)).toNat = frameEnd rt₁.rxBuf from rfl] at h
  rcases hfill₂ : rxFill os (frameEnd rt₁.rxBuf) (rt₁.rx.length + 1) rt₁ with _ | ⟨_ | _, rt₂⟩
  · simp [hfill₂] at h
  · rw [hfill₂] at h
    obtain ⟨-, rfl⟩ := Prod.mk.inj (Option.some.inj h)
    exact (hpayload.rxFill h₀ hfill₂).1
  have hkept₂ := (hpayload.rxFill h₀ hfill₂).1
  have hshorter : (rt₂.rxBuf.drop (frameEnd rt₁.rxBuf)).length ≤ rt₂.rxBuf.length := by
    rw [List.length_drop]
    exact Nat.sub_le ..
  rw [hfill₂] at h
  dsimp only at h
  split at h
  · obtain ⟨-, rfl⟩ := Prod.mk.inj (Option.some.inj h)
    exact hkept₂.of_le hshorter rfl fun _ ho => ho
  · obtain ⟨-, rfl⟩ := Prod.mk.inj (Option.some.inj h)
    exact hkept₂.of_le hshorter rfl fun _ ho => ho

end Receiving

/-! ### What a round preserves -/

private theorem closeEps_rx (rt : Runtime σ) :
    (closeEps rt).rxCap = rt.rxCap ∧ (closeEps rt).rx = rt.rx := by
  rcases rt with ⟨dev, _ | fdIn, _ | fdOut, buf, cap, shutdown, rx⟩ <;> exact ⟨rfl, rfl⟩

theorem Runtime.RxKept.closeEps {rt : Runtime σ} (h : rt.RxKept) :
    (UsbResponder.closeEps rt).RxKept :=
  h.of_le (Nat.zero_le _) (closeEps_rx rt).1 (by rw [(closeEps_rx rt).2]; exact fun _ ho => ho)

/-- Recording an event, and opening or closing an endpoint, are not receiving. -/
theorem Runtime.RxKept.of_eq {rt rt' : Runtime σ} (h : rt.RxKept) (hbuf : rt'.rxBuf = rt.rxBuf)
    (hcap : rt'.rxCap = rt.rxCap) (hrx : rt'.rx = rt.rx) : rt'.RxKept :=
  h.of_le (by rw [hbuf]) hcap (by rw [hrx]; exact fun _ ho => ho)

theorem Runtime.RxKept.processEp0Event {st : LoopState σ} (h : st.rt.RxKept) (event : Ep0Event) :
    (UsbResponder.processEp0Event st event).rt.RxKept := by
  have hrecord : (st.rt.record (.ep0 event)).RxKept := h.of_eq rfl rfl rfl
  cases event with
  | disable => exact hrecord.closeEps
  | unbind => exact hrecord.closeEps
  | _ => exact hrecord

theorem Runtime.RxKept.openEps {st : LoopState σ} (h : st.rt.RxKept) (r : Ready) :
    (UsbResponder.openEps r st).rt.RxKept := by
  rw [UsbResponder.openEps]
  cases r.openIn with
  | none => exact h.closeEps
  | some fdIn =>
    have hopened : ({ st.rt with epIn := some fdIn }.record (.opened .epIn fdIn)).RxKept :=
      h.of_eq rfl rfl rfl
    cases r.openOut with
    | none => exact hopened.closeEps
    | some fdOut => exact h.of_eq rfl rfl rfl

/-- The events of a round keep the invariant. -/
theorem Runtime.RxKept.ep0Round {st st' : LoopState σ} (h : st.rt.RxKept) {r : Ready}
    (hep0 : UsbResponder.ep0Round r st = some st') : st'.rt.RxKept := by
  rw [UsbResponder.ep0Round] at hep0
  rcases hread : r.ep0 with _ | read
  · rw [hread] at hep0
    exact Option.some.inj hep0 ▸ h
  rw [hread] at hep0
  dsimp only at hep0
  rcases hevents : processEp0Events read st with _ | st₁
  · simp [hevents] at hep0
  have hkept₁ : st₁.rt.RxKept := by
    rcases read with _ | _ | _ | events
    · exact Option.some.inj hevents ▸ h
    · exact absurd hevents (Option.some_ne_none st₁).symm
    · exact absurd hevents (Option.some_ne_none st₁).symm
    · obtain rfl := Option.some.inj hevents
      clear hep0 hevents hread
      induction events generalizing st with
      | nil => exact h
      | cons event events ih => exact ih (h.processEp0Event event)
  rw [hevents] at hep0
  obtain rfl := Option.some.inj hep0
  split_ifs
  · exact hkept₁.openEps r
  · exact hkept₁

/-- **A round keeps the invariant**, whichever way it ends. Closing the endpoints empties
the buffer and keeps its block. -/
theorem Runtime.RxKept.ioStep {st : LoopState σ} (h : st.rt.RxKept) (os : Os σ)
    (shell : ExecShell σ) (input : LoopInput) :
    (UsbResponder.ioStep os shell input st).state.rt.RxKept := by
  rcases hreceiving : receiving? input st with _ | st'
  · obtain hstate | ⟨r, st', -, hep0, hstate | hstate⟩ :=
      ioStep_of_not_receiving os shell hreceiving
    · rwa [hstate]
    · rw [hstate]
      exact h.ep0Round hep0
    · rw [hstate]
      exact (h.ep0Round hep0).closeEps
  obtain ⟨r, -, hep0⟩ := exists_ep0Round_of_receiving hreceiving
  have hkept := h.ep0Round hep0
  rw [ioStep_of_receiving os shell hreceiving, receiveRound]
  rcases hread : readFrameBuffered os st'.rt with _ | ⟨_ | frame, rt⟩
  · exact hkept
  · exact (hkept.receive hread).closeEps
  · exact (hkept.receive hread).of_eq rfl rfl rfl

/-! ### Every run -/

/-- **The receive buffer is bounded.** When no `read` returns more than the 16 KiB it is
asked for, then in every run the buffer stays within its capacity, its size below the
longest frame and one read, and its capacity below 16 MiB: in every round, in every state
`read_frame_buffered` goes through, before and after each of its reads, and in the state it
returns in. In each state in which it reads, `rx_reserve` for whatever the read returns ends
its doubling loop without overflow of 32 bits. -/
theorem receive_buffer_bounded (os : Os σ) (shell : ExecShell σ) (cfg : Config) (s : σ)
    (tx : List WriteOutcome) (rx : List RxOutcome) (inputs : List LoopInput)
    (hreads : ∀ bytes, .data bytes ∈ rx → bytes.length ≤ ioChunk) :
    let st := (runLoop os shell inputs (startState cfg s tx rx)).2
    st.rt.RxBounded ∧ ∀ input st', receiving? input st = some st' →
      (∀ n rt, Receiving os st'.rt n rt → rt.RxBounded ∧
        (rt.rxBuf.length < n →
          (∀ r ≤ ioChunk, ReserveSafe rt (rt.rxBuf.length + r) ∧
            (rxReserve rt (rt.rxBuf.length + r)).RxBounded) ∧
          ∀ ok rt', rxReadSome os rt = some (ok, rt') → rt'.RxBounded)) ∧
      ∀ frame? rt', readFrameBuffered os st'.rt = some (frame?, rt') → rt'.RxBounded := by
  intro st
  have hstart : (startState cfg s tx rx).rt.RxKept := ⟨le_rfl, Nat.zero_le _, .inl rfl, hreads⟩
  have hkept : st.rt.RxKept :=
    runLoop_induction os shell (P := fun st => st.rt.RxKept)
      (fun input _ h => h.ioStep os shell input) inputs hstart
  refine ⟨hkept.bounded, fun input st' hreceiving => ?_⟩
  obtain ⟨r, -, hep0⟩ := exists_ep0Round_of_receiving hreceiving
  have hkept' := hkept.ep0Round hep0
  refine ⟨fun n rt hrec => ?_, fun frame? rt' hread => (hkept'.receive hread).bounded⟩
  have hrt := hrec.kept hkept'
  refine ⟨hrt.bounded, fun hshort => ?_⟩
  have hadmitted : rt.rxBuf.length < headerSize + maxPayload := hshort.trans_le hrec.le
  refine ⟨fun r hr => ?_, fun ok rt' hread => (hrt.read hadmitted hread).bounded⟩
  have hfits : rt.rxBuf.length + r ≤ rxLimit := by
    rw [rxLimit]
    omega
  obtain ⟨hsafe, hdoubled, henough⟩ := hrt.cap.reserve hfits
  exact ⟨hsafe, (Nat.le_add_right ..).trans henough, hrt.size_le, hdoubled.le⟩

/-- `receive_buffer_bounded` for a `HELLO` that arrives in two pieces, after the first of
which the buffer holds ten bytes. -/
theorem receive_buffer_bounded_hello :
    ∃ rt₀ rt : Runtime Unit, Receiving (Os.failing Unit) rt₀ headerSize rt ∧
      rt.rxBuf.length = 10 ∧ rt.RxBounded := by
  let rx : List RxOutcome :=
    [.data ((encodeFrame helloFrame).take 10), .data ((encodeFrame helloFrame).drop 10)]
  have hreads : ∀ bytes, .data bytes ∈ rx → bytes.length ≤ ioChunk := by
    intro bytes hbytes
    obtain hfirst | hsecond : RxOutcome.data bytes = .data ((encodeFrame helloFrame).take 10) ∨
        RxOutcome.data bytes = .data ((encodeFrame helloFrame).drop 10) := by
      simpa [rx] using hbytes
    · rw [RxOutcome.data.inj hfirst]
      decide
    · rw [RxOutcome.data.inj hsecond]
      decide
  let st := (runLoop (Os.failing Unit) noShell [enableRound] (startOf rx)).2
  obtain ⟨-, hreceives⟩ := receive_buffer_bounded (Os.failing Unit) noShell ⟨0, 0, 0⟩ () [] rx
    [enableRound] hreads
  have hrec : Receiving (Os.failing Unit) st.rt headerSize _ :=
    .read .header (by decide) (show rxReadSome (Os.failing Unit) st.rt = some (true, _) from rfl)
  exact ⟨st.rt, _, hrec, by decide,
    ((hreceives (.ready { outReadable := true }) st rfl).1 headerSize _ hrec).1⟩

end UsbResponder
