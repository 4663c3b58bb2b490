import UsbResponder.Responder.Responses

/-!
# The writes of a frame

What `usb_responder_protocol_write_frame` hands to `write`, whatever the calls do. The frame
goes out in slices of at most 16 KiB, each in as many calls as it takes, and the calls
together have accepted a prefix of it (`Slices`); a zero-length packet is tried only when
all of the frame has been accepted and its length asks for one, and not again once it has
gone out (`write_frame_respects_slices`).

`Slices data ok writes` is a relation between data, a result and a list of calls, with a
rule for each way a loop can go on: more data behind data that was all accepted, a failure
for whatever is behind it, a call that takes some, and a call that takes nothing. The loops
of the source are matched to the rules one round at a time, so that the whole list of calls
is described at the end (`FrameWrites`).

The encoding is taken as it is; a frame whose length wraps around has no sensible encoding,
and is excluded.
-/

namespace UsbResponder

variable {σ : Type}

/-! ### Slices -/

/-- A `write` of some bytes, of no more than a slice, that takes no more than it is given. -/
def IoEvent.IsSlice : IoEvent → Prop
  | .write data accepted => data ≠ [] ∧ data.length ≤ ioChunk ∧ ∀ n ∈ accepted, n ≤ data.length
  | _ => False

/-- `writes` are the calls made for `data`: all are slices, what they have accepted is a
prefix of the data, and `ok` says whether it is all of it. Interrupted calls and calls that
take nothing are among them. -/
structure Slices (data : Bytes) (ok : Bool) (writes : List IoEvent) : Prop where
  slice : ∀ event ∈ writes, event.IsSlice
  part : sentBytes writes <+: data
  done : ok = true ↔ sentBytes writes = data

/-- No data, no calls. -/
theorem Slices.nil : Slices [] true [] where
  slice := by simp
  part := List.prefix_rfl
  done := iff_of_true rfl rfl

/-- The calls for some data, all accepted, and then those for the data behind it. -/
theorem Slices.append {data₁ data₂ : Bytes} {ok : Bool} {writes₁ writes₂ : List IoEvent}
    (h₁ : Slices data₁ true writes₁) (h₂ : Slices data₂ ok writes₂) :
    Slices (data₁ ++ data₂) ok (writes₁ ++ writes₂) where
  slice := by
    intro event hevent
    exact (List.mem_append.mp hevent).elim (h₁.slice event) (h₂.slice event)
  part := by
    rw [sentBytes_append, h₁.done.mp rfl]
    exact (List.prefix_append_right_inj data₁).mpr h₂.part
  done := by
    rw [sentBytes_append, h₁.done.mp rfl, List.append_cancel_left_eq]
    exact h₂.done

/-- Calls that have failed for some data have failed for it and whatever is behind it. The
loop does not go on then. -/
theorem Slices.fail {data₁ : Bytes} {writes : List IoEvent} (h : Slices data₁ false writes)
    (data₂ : Bytes) : Slices (data₁ ++ data₂) false writes where
  slice := h.slice
  part := h.part.trans (List.prefix_append data₁ data₂)
  done := by
    refine iff_of_false Bool.false_ne_true fun hall => Bool.false_ne_true (h.done.mpr ?_)
    have hle := h.part.length_le
    rw [hall, List.length_append] at hle
    exact h.part.eq_of_length (by rw [hall, List.length_append]; omega)

/-- A call that takes some of the data is all the calls for what it takes. -/
theorem Slices.accept {data : Bytes} (hne : data ≠ []) (hdata : data.length ≤ ioChunk) {n : ℕ}
    (hn : n ≤ data.length) : Slices (data.take n) true [.write data (some n)] where
  slice := by
    intro event hevent
    rw [List.mem_singleton.mp hevent]
    exact ⟨hne, hdata, fun m hm => Option.some.inj hm ▸ hn⟩
  part := by simp [sentBytes, IoEvent.sentBytes]
  done := by simp [sentBytes, IoEvent.sentBytes]

/-- A call that takes nothing leaves all the data. -/
theorem Slices.nothing {data : Bytes} (hne : data ≠ []) (hdata : data.length ≤ ioChunk)
    {accepted : Option ℕ} (h : accepted = none ∨ accepted = some 0) :
    Slices [] true [.write data accepted] ∧ Slices data false [.write data accepted] := by
  have hslice : ∀ event ∈ [IoEvent.write data accepted], event.IsSlice := by
    intro event hevent
    rw [List.mem_singleton.mp hevent]
    refine ⟨hne, hdata, fun n hn => ?_⟩
    obtain rfl | rfl := h
    · exact absurd hn (by simp)
    · exact Option.some.inj hn ▸ Nat.zero_le _
  have hsent : sentBytes [IoEvent.write data accepted] = [] := by
    obtain rfl | rfl := h <;> simp [sentBytes, IoEvent.sentBytes]
  exact ⟨⟨hslice, by rw [hsent], iff_of_true rfl hsent⟩,
    ⟨hslice, by rw [hsent]; exact List.nil_prefix,
      iff_of_false Bool.false_ne_true (by rw [hsent]; exact hne.symm)⟩⟩

/-! ### The loops -/

/-- `dev'` is `dev` with these calls at the end of its log. -/
def Device.Logged (dev dev' : Device σ) (writes : List IoEvent) : Prop :=
  dev'.log = dev.log ++ writes

/-- One call of `write`. -/
theorem Device.Logged.call (dev : Device σ) (data : Bytes) (accepted : Option ℕ) :
    dev.Logged (dev.record (.write data accepted)) [.write data accepted] := rfl

theorem Device.Logged.trans {dev₁ dev₂ dev₃ : Device σ} {writes₁ writes₂ : List IoEvent}
    (h₁ : dev₁.Logged dev₂ writes₁) (h₂ : dev₂.Logged dev₃ writes₂) :
    dev₁.Logged dev₃ (writes₁ ++ writes₂) := by
  rw [Logged, h₂, h₁, List.append_assoc]

/-- **One slice.** Its calls are each given what the ones before have left, from the start
of the data. -/
theorem writeFullLoop_slices (os : Os σ) (script : List WriteOutcome) {data : Bytes}
    (hdata : data.length ≤ ioChunk) (dev : Device σ) :
    ∃ writes, dev.Logged (writeFullLoop os script data dev).2 writes ∧
      Slices data (writeFullLoop os script data dev).1 writes := by
  induction script generalizing data dev with
  | nil =>
    cases data with
    | nil => exact ⟨[], (List.append_nil _).symm, .nil⟩
    | cons b data =>
      have hall := Slices.accept (List.cons_ne_nil b data) hdata le_rfl
      rw [List.take_length] at hall
      exact ⟨_, rfl, hall⟩
  | cons outcome script ih =>
    cases data with
    | nil => exact ⟨[], (List.append_nil _).symm, .nil⟩
    | cons b data =>
      have hne := List.cons_ne_nil b data
      cases outcome with
      | accept n =>
        rw [writeFullLoop]
        · split_ifs with hzero
          · -- a call that takes nothing ends the loop, as an error does
            rw [hzero]
            exact ⟨_, rfl, (Slices.nothing hne hdata (.inr rfl)).2⟩
          · have hrest : ((b :: data).drop (min n (b :: data).length)).length ≤ ioChunk := by
              rw [List.length_drop]
              omega
            obtain ⟨writes, hlogged, hslices⟩ := ih hrest
              (dev.record (.write (b :: data) (some (min n (b :: data).length))))
            have hboth := (Slices.accept hne hdata (min_le_right n _)).append hslices
            rw [List.take_append_drop] at hboth
            exact ⟨_, (Device.Logged.call ..).trans hlogged, hboth⟩
        · simp
      | eintr =>
        rw [writeFullLoop]
        · -- an interrupted call is made again for the same data
          obtain ⟨writes, hlogged, hslices⟩ := ih hdata (dev.record (.write (b :: data) none))
          exact ⟨_, (Device.Logged.call ..).trans hlogged,
            (Slices.nothing hne hdata (.inl rfl)).1.append hslices⟩
        · simp
      | error e =>
        rw [writeFullLoop]
        · exact ⟨_, rfl, (Slices.nothing hne hdata (.inl rfl)).2⟩
        · simp

/-- **All slices.** They are cut off the data one after the other, and a failure in one of
them ends them all. -/
theorem writeLimitedLoop_slices (os : Os σ) {fuel : ℕ} {data : Bytes} (dev : Device σ)
    (hfuel : data.length ≤ fuel) :
    ∃ writes, dev.Logged (writeLimitedLoop os fuel data dev).2 writes ∧
      Slices data (writeLimitedLoop os fuel data dev).1 writes := by
  induction fuel generalizing data dev with
  | zero =>
    obtain rfl := List.length_eq_zero_iff.mp (Nat.le_zero.mp hfuel)
    exact ⟨[], (List.append_nil _).symm, .nil⟩
  | succ fuel ih =>
    cases data with
    | nil => exact ⟨[], (List.append_nil _).symm, .nil⟩
    | cons b data =>
      have hslice : ((b :: data).take ioChunk).length ≤ ioChunk := List.length_take_le _ _
      obtain ⟨writes, hlogged, hslices⟩ := writeFullLoop_slices os dev.tx hslice dev
      rw [writeLimitedLoop]
      · rcases hrun : writeFull os ((b :: data).take ioChunk) dev with ⟨_ | _, dev₁⟩
        · rw [writeFull] at hrun
          rw [hrun] at hlogged hslices
          have hfail := hslices.fail ((b :: data).drop ioChunk)
          rw [List.take_append_drop] at hfail
          exact ⟨writes, hlogged, hfail⟩
        · rw [writeFull] at hrun
          rw [hrun] at hlogged hslices
          have hshorter : ((b :: data).drop ioChunk).length ≤ fuel := by
            rw [List.length_drop, ioChunk]
            omega
          obtain ⟨writes', hlogged', hslices'⟩ := ih dev₁ hshorter
          have hboth := hslices.append hslices'
          rw [List.take_append_drop] at hboth
          exact ⟨writes ++ writes', hlogged.trans hlogged', hboth⟩
      · simp

/-- The calls for a zero-length packet: `k` are interrupted, and the last one sends it or
fails. -/
def zlpWrites (k : ℕ) (ok : Bool) : List IoEvent :=
  List.replicate k (.write [] none) ++ [.write [] (if ok then some 0 else none)]

private theorem eq_of_mem_zlpWrites {k : ℕ} {ok : Bool} {event : IoEvent}
    (h : event ∈ zlpWrites k ok) :
    event = .write [] none ∨ event = .write [] (some 0) ∧ ok = true := by
  obtain h | h := List.mem_append.mp h
  · exact .inl (List.eq_of_mem_replicate h)
  · rw [List.mem_singleton] at h
    cases ok with
    | false => exact .inl h
    | true => exact .inr ⟨h, rfl⟩

/-- Nothing is accepted with a zero-length packet. -/
private theorem sentBytes_of_zlpWrites {k : ℕ} {ok : Bool} {writes : List IoEvent}
    (h : ∀ event ∈ writes, event ∈ zlpWrites k ok) : sentBytes writes = [] := by
  refine List.flatMap_eq_nil_iff.mpr fun event hevent => ?_
  obtain rfl | ⟨rfl, -⟩ := eq_of_mem_zlpWrites (h event hevent)
  · rfl
  · rfl

private theorem count_zlpWrites (k : ℕ) (ok : Bool) :
    (zlpWrites k ok).count (.write [] (some 0)) = if ok then 1 else 0 := by
  have hnone : (List.replicate k (IoEvent.write [] none)).count (.write [] (some 0)) = 0 := by
    rw [List.count_eq_zero]
    exact fun h => nomatch List.eq_of_mem_replicate h
  rw [zlpWrites, List.count_append, hnone, Nat.zero_add]
  cases ok <;> rfl

/-- **The zero-length packet.** It is tried until a call is not interrupted. -/
theorem writeZlpLoop_logged (os : Os σ) (script : List WriteOutcome) (dev : Device σ) :
    ∃ k, dev.Logged (writeZlpLoop os script dev).2
      (zlpWrites k (writeZlpLoop os script dev).1) := by
  induction script generalizing dev with
  | nil => exact ⟨0, rfl⟩
  | cons outcome script ih =>
    cases outcome with
    | accept n => exact ⟨0, rfl⟩
    | eintr =>
      obtain ⟨k, hlogged⟩ := ih (dev.record (.write [] none))
      exact ⟨k + 1, (Device.Logged.call dev [] none).trans hlogged⟩
    | error e => exact ⟨0, rfl⟩

/-! ### The frame -/

/-- The encoding of a frame whose size does not wrap has at least its header. -/
private theorem length_encodeFrame_pos {frame : Frame}
    (h : frame.header.payloadLen.toNat < 2 ^ 32 - 24) : 0 < (encodeFrame frame).length := by
  rw [encodeFrame, List.length_take, List.length_append, length_headerBytes,
    toNat_encodedSize (by omega), headerSize]
  omega

/-- `writes` are calls for `raw` as the rules ask for them, and `ok` is what is returned.
The fields are the conjuncts of the main result. -/
structure FrameWrites (raw : Bytes) (ok : Bool) (writes : List IoEvent) : Prop where
  /-- What has been accepted is a prefix. -/
  part : sentBytes writes <+: raw
  /-- No call asks for more than 16 KiB, or takes more than it is given. -/
  slice : ∀ event ∈ writes, ∃ data accepted, event = .write data accepted ∧
    data.length ≤ ioChunk ∧ ∀ n ∈ accepted, n ≤ data.length
  /-- A zero-length packet is tried only behind all bytes, and only if the length asks for it. -/
  zlp : ∀ pre accepted post, writes = pre ++ .write [] accepted :: post →
    sentBytes pre = raw ∧ 64 ∣ raw.length
  /-- The result says whether everything has gone out. -/
  done : ok = true ↔
    sentBytes writes = raw ∧ (64 ∣ raw.length → .write [] (some 0) ∈ writes)
  /-- No second zero-length packet goes out. -/
  once : writes.count (.write [] (some 0)) ≤ 1

private theorem bulkInNeedsZlp_iff {n : ℕ} (h : 0 < n) : bulkInNeedsZlp n = true ↔ 64 ∣ n := by
  rw [bulkInNeedsZlp, Bool.and_eq_true, decide_eq_true_iff, decide_eq_true_iff,
    and_iff_right h.ne', Nat.dvd_iff_mod_eq_zero]

section Rules

variable {raw : Bytes} {ok : Bool} {writes : List IoEvent}

private theorem Slices.zlp_notMem (h : Slices raw ok writes) (accepted : Option ℕ) :
    .write [] accepted ∉ writes := fun hmem => (h.slice _ hmem).1 rfl

private theorem Slices.exists_write (h : Slices raw ok writes) : ∀ event ∈ writes, ∃ data accepted,
    event = .write data accepted ∧ data.length ≤ ioChunk ∧ ∀ n ∈ accepted, n ≤ data.length := by
  intro event hevent
  have hslice := h.slice event hevent
  cases event with
  | write data accepted => exact ⟨data, accepted, rfl, hslice.2⟩
  | _ => exact hslice.elim

/-- The slices alone follow the rules when no zero-length packet is due, or a slice has
failed. -/
private theorem Slices.frameWrites (h : Slices raw ok writes) (hok : ok = true → ¬64 ∣ raw.length) :
    FrameWrites raw ok writes where
  part := h.part
  slice := h.exists_write
  zlp := by
    rintro pre accepted post rfl
    exact absurd (List.mem_append_right _ List.mem_cons_self) (h.zlp_notMem accepted)
  done := by
    constructor
    · exact fun htrue => ⟨h.done.mp htrue, fun hzlp => absurd hzlp (hok htrue)⟩
    · exact fun hall => h.done.mpr hall.1
  once := by rw [List.count_eq_zero.mpr (h.zlp_notMem _)]; exact Nat.zero_le 1

/-- The slices, all accepted, and then the zero-length packet that is due follow the rules. -/
private theorem Slices.frameWrites_append_zlp (h : Slices raw true writes) (hzlp : 64 ∣ raw.length)
    (k : ℕ) (ok : Bool) : FrameWrites raw ok (writes ++ zlpWrites k ok) := by
  have hall := h.done.mp rfl
  have hsent : sentBytes (zlpWrites k ok) = [] := sentBytes_of_zlpWrites fun _ hevent => hevent
  have hcount : (writes ++ zlpWrites k ok).count (.write [] (some 0)) = if ok then 1 else 0 := by
    rw [List.count_append, List.count_eq_zero.mpr (h.zlp_notMem _), count_zlpWrites, Nat.zero_add]
  refine ⟨?_, ?_, ?_, ?_, ?_⟩
  · rw [sentBytes_append, hall, hsent, List.append_nil]
  · intro event hevent
    obtain hevent | hevent := List.mem_append.mp hevent
    · exact h.exists_write event hevent
    · obtain rfl | ⟨rfl, -⟩ := eq_of_mem_zlpWrites hevent
      · exact ⟨[], none, rfl, Nat.zero_le _, by simp⟩
      · exact ⟨[], some 0, rfl, Nat.zero_le _, by simp⟩
  · -- the slices are in front of the attempt, since none of them is empty
    intro pre accepted post hsplit
    refine ⟨?_, hzlp⟩
    obtain ⟨rest, rfl, hrest⟩ | ⟨rest, rfl, hrest⟩ := List.append_eq_append_iff.mp hsplit
    · have hnothing : sentBytes rest = [] :=
        sentBytes_of_zlpWrites fun event hevent => hrest ▸ List.mem_append_left _ hevent
      rw [sentBytes_append, hall, hnothing, List.append_nil]
    · cases rest with
      | nil => rwa [List.append_nil] at hall
      | cons event rest =>
        obtain rfl := (List.cons.inj hrest).1
        exact absurd (List.mem_append_right _ List.mem_cons_self) (h.zlp_notMem accepted)
  · rw [sentBytes_append, hall, hsent, List.append_nil, and_iff_right rfl, ← List.count_pos_iff,
      hcount]
    cases ok with
    | false => exact iff_of_false Bool.false_ne_true fun hsome => absurd (hsome hzlp) (by simp)
    | true => exact iff_of_true rfl fun _ => by simp
  · rw [hcount]
    split_ifs <;> norm_num

end Rules

/-- **Writing a frame.** Take any frame whose encoding has less than 4 GiB, and any results
of the calls of `write`. The calls made for it follow the rules: what they have accepted is
a prefix of the encoding, each asks for at most 16 KiB, a zero-length packet is tried only
after all of the encoding has been accepted and only if its length is a multiple of 64, at
most one goes out, and the function returns true exactly if all of this has been done. -/
theorem write_frame_respects_slices (os : Os σ) {frame : Frame}
    (h : frame.header.payloadLen.toNat < 2 ^ 32 - 24) (dev : Device σ) :
    ∃ writes, (writeFrame os frame dev).2.log = dev.log ++ .sending frame :: writes ∧
      FrameWrites (encodeFrame frame) (writeFrame os frame dev).1 writes := by
  have hpos := length_encodeFrame_pos h
  obtain ⟨writes, hlogged, hslices⟩ := writeLimitedLoop_slices os (dev.record (.sending frame))
    (le_refl (encodeFrame frame).length)
  have hlog : ∀ {dev' : Device σ} {writes}, (dev.record (.sending frame)).Logged dev' writes →
      dev'.log = dev.log ++ .sending frame :: writes := by
    intro dev' writes hlogged
    rw [hlogged, Device.record, List.append_assoc, List.singleton_append]
  rw [writeFrame, writeLimited]
  rcases hrun : writeLimitedLoop os (encodeFrame frame).length (encodeFrame frame)
    (dev.record (.sending frame)) with ⟨_ | _, dev₁⟩
  · -- the loop has failed, and no zero-length packet is tried
    rw [hrun] at hlogged hslices
    exact ⟨writes, hlog hlogged, hslices.frameWrites fun hok => absurd hok Bool.false_ne_true⟩
  · rw [hrun] at hlogged hslices
    dsimp only
    split_ifs with hneeds
    · obtain ⟨k, hzlp⟩ := writeZlpLoop_logged os dev₁.tx dev₁
      exact ⟨_, hlog (hlogged.trans hzlp), hslices.frameWrites_append_zlp
        ((bulkInNeedsZlp_iff hpos).mp hneeds) k _⟩
    · exact ⟨writes, hlog hlogged, hslices.frameWrites fun _ hdvd =>
        hneeds ((bulkInNeedsZlp_iff hpos).mpr hdvd)⟩

/-- `write_frame_respects_slices` for a response of 64 bytes, whose zero-length packet is
interrupted once. -/
theorem write_frame_respects_slices_zlp :
    let frame := responseFrame .status 1 (List.replicate 40 0)
    let dev : Device Unit := { bootDevice with tx := [.accept 3, .accept 61, .eintr] }
    ∃ writes, (writeFrame (Os.failing Unit) frame dev).2.log = .sending frame :: writes ∧
      FrameWrites (encodeFrame frame) (writeFrame (Os.failing Unit) frame dev).1 writes :=
  write_frame_respects_slices (Os.failing Unit) (by decide) _

end UsbResponder
