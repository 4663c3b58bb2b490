import UsbResponder.Responder.HostTransfers

/-!
# Host and device on unbuffered endpoints

The endpoints hold nothing: a packet passes from a writer to a reader that is in its call,
so a write lasts until the other side has read it. Host and device alternate on both
endpoints. The host writes a request, closed with an empty packet when its length is a
multiple of the packet size, and reads until it has the bytes of the response; the device
reads 16 KiB at a time until it has a request, and writes the response, with an empty packet
behind it when the length is a multiple of 64. What a party computes between two of its
calls is not seen by the other, so a state of the two holds the calls they are in.

The host stops reading with the last byte of a response, or, when the response is longer
than 8 MiB, with its header, and the device stops reading with the last byte of a request.
`deadlockFree_iff` says exactly when host and device come to wait for each other in writes.

`Parties.step` is deterministic, because a packet can pass at most one way at a time; so a
run is followed step by step, and a property of all states ahead is moved back along a step
(`deadlockFree_of_step`). The packets of a request pass by an induction on the part still to
be taken, with what the device has got as the invariant, and so do those of a response. The
transactions are then an induction on their list: what a response leaves behind decides
about the next request.

Time-outs and a host that gives up are not modelled, nor is a cable that is pulled out.
-/

namespace UsbResponder

open LittleEndian Framing BulkTransfer

variable {σ : Type}

/-! ### The calls of the two parties -/

/-- The calls of `write` for a response, when each takes all that it is given. -/
def responseWrites (raw : Bytes) : List Bytes :=
  slices ioChunk raw.length raw ++ if bulkInNeedsZlp raw.length then [[]] else []

/-- The call a party is in: a write of which these packets have not been read, a read of
`size` bytes that has got some, or none, because it has nothing more to do. A write of no
packets is over. -/
inductive EndpointCall
  | write (packets : List Bytes)
  | read (size : ℕ) (got : Bytes)
  | none

/-- The host: its call, `_rxbuf`, and the requests it still has to send. -/
structure HostParty where
  call : EndpointCall
  rxbuf : Bytes
  requests : List Host.Frame

/-- The device: its call, the receive buffer, and the responses it will give. -/
structure DeviceParty where
  call : EndpointCall
  rxBuf : Bytes
  responses : List Frame

/-- The host and the device, each with the call it is in and what it still has to do after
it. -/
structure Parties where
  host : HostParty
  device : DeviceParty

/-- `_send_frame` for the next request. A frame that is not encoded raises an exception. -/
def HostParty.send (mps : ℕ) (rxbuf : Bytes) : List Host.Frame → HostParty
  | [] => ⟨.none, rxbuf, []⟩
  | f :: fs =>
    match Host.sendFrame mps f with
    | .error _ => HostParty.send mps rxbuf fs
    | .ok writes => ⟨.write (writes.flatMap (packets mps)), rxbuf, fs⟩

/-- What `_recv_frame` asks `_read_some` for when the buffer holds no whole frame. -/
def recvMissing (rxbuf : Bytes) : ℕ :=
  if rxbuf.length < 24 then 24 - rxbuf.length
  else 24 + leNat (((rxbuf.take 24).drop 16).take 4) - rxbuf.length

/-- `_recv_frame` up to its next read, of at least a packet. When it returns or raises an
exception, the next request is sent. -/
def HostParty.receive (mps : ℕ) (rxbuf : Bytes) (requests : List Host.Frame) : HostParty :=
  match Host.Client.recvFrame ⟨rxbuf, []⟩ with
  | none => ⟨.read (max (recvMissing rxbuf) mps) [], rxbuf, requests⟩
  | some (_, c) => HostParty.send mps c.rxbuf requests

/-- `read_frame_buffered` up to its next read, and `handle_frame`. A frame that is refused
makes the loop close the endpoints. -/
def DeviceParty.receive (mps : ℕ) (rxBuf : Bytes) (responses : List Frame) : DeviceParty :=
  match requestFormat.next rxBuf, responses with
  | .more, _ => ⟨.read ioChunk [], rxBuf, responses⟩
  | .item _ rest, resp :: responses =>
    ⟨.write ((responseWrites (encodeFrame resp)).flatMap (packets mps)), rest, responses⟩
  | _, _ => ⟨.none, [], responses⟩

/-- A packet the host was writing has been read. -/
def HostParty.packetTaken (mps : ℕ) (h : HostParty) : HostParty :=
  match h.call with
  | .write (_ :: ps) =>
    if ps = [] then HostParty.receive mps h.rxbuf h.requests else { h with call := .write ps }
  | _ => h

/-- A packet the device was writing has been read. -/
def DeviceParty.packetTaken (mps : ℕ) (d : DeviceParty) : DeviceParty :=
  match d.call with
  | .write (_ :: ps) =>
    if ps = [] then DeviceParty.receive mps d.rxBuf d.responses else { d with call := .write ps }
  | _ => d

/-- A packet for the read the host is in. A read that is complete without a byte is
repeated. -/
def HostParty.packetRead (mps : ℕ) (packet : Bytes) (h : HostParty) : HostParty :=
  match h.call with
  | .read size got =>
    if size ≤ (got ++ packet).length ∨ packet.length < mps then
      if got ++ packet = [] then { h with call := .read size [] }
      else HostParty.receive mps (h.rxbuf ++ (got ++ packet)) h.requests
    else { h with call := .read size (got ++ packet) }
  | _ => h

/-- A packet for the read the device is in. A read that is complete without a byte is the
end of the stream. -/
def DeviceParty.packetRead (mps : ℕ) (packet : Bytes) (d : DeviceParty) : DeviceParty :=
  match d.call with
  | .read size got =>
    if size ≤ (got ++ packet).length ∨ packet.length < mps then
      if got ++ packet = [] then { d with call := .none, rxBuf := [] }
      else DeviceParty.receive mps (d.rxBuf ++ (got ++ packet)) d.responses
    else { d with call := .read size (got ++ packet) }
  | _ => d

/-- A packet passes from a party that writes to the other one, when that one reads. Where
there is no such packet, there is no step. -/
def Parties.step (mps : ℕ) (s : Parties) : Option Parties :=
  match s.host.call, s.device.call with
  | .write (p :: _), .read _ _ =>
    some ⟨s.host.packetTaken mps, s.device.packetRead mps p⟩
  | .read _ _, .write (p :: _) =>
    some ⟨s.host.packetRead mps p, s.device.packetTaken mps⟩
  | _, _ => none

/-- Both parties are in a write, and each waits for the other to read. Nothing that either
could do changes this. -/
def Parties.Deadlocked (s : Parties) : Prop :=
  ∃ ps qs, s.host.call = .write ps ∧ s.device.call = .write qs

/-- No state that is reached from `s` has both parties in a write. A state in which a party
waits in a read for something that will not come is not called a deadlock here. -/
def Parties.DeadlockFree (mps : ℕ) (s : Parties) : Prop :=
  ∀ s', Relation.ReflTransGen (fun s₁ s₂ => s₁.step mps = some s₂) s s' → ¬s'.Deadlocked

/-- A request the device accepts, and a response of any size whose length field is right.
What the response says plays no role. -/
structure Transaction where
  request : Host.Frame
  response : Frame
  encodes : request.encode = .ok request.raw
  request_le : request.payload.length ≤ maxPayload
  response_len : response.header.payloadLen.toNat = response.payload.length
  response_le : response.payload.length ≤ 2 ^ 32 - 25

/-- The host is about to send the first of some requests, and the device waits for it. -/
def Parties.start (mps : ℕ) (ts : List Transaction) : Parties :=
  ⟨HostParty.send mps [] (ts.map Transaction.request),
    DeviceParty.receive mps [] (ts.map Transaction.response)⟩

/-- `usb_responder_protocol_write_frame` makes these calls when each of them takes all. -/
theorem writeFrame_log_of_unlimited (os : Os σ) (frame : Frame) {dev : Device σ}
    (h : dev.tx = []) :
    (writeFrame os frame dev).2.log = dev.log ++ .sending frame ::
      (responseWrites (encodeFrame frame)).map fun data => .write data (some data.length) := by
  -- without a script every call takes all it is given, so there is one call a chunk
  have hloop : ∀ (fuel : ℕ) (data : Bytes) (dev : Device σ), dev.tx = [] →
      data.length ≤ fuel →
      ∃ dev', writeLimitedLoop os fuel data dev = (true, dev') ∧ dev'.tx = [] ∧
        dev'.log = dev.log ++ (slices ioChunk fuel data).map fun data =>
          .write data (some data.length) := by
    intro fuel
    induction fuel with
    | zero =>
      intro data dev htx hdata
      obtain rfl := List.length_eq_zero_iff.mp (Nat.le_zero.mp hdata)
      exact ⟨dev, rfl, htx, (List.append_nil _).symm⟩
    | succ fuel ih =>
      intro data dev htx hdata
      rcases data with _ | ⟨b, data⟩
      · exact ⟨dev, rfl, htx, (List.append_nil _).symm⟩
      obtain ⟨part, hpart⟩ : ∃ part, part = (b :: data).take ioChunk := ⟨_, rfl⟩
      have hne : part ≠ [] := by
        rw [hpart]
        simp [ioChunk]
      have hwrite : writeFull os part dev =
          (true, { dev with tx := [] }.record (.write part (some part.length))) := by
        rw [writeFull, htx]
        rcases part with _ | ⟨c, part⟩
        · exact absurd rfl hne
        · rfl
      obtain ⟨dev', hrun, htx', hlog⟩ := ih ((b :: data).drop ioChunk)
        ({ dev with tx := [] }.record (.write part (some part.length))) rfl (by
          rw [List.length_drop, ioChunk]
          omega)
      refine ⟨dev', ?_, htx', ?_⟩
      · rw [writeLimitedLoop, ← hpart, hwrite]
        · exact hrun
        · simp
      · rw [hlog, slices, Device.record, List.map_cons, ← hpart, List.append_assoc]
        · rfl
        · simp
  obtain ⟨dev', hrun, htx', hlog⟩ := hloop (encodeFrame frame).length (encodeFrame frame)
    (dev.record (.sending frame)) h le_rfl
  rw [writeFrame, writeLimited, hrun, responseWrites]
  dsimp only
  split_ifs with hzlp
  · rw [writeZlp, htx', writeZlpLoop, List.map_append, ← List.cons_append, ← List.append_assoc]
    rw [Device.record, hlog, Device.record, List.append_assoc]
    rfl
  · rw [hlog, Device.record, List.append_nil, List.append_assoc]
    rfl

/-! ### Following a run -/

section Runs

variable {mps : ℕ} {s s' : Parties}

/-- A step does not change whether a deadlock is ahead, since the state before it is none
itself. -/
private theorem Parties.deadlockFree_of_step (h : s.step mps = some s') :
    s.DeadlockFree mps ↔ s'.DeadlockFree mps := by
  have hnot : ¬s.Deadlocked := by
    rintro ⟨ps, qs, hhost, hdevice⟩
    rw [Parties.step, hhost, hdevice] at h
    rcases ps with _ | ⟨p, ps⟩ <;> simp at h
  refine ⟨fun hfree t ht => hfree t (.head h ht), fun hfree t ht => ?_⟩
  obtain rfl | ⟨s₁, hstep, hrest⟩ := Relation.ReflTransGen.cases_head ht
  · exact hnot
  · -- the step is the only one there is
    rw [h] at hstep
    obtain rfl := Option.some.inj hstep
    exact hfree t hrest

private theorem Parties.not_deadlockFree_of_deadlocked (h : s.Deadlocked) : ¬s.DeadlockFree mps :=
  fun hfree => hfree s .refl h

/-- A host that has nothing more to do is not in a write. -/
private theorem Parties.deadlockFree_of_none (h : s.host.call = .none) : s.DeadlockFree mps := by
  have hstep : s.step mps = none := by rw [Parties.step, h]
  intro t ht
  obtain rfl | ⟨s₁, hsome, -⟩ := Relation.ReflTransGen.cases_head ht
  · rintro ⟨ps, qs, hhost, -⟩
    rw [h] at hhost
    simp at hhost
  · rw [hstep] at hsome
    simp at hsome

end Runs

/-! ### A request -/

section Request

variable {mps : ℕ} {raw : Bytes} {frame resp : Frame} {requests : List Host.Frame}
  {responses : List Frame}

/-- The device has read a whole request. -/
private theorem DeviceParty.receive_of_item (h : requestFormat.next raw = .item frame []) :
    DeviceParty.receive mps raw (resp :: responses) =
      ⟨.write ((responseWrites (encodeFrame resp)).flatMap (packets mps)), [], responses⟩ := by
  simp only [DeviceParty.receive, h]

/-- The device has not read a whole request. -/
private theorem DeviceParty.receive_of_prefix (h : requestFormat.next raw = .item frame [])
    {buf : Bytes} (hpre : buf <+: raw) (hne : buf ≠ raw) :
    DeviceParty.receive mps buf responses = ⟨.read ioChunk [], buf, responses⟩ := by
  simp only [DeviceParty.receive, requestFormat.next_of_prefix h hpre hne]

section Packets

variable {rxBuf got p : Bytes} {tail : List Bytes}

/-- A packet with which the device's read is complete. -/
private theorem Parties.step_of_complete (hdone : ioChunk ≤ (got ++ p).length ∨ p.length < mps)
    (hne : got ++ p ≠ []) :
    Parties.step mps ⟨⟨.write (p :: tail), [], requests⟩, ⟨.read ioChunk got, rxBuf, responses⟩⟩ =
      some ⟨if tail = [] then HostParty.receive mps [] requests else ⟨.write tail, [], requests⟩,
        DeviceParty.receive mps (rxBuf ++ (got ++ p)) responses⟩ := by
  simp only [Parties.step, HostParty.packetTaken, DeviceParty.packetRead, if_pos hdone, if_neg hne]

/-- A packet after which the device goes on reading. -/
private theorem Parties.step_of_partial (hpart : ¬(ioChunk ≤ (got ++ p).length ∨ p.length < mps))
    (htail : tail ≠ []) :
    Parties.step mps ⟨⟨.write (p :: tail), [], requests⟩, ⟨.read ioChunk got, rxBuf, responses⟩⟩ =
      some ⟨⟨.write tail, [], requests⟩, ⟨.read ioChunk (got ++ p), rxBuf, responses⟩⟩ := by
  simp only [Parties.step, HostParty.packetTaken, DeviceParty.packetRead, if_neg hpart,
    if_neg htail]

/-- The last packet of a request, when it is short. -/
private theorem Parties.deadlockFree_short_packet (hshort : p.length < mps) (hne : got ++ p ≠ [])
    (heq : rxBuf ++ (got ++ p) = raw) :
    Parties.DeadlockFree mps
        ⟨⟨.write [p], [], requests⟩, ⟨.read ioChunk got, rxBuf, responses⟩⟩ ↔
      Parties.DeadlockFree mps
        ⟨HostParty.receive mps [] requests, DeviceParty.receive mps raw responses⟩ := by
  rw [Parties.deadlockFree_of_step (Parties.step_of_complete (.inr hshort) hne), if_pos rfl, heq]

end Packets

/-- Something is left of a transfer behind a full packet. -/
private theorem closedPackets_ne_nil (hpos : 0 < mps) (data : Bytes) :
    (slices mps data.length data ++ if mps ∣ data.length then [[]] else []) ≠ [] := by
  by_cases hnil : data = []
  · simp [hnil]
  · rw [slices_eq_cons hpos hnil]
    simp

/-- **A request passes** unless its length is a multiple of 16 KiB: then the last read of
the device is full before the packet that closes the transfer, and the device writes while
the host does. The induction is on the part of the request that is still to be taken; the
reads that are complete hold a multiple of 16 KiB. -/
theorem Parties.deadlockFree_writing (hmps : mps ∣ ioChunk)
    (hraw : requestFormat.next raw = .item frame []) (data : Bytes) :
    ∀ rxBuf got : Bytes, rxBuf ++ (got ++ data) = raw → ioChunk ∣ rxBuf.length →
      got.length < ioChunk → mps ∣ got.length → (data = [] → got ≠ []) →
      (Parties.DeadlockFree mps
        ⟨⟨.write (slices mps data.length data ++ if mps ∣ data.length then [[]] else []), [],
          requests⟩, ⟨.read ioChunk got, rxBuf, resp :: responses⟩⟩ ↔
        ¬ioChunk ∣ raw.length ∧ Parties.DeadlockFree mps ⟨HostParty.receive mps [] requests,
          DeviceParty.receive mps raw (resp :: responses)⟩) := by
  have hpos : 0 < mps := Nat.pos_of_dvd_of_pos hmps (by decide)
  obtain ⟨k, hk⟩ : ∃ k, data.length = k := ⟨_, rfl⟩
  induction k using Nat.strong_induction_on generalizing data with
  | _ k ih =>
    intro rxBuf got heq hbuf hgot hgotmps hnonempty
    have hlength : raw.length = rxBuf.length + (got.length + data.length) := by
      rw [← heq, List.length_append, List.length_append]
    by_cases hempty : data = []
    · -- the packet that closes the transfer
      subst hempty
      have hgotpos : 0 < got.length := List.length_pos_iff.mpr (hnonempty rfl)
      have hnot : ¬ioChunk ∣ raw.length := by
        rw [hlength, List.length_nil, Nat.add_zero, Nat.dvd_add_right hbuf]
        exact Nat.not_dvd_of_pos_of_lt hgotpos hgot
      rw [and_iff_right hnot]
      exact Parties.deadlockFree_short_packet hpos (by simpa using hnonempty rfl) heq
    have hslices := slices_eq_cons hpos hempty
    by_cases hshort : data.length < mps
    · -- the last packet is short
      have hnotmps : ¬mps ∣ data.length :=
        Nat.not_dvd_of_pos_of_lt (List.length_pos_iff.mpr hempty) hshort
      have hnot : ¬ioChunk ∣ raw.length := by
        intro hdvd
        refine hnotmps ((Nat.dvd_add_right hgotmps).mp
          ((Nat.dvd_add_right (hmps.trans hbuf)).mp ?_))
        rw [← hlength]
        exact hmps.trans hdvd
      rw [and_iff_right hnot, hslices, List.take_of_length_le hshort.le,
        List.drop_eq_nil_of_le hshort.le, if_neg hnotmps]
      exact Parties.deadlockFree_short_packet hshort (by simp [hempty]) heq
    · -- a full packet, which is followed by another one
      obtain ⟨p, hp⟩ : ∃ p, p = data.take mps := ⟨_, rfl⟩
      obtain ⟨rest, hrest⟩ : ∃ rest, rest = data.drop mps := ⟨_, rfl⟩
      have hplen : p.length = mps := by
        rw [hp, List.length_take]
        omega
      have hrestlen : rest.length = data.length - mps := by rw [hrest, List.length_drop]
      have hmod : mps ∣ data.length ↔ mps ∣ rest.length := by
        rw [hrestlen]
        exact (Nat.dvd_sub_iff_left (not_lt.mp hshort) dvd_rfl).symm
      have heq' : (rxBuf ++ (got ++ p)) ++ rest = raw := by
        rw [← heq, hp, hrest, List.append_assoc, List.append_assoc, List.take_append_drop]
      have hgotlen : (got ++ p).length = got.length + mps := by rw [List.length_append, hplen]
      have hdvd : mps ∣ (got ++ p).length := hgotlen ▸ (Nat.dvd_add_right hgotmps).mpr dvd_rfl
      have hsum : (got ++ p).length ≤ ioChunk :=
        Nat.le_of_lt_add_of_dvd (by omega) hdvd hmps
      have htail := closedPackets_ne_nil hpos rest
      simp only [hslices, ← hp, ← hrest, List.cons_append, hmod]
      by_cases hfull : ioChunk ≤ (got ++ p).length
      · -- the read is complete
        have hne : got ++ p ≠ [] := List.ne_nil_of_length_pos (by omega)
        have hbuf' : ioChunk ∣ (rxBuf ++ (got ++ p)).length := by
          rw [List.length_append, le_antisymm hsum hfull]
          exact (Nat.dvd_add_right hbuf).mpr dvd_rfl
        rw [Parties.deadlockFree_of_step (Parties.step_of_complete (.inl hfull) hne),
          if_neg htail]
        by_cases hnil : rest = []
        · -- it was the last of a multiple of 16 KiB
          rw [hnil, List.append_nil] at heq'
          rw [heq'] at hbuf' ⊢
          refine iff_of_false (Parties.not_deadlockFree_of_deadlocked ?_) (fun h => h.1 hbuf')
          rw [DeviceParty.receive_of_item hraw]
          exact ⟨_, _, rfl, rfl⟩
        · have hneraw : rxBuf ++ (got ++ p) ≠ raw := by
            intro hall
            rw [hall] at heq'
            exact hnil (List.append_right_eq_self.mp heq')
          rw [DeviceParty.receive_of_prefix hraw ⟨rest, heq'⟩ hneraw]
          exact ih rest.length (by omega) rest rfl _ [] heq' hbuf' (by decide) (dvd_zero _)
            (fun h => absurd h hnil)
      · rw [Parties.deadlockFree_of_step (Parties.step_of_partial (by omega) htail)]
        refine ih rest.length (by omega) rest rfl rxBuf (got ++ p) ?_ hbuf (by omega) hdvd ?_
        · rw [← heq', List.append_assoc, List.append_assoc, List.append_assoc]
        · intro _
          exact List.ne_nil_of_length_pos (by omega)

end Request

/-! ### A response -/

section Response

variable {mps : ℕ} {f : Host.Frame} {requests : List Host.Frame} {responses : List Frame}

/-- The device after the packets of a response but these: it is still in the write of what
is left, or reads the next request. -/
def DeviceParty.leaving (mps : ℕ) (ps : List Bytes) (responses : List Frame) : DeviceParty :=
  if ps = [] then DeviceParty.receive mps [] responses else ⟨.write ps, [], responses⟩

/-- The host has not read anything of a response. -/
private theorem HostParty.receive_nil (hmps : 24 ≤ mps) :
    HostParty.receive mps [] requests = ⟨.read mps [], [], requests⟩ := by
  have hrecv : Host.Client.recvFrame ⟨[], []⟩ = none := by rw [Host.Client.recvFrame_nil]; rfl
  simp only [HostParty.receive, hrecv]
  rw [show recvMissing [] = 24 from rfl, max_eq_right hmps]

/-- The length field, in a buffer with the header of a response. -/
private theorem leNat_of_prefix (hf : f.encode = .ok f.raw) {buf : Bytes} (hbuf : buf <+: f.raw)
    (hheader : 24 ≤ buf.length) : leNat (((buf.take 24).drop 16).take 4) = f.payload.length := by
  obtain ⟨-, -, -, hlen, -⟩ := Host.Frame.encode_eq_ok_iff.mp hf
  obtain ⟨t, ht⟩ := hbuf
  have hfield := Host.Frame.leNat_raw_append hlen []
  rwa [List.append_nil, ← ht, List.take_append_of_le_length hheader] at hfield

/-- A response that is longer than 8 MiB is given up at its header. -/
private theorem HostParty.receive_of_big (hf : f.encode = .ok f.raw)
    (hbig : Host.maxPayload < f.payload.length) {buf : Bytes} (hbuf : buf <+: f.raw)
    (hheader : 24 ≤ buf.length) :
    HostParty.receive mps buf requests = HostParty.send mps buf requests := by
  have hrecv : Host.Client.recvFrame ⟨buf, []⟩ =
      some (.error (.valueError "payload too large"), ⟨buf, []⟩) := by
    rw [Host.Client.recvFrame_nil, if_neg (by omega), leNat_of_prefix hf hbuf hheader]
    exact if_pos hbig
  simp only [HostParty.receive, hrecv]

/-- Any other response is complete with its last byte. -/
private theorem HostParty.receive_of_whole (hf : f.encode = .ok f.raw)
    (hsmall : f.payload.length ≤ Host.maxPayload) :
    HostParty.receive mps f.raw requests = HostParty.send mps [] requests := by
  have hlength : f.raw.length = 24 + f.payload.length := Host.Frame.length_raw f
  have hrecv : Host.Client.recvFrame ⟨f.raw, []⟩ = some (.ok f, ⟨[], []⟩) := by
    rw [Host.Client.recvFrame_nil, if_neg (by omega),
      leNat_of_prefix hf List.prefix_rfl (by omega)]
    dsimp only
    rw [if_neg (by omega), if_neg (by omega), ← hlength, List.take_length, List.drop_length,
      Host.Frame.decodeFrame_raw hf (by rw [Host.maxPayload] at hsmall; omega)]
  simp only [HostParty.receive, hrecv]

/-- The host asks for what is missing. -/
private theorem HostParty.receive_of_part (hf : f.encode = .ok f.raw)
    (hsmall : f.payload.length ≤ Host.maxPayload) {buf : Bytes} (hbuf : buf <+: f.raw)
    (hheader : 24 ≤ buf.length) (hpart : buf.length < f.raw.length) :
    HostParty.receive mps buf requests =
      ⟨.read (max (f.raw.length - buf.length) mps) [], buf, requests⟩ := by
  have hlength : f.raw.length = 24 + f.payload.length := Host.Frame.length_raw f
  have hfield := leNat_of_prefix hf hbuf hheader
  have hrecv : Host.Client.recvFrame ⟨buf, []⟩ = none := by
    rw [Host.Client.recvFrame_nil, if_neg (by omega), hfield]
    dsimp only
    rw [if_neg (by omega), if_pos (by omega)]
  simp only [HostParty.receive, hrecv]
  rw [recvMissing, if_neg (by omega), hfield, hlength]

/-- The packets of a response. -/
private theorem packets_responseWrites (hpos : 0 < mps) (hmps : mps ∣ ioChunk) (raw : Bytes) :
    (responseWrites raw).flatMap (packets mps) = slices mps raw.length raw ++
      if bulkInNeedsZlp raw.length then [[]] else [] := by
  rw [responseWrites, List.flatMap_append, flatMap_packets_slices hpos (by decide) hmps]
  split_ifs <;> rfl

/-- The last read of a response takes what is missing, and nothing behind it. The induction
is on the part that is still to be taken. -/
private theorem Parties.deadlockFree_last_read (hpos : 0 < mps) (hf : f.encode = .ok f.raw)
    (hsmall : f.payload.length ≤ Host.maxPayload) {buf : Bytes} (ps : List Bytes) (data : Bytes) :
    ∀ got : Bytes, buf ++ (got ++ data) = f.raw → data ≠ [] →
      (Parties.DeadlockFree mps
        ⟨⟨.read (max (f.raw.length - buf.length) mps) got, buf, requests⟩,
          ⟨.write (slices mps data.length data ++ ps), [], responses⟩⟩ ↔
        Parties.DeadlockFree mps
          ⟨HostParty.send mps [] requests, DeviceParty.leaving mps ps responses⟩) := by
  obtain ⟨k, hk⟩ : ∃ k, data.length = k := ⟨_, rfl⟩
  induction k using Nat.strong_induction_on generalizing data with
  | _ k ih =>
    intro got heq hne
    have hlength : f.raw.length = buf.length + (got.length + data.length) := by
      rw [← heq, List.length_append, List.length_append]
    rw [slices_eq_cons hpos hne, List.cons_append]
    by_cases hlast : data.length ≤ mps
    · -- the packet holds all that is missing, and ends the read and the response
      have hcond : max (f.raw.length - buf.length) mps ≤ (got ++ data).length ∨
          data.length < mps := by
        rw [List.length_append]
        omega
      have hdrop : slices mps (data.drop mps).length (data.drop mps) = [] := by
        rw [List.drop_eq_nil_of_le hlast]
        rfl
      rw [List.take_of_length_le hlast, hdrop, List.nil_append]
      refine Parties.deadlockFree_of_step ?_
      simp only [Parties.step, HostParty.packetRead, DeviceParty.packetTaken, if_pos hcond,
        List.append_eq_nil_iff, hne, and_false, if_false, heq,
        HostParty.receive_of_whole hf hsmall, DeviceParty.leaving]
    · -- a full packet that leaves something to take ends neither
      have htake : (data.take mps).length = mps := by
        rw [List.length_take]
        omega
      have hcond : ¬(max (f.raw.length - buf.length) mps ≤ (got ++ data.take mps).length ∨
          (data.take mps).length < mps) := by
        rw [List.length_append, htake]
        omega
      have hrest : data.drop mps ≠ [] := by
        rw [Ne, List.drop_eq_nil_iff]
        omega
      have hmore : slices mps (data.drop mps).length (data.drop mps) ++ ps ≠ [] := by
        rw [slices_eq_cons hpos hrest]
        simp
      have hstep : Parties.step mps
          ⟨⟨.read (max (f.raw.length - buf.length) mps) got, buf, requests⟩,
            ⟨.write (data.take mps ::
              (slices mps (data.drop mps).length (data.drop mps) ++ ps)), [], responses⟩⟩ =
          some ⟨⟨.read (max (f.raw.length - buf.length) mps) (got ++ data.take mps), buf,
            requests⟩, ⟨.write (slices mps (data.drop mps).length (data.drop mps) ++ ps), [],
              responses⟩⟩ := by
        simp only [Parties.step, HostParty.packetRead, DeviceParty.packetTaken, if_neg hcond,
          if_neg hmore]
      rw [Parties.deadlockFree_of_step hstep]
      refine ih (data.drop mps).length (by rw [List.length_drop]; omega) _ rfl _ ?_ hrest
      rw [List.append_assoc, List.take_append_drop, heq]

/-- The first read of a response takes its first packet. -/
private theorem Parties.deadlockFree_first_read (hmps : 24 ≤ mps) (hdvd : mps ∣ ioChunk) :
    Parties.DeadlockFree mps ⟨HostParty.receive mps [] requests,
        ⟨.write ((responseWrites f.raw).flatMap (packets mps)), [], responses⟩⟩ ↔
      Parties.DeadlockFree mps ⟨HostParty.receive mps (f.raw.take mps) requests,
        DeviceParty.leaving mps (slices mps (f.raw.drop mps).length (f.raw.drop mps) ++
          if bulkInNeedsZlp f.raw.length then [[]] else []) responses⟩ := by
  have hlength : f.raw.length = 24 + f.payload.length := Host.Frame.length_raw f
  have hne : f.raw ≠ [] := List.ne_nil_of_length_pos (by omega)
  have hcond : mps ≤ (f.raw.take mps).length ∨ (f.raw.take mps).length < mps := le_or_gt _ _
  have htake : f.raw.take mps ≠ [] := by
    rw [Ne, List.take_eq_nil_iff]
    rintro (h | h)
    · omega
    · exact hne h
  rw [HostParty.receive_nil hmps, packets_responseWrites (by omega) hdvd,
    slices_eq_cons (by omega) hne, List.cons_append]
  refine Parties.deadlockFree_of_step ?_
  simp only [Parties.step, HostParty.packetRead, DeviceParty.packetTaken, List.nil_append,
    if_pos hcond, if_neg htake, DeviceParty.leaving]

/-- **A response passes**, and leaves the packet behind it to the device. -/
theorem Parties.deadlockFree_reading (hmps : 24 ≤ mps) (hdvd : mps ∣ ioChunk)
    (hf : f.encode = .ok f.raw) (hsmall : f.payload.length ≤ Host.maxPayload) :
    Parties.DeadlockFree mps ⟨HostParty.receive mps [] requests,
        ⟨.write ((responseWrites f.raw).flatMap (packets mps)), [], responses⟩⟩ ↔
      Parties.DeadlockFree mps ⟨HostParty.send mps [] requests,
        DeviceParty.leaving mps (if bulkInNeedsZlp f.raw.length then [[]] else []) responses⟩ := by
  have hlength : f.raw.length = 24 + f.payload.length := Host.Frame.length_raw f
  rw [Parties.deadlockFree_first_read hmps hdvd]
  by_cases hone : f.raw.length ≤ mps
  · rw [List.take_of_length_le hone, List.drop_eq_nil_of_le hone,
      HostParty.receive_of_whole hf hsmall]
    rfl
  · have htake : (f.raw.take mps).length = mps := by
      rw [List.length_take]
      omega
    have hrest : f.raw.drop mps ≠ [] := by
      rw [Ne, List.drop_eq_nil_iff]
      omega
    rw [HostParty.receive_of_part hf hsmall (List.take_prefix _ _) (by omega) (by omega),
      DeviceParty.leaving, if_neg (by rw [slices_eq_cons (by omega) hrest]; simp)]
    exact Parties.deadlockFree_last_read (by omega) hf hsmall _ _ []
      (by rw [List.nil_append, List.take_append_drop]) hrest

end Response

/-! ### Transactions -/

section Transactions

variable {mps : ℕ}

/-- The host has read the response and the device has nothing left to write, no empty packet
either. -/
def Transaction.Drained (t : Transaction) : Prop :=
  ¬64 ∣ (encodeFrame t.response).length ∧ t.response.payload.length ≤ Host.maxPayload

/-- The response as the host reads it. -/
private theorem Transaction.response_raw (t : Transaction) :
    (Host.Frame.ofDevice t.response).encode = .ok (Host.Frame.ofDevice t.response).raw ∧
      (Host.Frame.ofDevice t.response).raw = encodeFrame t.response := by
  have hencode := Host.Frame.encode_ofDevice t.response_len t.response_le
  have hraw := Host.Frame.eq_raw_of_encode hencode
  exact ⟨hraw ▸ hencode, hraw.symm⟩

/-- The device reads the request of a transaction. -/
private theorem Transaction.next_request (t : Transaction) :
    requestFormat.next t.request.raw = .item t.request.toDevice [] := by
  obtain ⟨htype, hflags, hid, -, -⟩ := Host.Frame.encode_eq_ok_iff.mp t.encodes
  exact (Host.Frame.next_raw ⟨htype, hflags, hid⟩ t.request_le).1

/-- The host that sends the request of a transaction is in a write. -/
private theorem Transaction.send_request (t : Transaction) (hpos : 0 < mps) (hdvd : mps ∣ ioChunk)
    (rxbuf : Bytes) (requests : List Host.Frame) :
    HostParty.send mps rxbuf (t.request :: requests) =
      ⟨.write (slices mps t.request.raw.length t.request.raw ++
        if mps ∣ t.request.raw.length then [[]] else []), rxbuf, requests⟩ := by
  have hwrites : Host.sendFrame mps t.request = .ok (Host.sendWrites mps t.request.raw) := by
    rw [Host.sendFrame, t.encodes]
    rfl
  simp only [HostParty.send, hwrites]
  rw [Host.sendWrites_eq, transferWrites, List.flatMap_append,
    flatMap_packets_slices hpos (by decide) hdvd]
  simp only [Nat.dvd_iff_mod_eq_zero]
  split_ifs <;> rfl

/-- One request and its response. -/
private theorem Parties.deadlockFree_transaction (hmps : 24 ≤ mps) (hdvd : mps ∣ ioChunk)
    (t : Transaction) (requests : List Host.Frame) (responses : List Frame) :
    Parties.DeadlockFree mps ⟨HostParty.send mps [] (t.request :: requests),
        DeviceParty.receive mps [] (t.response :: responses)⟩ ↔
      ¬ioChunk ∣ t.request.raw.length ∧ Parties.DeadlockFree mps ⟨HostParty.receive mps [] requests,
        ⟨.write ((responseWrites (encodeFrame t.response)).flatMap (packets mps)), [],
          responses⟩⟩ := by
  have hne : t.request.raw ≠ [] := by
    refine List.ne_nil_of_length_pos ?_
    rw [Host.Frame.length_raw, headerSize]
    omega
  rw [t.send_request (by omega) hdvd,
    DeviceParty.receive_of_prefix t.next_request List.nil_prefix hne.symm,
    Parties.deadlockFree_writing hdvd t.next_request t.request.raw [] []
      (by rw [List.nil_append, List.nil_append]) (dvd_zero _) (by decide) (dvd_zero _)
      (fun h => absurd h hne), DeviceParty.receive_of_item t.next_request]

/-- A response of which something is left in a write when the next request is sent. -/
private theorem Parties.not_deadlockFree_of_leaving (hmps : 0 < mps) (hdvd : mps ∣ ioChunk)
    (t : Transaction) (rxbuf : Bytes) (requests : List Host.Frame) {ps : List Bytes}
    (hps : ps ≠ []) (responses : List Frame) :
    ¬Parties.DeadlockFree mps ⟨HostParty.send mps rxbuf (t.request :: requests),
      DeviceParty.leaving mps ps responses⟩ := by
  rw [t.send_request hmps hdvd, DeviceParty.leaving, if_neg hps]
  exact Parties.not_deadlockFree_of_deadlocked ⟨_, _, rfl, rfl⟩

/-- The next request is sent without a deadlock exactly if the response before is drained. -/
private theorem Parties.deadlockFree_response (hmps : 24 ≤ mps) (hdvd : mps ∣ ioChunk)
    (t next : Transaction) (requests : List Host.Frame) (responses : List Frame) :
    Parties.DeadlockFree mps ⟨HostParty.receive mps [] (next.request :: requests),
        ⟨.write ((responseWrites (encodeFrame t.response)).flatMap (packets mps)), [],
          responses⟩⟩ ↔
      t.Drained ∧ Parties.DeadlockFree mps ⟨HostParty.send mps [] (next.request :: requests),
        DeviceParty.receive mps [] responses⟩ := by
  obtain ⟨hencode, hraw⟩ := t.response_raw
  have hlength : (encodeFrame t.response).length = 24 + t.response.payload.length := by
    rw [← hraw]
    exact Host.Frame.length_raw _
  by_cases hsmall : t.response.payload.length ≤ Host.maxPayload
  · rw [← hraw, Parties.deadlockFree_reading hmps hdvd hencode hsmall, hraw, Transaction.Drained,
      and_iff_left hsmall]
    have hneeds : bulkInNeedsZlp (encodeFrame t.response).length = true ↔
        64 ∣ (encodeFrame t.response).length := by
      rw [bulkInNeedsZlp, Nat.dvd_iff_mod_eq_zero, hlength]
      simp
    by_cases hzlp : 64 ∣ (encodeFrame t.response).length
    · rw [if_pos (hneeds.mpr hzlp)]
      exact iff_of_false (Parties.not_deadlockFree_of_leaving (by omega) hdvd next _ _
        (by simp) _) fun h => h.1 hzlp
    · rw [if_neg (mt hneeds.mp hzlp), and_iff_right hzlp,
        DeviceParty.leaving, if_pos rfl]
  · -- the device goes on writing, and the host has given up
    have hbig : Host.maxPayload < (Host.Frame.ofDevice t.response).payload.length :=
      not_le.mp hsmall
    have hle : mps ≤ ioChunk := Nat.le_of_dvd (by decide) hdvd
    have hlong : mps < (Host.Frame.ofDevice t.response).raw.length := by
      rw [hraw, hlength]
      rw [Host.maxPayload] at hsmall
      rw [ioChunk] at hle
      omega
    have hrest : (Host.Frame.ofDevice t.response).raw.drop mps ≠ [] := by
      rw [Ne, List.drop_eq_nil_iff]
      omega
    have hheader : 24 ≤ ((Host.Frame.ofDevice t.response).raw.take mps).length := by
      rw [List.length_take]
      omega
    refine iff_of_false ?_ fun h => hsmall h.1.2
    rw [← hraw, Parties.deadlockFree_first_read hmps hdvd,
      HostParty.receive_of_big hencode hbig (List.take_prefix _ _) hheader]
    refine Parties.not_deadlockFree_of_leaving (by omega) hdvd next _ _ ?_ _
    rw [slices_eq_cons (by omega) hrest]
    simp

/-- The last response may leave a packet behind: nothing is written after it. -/
private theorem Parties.deadlockFree_response_last (hmps : 24 ≤ mps) (hdvd : mps ∣ ioChunk)
    (t : Transaction) (responses : List Frame) :
    Parties.DeadlockFree mps ⟨HostParty.receive mps [] [],
      ⟨.write ((responseWrites (encodeFrame t.response)).flatMap (packets mps)), [],
        responses⟩⟩ := by
  obtain ⟨hencode, hraw⟩ := t.response_raw
  have hheader : 24 ≤ ((Host.Frame.ofDevice t.response).raw.take mps).length := by
    rw [List.length_take, Host.Frame.length_raw, headerSize]
    omega
  by_cases hsmall : t.response.payload.length ≤ Host.maxPayload
  · rw [← hraw, Parties.deadlockFree_reading hmps hdvd hencode hsmall]
    exact Parties.deadlockFree_of_none rfl
  · rw [← hraw, Parties.deadlockFree_first_read hmps hdvd,
      HostParty.receive_of_big hencode (not_le.mp hsmall) (List.take_prefix _ _) hheader]
    exact Parties.deadlockFree_of_none rfl

/-- The packet sizes of the two speeds divide a request of 16 KiB and hold a header. -/
private theorem packetSize_bounds (hmps : mps = 64 ∨ mps = 512) : 24 ≤ mps ∧ mps ∣ ioChunk := by
  obtain rfl | rfl := hmps
  · exact ⟨by decide, by decide⟩
  · exact ⟨by decide, by decide⟩

/-- **When host and device wait for each other.** Take a sequence of requests with their
responses, at either speed. No state that is reached has the device in a write on the bulk
IN endpoint and the host in a write on the bulk OUT endpoint, if and only if no request is a
multiple of 16 KiB long, and every response before the last one has a payload of at most 8
MiB and a length that is not a multiple of 64. -/
theorem deadlockFree_iff (hmps : mps = 64 ∨ mps = 512) (ts : List Transaction) :
    (Parties.start mps ts).DeadlockFree mps ↔
      ∀ before t after, ts = before ++ t :: after →
        ¬ioChunk ∣ t.request.raw.length ∧ (after ≠ [] → t.Drained) := by
  obtain ⟨hheader, hdvd⟩ := packetSize_bounds hmps
  induction ts with
  | nil =>
    refine iff_of_true (Parties.deadlockFree_of_none rfl) ?_
    intro before t after hnil
    simp at hnil
  | cons t ts ih =>
    -- the condition of a sequence is that of its first transaction and that of the rest
    have hsplit : (∀ before t' after, t :: ts = before ++ t' :: after →
        ¬ioChunk ∣ t'.request.raw.length ∧ (after ≠ [] → t'.Drained)) ↔
        (¬ioChunk ∣ t.request.raw.length ∧ (ts ≠ [] → t.Drained)) ∧
          (Parties.start mps ts).DeadlockFree mps := by
      rw [ih]
      constructor
      · intro h
        exact ⟨h [] t ts rfl, fun before t' after heq =>
          h (t :: before) t' after (by rw [heq, List.cons_append])⟩
      · rintro ⟨hfirst, hrest⟩ before t' after heq
        rcases before with _ | ⟨t₀, before⟩
        · obtain ⟨rfl, rfl⟩ := List.cons.inj heq
          exact hfirst
        · exact hrest before t' after (List.cons.inj heq).2
    rw [hsplit, Parties.start, List.map_cons, List.map_cons,
      Parties.deadlockFree_transaction hheader hdvd]
    rcases ts with _ | ⟨next, ts⟩
    · have hlast := Parties.deadlockFree_response_last hheader hdvd t []
      have hnone : (Parties.start mps []).DeadlockFree mps := Parties.deadlockFree_of_none rfl
      simp only [List.map_nil, hlast, hnone, ne_eq, not_true_eq_false, false_implies, and_true]
    · rw [List.map_cons, Parties.deadlockFree_response hheader hdvd, Parties.start, List.map_cons,
        List.map_cons, and_assoc]
      simp only [ne_eq, reduceCtorEq, not_false_eq_true, true_implies]

/-- A `HELLO` with a response of 62 bytes. -/
def helloTransaction : Transaction where
  request := { type := 1, requestId := 2 }
  response := responseFrame .status 2
    (kvLayout [⟨utf8 "service", utf8 "usb_responder"⟩, ⟨utf8 "version", utf8 "1"⟩])
  encodes := Host.Frame.encode_eq_wire (by decide) (by decide) (by decide) (by decide)
  request_le := by decide
  response_len := by decide +kernel
  response_le := by decide +kernel

/-- The download of a file of 40 bytes, with a response of 64 bytes. -/
def getTransaction : Transaction where
  request := { type := 13, requestId := 1, payload := kvLayout [⟨utf8 "path", utf8 "a"⟩] }
  response := responseFrame .fileGet 1 (List.replicate 40 0)
  encodes := Host.Frame.encode_eq_wire (by decide) (by decide) (by decide) (by decide +kernel)
  request_le := by decide +kernel
  response_len := by decide +kernel
  response_le := by decide +kernel

/-- `deadlockFree_iff` for two operations at high speed. -/
theorem deadlockFree_iff_two :
    (Parties.start 512 [helloTransaction, getTransaction]).DeadlockFree 512 ↔
      ∀ before t after, [helloTransaction, getTransaction] = before ++ t :: after →
        ¬ioChunk ∣ t.request.raw.length ∧ (after ≠ [] → t.Drained) :=
  deadlockFree_iff (.inr rfl) [helloTransaction, getTransaction]

/-- After the download of a file of 40 bytes the next operation is not sent: the device
waits for the packet behind the response to be read, and the host for its request. -/
theorem not_deadlockFree :
    ¬∀ (mps : ℕ) (ts : List Transaction), mps = 64 ∨ mps = 512 →
      (Parties.start mps ts).DeadlockFree mps := by
  intro h
  have hfree := h 512 [getTransaction, helloTransaction] (.inr rfl)
  have hget := ((Parties.deadlockFree_transaction (by decide) (by decide) _ _ _).mp hfree).2
  have hdrained := (Parties.deadlockFree_response (by decide) (by decide) _ _ _ _).mp hget
  exact hdrained.1.1 (by decide +kernel)

end Transactions

end UsbResponder
