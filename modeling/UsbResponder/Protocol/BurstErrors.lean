import UsbResponder.Base.CrcBursts
import UsbResponder.Protocol.Frame

/-!
# Burst errors in a payload

The checksum of a payload is a reflected CRC of 32 bits over its bits, those of a byte from
the least significant one on. A corruption that stays inside 32 consecutive bits changes the
checksum, so the decoder rejects a frame whose payload has suffered one.

The general fact is about polynomials and is proved in `Base.CrcBursts`: a burst that is no
longer than the register leaves a nonzero register behind. Here it is carried to the code in
two steps. The byte loop of `crc32` feeds exactly the bits of the message to the register
(`toBitVec_foldl_crc32Byte`), and the decoder compares the checksum of the payload it finds
with the one in the header, which the corruption has not touched
(`decodeFrame_eq_none_of_crc32_ne`).

Longer bursts, scattered errors and corruptions of the header are not considered: for them
the checksum promises only a probability, and the header is not under it.
-/

namespace UsbResponder

open ReflectedCrc

/-! ### The bits of a message -/

/-- The bits of a byte, the least significant one first. This is the order in which the
inner loop of the checksum shifts them out. -/
def byteBits (b : UInt8) : List Bool := (List.range 8).map b.toBitVec.getLsbD

/-- The bits of a byte string, byte by byte, in the order in which the checksum takes them. -/
def messageBits (data : Bytes) : List Bool := data.flatMap byteBits

@[simp] theorem length_byteBits (b : UInt8) : (byteBits b).length = 8 := rfl

private theorem length_messageBits (data : Bytes) : (messageBits data).length =
    8 * data.length := by
  induction data with
  | nil => rfl
  | cons b data ih =>
    rw [messageBits, List.flatMap_cons, List.length_append, ← messageBits, ih, length_byteBits,
      List.length_cons]
    omega

private theorem byteBits_injective : Function.Injective byteBits := by
  intro a b hab
  refine UInt8.toBitVec_inj.mp (BitVec.eq_of_getLsbD_eq fun i hi => ?_)
  exact List.map_inj_left.mp hab i (List.mem_range.mpr hi)

/-- Different byte strings of the same length have different bits. -/
private theorem messageBits_injective {a b : Bytes} (hlen : a.length = b.length)
    (h : messageBits a = messageBits b) : a = b := by
  induction a generalizing b with
  | nil => exact (List.length_eq_zero_iff.mp hlen.symm).symm
  | cons x a ih =>
    obtain ⟨y, b, rfl⟩ := List.exists_cons_of_length_eq_add_one hlen.symm
    obtain ⟨hbyte, hrest⟩ := List.append_inj h rfl
    rw [byteBits_injective hbyte, ih (Nat.succ.inj hlen) hrest]

/-! ### The checksum of the bits -/

/-- A byte is added to the register as its eight bits, so that the byte loop can be compared
with a loop over bits. -/
private theorem ofBits_byteBits (b : UInt8) : ofBits (byteBits b) = b.toUInt32.toBitVec := by
  refine BitVec.eq_of_getLsbD_eq fun i hi => ?_
  rw [getLsbD_ofBits hi, show b.toUInt32.toBitVec = b.toBitVec.setWidth 32 from rfl,
    BitVec.getLsbD_setWidth, decide_eq_true hi, Bool.true_and, byteBits, List.getElem?_map]
  by_cases hbyte : i < 8
  · rw [List.getElem?_range hbyte]
    rfl
  · rw [List.getElem?_eq_none (by simpa using hbyte), BitVec.getLsbD_of_ge _ _ (not_lt.mp hbyte)]
    rfl

/-- The outer loop of the checksum feeds the bits of the message to the register. The
induction is on the bytes, with the register generalised; a byte is eight steps of the bit
loop. -/
theorem toBitVec_foldl_crc32Byte (data : Bytes) (c : UInt32) :
    (data.foldl crc32Byte c).toBitVec = (messageBits data).foldl (feed poly) c.toBitVec := by
  induction data generalizing c with
  | nil => rfl
  | cons b data ih =>
    have hbyte : (crc32Byte c b).toBitVec = (byteBits b).foldl (feed poly) c.toBitVec := by
      rw [foldl_feed_eq poly (by rw [length_byteBits]; norm_num), ofBits_byteBits, crc32Byte,
        toBitVec_iterate toBitVec_crc32Bit]
      rfl
    rw [List.foldl_cons, ih, hbyte, messageBits, messageBits, List.flatMap_cons,
      List.foldl_append]

/-- **The checksum tells apart** byte strings of the same length that differ only inside 32
consecutive bits. -/
theorem crc32_ne_of_burst {a b : Bytes} (hlen : a.length = b.length) (hne : a ≠ b) {s : ℕ}
    (hburst : DiffersWithin s 32 (messageBits a) (messageBits b)) : crc32 a ≠ crc32 b := by
  intro hcrc
  rw [crc32, crc32, UInt32.xor_left_inj] at hcrc
  have hbits : messageBits a ≠ messageBits b := fun h => hne (messageBits_injective hlen h)
  have htop : poly.getLsbD (32 - 1) = true := by decide
  refine foldl_feed_ne_of_burst htop ?_ hbits hburst (0xFFFFFFFF : UInt32).toBitVec ?_
  · rw [length_messageBits, length_messageBits, hlen]
  · rw [← toBitVec_foldl_crc32Byte, ← toBitVec_foldl_crc32Byte, hcrc]

/-! ### Frames -/

/-- What the decoder accepts with the payload exchanged for one of the same length and with
another checksum, it rejects. The length check passes as before, so it is the comparison of
the checksums that fails. -/
private theorem decodeFrame_eq_none_of_crc32_ne {raw payload : Bytes} {frame : Frame}
    (h : decodeFrame raw = some frame) (hlen : payload.length = frame.payload.length)
    (hcrc : crc32 payload ≠ crc32 frame.payload) :
    decodeFrame (raw.take headerSize ++ payload) = none := by
  obtain ⟨type, flags, requestId, content, hmax, rfl, rfl⟩ := decodeFrame_eq_some_iff.mp h
  have hlen' : payload.length = content.length := hlen
  have hheader : ∀ h : FrameHeader, (headerBytes h ++ content).take headerSize = headerBytes h :=
    fun h => List.take_left' (length_headerBytes h)
  rw [wire_eq_headerBytes_append (by omega), hheader]
  -- the header still announces the length and the checksum of the old payload
  by_contra hsome
  obtain ⟨frame', hframe'⟩ := Option.ne_none_iff_exists'.mp hsome
  rw [decodeFrame] at hframe'
  dsimp only at hframe'
  rw [readHeader_headerBytes_append] at hframe'
  split_ifs at hframe' with hshort hmagic hsize hold
  rw [not_not] at hold
  have hdrop : (headerBytes (frameOf type flags requestId content).header ++ payload).drop
      headerSize = payload := rfl
  have hfield : (frameOf type flags requestId content).header.payloadLen.toNat =
      payload.length := by
    rw [hlen', frameOf, UInt32.toNat_ofNat_of_lt' (by rw [UInt32.size]; omega)]
  rw [hdrop, hfield, List.take_length] at hold
  exact hcrc hold.symm

/-- **Short bursts are detected.** Byte strings of the same length that differ, and only
inside some 32 consecutive bits, have different checksums; so the decoder rejects every byte
string that comes from one it accepts by such a corruption of its payload. -/
theorem burst_detected :
    (∀ (a b : Bytes) (s : ℕ), a.length = b.length → a ≠ b →
      DiffersWithin s 32 (messageBits a) (messageBits b) → crc32 a ≠ crc32 b) ∧
    ∀ (raw payload : Bytes) (frame : Frame) (s : ℕ), decodeFrame raw = some frame →
      payload.length = frame.payload.length → payload ≠ frame.payload →
      DiffersWithin s 32 (messageBits payload) (messageBits frame.payload) →
      decodeFrame (raw.take headerSize ++ payload) = none :=
  ⟨fun _ _ _ hlen hne hburst => crc32_ne_of_burst hlen hne hburst,
    fun _ _ _ _ hraw hlen hne hburst =>
      decodeFrame_eq_none_of_crc32_ne hraw hlen (crc32_ne_of_burst hlen hne hburst)⟩

/-- `burst_detected` for a corruption of the second and the third byte of `ABCD`. -/
theorem burst_detected_abcd : crc32 [65, 66, 67, 68] ≠ crc32 [65, 2, 255, 68] := by
  refine burst_detected.1 [65, 66, 67, 68] [65, 2, 255, 68] 8 rfl (by decide) fun i hi => ?_
  by_contra hout
  rcases lt_or_ge i 32 with hlt | hge
  · revert hi hout
    interval_cases i <;> decide
  · have hnone : ∀ data : Bytes, data.length = 4 → (messageBits data)[i]? = none := by
      intro data hdata
      rw [List.getElem?_eq_none]
      rw [length_messageBits, hdata]
      exact hge
    exact hi (by rw [hnone _ rfl, hnone _ rfl])

end UsbResponder
