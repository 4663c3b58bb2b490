import UsbResponder.Base.LittleEndian
import UsbResponder.Base.ReflectedCrc

/-!
# The payload checksum

`crc32` is `usb_responder_crc32` of `crc32.c`, one bit at a time with the mask trick of the
source. `zlibCrc32` is the function of the same specification that the Python side calls
through `zlib.crc32`, in the table-driven form in which it is commonly given. They compute
the same checksum (`zlibCrc32_eq`), by the table form of reflected CRCs.

Both are translated with the word type of their language, and both are compared with the bit
step `step` of `Base.ReflectedCrc` on bit vectors: the mask trick is one step
(`toBitVec_crc32Bit`), and so is the conditional of the table. What is left is that eight
steps with a byte in the low bits are a table lookup and a shift, which is the general
`iterate_step_eq_table`.

The interface of `zlib.crc32` with a starting value, by which a checksum can be continued,
is not used by the client and is left out.
-/

namespace UsbResponder

open ReflectedCrc

/-- One turn of the inner loop of `usb_responder_crc32`: the mask `0 - (crc & 1)` selects
the polynomial when a `1` is shifted out. -/
def crc32Bit (crc : UInt32) : UInt32 := (crc >>> 1) ^^^ (0xEDB88320 &&& (0 - (crc &&& 1)))

/-- One turn of the outer loop of `usb_responder_crc32`. -/
def crc32Byte (crc : UInt32) (b : UInt8) : UInt32 := crc32Bit^[8] (crc ^^^ b.toUInt32)

/-- `usb_responder_crc32`. The register starts with all bits set, and the result is
complemented, as the constants at the two ends of the source function say. -/
def crc32 (data : Bytes) : UInt32 := data.foldl crc32Byte 0xFFFFFFFF ^^^ 0xFFFFFFFF

/-- One bit of the computation of a table entry. -/
def crcTableBit (c : UInt32) : UInt32 :=
  if c &&& 1 = 1 then (0xEDB88320 : UInt32) ^^^ (c >>> 1) else c >>> 1

/-- An entry of the table of byte-wise CRC-32 implementations. The index is a word here;
only indices below 256 are looked up. -/
def crcTable (n : UInt32) : UInt32 := crcTableBit^[8] n

/-- `zlib.crc32`: standard CRC-32 (reflected polynomial `0xEDB88320`, initial value and
final complement `0xFFFFFFFF`), as an unsigned integer. -/
def zlibCrc32 (data : Bytes) : ℕ :=
  (data.foldl (fun c b => crcTable ((c ^^^ b.toUInt32) &&& 0xFF) ^^^ (c >>> 8)) 0xFFFFFFFF ^^^
    0xFFFFFFFF).toNat

/-! ### The two forms agree -/

/-- The generator of CRC-32, reflected: the coefficient of the highest power below the
leading one is the lowest bit. -/
def poly : BitVec 32 := 0xEDB88320#32

private theorem and_one_eq (x : BitVec 32) :
    x &&& 1#32 = if x.getLsbD 0 then 1#32 else 0#32 := by
  rw [BitVec.and_one_eq_setWidth_ofBool_getLsbD]
  cases x.getLsbD 0 <;> rfl

/-- The inner loop of the source makes the step of the reflected CRC: the mask
`0 - (crc & 1)` is all ones or all zeros, so it selects the generator or nothing. -/
theorem toBitVec_crc32Bit (c : UInt32) : (crc32Bit c).toBitVec = step poly c.toBitVec := by
  have hmask : (crc32Bit c).toBitVec =
      (c.toBitVec >>> 1) ^^^ (poly &&& (0#32 - (c.toBitVec &&& 1#32))) := rfl
  rw [hmask, and_one_eq, step]
  cases c.toBitVec.getLsbD 0
  · simp
  · have hones : poly &&& (0#32 - 1#32) = poly := by decide
    simp only [if_true]
    rw [hones, BitVec.xor_comm]

private theorem toBitVec_crcTableBit (c : UInt32) :
    (crcTableBit c).toBitVec = step poly c.toBitVec := by
  have hbit : c &&& 1 = 1 ↔ c.toBitVec.getLsbD 0 = true := by
    rw [← UInt32.toBitVec_inj]
    have hand : (c &&& 1).toBitVec = c.toBitVec &&& 1#32 := rfl
    rw [hand, and_one_eq]
    cases c.toBitVec.getLsbD 0 <;> decide
  rw [crcTableBit, step]
  split_ifs with h1 h2 h2
  · rfl
  · exact absurd (hbit.mp h1) h2
  · exact absurd (hbit.mpr h2) h1
  · rfl

/-- Iterating a word function that computes `step` computes the iterated `step`. -/
theorem toBitVec_iterate {f : UInt32 → UInt32}
    (hf : ∀ c, (f c).toBitVec = step poly c.toBitVec) (k : ℕ) (c : UInt32) :
    (f^[k] c).toBitVec = (step poly)^[k] c.toBitVec := by
  induction k generalizing c with
  | zero => rfl
  | succ k ih => rw [Function.iterate_succ_apply, Function.iterate_succ_apply, ih, hf]

/-- A byte fits in the low eight bits, so adding it commutes with dropping them. -/
private theorem xor_byte_shift (c : UInt32) (b : UInt8) :
    (c ^^^ b.toUInt32).toBitVec >>> 8 = c.toBitVec >>> 8 := by
  have hxor : (c ^^^ b.toUInt32).toBitVec = c.toBitVec ^^^ b.toBitVec.setWidth 32 := rfl
  have hbyte : b.toBitVec.setWidth 32 >>> 8 = 0#32 := by
    refine BitVec.eq_of_getLsbD_eq fun i hi => ?_
    simp [BitVec.getLsbD_ushiftRight, BitVec.getLsbD_setWidth]
  rw [hxor, BitVec.ushiftRight_xor_distrib, hbyte, BitVec.xor_zero]

/-- One byte: eight bit steps are a table lookup and a shift. The upper part of the register
is only shifted, because the eight steps look at the lowest eight bits alone. -/
private theorem crc32Byte_eq_table (c : UInt32) (b : UInt8) :
    crc32Byte c b = crcTable ((c ^^^ b.toUInt32) &&& 0xFF) ^^^ (c >>> 8) := by
  have hlow : ∀ i < 32, (0xFF#32).getLsbD i = decide (i < 8) := by decide
  rw [← UInt32.toBitVec_inj, crc32Byte, toBitVec_iterate toBitVec_crc32Bit,
    iterate_step_eq_table poly hlow, xor_byte_shift]
  have htable : (crcTable ((c ^^^ b.toUInt32) &&& 0xFF)).toBitVec =
      (step poly)^[8] ((c ^^^ b.toUInt32).toBitVec &&& 0xFF#32) :=
    toBitVec_iterate toBitVec_crcTableBit 8 _
  rw [← htable]
  rfl

/-- The checksum of `zlib` is the one of `crc32.c`. One works with a table and the other bit
by bit. -/
theorem zlibCrc32_eq (data : Bytes) : zlibCrc32 data = (crc32 data).toNat := by
  have hstep : (fun (c : UInt32) (b : UInt8) =>
      crcTable ((c ^^^ b.toUInt32) &&& 0xFF) ^^^ (c >>> 8)) = crc32Byte := by
    funext c b
    rw [crc32Byte_eq_table]
  rw [zlibCrc32, hstep, crc32]

/-- The check value of CRC-32: the checksum of the ASCII digits `1` to `9`. -/
example : crc32 [49, 50, 51, 52, 53, 54, 55, 56, 57] = 0xCBF43926 := by decide +kernel

end UsbResponder
