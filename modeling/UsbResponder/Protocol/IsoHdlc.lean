import UsbResponder.Base.CrcPolynomials
import UsbResponder.Protocol.BurstErrors

/-!
# The payload checksum as a remainder

CRC-32/ISO-HDLC as it is defined, by division of polynomials over `GF(2)`, and
`usb_responder_crc32`, which computes it (`crc32_eq_isoHdlc`). The register of the
computation holds the remainder with its bits in reverse order.

The definition is written from the parameters of the standard and shares nothing with the
code: generator `0x04C11DB7`, bytes from their least significant bit on, the first 32 bits
of the message complemented, and the remainder reversed and complemented. The proof takes
`toBitVec_foldl_crc32Byte` for the step from bytes to bits, and `Base.CrcPolynomials` for
the step from the register to the remainder: feeding a bit to a reflected register
multiplies its polynomial by `x` and reduces it. What is particular to CRC-32 is that the
two generators, one reflected, denote one polynomial (`divisor_poly`), and how the initial
value of the register becomes a complement of the message.
-/

namespace UsbResponder

open Polynomial ReflectedCrc

/-! ### The definition -/

/-- The polynomial whose coefficients are the bits of a word, the lowest bit that of degree
0. -/
noncomputable def wordPolynomial (x : BitVec 32) : (ZMod 2)[X] :=
  ofCoefficients ((List.range 32).map x.getMsbD)

/-- The word whose bits are the coefficients of a polynomial of degree less than 32. -/
noncomputable def coefficientWord (q : (ZMod 2)[X]) : BitVec 32 :=
  ofBits ((List.range 32).map fun i => decide (q.coeff i = 1))

/-- The generator of CRC-32, of degree 32. The constant is the usual one, with the leading
coefficient left out. -/
noncomputable def isoHdlcGenerator : (ZMod 2)[X] := X ^ 32 + wordPolynomial 0x04C11DB7#32

/-- CRC-32/ISO-HDLC. The bits of the message, each byte from its least significant one on,
are the coefficients of `m(x)` from the highest degree down. The 32 leading coefficients of
`m(x) * x ^ 32` are complemented; of the remainder the bits are reversed and complemented. -/
noncomputable def isoHdlcCrc32 (data : Bytes) : BitVec 32 :=
  let coefficients := messageBits data ++ List.replicate 32 false
  let remainder := ofCoefficients (complementLeading 32 coefficients) %ₘ isoHdlcGenerator
  ~~~(coefficientWord remainder).reverse

/-! ### The computation -/

/-- The generator of the computation is the reflected one: the constant `0xEDB88320` of the
source is `0x04C11DB7` with its bits in reverse order. -/
private theorem divisor_poly : divisor poly = isoHdlcGenerator := by
  have hbits : bitString poly = (List.range 32).map (0x04C11DB7#32).getMsbD := by decide
  rw [divisor, polynomial, hbits, isoHdlcGenerator, wordPolynomial]

/-- A register holds the bits of its polynomial in reverse order. -/
private theorem reverse_coefficientWord (x : BitVec 32) :
    (coefficientWord (polynomial x)).reverse = x := by
  have hbit : ∀ b, decide (coefficient b = 1) = b := by decide
  refine BitVec.eq_of_getLsbD_eq fun i hi => ?_
  rw [BitVec.getLsbD_reverse, BitVec.getMsbD, decide_eq_true hi, Bool.true_and, coefficientWord,
    getLsbD_ofBits (by omega), List.getElem?_map, List.getElem?_range (by omega), Option.map_some,
    Option.getD_some, coeff_polynomial, hbit, BitVec.getMsbD, decide_eq_true (by omega),
    Bool.true_and]
  congr 1
  omega

/-- **The checksum is CRC-32/ISO-HDLC.** On every byte string `usb_responder_crc32` computes
what is defined by polynomial division, and so does `zlib.crc32`. -/
theorem crc32_eq_isoHdlc (data : Bytes) :
    (crc32 data).toBitVec = isoHdlcCrc32 data ∧ zlibCrc32 data = (isoHdlcCrc32 data).toNat := by
  have hones : (0xFFFFFFFF : UInt32).toBitVec = BitVec.allOnes 32 := by decide
  have hcrc : (crc32 data).toBitVec = isoHdlcCrc32 data := by
    rw [crc32, UInt32.toBitVec_xor, hones, BitVec.xor_allOnes, toBitVec_foldl_crc32Byte, hones,
      isoHdlcCrc32, ← divisor_poly, ← polynomial_foldl_feed poly (by norm_num),
      reverse_coefficientWord]
  refine ⟨hcrc, ?_⟩
  rw [zlibCrc32_eq, ← hcrc]
  rfl

end UsbResponder
