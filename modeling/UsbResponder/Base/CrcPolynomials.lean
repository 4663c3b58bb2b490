import Mathlib.Algebra.CharP.Two
import Mathlib.Algebra.Polynomial.Div
import Mathlib.Data.ZMod.Basic
import UsbResponder.Base.CrcBursts

/-!
# Reflected cyclic redundancy checks as remainders

The register of a reflected CRC holds a polynomial over `GF(2)` whose highest coefficient is
the lowest bit. A register update is a multiplication by `X` modulo the generator, so
feeding bits leaves the remainder of the polynomial of all bits, shifted by the width of the
register; and a register that is full of ones at first has the leading coefficients
complemented (`polynomial_foldl_feed`).

Mathlib's polynomials over `ZMod 2` and their division by a monic polynomial do the algebra,
so this module is noncomputable; the register itself stays the executable one of
`ReflectedCrc`. The result is an equation between the two, for every width and generator. A
complement of the register at the end, as most of these checks make it, is left to the user
of the equation.
-/

namespace ReflectedCrc

open Polynomial

/-! ### Strings of coefficients -/

/-- A bit as a coefficient. -/
def coefficient (b : Bool) : ZMod 2 := if b then 1 else 0

/-- The polynomial with the given coefficients, from the highest degree down. -/
noncomputable def ofCoefficients : List Bool → (ZMod 2)[X]
  | [] => 0
  | b :: bs => C (coefficient b) * X ^ bs.length + ofCoefficients bs

private theorem coefficient_xor (a b : Bool) :
    coefficient (a ^^ b) = coefficient a + coefficient b := by
  revert a b
  decide

private theorem coeff_ofCoefficients (bs : List Bool) (k : ℕ) :
    (ofCoefficients bs).coeff k = coefficient (bs.reverse[k]?.getD false) := by
  induction bs with
  | nil => simp [ofCoefficients, coefficient]
  | cons b bs ih =>
    rw [ofCoefficients, coeff_add, coeff_C_mul, coeff_X_pow, ih, List.reverse_cons]
    obtain hk | rfl | hk := lt_trichotomy k bs.length
    · rw [if_neg hk.ne, mul_zero, zero_add, List.getElem?_append_left (by simpa using hk)]
    · simp [coefficient]
    · rw [if_neg hk.ne', mul_zero, zero_add, List.getElem?_eq_none (by simpa using hk.le),
        List.getElem?_eq_none (by simpa using hk)]

private theorem degree_ofCoefficients_lt (bs : List Bool) :
    (ofCoefficients bs).degree < bs.length := by
  refine (degree_lt_iff_coeff_zero _ _).mpr fun k hk => ?_
  rw [coeff_ofCoefficients, List.getElem?_eq_none (by simpa using hk)]
  rfl

private theorem ofCoefficients_append (as bs : List Bool) :
    ofCoefficients (as ++ bs) = ofCoefficients as * X ^ bs.length + ofCoefficients bs := by
  induction as with
  | nil => simp [ofCoefficients]
  | cons a as ih =>
    rw [List.cons_append, ofCoefficients, ofCoefficients, ih, List.length_append]
    ring

private theorem ofCoefficients_replicate_false (n : ℕ) :
    ofCoefficients (List.replicate n false) = 0 := by
  induction n with
  | zero => rfl
  | succ n ih => simp [List.replicate_succ, ofCoefficients, ih, coefficient]

/-- Complementing all coefficients adds ones. -/
private theorem ofCoefficients_map_not (bs : List Bool) :
    ofCoefficients (bs.map (!·)) =
      ofCoefficients bs + ofCoefficients (List.replicate bs.length true) := by
  induction bs with
  | nil => simp [ofCoefficients]
  | cons b bs ih =>
    have hnot : coefficient (!b) = coefficient b + coefficient true := by
      rw [← coefficient_xor, Bool.xor_true]
    rw [List.map_cons, List.length_cons, List.replicate_succ, ofCoefficients, ofCoefficients,
      ofCoefficients, ih, hnot, List.length_map, List.length_replicate, map_add]
    ring

/-- The string with its first `n` coefficients complemented. -/
def complementLeading (n : ℕ) (bs : List Bool) : List Bool := (bs.take n).map (!·) ++ bs.drop n

private theorem ofCoefficients_complementLeading {n : ℕ} {bs : List Bool} (h : n ≤ bs.length) :
    ofCoefficients (complementLeading n bs) =
      ofCoefficients bs + ofCoefficients (List.replicate n true) * X ^ (bs.length - n) := by
  have hwhole := ofCoefficients_append (bs.take n) (bs.drop n)
  rw [List.take_append_drop] at hwhole
  rw [complementLeading, ofCoefficients_append, ofCoefficients_map_not, hwhole,
    List.length_take_of_le h, List.length_drop]
  ring

/-! ### Registers -/

variable {w : ℕ} (p : BitVec w)

/-- The bits of a register, the lowest one first. -/
def bitString (x : BitVec w) : List Bool := (List.range w).map x.getLsbD

/-- The polynomial in a register: the lowest bit is its leading coefficient, as a reflected
CRC has it. -/
noncomputable def polynomial (x : BitVec w) : (ZMod 2)[X] := ofCoefficients (bitString x)

/-- The polynomial that a reflected CRC divides by: the generator, with the leading
coefficient that the register has no bit for. -/
noncomputable def divisor : (ZMod 2)[X] := X ^ w + polynomial p

@[simp]
theorem length_bitString (x : BitVec w) : (bitString x).length = w := by
  rw [bitString, List.length_map, List.length_range]

private theorem degree_polynomial_lt (x : BitVec w) : (polynomial x).degree < w := by
  have hdegree := degree_ofCoefficients_lt (bitString x)
  rwa [length_bitString] at hdegree

theorem coeff_polynomial (x : BitVec w) (k : ℕ) :
    (polynomial x).coeff k = coefficient (x.getMsbD k) := by
  rw [polynomial, coeff_ofCoefficients, BitVec.getMsbD]
  by_cases hk : k < w
  · rw [List.getElem?_reverse (by simpa using hk), length_bitString, bitString, List.getElem?_map,
      List.getElem?_range (by omega)]
    simp [hk]
  · rw [List.getElem?_eq_none (by simpa using hk)]
    simp [hk]

private theorem monic_divisor : (divisor p).Monic := monic_X_pow_add (degree_polynomial_lt p)

private theorem degree_divisor : (divisor p).degree = w := by
  rw [divisor, degree_add_eq_left_of_degree_lt, degree_X_pow]
  rw [degree_X_pow]
  exact degree_polynomial_lt p

private theorem polynomial_xor (x y : BitVec w) :
    polynomial (x ^^^ y) = polynomial x + polynomial y := by
  ext k
  rw [coeff_add, coeff_polynomial, coeff_polynomial, coeff_polynomial, BitVec.getMsbD_xor,
    coefficient_xor]

/-- Multiplying by `X` is a shift, but for the coefficient that is shifted out. -/
private theorem X_mul_polynomial (x : BitVec w) :
    X * polynomial x = polynomial (x >>> 1) + C (coefficient (x.getLsbD 0)) * X ^ w := by
  ext k
  rw [coeff_add, coeff_C_mul, coeff_X_pow, coeff_polynomial, BitVec.getMsbD_ushiftRight]
  cases k with
  | zero =>
    rw [mul_coeff_zero, coeff_X_zero, zero_mul]
    split_ifs with hw
    · subst hw
      simp [coefficient]
    · simp [coefficient]
  | succ k =>
    rw [coeff_X_mul, coeff_polynomial]
    obtain hk | rfl | hk := lt_trichotomy (k + 1) w
    · rw [if_neg hk.ne]
      simp [hk]
    · simp [coefficient, BitVec.getMsbD]
    · rw [if_neg hk.ne', BitVec.getMsbD_of_ge x k (by omega), decide_eq_false (by omega)]
      simp [coefficient]

/-- **One update** is a multiplication by `X` modulo the divisor: the shift multiplies, and
the generator is added exactly when a coefficient leaves the register. -/
theorem polynomial_step (x : BitVec w) :
    polynomial (step p x) = X * polynomial x + C (coefficient (x.getLsbD 0)) * divisor p := by
  have htwice : C (coefficient (x.getLsbD 0)) * (X : (ZMod 2)[X]) ^ w +
      C (coefficient (x.getLsbD 0)) * X ^ w = 0 := CharTwo.add_self_eq_zero _
  have hstep : polynomial (step p x) =
      polynomial (x >>> 1) + C (coefficient (x.getLsbD 0)) * polynomial p := by
    rw [step]
    split_ifs with hbit
    · rw [polynomial_xor, hbit, coefficient, if_pos rfl, map_one, one_mul, add_comm]
    · rw [Bool.not_eq_true] at hbit
      rw [hbit, coefficient, if_neg Bool.false_ne_true, map_zero, zero_mul, add_zero]
  rw [hstep, X_mul_polynomial, divisor]
  linear_combination -htwice

/-! ### Messages -/

/-- A register of a single bit at the low end, multiplied by `X`. -/
private theorem X_mul_polynomial_ofBool (hw : 0 < w) (b : Bool) :
    X * polynomial ((BitVec.ofBool b).setWidth w) = C (coefficient b) * X ^ w := by
  have hshift : (BitVec.ofBool b).setWidth w >>> 1 = 0#w := by
    refine BitVec.eq_of_getLsbD_eq fun i _ => ?_
    rw [BitVec.getLsbD_ushiftRight, BitVec.getLsbD_setWidth, BitVec.getLsbD_of_ge _ _ (by omega),
      Bool.and_false, BitVec.getLsbD_zero]
  have hzero : polynomial (0#w) = 0 := by
    ext k
    rw [coeff_polynomial, BitVec.getMsbD_zero]
    rfl
  have hbit : ((BitVec.ofBool b).setWidth w).getLsbD 0 = b := by
    rw [BitVec.getLsbD_setWidth, decide_eq_true hw, Bool.true_and]
    cases b <;> rfl
  rw [X_mul_polynomial, hshift, hzero, hbit, zero_add]

/-- Feeding bits multiplies the register by a power of `X` and adds the polynomial of the
bits, shifted by the width of the register. The induction is on the bits; the quotient
collects the multiples of the divisor that the updates have taken away. -/
private theorem exists_polynomial_foldl (hw : 0 < w) (bs : List Bool) (x : BitVec w) :
    ∃ q, polynomial (bs.foldl (feed p) x) =
      polynomial x * X ^ bs.length + ofCoefficients bs * X ^ w + divisor p * q := by
  induction bs generalizing x with
  | nil => exact ⟨0, by simp [ofCoefficients]⟩
  | cons b bs ih =>
    obtain ⟨q, hq⟩ := ih (feed p x b)
    have hadd : X * polynomial (addBit x b) = X * polynomial x + C (coefficient b) * X ^ w := by
      rw [addBit, polynomial_xor, mul_add, X_mul_polynomial_ofBool hw]
    refine ⟨q + C (coefficient ((addBit x b).getLsbD 0)) * X ^ bs.length, ?_⟩
    rw [List.foldl_cons, hq, feed, polynomial_step, hadd, ofCoefficients, List.length_cons]
    ring

/-- **A reflected CRC is a remainder.** Starting from ones, the register ends with the
remainder of the polynomial of the bits, followed by as many zeros as the register has bits,
with its leading coefficients complemented. The complement is the effect of the ones at the
start. -/
theorem polynomial_foldl_feed (hw : 0 < w) (bs : List Bool) :
    polynomial (bs.foldl (feed p) (BitVec.allOnes w)) =
      ofCoefficients (complementLeading w (bs ++ List.replicate w false)) %ₘ divisor p := by
  obtain ⟨q, hq⟩ := exists_polynomial_foldl p hw bs (BitVec.allOnes w)
  have hones : polynomial (BitVec.allOnes w) = ofCoefficients (List.replicate w true) := by
    have hbits : bitString (BitVec.allOnes w) = List.replicate w true := by
      refine List.eq_replicate_iff.mpr ⟨length_bitString _, fun b hb => ?_⟩
      obtain ⟨i, hi, rfl⟩ := List.mem_map.mp hb
      rw [BitVec.getLsbD_allOnes, decide_eq_true (List.mem_range.mp hi)]
    rw [polynomial, hbits]
  have hdegree : (polynomial (bs.foldl (feed p) (BitVec.allOnes w))).degree <
      (divisor p).degree := by
    rw [degree_divisor]
    exact degree_polynomial_lt _
  refine ((div_modByMonic_unique (-q) _ (monic_divisor p) ⟨?_, hdegree⟩).2).symm
  rw [ofCoefficients_complementLeading (by simp), ofCoefficients_append,
    ofCoefficients_replicate_false, hq, hones, List.length_append, List.length_replicate,
    Nat.add_sub_cancel]
  ring

end ReflectedCrc
