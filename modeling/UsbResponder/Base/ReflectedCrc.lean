import Mathlib.Tactic
import Mathlib.Logic.Function.Iterate

/-!
# Reflected cyclic redundancy checks

One bit of a reflected CRC register over `w` bits with generator `p`: shift right by one and
add `p` when a `1` was shifted out. The register update is linear over `xor`, and `k`
updates of a register whose low `k` bits are zero are a plain shift. Together these give the
table form used by byte-wise implementations (`iterate_step_eq_table`): `k` bit steps are
one table entry, indexed by the low `k` bits, added to the register shifted by `k`.

The width and the generator are parameters throughout, and nothing is assumed about the
generator here; `CrcBursts` asks for its top bit, and `CrcPolynomials` says which polynomial
the register stands for.
-/

namespace ReflectedCrc

variable {w : ℕ} (p : BitVec w)

/-- One bit of the register update: the low bit leaves the register, and the generator is
added when it was a `1`. -/
def step (x : BitVec w) : BitVec w := if x.getLsbD 0 then p ^^^ (x >>> 1) else x >>> 1

/-- The register update is linear. -/
theorem step_xor (x y : BitVec w) : step p (x ^^^ y) = step p x ^^^ step p y := by
  have hshift : (x ^^^ y) >>> 1 = x >>> 1 ^^^ y >>> 1 := BitVec.ushiftRight_xor_distrib x y 1
  simp only [step, BitVec.getLsbD_xor, hshift]
  cases x.getLsbD 0 <;> cases y.getLsbD 0 <;> simp only [Bool.xor_false, Bool.xor_true,
    Bool.false_eq_true, Bool.not_false, Bool.not_true, if_true, if_false]
  · rw [← BitVec.xor_assoc, ← BitVec.xor_assoc, BitVec.xor_comm p]
  · rw [BitVec.xor_assoc]
  · rw [BitVec.xor_assoc, ← BitVec.xor_assoc (x >>> 1), BitVec.xor_comm (x >>> 1) p,
      BitVec.xor_assoc, ← BitVec.xor_assoc p p, BitVec.xor_self, BitVec.zero_xor]

private theorem iterate_step_xor (k : ℕ) (x y : BitVec w) :
    (step p)^[k] (x ^^^ y) = (step p)^[k] x ^^^ (step p)^[k] y := by
  induction k with
  | zero => rfl
  | succ k ih => rw [Function.iterate_succ_apply', Function.iterate_succ_apply',
      Function.iterate_succ_apply', ih, step_xor]

/-- Bit steps of a register with enough zeros at the low end only shift it: the generator is
never added. -/
theorem iterate_step_of_low_zero {k : ℕ} {x : BitVec w} (h : ∀ i < k, x.getLsbD i = false) :
    (step p)^[k] x = x >>> k := by
  induction k with
  | zero => rw [Function.iterate_zero_apply, BitVec.ushiftRight_zero]
  | succ k ih =>
    have hbit : (x >>> k).getLsbD 0 = false := by
      rw [BitVec.getLsbD_ushiftRight]
      exact h k (by omega)
    rw [Function.iterate_succ_apply', ih fun i hi => h i (by omega), step, if_neg (by simp [hbit]),
      ← BitVec.shiftRight_add]

/-- **Table form.** `k` bit steps are the table entry of the low `k` bits added to the
shifted register; `low` selects the low `k` bits. The register is split into the two parts,
and the steps are linear. -/
theorem iterate_step_eq_table {k : ℕ} {low : BitVec w}
    (hlow : ∀ i < w, low.getLsbD i = decide (i < k)) (x : BitVec w) :
    (step p)^[k] x = (step p)^[k] (x &&& low) ^^^ (x >>> k) := by
  have hsplit : x = (x &&& low) ^^^ (x &&& ~~~low) := by
    refine BitVec.eq_of_getLsbD_eq fun i hi => ?_
    simp only [BitVec.getLsbD_xor, BitVec.getLsbD_and, BitVec.getLsbD_not, hi, decide_true,
      Bool.true_and]
    cases x.getLsbD i <;> cases low.getLsbD i <;> rfl
  have hzero : ∀ i < k, (x &&& ~~~low).getLsbD i = false := by
    intro i hi
    by_cases hiw : i < w
    · simp [hlow i hiw, hi]
    · exact BitVec.getLsbD_of_ge _ _ (by omega)
  have hhigh : (x &&& ~~~low) >>> k = x >>> k := by
    refine BitVec.eq_of_getLsbD_eq fun i hi => ?_
    simp only [BitVec.getLsbD_ushiftRight, BitVec.getLsbD_and, BitVec.getLsbD_not]
    by_cases hiw : k + i < w
    · rw [hlow _ hiw, decide_eq_true hiw, decide_eq_false (by omega : ¬k + i < k)]
      simp
    · rw [BitVec.getLsbD_of_ge x _ (by omega), Bool.false_and]
  conv_lhs => rw [hsplit]
  rw [iterate_step_xor, iterate_step_of_low_zero p hzero, hhigh]

end ReflectedCrc
