import UsbResponder.Base.ReflectedCrc

/-!
# Bursts that a reflected cyclic redundancy check detects

The register of a reflected CRC taken over a list of bits, one bit at a time. When the
generator has its top bit, an update can be undone, so equal registers before common bits
stay equal and different ones stay different. Over at most as many bits as the register is
wide, the register is that of the bits added to it at once (`foldl_feed_eq`), which
determines them. So two lists of bits of the same length that differ only inside a window as
wide as the register have different checks (`foldl_feed_ne_of_burst`).

The argument needs neither polynomials nor the generator itself, only that its top bit is
set. The messages are cut into what comes before the window, the window, and what comes
after: before it the registers agree, over it they come to differ, and after it they stay
different. Errors of other shapes, and how many of them a generator detects, are not
treated.
-/

namespace ReflectedCrc

variable {w : ℕ} (p : BitVec w)

/-! ### Undoing an update -/

/-- A register update can be undone when the generator has its top bit: the top bit of the
result tells whether the generator was added. -/
private theorem step_injective (hp : p.getLsbD (w - 1) = true) : Function.Injective (step p) := by
  have htop : ∀ x : BitVec w, (step p x).getLsbD (w - 1) = x.getLsbD 0 := by
    intro x
    have hshift : (x >>> 1).getLsbD (w - 1) = false := by
      rw [BitVec.getLsbD_ushiftRight]
      exact BitVec.getLsbD_of_ge x _ (by omega)
    rw [step]
    cases hbit : x.getLsbD 0
    · rw [if_neg Bool.false_ne_true, hshift]
    · rw [if_pos rfl, BitVec.getLsbD_xor, hp, hshift, Bool.xor_false]
  intro x y hxy
  have hbit : x.getLsbD 0 = y.getLsbD 0 := by rw [← htop x, hxy, htop y]
  have hshift : x >>> 1 = y >>> 1 := by
    rw [step, step, ← hbit] at hxy
    split_ifs at hxy
    · exact BitVec.xor_right_inj p |>.mp hxy
    · exact hxy
  refine BitVec.eq_of_getLsbD_eq fun i hi => ?_
  cases i with
  | zero => exact hbit
  | succ i =>
    have hi' := congrArg (fun z => BitVec.getLsbD z i) hshift
    simpa only [BitVec.getLsbD_ushiftRight, Nat.add_comm 1 i] using hi'

/-! ### Bit by bit -/

/-- Add a bit at the low end. -/
def addBit (x : BitVec w) (b : Bool) : BitVec w := x ^^^ (BitVec.ofBool b).setWidth w

/-- The update for one bit of the message. -/
def feed (x : BitVec w) (b : Bool) : BitVec w := step p (addBit x b)

/-- The register with the bits of a list, the first one at the low end. -/
def ofBits : List Bool → BitVec w
  | [] => 0
  | b :: bs => addBit (ofBits bs <<< 1) b

theorem getLsbD_ofBits {bs : List Bool} {i : ℕ} (hi : i < w) :
    (ofBits bs : BitVec w).getLsbD i = bs[i]?.getD false := by
  induction bs generalizing i with
  | nil => simp [ofBits]
  | cons b bs ih =>
    cases i with
    | zero => simp [ofBits, addBit, hi]
    | succ i =>
      have hrest := ih (show i < w by omega)
      rw [BitVec.getLsbD_eq_getElem (by omega)] at hrest
      simp [ofBits, addBit, hi, hrest]

/-- The bits of a list no longer than the register can be read off it. -/
private theorem ofBits_injective {as bs : List Bool} (hlen : as.length = bs.length)
    (hw : as.length ≤ w) (h : (ofBits as : BitVec w) = ofBits bs) : as = bs := by
  refine List.ext_getElem hlen fun i hi hi' => ?_
  have hbit := congrArg (fun x => BitVec.getLsbD x i) h
  simp only [getLsbD_ofBits (hi.trans_le hw)] at hbit
  rwa [List.getElem?_eq_getElem hi, List.getElem?_eq_getElem hi'] at hbit

/-- **Bits one by one.** As long as there are no more bits than the register has, feeding
them one by one is adding them all and updating the register as many times: a bit that is
fed later has not been shifted through when the earlier ones leave. -/
theorem foldl_feed_eq {bs : List Bool} (hw : bs.length ≤ w) (x : BitVec w) :
    bs.foldl (feed p) x = (step p)^[bs.length] (x ^^^ ofBits bs) := by
  induction bs generalizing x with
  | nil => simp [ofBits]
  | cons b bs ih =>
    rw [List.length_cons] at hw
    -- the bits behind the first wait in a register whose low bit is zero
    have hshift : step p (ofBits bs <<< 1) = ofBits bs := by
      have hlow : ∀ i < 1, ((ofBits bs : BitVec w) <<< 1).getLsbD i = false := by
        intro i hi
        simp [hi]
      have hone := iterate_step_of_low_zero p hlow
      rw [Function.iterate_one] at hone
      rw [hone]
      refine BitVec.eq_of_getLsbD_eq fun i hi => ?_
      rw [BitVec.getLsbD_ushiftRight, BitVec.getLsbD_shiftLeft]
      by_cases htop : 1 + i < w
      · simp [htop]
      · -- the shift drops the top bit, which is behind the end of the list
        rw [getLsbD_ofBits hi, List.getElem?_eq_none (by omega), decide_eq_false htop]
        rfl
    have hadd : x ^^^ ofBits (b :: bs) = addBit x b ^^^ (ofBits bs <<< 1) := by
      rw [ofBits, addBit, addBit, BitVec.xor_comm (ofBits bs <<< 1), BitVec.xor_assoc]
    rw [List.foldl_cons, ih (by omega), List.length_cons, Function.iterate_succ_apply, hadd,
      step_xor, hshift, feed]

/-! ### Bursts -/

variable {p}

/-- Different registers stay different over common bits. -/
private theorem foldl_feed_injective (hp : p.getLsbD (w - 1) = true) (bs : List Bool) :
    Function.Injective fun x => bs.foldl (feed p) x := by
  induction bs with
  | nil => exact fun x y h => h
  | cons b bs ih =>
    intro x y hxy
    exact BitVec.xor_left_inj _ |>.mp (step_injective p hp (ih hxy))

/-- Two lists differ only inside the window of the `w` places from `s` on. A place that only
one of the lists has counts as a difference. -/
def DiffersWithin {α : Type*} (s w : ℕ) (as bs : List α) : Prop :=
  ∀ i, as[i]? ≠ bs[i]? → s ≤ i ∧ i < s + w

/-- **Bursts are detected.** Two different lists of bits of the same length that differ only
inside a window as wide as the register lead to different registers. The window may begin
anywhere, and also reach beyond the end of the lists. -/
theorem foldl_feed_ne_of_burst (hp : p.getLsbD (w - 1) = true) {as bs : List Bool}
    (hlen : as.length = bs.length) (hne : as ≠ bs) {s : ℕ} (hburst : DiffersWithin s w as bs)
    (x : BitVec w) : as.foldl (feed p) x ≠ bs.foldl (feed p) x := by
  have hsame : ∀ i, ¬(s ≤ i ∧ i < s + w) → as[i]? = bs[i]? := fun i hi =>
    not_ne_iff.mp (mt (hburst i) hi)
  have hfront : as.take s = bs.take s := by
    refine List.ext_getElem? fun i => ?_
    rw [List.getElem?_take, List.getElem?_take]
    split_ifs with hi
    · exact hsame i (by omega)
    · rfl
  have hback : (as.drop s).drop w = (bs.drop s).drop w := by
    refine List.ext_getElem? fun i => ?_
    rw [List.drop_drop, List.drop_drop, List.getElem?_drop, List.getElem?_drop]
    exact hsame _ (by omega)
  have hsplit : ∀ cs : List Bool, cs = cs.take s ++ ((cs.drop s).take w ++ (cs.drop s).drop w) := by
    intro cs
    rw [List.take_append_drop, List.take_append_drop]
  have hwindow : (as.drop s).take w ≠ (bs.drop s).take w := by
    intro hwindow
    apply hne
    rw [hsplit as, hsplit bs, hfront, hwindow, hback]
  have hwidth : ∀ cs : List Bool, ((cs.drop s).take w).length ≤ w := fun cs =>
    List.length_take_le _ _
  have hlenw : ((as.drop s).take w).length = ((bs.drop s).take w).length := by
    rw [List.length_take, List.length_take, List.length_drop, List.length_drop, hlen]
  intro hfold
  rw [hsplit as, hsplit bs, hfront, hback] at hfold
  simp only [List.foldl_append] at hfold
  -- the window is read off the register behind it
  have hinside := foldl_feed_injective hp _ hfold
  rw [foldl_feed_eq p (hwidth as), foldl_feed_eq p (hwidth bs), hlenw] at hinside
  have hbits := (step_injective p hp).iterate _ hinside
  exact hwindow (ofBits_injective hlenw (hwidth as) (BitVec.xor_right_inj _ |>.mp hbits))

end ReflectedCrc
