import UsbResponder.Base.CString

/-!
# Octal numerals

A mode travels as an octal numeral: printed in base 8 with zeros in front, and read by
`strtoul`. What is printed is read back (`strtoul8_toDigits`).

`octalValue` is the accumulator of the reading loop as a function of its own, and
`octalValue_append` lets the digits be read in two parts: the zeros in front, which leave
the value at zero, and the digits of the number, whose value is found by strong induction on
the number, the last digit first. Signs, white space and values beyond the range of the type
are treated in the definition of `strtoul8` and do not occur in what is printed here.
-/

namespace CString

/-- The value of octal digits behind those that have been read, whose value is `acc`. This
is the loop of `strtoul` without its overflow check. -/
def octalValue (acc : ℕ) (digits : Bytes) : ℕ :=
  digits.foldl (fun acc d => 8 * acc + (d.toNat - 48)) acc

private theorem octalValue_append (acc : ℕ) (ds es : Bytes) :
    octalValue acc (ds ++ es) = octalValue (octalValue acc ds) es := List.foldl_append

private theorem isSpace_of_isOctal {d : UInt8} (h : isOctal d = true) : isSpace d = false := by
  simp only [isOctal, Bool.and_eq_true, decide_eq_true_eq, UInt8.le_iff_toNat_le] at h
  have hlow : 48 ≤ d.toNat := h.1
  rw [isSpace, Bool.or_eq_false_iff, Bool.and_eq_false_iff]
  constructor
  · rw [beq_eq_false_iff_ne]
    rintro rfl
    simp at hlow
  · refine .inr (decide_eq_false fun hle => ?_)
    have hhigh : d.toNat ≤ 13 := UInt8.le_iff_toNat_le.mp hle
    omega

/-- Octal digits are read to their end. -/
private theorem strtoul8_of_isOctal {ulongMax : ℕ} {digits : Bytes} (hne : digits ≠ [])
    (hall : ∀ d ∈ digits, isOctal d = true) (hmax : octalValue 0 digits ≤ ulongMax) :
    strtoul8 ulongMax digits = some (octalValue 0 digits, []) := by
  obtain ⟨d, rest, rfl⟩ := List.exists_cons_of_ne_nil hne
  have hd := hall d List.mem_cons_self
  have hspace := isSpace_of_isOctal hd
  have hsign : d ≠ 45 ∧ d ≠ 43 := by
    constructor
    · rintro rfl
      exact absurd hd (by decide)
    · rintro rfl
      exact absurd hd (by decide)
  have hhead : ¬((d :: rest).head? = some 45 ∨ (d :: rest).head? = some 43) := by
    simp [hsign]
  rw [strtoul8, List.dropWhile_cons_of_neg (by simp [hspace])]
  dsimp only
  rw [if_neg hhead, List.takeWhile_eq_self_iff.mpr hall, List.dropWhile_eq_nil_iff.mpr hall,
    if_neg hne]
  have hfold : (d :: rest).foldl (fun acc d => 8 * acc + (d.toNat - 48)) 0 =
      octalValue 0 (d :: rest) := rfl
  rw [hfold, if_neg (by omega), if_neg (by simp [hsign])]

/-- The digits of a number are octal, and have its value. -/
private theorem octalValue_toDigits (n : ℕ) :
    (∀ d ∈ (Nat.toDigits 8 n).flatMap String.utf8EncodeChar, isOctal d = true) ∧
      octalValue 0 ((Nat.toDigits 8 n).flatMap String.utf8EncodeChar) = n := by
  have hdigit : ∀ k < 8, ∀ acc, (∀ d ∈ String.utf8EncodeChar k.digitChar, isOctal d = true) ∧
      octalValue acc (String.utf8EncodeChar k.digitChar) = 8 * acc + k := by
    intro k hk acc
    have hbyte : ∀ k < 8, ∃ d, String.utf8EncodeChar k.digitChar = [d] ∧ isOctal d = true ∧
        d.toNat - 48 = k := by
      intro k hk
      refine ⟨UInt8.ofNat (48 + k), ?_⟩
      revert k
      decide
    obtain ⟨d, hd, hoctal, hvalue⟩ := hbyte k hk
    rw [hd]
    refine ⟨List.forall_mem_singleton.mpr hoctal, ?_⟩
    rw [octalValue, List.foldl_cons, List.foldl_nil, hvalue]
  induction n using Nat.strongRecOn with
  | _ n ih =>
    by_cases hn : n < 8
    · rw [Nat.toDigits_of_lt_base hn, List.flatMap_singleton]
      obtain ⟨hoctal, hvalue⟩ := hdigit n hn 0
      exact ⟨hoctal, by omega⟩
    · obtain ⟨hoctal, hvalue⟩ := ih (n / 8) (by omega)
      obtain ⟨hlast, hlastValue⟩ := hdigit (n % 8) (by omega) (n / 8)
      rw [Nat.toDigits_of_base_le (by omega) (not_lt.mp hn), List.flatMap_append,
        List.flatMap_singleton]
      constructor
      · exact List.forall_mem_append.mpr ⟨hoctal, hlast⟩
      · rw [octalValue_append, hvalue, hlastValue]
        omega

/-- The digits of a number are octal, with zeros in front too. -/
theorem isOctal_of_mem {zeros n : ℕ} {d : UInt8}
    (h : d ∈ List.replicate zeros 48 ++ (Nat.toDigits 8 n).flatMap String.utf8EncodeChar) :
    isOctal d = true := by
  obtain h | h := List.mem_append.mp h
  · rw [List.eq_of_mem_replicate h]
    rfl
  · exact (octalValue_toDigits n).1 d h

/-- **Numerals read back**, with any number of zeros in front. The bound says that the
number fits into the `unsigned long` of the reader. -/
theorem strtoul8_toDigits {ulongMax n : ℕ} (zeros : ℕ) (hmax : n ≤ ulongMax) :
    strtoul8 ulongMax
      (List.replicate zeros 48 ++ (Nat.toDigits 8 n).flatMap String.utf8EncodeChar) =
        some (n, []) := by
  obtain ⟨-, hvalue⟩ := octalValue_toDigits n
  have hzeros : ∀ k, octalValue 0 (List.replicate k 48) = 0 := by
    intro k
    induction k with
    | zero => rfl
    | succ k ih => exact ih
  have hne : (Nat.toDigits 8 n).flatMap String.utf8EncodeChar ≠ [] := by
    obtain ⟨c, rest, hcons⟩ := List.exists_cons_of_ne_nil (Nat.toDigits_ne_nil (n := n) (b := 8))
    rw [hcons, List.flatMap_cons]
    exact List.append_ne_nil_of_left_ne_nil String.utf8EncodeChar_ne_nil _
  have hsum : octalValue 0
      (List.replicate zeros 48 ++ (Nat.toDigits 8 n).flatMap String.utf8EncodeChar) = n := by
    rw [octalValue_append, hzeros, hvalue]
  rw [strtoul8_of_isOctal (List.append_ne_nil_of_right_ne_nil _ hne)
    (fun d hd => isOctal_of_mem hd) (by omega), hsum]

end CString
