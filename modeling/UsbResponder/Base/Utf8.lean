import UsbResponder.Base.CString

/-!
# Texts cut into bytes

Which byte strings are the UTF-8 encoding of a text, and what becomes of them when they are
put together or cut. Everything rests on one fact about the encoding of a character
(`utf8EncodeChar_ascii_or`): it is a single byte below 128, or all its bytes are at least
128. So ASCII before or behind a byte string does not matter.

`IsText` is existence of a text with the given encoding, so the results need no decoder.
They are about concatenation: texts can be put together freely, and whether a cut byte
string is a text depends only on the character at the cut. Normal forms and the length of a
text in characters play no role.
-/

namespace Utf8

open CString

variable {bs cs ascii : Bytes} {b : UInt8}

/-- The byte string is the encoding of a text. A string that was cut inside a character is
not one, and a strict decoder refuses it. -/
def IsText (bs : Bytes) : Prop := ∃ s, utf8 s = bs

/-- All bytes are ASCII codes. -/
def IsAscii (bs : Bytes) : Prop := ∀ b ∈ bs, b < 128

instance (bs : Bytes) : Decidable (IsAscii bs) := List.decidableBAll (· < 128) bs

/-! ### Characters -/

/-- **One character.** Its encoding is an ASCII code, or has none among its bytes. The proof
goes through the four lengths an encoding can have. -/
theorem utf8EncodeChar_ascii_or (c : Char) :
    (∃ b < 128, String.utf8EncodeChar c = [b]) ∨ ∀ b ∈ String.utf8EncodeChar c, 128 ≤ b := by
  have hhigh : ∀ k : ℕ, 128 ≤ k → k < 256 → (128 : UInt8) ≤ UInt8.ofNat k := by
    intro k hk hlt
    rw [UInt8.le_iff_toNat_le, UInt8.toNat_ofNat_of_lt' hlt]
    exact hk
  rw [String.utf8EncodeChar]
  split_ifs with hone htwo hthree
  · refine .inl ⟨_, ?_, rfl⟩
    rw [UInt8.lt_iff_toNat_lt, UInt8.toNat_ofNat_of_lt' (by rw [UInt8.size]; omega)]
    exact Nat.lt_succ_of_le hone
  all_goals
    right
    simp only [List.mem_cons, List.not_mem_nil, or_false, forall_eq_or_imp, forall_eq]
  · exact ⟨hhigh _ (by omega) (by omega), hhigh _ (by omega) (by omega)⟩
  · exact ⟨hhigh _ (by omega) (by omega), hhigh _ (by omega) (by omega),
      hhigh _ (by omega) (by omega)⟩
  · exact ⟨hhigh _ (by omega) (by omega), hhigh _ (by omega) (by omega),
      hhigh _ (by omega) (by omega), hhigh _ (by omega) (by omega)⟩

/-- Every ASCII code is a character. -/
private theorem exists_utf8EncodeChar (hb : b < 128) : ∃ c, String.utf8EncodeChar c = [b] := by
  have hlt : b.toNat < 128 := hb
  refine ⟨Char.ofNat b.toNat, ?_⟩
  have hval : (Char.ofNat b.toNat).val.toNat = b.toNat := by
    rw [Char.ofNat, dif_pos (show b.toNat.isValidChar from .inl (by omega))]
    rfl
  rw [String.utf8EncodeChar, hval, if_pos (by omega), UInt8.ofNat_toNat]

/-! ### Texts as lists of characters -/

private theorem isText_iff_exists_chars :
    IsText bs ↔ ∃ chars : List Char, chars.flatMap String.utf8EncodeChar = bs := by
  constructor
  · rintro ⟨s, rfl⟩
    exact ⟨s.toList, rfl⟩
  · rintro ⟨chars, rfl⟩
    exact ⟨String.ofList chars, by rw [utf8, String.toList_ofList]⟩

theorem isText_nil : IsText [] := ⟨"", rfl⟩

theorem isText_utf8 (s : String) : IsText (utf8 s) := ⟨s, rfl⟩

private theorem isText_utf8EncodeChar (c : Char) : IsText (String.utf8EncodeChar c) :=
  isText_iff_exists_chars.mpr ⟨[c], List.flatMap_singleton _ _⟩

theorem IsText.append (hbs : IsText bs) (hcs : IsText cs) : IsText (bs ++ cs) := by
  obtain ⟨chars, rfl⟩ := isText_iff_exists_chars.mp hbs
  obtain ⟨chars', rfl⟩ := isText_iff_exists_chars.mp hcs
  exact isText_iff_exists_chars.mpr ⟨chars ++ chars', List.flatMap_append⟩

/-! ### ASCII around texts -/

private theorem isText_cons_iff (hb : b < 128) : IsText (b :: bs) ↔ IsText bs := by
  constructor
  · intro h
    obtain ⟨chars, hchars⟩ := isText_iff_exists_chars.mp h
    cases chars with
    | nil => simp at hchars
    | cons c chars =>
      rw [List.flatMap_cons] at hchars
      obtain ⟨b', -, hc⟩ | hc := utf8EncodeChar_ascii_or c
      · rw [hc, List.singleton_append] at hchars
        exact isText_iff_exists_chars.mpr ⟨chars, (List.cons.inj hchars).2⟩
      · obtain ⟨x, rest, hx⟩ := List.exists_cons_of_ne_nil (String.utf8EncodeChar_ne_nil (c := c))
        rw [hx] at hc hchars
        have hbx := (List.cons.inj hchars).1
        exact absurd (hc x (by simp)) (by rw [hbx]; exact UInt8.not_le.mpr hb)
  · obtain ⟨c, hc⟩ := exists_utf8EncodeChar hb
    intro h
    have happend := (isText_utf8EncodeChar c).append h
    rwa [hc, List.singleton_append] at happend

/-- **ASCII in front** does not matter. -/
theorem isText_ascii_append_iff (hascii : IsAscii ascii) :
    IsText (ascii ++ bs) ↔ IsText bs := by
  induction ascii with
  | nil => rfl
  | cons b ascii ih =>
    rw [List.cons_append, isText_cons_iff (hascii b (by simp)),
      ih fun b' hb' => hascii b' (by simp [hb'])]

theorem IsAscii.isText (hascii : IsAscii ascii) : IsText ascii := by
  rw [← List.append_nil ascii, isText_ascii_append_iff hascii]
  exact isText_nil

/-- **ASCII behind** does not matter either: no character goes on in it, since a byte inside
a character is at least 128. -/
theorem isText_append_ascii_iff (hascii : IsAscii ascii) :
    IsText (bs ++ ascii) ↔ IsText bs := by
  refine ⟨fun h => ?_, fun h => h.append hascii.isText⟩
  obtain ⟨chars, hchars⟩ := isText_iff_exists_chars.mp h
  clear h
  induction chars generalizing bs with
  | nil =>
    rw [List.flatMap_nil, eq_comm, List.append_eq_nil_iff] at hchars
    rw [hchars.1]
    exact isText_nil
  | cons c chars ih =>
    rw [List.flatMap_cons] at hchars
    obtain ⟨rest, hbs, hrest⟩ | ⟨rest, hc, hrest⟩ := List.append_eq_append_iff.mp hchars
    · rw [hbs]
      exact (isText_utf8EncodeChar c).append (ih hrest)
    · -- the character would end behind `bs`
      obtain ⟨b, hb, hsingle⟩ | hhigh := utf8EncodeChar_ascii_or c
      · rw [hsingle, eq_comm, List.append_eq_singleton_iff] at hc
        obtain ⟨rfl, -⟩ | ⟨rfl, -⟩ := hc
        · exact isText_nil
        · exact hsingle ▸ isText_utf8EncodeChar c
      · have hnil : rest = [] := by
          by_contra hne
          obtain ⟨b, hb⟩ := List.exists_mem_of_ne_nil rest hne
          have hlow := hascii b (by rw [hrest]; simp [hb])
          exact absurd (hhigh b (by rw [hc]; simp [hb])) (UInt8.not_le.mpr hlow)
        rw [hnil, List.append_nil] at hc
        exact hc ▸ isText_utf8EncodeChar c

/-! ### C strings -/

theorem IsAscii.cStr (h : IsAscii bs) : IsAscii (cStr bs) :=
  fun b hb => h b ((List.takeWhile_sublist _).mem hb)

/-- What a reader of a buffer sees when ASCII stands behind some bytes. -/
theorem isText_cStr_append_ascii_iff (hascii : IsAscii ascii) :
    IsText (CString.cStr (bs ++ ascii)) ↔ IsText (CString.cStr bs) := by
  by_cases hnul : 0 ∈ bs
  · have hsame : CString.cStr (bs ++ ascii) = CString.cStr bs := by
      rw [CString.cStr, CString.cStr, List.takeWhile_append]
      rw [if_neg]
      intro hlen
      have hall := List.takeWhile_eq_self_iff.mp
        ((List.takeWhile_prefix (· != (0 : UInt8)) (l := bs)).eq_of_length hlen)
      simpa using hall 0 hnul
    rw [hsame]
  · have hsplit : CString.cStr (bs ++ ascii) = bs ++ CString.cStr ascii := by
      rw [CString.cStr, List.takeWhile_append_of_pos fun b hb => by
        simpa using fun h0 : b = 0 => hnul (h0 ▸ hb)]
      rfl
    rw [hsplit, isText_append_ascii_iff hascii.cStr, cStr_eq_self hnul]

end Utf8
