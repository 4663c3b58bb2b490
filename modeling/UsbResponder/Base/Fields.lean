import UsbResponder.Base.CString

/-!
# Lines of fields

A line of text in which fields stand with single blanks between them, as the kernel writes
its tables, and what `fgets`, `strstr` and the conversion `%Ns` find in it. A field is not
empty and has no white space in it, so a conversion reads one field (`scanToken_field`), and
a separator between blanks is found at the first field that equals it (`strstr_separator`).
`fgets` reads a text line by line if its buffer is longer than every line
(`fgetsLines_flatMap`).

Fields are a subtype, so that a line is built of them by `following` without side
conditions, and each lemma about a reader takes one field off the front. What the readers do
with lines that are not built in this way, or that do not fit, is computed by the same
functions and not described here.
-/

namespace Fields

open CString

/-! ### Reading line by line -/

/-- How many bytes `fgets` takes of the text to come, with a buffer of `size` bytes: up to
the newline, which it keeps, or as many as there is room for beside the NUL. -/
def fgetsLength (size : ℕ) (s : Bytes) : ℕ :=
  min (size - 1) ((s.takeWhile (· != 10)).length + 1)

/-- The lines that `fgets` reads one after another; `fuel` is a bound on their number. -/
def fgetsLoop (size : ℕ) : ℕ → Bytes → List Bytes
  | 0, _ => []
  | fuel + 1, s =>
    if s = [] then []
    else s.take (fgetsLength size s) :: fgetsLoop size fuel (s.drop (fgetsLength size s))

/-- The lines that `fgets` reads of a text. Every call takes a byte at least, so the length
of the text bounds their number. -/
def fgetsLines (size : ℕ) (s : Bytes) : List Bytes := fgetsLoop size s.length s

example : fgetsLines 4 (utf8 "a\nbcde") = [utf8 "a\n", utf8 "bcd", utf8 "e"] := by decide

/-- A line that fits is taken with its newline. -/
private theorem fgetsLength_line {size : ℕ} {line : Bytes} (hline : 10 ∉ line)
    (hfit : line.length + 1 < size) (rest : Bytes) :
    fgetsLength size (line ++ 10 :: rest) = line.length + 1 := by
  have hall : ∀ b ∈ line, (b != 10) = true := fun b hb => by
    simpa using fun h10 : b = 10 => hline (h10 ▸ hb)
  rw [fgetsLength, List.takeWhile_append_of_pos hall, List.takeWhile_cons_of_neg (by decide),
    List.append_nil]
  omega

private theorem fgetsLoop_flatMap {size fuel : ℕ} {lines : List Bytes}
    (hlines : ∀ line ∈ lines, 10 ∉ line)
    (hfit : ∀ line ∈ lines, line.length + 1 < size) (hfuel : lines.length ≤ fuel) :
    fgetsLoop size fuel (lines.flatMap (· ++ [10])) = lines.map (· ++ [10]) := by
  induction lines generalizing fuel with
  | nil => cases fuel <;> rfl
  | cons line lines ih =>
    obtain ⟨hline, hlines⟩ := List.forall_mem_cons.mp hlines
    obtain ⟨hlen, hfit⟩ := List.forall_mem_cons.mp hfit
    obtain ⟨fuel, rfl⟩ : ∃ fuel', fuel = fuel' + 1 :=
      Nat.exists_eq_add_one.mpr (Nat.lt_of_lt_of_le (Nat.succ_pos _) hfuel)
    have htext : (line :: lines).flatMap (· ++ [10]) = line ++ 10 :: lines.flatMap (· ++ [10]) := by
      rw [List.flatMap_cons, List.append_assoc, List.singleton_append]
    have hne : line ++ 10 :: lines.flatMap (· ++ [10]) ≠ [] := by simp
    have hsplit : line ++ 10 :: lines.flatMap (· ++ [10]) =
        (line ++ [10]) ++ lines.flatMap (· ++ [10]) := by
      rw [List.append_assoc, List.singleton_append]
    have hlength : (line ++ [10]).length = line.length + 1 := by
      rw [List.length_append, List.length_singleton]
    rw [htext, fgetsLoop, if_neg hne, fgetsLength_line hline hlen, hsplit, List.take_left' hlength,
      List.drop_left' hlength, ih hlines hfit (Nat.le_of_succ_le_succ hfuel), List.map_cons]

/-- **Reading lines.** A text whose lines fit into the buffer is read line by line. -/
theorem fgetsLines_flatMap {size : ℕ} {lines : List Bytes} (hlines : ∀ line ∈ lines, 10 ∉ line)
    (hfit : ∀ line ∈ lines, line.length + 1 < size) :
    fgetsLines size (lines.flatMap (· ++ [10])) = lines.map (· ++ [10]) := by
  refine fgetsLoop_flatMap hlines hfit ?_
  clear hlines hfit
  induction lines with
  | nil => exact Nat.le_refl 0
  | cons line lines ih =>
    rw [List.flatMap_cons, List.length_append, List.length_append, List.length_singleton,
      List.length_cons]
    omega

/-! ### Fields -/

/-- The bytes are not empty, and neither white space nor NUL. -/
def IsField (field : Bytes) : Prop := field ≠ [] ∧ ∀ b ∈ field, isSpace b = false ∧ b ≠ 0

instance (field : Bytes) : Decidable (IsField field) :=
  have : Decidable (∀ b ∈ field, isSpace b = false ∧ b ≠ 0) := List.decidableBAll _ _
  inferInstanceAs (Decidable (field ≠ [] ∧ ∀ b ∈ field, isSpace b = false ∧ b ≠ 0))

/-- A field of a line, with the proof that it is one. A line made of such fields can be read
back. -/
abbrev Field := {field : Bytes // IsField field}

/-- Fields behind another field, each with a blank in front of it. -/
def following (fields : List Field) : Bytes := fields.flatMap fun field => 32 :: field.1

/-- A line of fields, of which there is one at least. -/
theorem intercalate_fields (field : Field) (fields : List Field) :
    [32].intercalate ((field :: fields).map Subtype.val) = field.1 ++ following fields := by
  induction fields generalizing field with
  | nil =>
    rw [List.map_singleton, List.intercalate_singleton, following, List.flatMap_nil,
      List.append_nil]
  | cons next fields ih =>
    rw [List.map_cons, List.map_cons, List.intercalate_cons_cons, ← List.map_cons, ih, following,
      following, List.flatMap_cons]
    simp only [List.append_assoc, List.cons_append, List.nil_append]

theorem following_append (fields fields' : List Field) :
    following (fields ++ fields') = following fields ++ following fields' :=
  List.flatMap_append

/-- No byte of a field is the blank. -/
private theorem Field.ne_blank (field : Field) {b : UInt8} (hb : b ∈ field.1) : b ≠ 32 := by
  rintro rfl
  exact absurd (field.2.2 32 hb).1 (by decide)

/-- **Scanning a field.** The conversion skips the white space in front of a field and takes
as much of the field as its width allows. A field that is longer than the width is cut, and
the next conversion goes on in its middle. -/
theorem scanToken_field (field : Field) {width : ℕ} (hwidth : 0 < width) {blanks rest : Bytes}
    (hblanks : ∀ b ∈ blanks, isSpace b = true) (hrest : ∀ b ∈ rest.head?, isSpace b = true) :
    scanToken width (blanks ++ (field.1 ++ rest)) =
      some (field.1.take width, field.1.drop width ++ rest) := by
  obtain ⟨field, hne, hfield⟩ := field
  obtain ⟨b, bs, rfl⟩ := List.exists_cons_of_ne_nil hne
  have hb : isSpace b = false := (hfield b List.mem_cons_self).1
  have hdrop : (blanks ++ (b :: bs ++ rest)).dropWhile isSpace = b :: bs ++ rest := by
    rw [List.dropWhile_append_of_pos hblanks, List.cons_append,
      List.dropWhile_cons_of_neg (by simp [hb])]
  have htake : (b :: bs ++ rest).takeWhile (fun c => !isSpace c) = b :: bs := by
    rw [List.takeWhile_append_of_pos fun c hc => by simp [(hfield c hc).1]]
    cases rest with
    | nil => exact List.append_nil _
    | cons c rest =>
      rw [List.takeWhile_cons_of_neg (by simp [hrest c rfl]), List.append_nil]
  have htoken : (b :: bs).take width ≠ [] := by
    obtain ⟨width, rfl⟩ := Nat.exists_eq_add_one.mpr hwidth
    exact List.cons_ne_nil _ _
  rw [scanToken]
  dsimp only
  rw [hdrop, htake, if_neg htoken, List.length_take]
  congr 2
  rcases Nat.le_total width (b :: bs).length with hle | hle
  · rw [Nat.min_eq_left hle, List.drop_append_of_le_length hle]
  · rw [Nat.min_eq_right hle, List.drop_left' rfl, List.drop_of_length_le hle, List.nil_append]

/-- A field that is not longer than the conversion takes is taken whole. -/
private theorem scanToken_field_of_le (field : Field) {width : ℕ} (hwidth : field.1.length ≤ width)
    {blanks rest : Bytes} (hblanks : ∀ b ∈ blanks, isSpace b = true)
    (hrest : ∀ b ∈ rest.head?, isSpace b = true) :
    scanToken width (blanks ++ (field.1 ++ rest)) = some (field.1, rest) := by
  have hpos : 0 < width := (List.length_pos_iff.mpr field.2.1).trans_le hwidth
  rw [scanToken_field field hpos hblanks hrest, List.take_of_length_le hwidth,
    List.drop_of_length_le hwidth, List.nil_append]

/-- A blank ends a field. -/
theorem isSpace_head?_blank (rest : Bytes) : ∀ b ∈ (32 :: rest).head?, isSpace b = true := by
  intro b hb
  obtain rfl := Option.mem_some_iff.mp hb
  decide

/-- The conversion at the start of a line. -/
theorem scanToken_first (field : Field) {width : ℕ} (hwidth : field.1.length ≤ width)
    (rest : Bytes) : scanToken width (field.1 ++ 32 :: rest) = some (field.1, 32 :: rest) :=
  scanToken_field_of_le field hwidth (List.forall_mem_nil _) (isSpace_head?_blank rest)

/-- The conversion behind a field. -/
theorem scanToken_next (field : Field) {width : ℕ} (hwidth : field.1.length ≤ width)
    (rest : Bytes) : scanToken width (32 :: (field.1 ++ 32 :: rest)) = some (field.1, 32 :: rest) :=
  scanToken_field_of_le field hwidth (List.forall_mem_singleton.mpr rfl) (isSpace_head?_blank rest)

/-! ### The separator -/

/-- A search for something that starts with a blank goes past a field. -/
private theorem strstr_field (field : Field) (rest pat : Bytes) :
    strstr (field.1 ++ rest) (32 :: pat) = strstr rest (32 :: pat) := by
  have hskip : ∀ bs : Bytes, (∀ b ∈ bs, b ≠ 32) →
      strstr (bs ++ rest) (32 :: pat) = strstr rest (32 :: pat) := by
    intro bs hbs
    induction bs with
    | nil => rfl
    | cons b bs ih =>
      obtain ⟨hb, hbs⟩ := List.forall_mem_cons.mp hbs
      have hno : ¬(32 :: pat).isPrefixOf (b :: (bs ++ rest)) = true := by
        rw [List.isPrefixOf_iff_prefix, List.cons_prefix_cons]
        exact fun h => hb h.1.symm
      rw [List.cons_append, strstr, if_neg hno, ih hbs]
  exact hskip field.1 fun b hb => field.ne_blank hb

/-- The separator is not found at another field. -/
private theorem strstr_blank_field (sep field : Field) (hne : field ≠ sep) (rest : Bytes) :
    strstr (32 :: (field.1 ++ 32 :: rest)) (32 :: (sep.1 ++ [32])) =
      strstr (32 :: rest) (32 :: (sep.1 ++ [32])) := by
  have hno : ¬(32 :: (sep.1 ++ [32])).isPrefixOf (32 :: (field.1 ++ 32 :: rest)) = true := by
    rw [List.isPrefixOf_iff_prefix, List.cons_prefix_cons]
    rintro ⟨-, hpre⟩
    refine hne (Subtype.ext ?_)
    -- Up to its first blank, a text that starts with a field and a blank is the field.
    have huntil : ∀ (f : Field) (s : Bytes), (f.1 ++ 32 :: s).takeWhile (· != 32) = f.1 := by
      intro f s
      rw [List.takeWhile_append_of_pos fun b hb => by simpa using f.ne_blank hb,
        List.takeWhile_cons_of_neg (by decide), List.append_nil]
    obtain ⟨more, hmore⟩ := hpre
    have hboth := huntil sep more
    rw [← huntil field rest, ← hmore, List.append_assoc, List.singleton_append, hboth]
  rw [strstr, if_neg hno, strstr_field]

/-- **The separator** is found where it stands, if no field in front of it equals it. The
blanks on both sides are part of the pattern, so a field that merely contains the separator
does not match. -/
theorem strstr_separator {sep : Field} (field : Field) {fields : List Field}
    (hfields : ∀ f ∈ fields, f ≠ sep) (rest : Bytes) :
    strstr (field.1 ++ following fields ++ (32 :: (sep.1 ++ 32 :: rest))) (32 :: (sep.1 ++ [32])) =
      some (32 :: (sep.1 ++ 32 :: rest)) := by
  rw [List.append_assoc, strstr_field]
  induction fields with
  | nil =>
    have hpre : (32 :: (sep.1 ++ [32])).isPrefixOf (32 :: (sep.1 ++ 32 :: rest)) = true := by
      rw [List.isPrefixOf_iff_prefix]
      exact ⟨rest, by rw [List.cons_append, List.append_assoc, List.singleton_append]⟩
    rw [following, List.flatMap_nil, List.nil_append, strstr, if_pos hpre]
  | cons next fields ih =>
    obtain ⟨hnext, hfields⟩ := List.forall_mem_cons.mp hfields
    rw [← ih hfields]
    obtain ⟨tail, htail⟩ : ∃ tail,
        following fields ++ (32 :: (sep.1 ++ 32 :: rest)) = 32 :: tail := by
      cases fields with
      | nil => exact ⟨_, rfl⟩
      | cons f fields => exact ⟨_, rfl⟩
    have hstep : following (next :: fields) ++ (32 :: (sep.1 ++ 32 :: rest)) =
        32 :: (next.1 ++ 32 :: tail) := by
      rw [following, List.flatMap_cons, ← following, List.append_assoc, htail, List.cons_append]
    rw [hstep, htail, strstr_blank_field sep next hnext]

end Fields
