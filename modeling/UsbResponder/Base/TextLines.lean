import UsbResponder.Base.CString

/-!
# Texts and their lines

Decoding UTF-8, and splitting a text into lines as Python's `str.splitlines` does. A text
that is a list of lines, each ended by a newline, is split into these lines again
(`splitLines_flatMap`), and however a text is split, its lines with one more byte each are
at most one byte longer than the text (`sum_splitLines_le`). So a text that lost more than
its last newline has lost a line.

The loop of `splitLines` carries the current line as an accumulator, and all inductions are
on the characters to come with this line generalised. `decodeUtf8` is Lean's own decoder,
which is as strict as Python's; its error handlers are left out, since a strict decoder
raises an exception.
-/

namespace UsbResponder

namespace TextLines

/-! ### UTF-8 -/

/-- The text with the given encoding, if there is one. -/
def decodeUtf8 (bs : Bytes) : Option String := String.fromUTF8? bs.toByteArray

private theorem toByteArray_utf8 (s : String) : (utf8 s).toByteArray = s.toByteArray := by
  have h : (utf8 s).toByteArray = s.toList.utf8Encode := rfl
  rw [h, ← String.toByteArray_ofList, String.ofList_toList]

@[simp] theorem decodeUtf8_utf8 (s : String) : decodeUtf8 (utf8 s) = some s := by
  rw [decodeUtf8, toByteArray_utf8, String.fromUTF8?, dif_pos s.isValidUTF8]
  rfl

/-- What is decoded is encoded as it was. A text has one encoding only, so decoding loses
nothing. -/
theorem utf8_of_decodeUtf8 {bs : Bytes} {s : String} (h : decodeUtf8 bs = some s) :
    utf8 s = bs := by
  rw [decodeUtf8, String.fromUTF8?] at h
  split_ifs at h with hvalid
  obtain rfl := Option.some.inj h
  have hbytes := congrArg ByteArray.data (toByteArray_utf8 (String.fromUTF8 bs.toByteArray hvalid))
  rw [List.data_toByteArray] at hbytes
  exact Array.toList_inj.mpr (hbytes.trans List.data_toByteArray)

theorem utf8_injective : Function.Injective utf8 := by
  intro s t h
  have hdecode := congrArg decodeUtf8 h
  rwa [decodeUtf8_utf8, decodeUtf8_utf8, Option.some_inj] at hdecode

theorem utf8_append (s t : String) : utf8 (s ++ t) = utf8 s ++ utf8 t := by
  rw [utf8, String.toList_append, List.flatMap_append]
  rfl

/-! ### Lines -/

/-- The characters at which `str.splitlines` ends a line. There are more of them than the
newline that the other side writes, so a name may be split that the device sent as one line. -/
def isLineBreak (c : Char) : Bool :=
  c ∈ ['\n', '\r', '\x0b', '\x0c', '\x1c', '\x1d', '\x1e', '\u0085', '\u2028', '\u2029']

/-- The lines of a text: what was read of the current line, and the characters to come. A
carriage return and a newline end one line. A last line without an end counts if it is not
empty. -/
def splitLines : List Char → List Char → List (List Char)
  | line, [] => if line = [] then [] else [line]
  | line, '\r' :: '\n' :: rest => line :: splitLines [] rest
  | line, c :: rest =>
    if isLineBreak c then line :: splitLines [] rest else splitLines (line ++ [c]) rest

/-- `str.splitlines`. Its line ends are those of Python, of which a newline is one. -/
def splitlines (s : String) : List String := (splitLines [] s.toList).map String.ofList

/-- Any other character goes to the current line. -/
private theorem splitLines_cons_of_not {c : Char} (h : isLineBreak c = false)
    (line rest : List Char) : splitLines line (c :: rest) = splitLines (line ++ [c]) rest := by
  have hcr : c ≠ '\r' := by
    rintro rfl
    exact absurd h (by decide)
  rw [splitLines]
  · rw [if_neg (by simp [h])]
  · rintro rest' rfl
    exact fun _ => hcr rfl

private theorem splitLines_append {name : List Char} (h : ∀ c ∈ name, isLineBreak c = false)
    (line rest : List Char) : splitLines line (name ++ rest) = splitLines (line ++ name) rest := by
  induction name generalizing line with
  | nil => rw [List.nil_append, List.append_nil]
  | cons c name ih =>
    rw [List.cons_append, splitLines_cons_of_not (h c List.mem_cons_self),
      ih fun c' hc' => h c' (List.mem_cons_of_mem _ hc'), List.append_assoc]
    rfl

/-- **Lines read back.** Lines without line breaks, each ended by a newline, are split into
the same lines. -/
theorem splitLines_flatMap {names : List (List Char)}
    (h : ∀ name ∈ names, ∀ c ∈ name, isLineBreak c = false) :
    splitLines [] (names.flatMap fun name => name ++ ['\n']) = names := by
  induction names with
  | nil => rfl
  | cons name names ih =>
    have hnewline : ∀ line rest, splitLines line ('\n' :: rest) = line :: splitLines [] rest :=
      fun line rest => rfl
    rw [List.flatMap_cons, List.append_assoc, splitLines_append (h name List.mem_cons_self),
      List.nil_append, List.singleton_append, hnewline,
      ih fun name' hname' => h name' (List.mem_cons_of_mem _ hname')]

/-- The number of bytes of a line, and one for what ends it. -/
def lineSize (line : List Char) : ℕ := (line.flatMap String.utf8EncodeChar).length + 1

/-- **Lines are not longer than the text.** At most the last line lacks its end, so one byte
is enough to make up for it. -/
theorem sum_splitLines_le (line rest : List Char) :
    ((splitLines line rest).map lineSize).sum ≤
      lineSize line + (rest.flatMap String.utf8EncodeChar).length := by
  induction line, rest using splitLines.induct with
  | case1 => simp [splitLines]
  | case2 line hne => simp [splitLines, hne]
  | case3 line rest ih =>
    -- the two characters that end the line take two bytes
    have hcr : String.utf8EncodeChar '\r' = [13] := by decide
    have hnl : String.utf8EncodeChar '\n' = [10] := by decide
    rw [splitLines, List.map_cons, List.sum_cons, List.flatMap_cons, List.flatMap_cons, hcr, hnl]
    simp only [lineSize, List.flatMap_nil, List.length_nil, List.length_append,
      List.length_cons] at ih ⊢
    omega
  | case4 line c rest hcrlf hbreak ih =>
    have hc := List.length_pos_iff.mpr (String.utf8EncodeChar_ne_nil (c := c))
    rw [splitLines, if_pos hbreak, List.map_cons, List.sum_cons, List.flatMap_cons]
    · simp only [lineSize, List.flatMap_nil, List.length_nil, List.length_append] at ih ⊢
      omega
    · exact hcrlf
  | case5 line c rest hcrlf hbreak ih =>
    rw [splitLines, if_neg hbreak, List.flatMap_cons]
    · simp only [lineSize, List.flatMap_append, List.flatMap_cons, List.flatMap_nil,
        List.append_nil, List.length_append] at ih ⊢
      omega
    · exact hcrlf

/-! ### Lists of names -/

/-- Names, each ended by a newline. -/
def joinLines (names : List String) : Bytes := names.flatMap fun name => utf8 name ++ utf8 "\n"

/-- The lines of an encoded text that are not empty, if it can be decoded. This is what the
client makes of a list of names. -/
def readLines (text : Bytes) : Option (List String) :=
  (decodeUtf8 text).map fun s => (splitlines s).filter (· ≠ "")

/-- A name that is one line: it is not empty, and no character of it ends a line. Such names
are the ones that survive a listing. -/
structure IsLine (name : String) : Prop where
  ne : name ≠ ""
  unbroken : ∀ c ∈ name.toList, isLineBreak c = false

/-- The text `joinLines` encodes. -/
private theorem joinLines_eq_utf8 (names : List String) :
    joinLines names = utf8 (String.join (names.map (· ++ "\n"))) := by
  induction names with
  | nil => rfl
  | cons name names ih =>
    have hcons : joinLines (name :: names) = utf8 name ++ utf8 "\n" ++ joinLines names := rfl
    rw [hcons, ih, List.map_cons, String.join_cons, utf8_append, utf8_append]

/-- **Names read back.** Whole lines are the names they were written from. -/
theorem readLines_joinLines {names : List String} (h : ∀ name ∈ names, IsLine name) :
    readLines (joinLines names) = some names := by
  have hsplit : splitlines (String.join (names.map (· ++ "\n"))) = names := by
    have hlines : (String.join (names.map (· ++ "\n"))).toList =
        (names.map String.toList).flatMap fun name => name ++ ['\n'] := by
      simp [String.toList_join, List.flatMap_map]
    have hunbroken : ∀ name ∈ names.map String.toList, ∀ c ∈ name, isLineBreak c = false := by
      intro name hname
      obtain ⟨name', hname', rfl⟩ := List.mem_map.mp hname
      exact (h name' hname').unbroken
    rw [splitlines, hlines, splitLines_flatMap hunbroken, List.map_map,
      String.ofList_comp_toList, List.map_id]
  rw [readLines, joinLines_eq_utf8, decodeUtf8_utf8, Option.map_some, hsplit, Option.some_inj,
    List.filter_eq_self]
  exact fun name hname => decide_eq_true (h name hname).ne

/-- A text that lost more than its last byte has lost a name. -/
theorem length_joinLines_le_of_readLines_take {names : List String} {k : ℕ}
    (h : readLines ((joinLines names).take k) = some names) :
    (joinLines names).length ≤ k + 1 := by
  rw [readLines, Option.map_eq_some_iff] at h
  obtain ⟨s, hs, hnames⟩ := h
  have hsize : ∀ lines : List String,
      (joinLines lines).length = (lines.map fun line => lineSize line.toList).sum := by
    intro lines
    induction lines with
    | nil => rfl
    | cons line lines ih =>
      have hcons : joinLines (line :: lines) = utf8 line ++ utf8 "\n" ++ joinLines lines := rfl
      have hnewline : (utf8 "\n").length = 1 := by decide
      rw [hcons, List.length_append, List.length_append, hnewline, ih, List.map_cons, List.sum_cons]
      rfl
  have hfilter : ((splitlines s).filter (· ≠ "")).Sublist (splitlines s) := List.filter_sublist
  have hsub : (joinLines names).length ≤ ((splitLines [] s.toList).map lineSize).sum := by
    rw [hsize]
    refine ((hnames ▸ hfilter).map _).sum_le_sum (fun _ _ => Nat.zero_le _) |>.trans_eq ?_
    simp [splitlines, Function.comp_def]
  have hbound := sum_splitLines_le [] s.toList
  have hlength : (s.toList.flatMap String.utf8EncodeChar).length ≤ k := by
    have hbytes : s.toList.flatMap String.utf8EncodeChar = (joinLines names).take k :=
      utf8_of_decodeUtf8 hs
    rw [hbytes]
    exact List.length_take_le _ _
  have hempty : lineSize [] = 1 := rfl
  omega

end TextLines

end UsbResponder
