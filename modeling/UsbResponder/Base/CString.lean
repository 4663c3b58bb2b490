import UsbResponder.Base.LittleEndian
import Mathlib.Data.List.TakeWhile

/-!
# C strings and the string functions of the C library

A C string is what a `char` pointer denotes: the bytes up to the first NUL. Buffers are byte
strings and `cStr` is the string a reader of the buffer sees. The functions below follow the
documented behaviour of `strlen`, `snprintf`, `strstr`, `strcasecmp`, `strtoul` in base 8
and of the `%Ns` conversion of `sscanf`, restricted to what a caller can observe: the text
stored, the value returned and the position reached. `utf8` is the encoding of a text, for
the literals of C sources and for encoded strings alike.

Where a claim is about memory, a buffer has bounds: `store` fails when it would write beyond
the cells there are, and `resize` leaves open what new cells hold. Locales other than the C
locale, the return value of `snprintf` and conversions nobody uses are left out. All
functions are computable, so that a concrete call can be decided.
-/

/-- The UTF-8 encoding of a text. On ASCII text these are the character codes, which is how
the literals of the C source are written here. -/
def utf8 (s : String) : Bytes := s.toList.flatMap String.utf8EncodeChar

namespace CString

/-- The C string at the start of a buffer: its bytes up to the first NUL. A buffer without a
NUL is read to its end, which callers have to exclude where it matters. -/
def cStr (buf : Bytes) : Bytes := buf.takeWhile (· != 0)

/-- `strlen`. -/
def strlen (buf : Bytes) : ℕ := (cStr buf).length

/-- What `snprintf` with room for `size` bytes stores of the formatted text `s`, without the
NUL that it always adds. What does not fit is cut off, in the middle of a character if need
be. -/
def snprintf (size : ℕ) (s : Bytes) : Bytes := s.take (size - 1)

/-- A string without NUL is the C string of its own buffer. -/
theorem cStr_eq_self {s : Bytes} (h : 0 ∉ s) : cStr s = s := by
  rw [cStr, List.takeWhile_eq_self_iff]
  intro b hb
  simpa using fun h0 : b = 0 => h (h0 ▸ hb)

/-- C strings contain no NUL. -/
theorem zero_notMem_cStr (buf : Bytes) : 0 ∉ cStr buf := by
  intro h
  simpa using List.mem_takeWhile_imp h

@[simp]
theorem cStr_cStr (buf : Bytes) : cStr (cStr buf) = cStr buf :=
  cStr_eq_self (zero_notMem_cStr buf)

theorem length_cStr_le (buf : Bytes) : (cStr buf).length ≤ buf.length :=
  (List.takeWhile_sublist _).length_le

/-- Text that fits is stored whole. It fits when there is a byte left for the NUL, so its
length must be below the size. -/
theorem snprintf_eq_self {size : ℕ} {s : Bytes} (h : s.length < size) : snprintf size s = s :=
  List.take_of_length_le (by omega)

theorem length_snprintf_le (size : ℕ) (s : Bytes) : (snprintf size s).length ≤ size - 1 :=
  List.length_take_le _ _

/-! ### Writing into a buffer -/

/-- Write `data` to the cells of a buffer from `i` on. There is no result when a byte is
written to a cell the buffer does not have; a model that reaches such a write has no result
either. -/
def store (buf : Bytes) (i : ℕ) (data : Bytes) : Option Bytes :=
  if i + data.length ≤ buf.length then
    some (buf.take i ++ data ++ buf.drop (i + data.length))
  else none

/-- Data that fits behind what the buffer starts with is written there. -/
theorem exists_store_append {buf s : Bytes} (hs : s <+: buf) (data : Bytes)
    (hfit : (s ++ data).length ≤ buf.length) :
    ∃ buf', store buf s.length data = some buf' ∧ buf'.length = buf.length ∧
      s ++ data <+: buf' := by
  rw [List.length_append] at hfit
  rw [store, if_pos hfit, ← List.prefix_iff_eq_take.mp hs]
  refine ⟨_, rfl, ?_, List.prefix_append _ _⟩
  rw [List.length_append, List.length_append, List.length_drop]
  omega

/-- A block that is given another size keeps what fits of its bytes. What the rest of it
holds is left open by `fresh`, as after `realloc`. -/
def resize (fresh : UInt8) (block : Bytes) (size : ℕ) : Bytes :=
  block.take size ++ List.replicate (size - block.length) fresh

/-- A block that grows keeps its bytes. What is behind them is whatever the allocator has
left there. -/
theorem resize_of_le (fresh : UInt8) {block : Bytes} {size : ℕ} (h : block.length ≤ size) :
    (resize fresh block size).length = size ∧ block <+: resize fresh block size := by
  rw [resize, List.take_of_length_le h]
  refine ⟨?_, List.prefix_append _ _⟩
  rw [List.length_append, List.length_replicate]
  omega

/-- The string at the start of a buffer is what stands in front of the NUL. -/
theorem cStr_eq_of_prefix {buf s : Bytes} (hs : 0 ∉ s) (h : s ++ [0] <+: buf) : cStr buf = s := by
  obtain ⟨rest, rfl⟩ := h
  have hall : ∀ b ∈ s, (b != 0) = true := fun b hb => by
    simpa using fun h0 : b = 0 => hs (h0 ▸ hb)
  rw [cStr, List.append_assoc, List.takeWhile_append_of_pos hall, List.singleton_append,
    List.takeWhile_cons_of_neg (by decide), List.append_nil]

/-! ### Formatting -/

/-- The digits of an unsigned number in the given base, padded with zeros to `width`: the
conversions `%u`, `%04o` and `%08x` of `printf`. A number with more digits is not cut. -/
def formatNat (base width n : ℕ) : Bytes :=
  let digits := (Nat.toDigits base n).flatMap String.utf8EncodeChar
  List.replicate (width - digits.length) 48 ++ digits

example : formatNat 8 4 493 = utf8 "0755" := by decide
example : formatNat 10 0 0 = utf8 "0" := by decide

/-! ### Searching and comparing -/

/-- `strstr`: the suffix of `s` that starts with `pat`, if there is one. The first
occurrence counts. -/
def strstr (s pat : Bytes) : Option Bytes :=
  match s with
  | [] => if pat = [] then some [] else none
  | b :: rest => if pat.isPrefixOf (b :: rest) then some (b :: rest) else strstr rest pat

/-- The search succeeds if the pattern occurs. -/
theorem strstr_isSome_iff {s pat : Bytes} : (strstr s pat).isSome = true ↔ pat <:+: s := by
  induction s with
  | nil =>
    rw [strstr, List.infix_nil]
    split_ifs with hpat
    · exact iff_of_true rfl hpat
    · exact iff_of_false (by decide) hpat
  | cons b rest ih =>
    rw [strstr, List.infix_cons_iff, ← List.isPrefixOf_iff_prefix]
    split_ifs with hprefix
    · exact iff_of_true rfl (.inl hprefix)
    · rw [ih, or_iff_right hprefix]

/-- ASCII `tolower`. -/
def toLower (b : UInt8) : UInt8 := if 65 ≤ b ∧ b ≤ 90 then b + 32 else b

/-- `strcasecmp(a, b) == 0`. Only the letters of ASCII are told apart from their other case. -/
def eqIgnoreCase (a b : Bytes) : Bool := a.map toLower == b.map toLower

/-! ### Scanning -/

/-- `isspace` in the C locale: space and the bytes `\t \n \v \f \r`. -/
def isSpace (b : UInt8) : Bool := b == 32 || (9 ≤ b && b ≤ 13)

/-- The conversion `%Ns` of `sscanf` with maximal width `width`: skips white space, then
takes at most `width` other bytes; `none` when the input ends first. Returns the token and
what follows it, where the next conversion goes on. -/
def scanToken (width : ℕ) (s : Bytes) : Option (Bytes × Bytes) :=
  let body := s.dropWhile isSpace
  let token := (body.takeWhile fun b => !isSpace b).take width
  if token = [] then none else some (token, body.drop token.length)

/-- An octal digit. -/
def isOctal (b : UInt8) : Bool := 48 ≤ b && b ≤ 55

/-- `strtoul(s, &end, 8)` on a target whose `unsigned long` ranges up to `ulongMax`: the
value and the text at `end`, or `none` when no conversion takes place (then `end == s`). A
value out of range saturates; a minus sign negates in the unsigned type. -/
def strtoul8 (ulongMax : ℕ) (s : Bytes) : Option (ℕ × Bytes) :=
  let body := s.dropWhile isSpace
  let negative := body.head? = some 45
  let digits := if body.head? = some 45 ∨ body.head? = some 43 then body.tail else body
  let octal := digits.takeWhile isOctal
  if octal = [] then none
  else
    let value := octal.foldl (fun acc d => 8 * acc + (d.toNat - 48)) 0
    let result :=
      if ulongMax < value then ulongMax
      else if negative then (ulongMax + 1 - value) % (ulongMax + 1)
      else value
    some (result, digits.dropWhile isOctal)

example : strtoul8 (2 ^ 32 - 1) (utf8 "0755") = some (493, []) := by decide
example : strtoul8 (2 ^ 32 - 1) (utf8 "rw") = none := by decide

end CString
