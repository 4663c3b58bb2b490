import UsbResponder.Host.CommandCodec
import UsbResponder.Protocol.KeyValueMemory

/-!
# Command results in memory

`usb_responder_protocol_decode_command_result` on a target whose `size_t` has a given number
of bits. The lengths of the two parts are added in `size_t`; which calls of `malloc` succeed
is an input, and a copy from behind the payload has no result.

With 64 bits the sum never wraps, and the decoder is `decodeCommandResult`
(`decodeCommandResultIn_of_wide`). With 32 bits the check lets one other sum pass
(`checksLength_iff`).

The sum of two lengths of 32 bits and a header of 20 bytes wraps at most once, so a payload
that passes without being right announces exactly `2 ^ 32` bytes more than there are; its
first part then reaches behind its end, or the second one starts there. The function is in
the source for a host written in C; the responder itself does not call it.
-/

namespace UsbResponder

open LittleEndian CString

/-! ### The source -/

/-- The field `stdout_len` of a payload. -/
def stdoutLen (payload : Bytes) : ℕ := (readLe32 (payload.drop 12)).toNat

/-- The field `stderr_len` of a payload. -/
def stderrLen (payload : Bytes) : ℕ := (readLe32 (payload.drop 16)).toNat

/-- What the payload of a result with these fields has to be long: `total`, before it wraps. -/
def resultLength (payload : Bytes) : ℕ := 20 + stdoutLen payload + stderrLen payload

/-- The payload passes the length checks; `total` is computed in `sizeBits` bits. -/
def passesLengthCheck (sizeBits : ℕ) (payload : Bytes) : Bool :=
  20 ≤ payload.length && resultLength payload % 2 ^ sizeBits = payload.length

/-- Copy a part of the payload to a block of its own if it is not empty. The result is
`some none` when there is no block, and `none` when the copy reads behind the payload. -/
def copyPart (fresh : UInt8) (ok : Bool) (payload : Bytes) (off len : ℕ) : Option (Option Bytes) :=
  if len = 0 then some (some [])
  else
    match malloc fresh ok len with
    | none => some none
    | some block => do
      let bytes ← copyFrom payload off len
      let block ← store block 0 bytes
      some (some block)

/-- `usb_responder_protocol_decode_command_result`; `some none` is the result `false`. The
calls of `malloc` for the two parts succeed if `okOut` and `okErr` say so. -/
def decodeCommandResultIn (sizeBits : ℕ) (fresh : UInt8) (okOut okErr : Bool) (payload : Bytes) :
    Option (Option CommandResult) :=
  if passesLengthCheck sizeBits payload then do
    match ← copyPart fresh okOut payload 20 (stdoutLen payload) with
    | none => some none
    | some stdoutData =>
      match ← copyPart fresh okErr payload (20 + stdoutLen payload) (stderrLen payload) with
      | none => some none
      | some stderrData =>
        some (some {
          exitCode := (readLe32 payload).toInt32
          timedOut := (payload.drop 4).headD 0 ≠ 0
          durationMs := readLe32 (payload.drop 8)
          stdoutData := stdoutData
          stderrData := stderrData })
  else some none

/-! ### In bounds -/

section Bounds

variable {fresh : UInt8} {ok okOut okErr : Bool} {payload : Bytes} {off len sizeBits : ℕ}

/-- A part inside the payload is copied as it is. -/
private theorem copyPart_eq (h : off + len ≤ payload.length) :
    copyPart fresh ok payload off len =
      some (if len = 0 ∨ ok = true then some ((payload.drop off).take len) else none) := by
  rw [copyPart]
  by_cases hlen : len = 0
  · rw [if_pos hlen, if_pos (.inl hlen), hlen, List.take_zero]
  rw [if_neg hlen]
  cases ok with
  | false => simp [malloc, hlen]
  | true =>
    have hbytes : ((payload.drop off).take len).length = len := by
      rw [List.length_take, List.length_drop]
      omega
    rw [malloc, if_pos rfl, copyFrom_eq h]
    simp [store, hbytes]

/-- A part that starts inside the payload and ends behind it is read out of bounds. -/
private theorem copyFrom_eq_none {data : Bytes} (h : data.length < off + len) (hlen : 0 < len) :
    copyFrom data off len = none := by
  induction len generalizing off with
  | zero => exact absurd hlen (lt_irrefl 0)
  | succ len ih =>
    rw [copyFrom]
    by_cases hoff : off < data.length
    · rw [List.getElem?_eq_getElem hoff, ih (by omega) (by omega)]
      rfl
    · rw [List.getElem?_eq_none (not_lt.mp hoff)]
      rfl

/-- **The decoder on a payload of the right length.** All copies are inside the payload, and
it returns the result unless a call of `malloc` fails. -/
theorem decodeCommandResultIn_of_exact (hlong : 20 ≤ payload.length)
    (hexact : resultLength payload = payload.length) (hfits : payload.length < 2 ^ sizeBits) :
    decodeCommandResultIn sizeBits fresh okOut okErr payload =
      some (if (stdoutLen payload = 0 ∨ okOut = true) ∧ (stderrLen payload = 0 ∨ okErr = true) then
        decodeCommandResult payload else none) := by
  have hpasses : passesLengthCheck sizeBits payload = true := by
    rw [passesLengthCheck, hexact, Nat.mod_eq_of_lt hfits]
    simp [hlong]
  have htotal : 20 + stdoutLen payload + stderrLen payload = payload.length := hexact
  rw [decodeCommandResultIn, if_pos hpasses, copyPart_eq (by omega), copyPart_eq (by omega)]
  simp only [Option.bind_eq_bind, Option.bind_some]
  by_cases hout : stdoutLen payload = 0 ∨ okOut = true
  · by_cases herr : stderrLen payload = 0 ∨ okErr = true
    · rw [if_pos hout, if_pos herr, if_pos ⟨hout, herr⟩, decodeCommandResult, if_neg (by omega)]
      dsimp only
      rw [← stdoutLen, ← stderrLen, if_neg (not_not.mpr htotal)]
    · rw [if_pos hout, if_neg herr, if_neg fun h => herr h.2]
  · rw [if_neg hout, if_neg (show ¬(_ ∧ _) from fun h => hout h.1)]

/-- With 64 bits the sum does not wrap, and the decoder is the one that adds the lengths
exactly. -/
theorem decodeCommandResultIn_of_wide (hbits : 34 ≤ sizeBits) :
    decodeCommandResultIn sizeBits fresh true true payload =
      some (decodeCommandResult payload) := by
  have hout : stdoutLen payload < 2 ^ 32 := (readLe32 (payload.drop 12)).toNat_lt
  have herr : stderrLen payload < 2 ^ 32 := (readLe32 (payload.drop 16)).toNat_lt
  have hwide : 2 ^ 34 ≤ 2 ^ sizeBits := Nat.pow_le_pow_right (by norm_num) hbits
  have hmod : resultLength payload % 2 ^ sizeBits = resultLength payload :=
    Nat.mod_eq_of_lt (by rw [resultLength]; omega)
  by_cases hexact : 20 ≤ payload.length ∧ resultLength payload = payload.length
  · have hfits : payload.length < 2 ^ sizeBits := by
      rw [← hexact.2, ← hmod]
      exact Nat.mod_lt _ (by positivity)
    rw [decodeCommandResultIn_of_exact hexact.1 hexact.2 hfits, if_pos (by simp)]
  · have hfails : passesLengthCheck sizeBits payload = false := by
      rw [passesLengthCheck, hmod]
      simpa using hexact
    have hnone : decodeCommandResult payload = none := by
      rw [decodeCommandResult]
      split_ifs with hshort
      · rfl
      · dsimp only
        rw [if_pos]
        exact fun htotal => hexact ⟨not_lt.mp hshort, htotal⟩
    rw [decodeCommandResultIn, hfails, hnone]
    rfl

/-- When the sum has wrapped in 32 bits, the first part ends behind the payload. -/
private theorem decodeCommandResultIn_of_wrapped (hlong : 20 ≤ payload.length)
    (hwrapped : resultLength payload = payload.length + 2 ^ 32)
    (hfits : payload.length < 2 ^ 32) :
    passesLengthCheck 32 payload = true ∧
      decodeCommandResultIn 32 fresh true okErr payload = none := by
  have herr : stderrLen payload < 2 ^ 32 := (readLe32 (payload.drop 16)).toNat_lt
  have hpasses : passesLengthCheck 32 payload = true := by
    rw [passesLengthCheck, hwrapped, Nat.add_mod_right, Nat.mod_eq_of_lt hfits]
    simp [hlong]
  rw [resultLength] at hwrapped
  have hcopy : copyPart fresh true payload 20 (stdoutLen payload) = none := by
    rw [copyPart, if_neg (by omega), malloc, if_pos rfl]
    dsimp only
    rw [copyFrom_eq_none (by omega) (by omega)]
    rfl
  rw [decodeCommandResultIn, if_pos hpasses, hcopy]
  exact ⟨hpasses, rfl⟩

end Bounds

/-! ### The length check -/

/-- The length check is exact for the payload: it passes only if the payload is as long as
its length fields say, and then both copies stay inside. -/
def ChecksLength (sizeBits : ℕ) (payload : Bytes) : Prop :=
  passesLengthCheck sizeBits payload = true →
    resultLength payload = payload.length ∧
      ∀ fresh okOut okErr, decodeCommandResultIn sizeBits fresh okOut okErr payload ≠ none

/-- **The length check with 32 bits.** It is exact for all payloads but those of at least 20
bytes whose length fields ask for `2 ^ 32` bytes more than there are. -/
theorem checksLength_iff {payload : Bytes} (h : payload.length < 2 ^ 32) :
    ChecksLength 32 payload ↔
      ¬(20 ≤ payload.length ∧ resultLength payload = payload.length + 2 ^ 32) := by
  constructor
  · rintro hexact ⟨hlong, hwrapped⟩
    obtain ⟨hpasses, -⟩ : passesLengthCheck 32 payload = true ∧
        decodeCommandResultIn 32 0 true true payload = none :=
      decodeCommandResultIn_of_wrapped hlong hwrapped h
    have hlength := (hexact hpasses).1
    omega
  · intro hnot hpasses
    obtain ⟨hlong, hmod⟩ : 20 ≤ payload.length ∧
        resultLength payload % 2 ^ 32 = payload.length := by
      simpa [passesLengthCheck] using hpasses
    have hout : stdoutLen payload < 2 ^ 32 := (readLe32 (payload.drop 12)).toNat_lt
    have herr : stderrLen payload < 2 ^ 32 := (readLe32 (payload.drop 16)).toNat_lt
    -- two lengths of 32 bits and the fields wrap once at most to a size of 20 or more
    have hlength : resultLength payload = payload.length := by
      have hwrapped := not_and.mp hnot hlong
      rw [resultLength] at hmod hwrapped ⊢
      omega
    refine ⟨hlength, fun fresh okOut okErr => ?_⟩
    rw [decodeCommandResultIn_of_exact hlong hlength h]
    exact Option.some_ne_none _

/-- A payload of 20 bytes that announces one byte and `2 ^ 32 - 1` bytes. -/
def wrappedResult : Bytes := List.replicate 12 0 ++ ([1, 0, 0, 0] ++ [255, 255, 255, 255])

/-- `checksLength_iff` for this payload. -/
theorem checksLength_iff_wrapped : ChecksLength 32 wrappedResult ↔
    ¬(20 ≤ wrappedResult.length ∧ resultLength wrappedResult = wrappedResult.length + 2 ^ 32) :=
  checksLength_iff (by decide)

/-- It passes the check, and its first byte of output is read behind its end. -/
theorem not_checksLength :
    ¬∀ payload : Bytes, payload.length < 2 ^ 32 → ChecksLength 32 payload := by
  intro h
  have hpasses : passesLengthCheck 32 wrappedResult = true := by decide
  have hnone : decodeCommandResultIn 32 0 true true wrappedResult = none := by decide
  exact (h wrappedResult (by decide) hpasses).2 0 true true hnone

end UsbResponder
