import UsbResponder.Base.GuardedLoop
import UsbResponder.Responder.Handlers

/-!
# Reading a text file

`read_text_file` with its buffer. The capacity is doubled when the buffer is full, but not
beyond what the limit takes, so the last round may read less than a doubling allows, and the
loop leaves in three ways. Sizes are of a `size_t` of `w` bits, and a write outside the
buffer has no result. When a block is not granted, the stream is closed and the function
fails.

Of a file that is read short only at its end the limit cuts off what is too much, as long as
the allocations succeed (`readTextFileIn_eq`). That is also what keeps the sizes inside
`size_t`: a block of half the address space is never granted, so a capacity can be doubled,
and neither is one of no bytes, which is what a limit of `SIZE_MAX` comes to.
`allocationsSucceed_of_le` is the case of the two callers.

The state of the loop is the buffer and the process, and `TextBuffer.Reading` is the
invariant at the head of a round: the buffer holds the start of the file with room behind
it, and the stream is behind what was read. One round either reads more or ends the loop
(`TextBuffer.Reading.round`). The argument about sizes is in the step that enlarges the
buffer, and nowhere else.

The file is any stream that delivers its bytes in order. What `fread` does after an error is
left out.
-/

namespace UsbResponder

open CString

variable {σ : Type}

/-! ### The source -/

/-- `a - b` of `size_t`, which wraps around. -/
def sizeSub (w a b : ℕ) : ℕ := (a + (2 ^ w - b)) % 2 ^ w

/-- `buf`, `cap` and `used`. -/
structure TextBuffer where
  buf : Bytes
  cap : ℕ
  used : ℕ
  deriving DecidableEq, Repr

/-- What enlarging the buffer comes to: there is room for a byte and the NUL, or the buffer
is as large as it may be, or `realloc` fails. -/
inductive TextGrowth
  | room (b : TextBuffer)
  | limit
  | oom
  deriving DecidableEq, Repr

/-- Where the reading stands: it has a buffer, or `realloc` has failed, or a write went
outside the buffer. The latter two end the loop. -/
inductive TextRead
  | buffer (b : TextBuffer)
  | oom
  | outside
  deriving DecidableEq, Repr

section ReadTextFile

variable (w : ℕ) (fresh : UInt8) (os : Os σ) (maxBytes : ℕ)

/-- The first half of a round: a full buffer is enlarged, unless it must not grow. The new
capacity is computed as in the source, with a doubling that may wrap around. -/
def readTextGrow (b : TextBuffer) (s : σ) : TextGrowth :=
  if b.cap ≤ (b.used + 1) % 2 ^ w then
    let limit := (maxBytes + 1) % 2 ^ w
    let newCap := if limit < b.cap * 2 % 2 ^ w then limit else b.cap * 2 % 2 ^ w
    if newCap = b.cap then .limit
    else if (os.realloc newCap s).1 then
      .room { b with buf := resize fresh b.buf newCap, cap := newCap }
    else .oom
  else .room b

/-- `want` of a round. -/
def readTextWant (b : TextBuffer) : ℕ := sizeSub w (sizeSub w b.cap 1) b.used

/-- The loop of `read_text_file`. -/
def readTextRounds (fp : ℕ) : GuardedLoop (TextRead × Proc σ) where
  guard _ := true
  round
    | (.oom, p) => (false, .oom, p)
    | (.outside, p) => (false, .outside, p)
    | (.buffer b, p) =>
      match readTextGrow w fresh os maxBytes b p.os with
      | .limit => (false, .buffer b, p)
      | .oom => (false, .oom, p)
      | .room b =>
        let want := readTextWant w b
        let ((data, _), s) := os.fread fp want p.os
        let got := data.take want
        match store b.buf b.used got with
        | none => (false, .outside, { p with os := s })
        | some buf =>
          let used := (b.used + got.length) % 2 ^ w
          (!decide (got.length < want) && !decide (maxBytes ≤ used),
            .buffer { b with buf := buf, used := used }, { p with os := s })

/-- The buffer in front of the first round. -/
def readTextStart : TextBuffer := ⟨List.replicate 1024 fresh, 1024, 0⟩

/-- What follows the loop: the text up to the first NUL without what is trailing, and a NUL. -/
def readTextEnd (b : TextBuffer) : Option Bytes :=
  let text := cStr (b.buf.take b.used)
  store b.buf (text.rdropWhile isTrailing).length [0]

/-- `read_text_file`: the block `*out` points to, `none` when a write was out of bounds or
the loop has not ended after as many rounds as there can be. -/
def readTextFileIn (path : Bytes) : Op σ (Option Bytes) := do
  match ← Op.sys (os.fopenRb path) with
  | .error _ => Op.fail
  | .ok fp =>
    if ← Op.sys (os.malloc 1024) then
      ⟨fun p =>
        match (readTextRounds w fresh os maxBytes fp).run (maxBytes + 1)
          (.buffer (readTextStart fresh), p) with
        | some (_, .buffer b, p) => (some (readTextEnd b), { p with os := (os.fclose fp p.os).2 })
        | some (_, .oom, p) => (Op.failClosing os fp).run p
        | some (_, .outside, p) => (some none, p)
        | none => (some none, p)⟩
    else Op.failClosing os fp

/-- The allocations of a run of `read_text_file` succeed: the first one, and each that a
round asks for. Sizes that no round comes to are not asked about. -/
def AllocationsSucceed (fp : ℕ) (p : Proc σ) : Prop :=
  os.allocates 1024 p.os = true ∧
    ∀ t, (readTextRounds w fresh os maxBytes fp).Heads (.buffer (readTextStart fresh), p) t →
      ∀ b, t.1 = .buffer b → readTextGrow w fresh os maxBytes b t.2.os ≠ .oom

end ReadTextFile

/-! ### One round -/

/-- The stream `fp` is read from a file, and short only at its end; `At n` says that `n`
bytes have been read. -/
def Os.Serves (os : Os σ) (fp : ℕ) (content : Bytes) (At : ℕ → σ → Prop) : Prop :=
  ∀ n s want, At n s → n ≤ content.length →
    (os.fread fp want s).1.1 = (content.drop n).take want ∧
      At (n + min want (content.length - n)) (os.fread fp want s).2

/-- The buffer holds the start of the file, with room behind it. -/
structure TextBuffer.Holds (b : TextBuffer) (content : Bytes) : Prop where
  length_buf : b.buf.length = b.cap
  contents : content.take b.used <+: b.buf
  used_le : b.used ≤ content.length
  room : b.used + 1 ≤ b.cap

private theorem sizeSub_of_le {w a b : ℕ} (hb : b ≤ a) (ha : a < 2 ^ w) : sizeSub w a b =
    a - b := by
  have heq : a + (2 ^ w - b) = a - b + 2 ^ w := by omega
  rw [sizeSub, heq, Nat.add_mod_right, Nat.mod_eq_of_lt (by omega)]

/-- What is read next follows what was read. -/
private theorem take_add_length_take (content : Bytes) (n want : ℕ) :
    content.take (n + ((content.drop n).take want).length) =
      content.take n ++ (content.drop n).take want := by
  rw [List.take_add, ← List.prefix_iff_eq_take.mp (List.take_prefix ..)]

/-- Twice a size below half the address space is still a `size_t`. -/
private theorem mul_two_lt_of_lt {w cap : ℕ} (h : cap < 2 ^ (w - 1)) (hpos : 0 < cap) :
    cap * 2 < 2 ^ w := by
  obtain _ | w := w
  · simp only [Nat.zero_sub, Nat.pow_zero] at h
    omega
  · rw [Nat.pow_succ]
    rw [Nat.add_sub_cancel] at h
    omega

section Round

variable {w maxBytes : ℕ} (fresh : UInt8) {content : Bytes} {b : TextBuffer} {os : Os σ}

/-- What the first half of a round makes of the buffer `b`: there is room for more than the
NUL, and the room is what is read. As many bytes are used as in `b`. -/
structure TextBuffer.Grown (w maxBytes : ℕ) (b grown : TextBuffer) : Prop where
  used : grown.used = b.used
  cap : grown.cap = if b.cap ≤ b.used + 1 then min (b.cap * 2) (maxBytes + 1) else b.cap
  cap_le : grown.cap ≤ maxBytes + 1
  room : b.used + 1 < grown.cap
  want : readTextWant w grown = grown.cap - 1 - b.used

/-- A buffer below the limit that is full can grow, if it is granted the room. -/
private theorem TextBuffer.Holds.grow (h : b.Holds content) (hmax : maxBytes < 2 ^ w)
    (hsize : ∀ n s, os.allocates n s = true → n < 2 ^ (w - 1)) (hused : b.used < maxBytes)
    (hcap : b.cap ≤ maxBytes + 1) (hhalf : b.cap < 2 ^ (w - 1)) {s : σ}
    (hgrant : readTextGrow w fresh os maxBytes b s ≠ .oom) :
    ∃ grown, readTextGrow w fresh os maxBytes b s = .room grown ∧ grown.Holds content ∧
      b.Grown w maxBytes grown ∧ grown.cap < 2 ^ (w - 1) ∧
      (b.cap ≤ b.used + 1 → (os.realloc grown.cap s).1 = true) := by
  have hle := h.used_le
  have hroom := h.room
  have hdouble := mul_two_lt_of_lt hhalf (by omega)
  have hwant : ∀ cap, b.used + 1 ≤ cap → cap < 2 ^ w →
      sizeSub w (sizeSub w cap 1) b.used = cap - 1 - b.used := fun cap hge hcap => by
    rw [sizeSub_of_le (a := cap) (by omega) hcap, sizeSub_of_le (by omega) (by omega)]
  rw [readTextGrow, Nat.mod_eq_of_lt (by omega : b.used + 1 < 2 ^ w)] at hgrant ⊢
  by_cases hfull : b.cap ≤ b.used + 1
  · rw [if_pos hfull, Nat.mod_eq_of_lt hdouble] at hgrant ⊢
    dsimp only at hgrant ⊢
    by_cases hlimit : maxBytes + 1 < 2 ^ w
    · rw [Nat.mod_eq_of_lt hlimit] at hgrant ⊢
      obtain ⟨newCap, hnew, heq, hgt, hmax'⟩ : ∃ newCap,
          (if maxBytes + 1 < b.cap * 2 then maxBytes + 1 else b.cap * 2) = newCap ∧
          newCap = min (b.cap * 2) (maxBytes + 1) ∧ b.cap < newCap ∧ newCap ≤ maxBytes + 1 := by
        refine ⟨_, rfl, ?_, ?_, ?_⟩ <;> split_ifs <;> omega
      rw [hnew, if_neg hgt.ne'] at hgrant ⊢
      have hgranted : (os.realloc newCap s).1 = true := by
        by_contra hno
        exact hgrant (if_neg hno)
      have hkeep := resize_of_le fresh (show b.buf.length ≤ newCap by
        rw [h.length_buf]
        exact hgt.le)
      have hnewHalf : newCap < 2 ^ (w - 1) := by
        rw [Os.realloc, Bool.and_eq_true] at hgranted
        exact hsize newCap s hgranted.2
      rw [if_pos hgranted]
      refine ⟨_, rfl, ⟨hkeep.1, h.contents.trans hkeep.2, hle, ?_⟩, ⟨rfl, ?_, hmax', ?_,
        hwant newCap (by omega) (by omega)⟩, hnewHalf, fun _ => hgranted⟩
      · dsimp only
        omega
      · rw [if_pos hfull]
        exact heq
      · dsimp only
        omega
    · -- the limit has no size of its own, and a block of no bytes is not granted
      refine absurd ?_ hgrant
      have hpos : 0 < b.cap * 2 := by omega
      have hzero : (os.realloc 0 s).1 = false := rfl
      rw [show maxBytes + 1 = 2 ^ w by omega, Nat.mod_self, if_pos hpos, if_neg (by omega), hzero]
      rfl
  · rw [if_neg hfull]
    exact ⟨b, rfl, h, ⟨rfl, (if_neg hfull).symm, hcap, by omega, hwant b.cap hroom (by omega)⟩,
      hhalf, fun hfull' => absurd hfull' hfull⟩

/-- The state at the head of a round: the buffer holds the start of the file, is not above
the limit, and the stream is where the buffer ends. -/
structure TextBuffer.Reading (b : TextBuffer) (w : ℕ) (content : Bytes) (maxBytes : ℕ)
    (At : ℕ → σ → Prop) (s : σ) : Prop where
  holds : b.Holds content
  used_lt : b.used < maxBytes
  cap_le : b.cap ≤ maxBytes + 1
  cap_lt : b.cap < 2 ^ (w - 1)
  position : At b.used s

variable {fp : ℕ} {At : ℕ → σ → Prop} {p : Proc σ}

/-- What is read in a round fits into the buffer, and is the next part of the file. -/
theorem TextBuffer.Reading.read (h : b.Reading w content maxBytes At p.os)
    (hserves : os.Serves fp content At) (hmax : maxBytes < 2 ^ w)
    (hsize : ∀ n s, os.allocates n s = true → n < 2 ^ (w - 1))
    (hgrant : readTextGrow w fresh os maxBytes b p.os ≠ .oom) :
    ∃ grown got buf, readTextGrow w fresh os maxBytes b p.os = .room grown ∧
      b.Grown w maxBytes grown ∧ grown.cap < 2 ^ (w - 1) ∧
      (b.cap ≤ b.used + 1 → (os.realloc grown.cap p.os).1 = true) ∧
      (os.fread fp (readTextWant w grown) p.os).1.1.take (readTextWant w grown) = got ∧
      got.length = min (readTextWant w grown) (content.length - b.used) ∧
      At (b.used + got.length) (os.fread fp (readTextWant w grown) p.os).2 ∧
      content.take (b.used + got.length) = content.take b.used ++ got ∧
      store grown.buf b.used got = some buf ∧
      TextBuffer.Holds ⟨buf, grown.cap, b.used + got.length⟩ content := by
  obtain ⟨grown, hgrow, hholds, hgrown, hhalf, hgranted⟩ :=
    h.holds.grow fresh hmax hsize h.used_lt h.cap_le h.cap_lt hgrant
  have hroom := hgrown.room
  have hwant := hgrown.want
  have hused := h.holds.used_le
  obtain ⟨hread, hpos⟩ := hserves b.used p.os (readTextWant w grown) h.position hused
  obtain ⟨got, hgot⟩ : ∃ got, (content.drop b.used).take (readTextWant w grown) = got := ⟨_, rfl⟩
  have hlengot : got.length = min (readTextWant w grown) (content.length - b.used) := by
    rw [← hgot, List.length_take, List.length_drop]
  have htake : (os.fread fp (readTextWant w grown) p.os).1.1.take (readTextWant w grown) = got := by
    rw [hread, hgot, List.take_of_length_le (by omega)]
  have hnext : content.take (b.used + got.length) = content.take b.used ++ got := by
    rw [← hgot]
    exact take_add_length_take content b.used _
  have hcontents := hholds.contents
  rw [hgrown.used] at hcontents
  have hlen : (content.take b.used).length = b.used := List.length_take_of_le hused
  obtain ⟨buf, hstore, hlength, hpre⟩ := exists_store_append hcontents got (by
    rw [List.length_append, hlen, hholds.length_buf]
    omega)
  rw [hlen] at hstore
  rw [← hlengot] at hpos
  refine ⟨grown, got, buf, hgrow, hgrown, hhalf, hgranted, htake, hlengot, hpos, hnext, hstore,
    hlength.trans hholds.length_buf, ?_, ?_, ?_⟩
  · dsimp only
    rw [hnext]
    exact hpre
  · dsimp only
    omega
  · dsimp only
    omega

/-- **One round** reads more of the file, and stays inside the buffer. It leaves the loop at
the end of the file or at the limit. The loop over what was read so far goes the same way. -/
theorem TextBuffer.Reading.round (h : b.Reading w content maxBytes At p.os)
    (hserves : os.Serves fp content At) (hmax : maxBytes < 2 ^ w)
    (hsize : ∀ n s, os.allocates n s = true → n < 2 ^ (w - 1))
    (hgrant : readTextGrow w fresh os maxBytes b p.os ≠ .oom) :
    ∃ goes b' p', (readTextRounds w fresh os maxBytes fp).round (.buffer b, p) =
        (goes, .buffer b', p') ∧ b'.Holds content ∧
      (∀ fuel, (readTextLoop os fp maxBytes (fuel + 1) b.cap (content.take b.used)).run p =
        if goes then (readTextLoop os fp maxBytes fuel b'.cap (content.take b'.used)).run p'
        else (some (content.take b'.used), p')) ∧
      if goes then b.used < b'.used ∧ b'.Reading w content maxBytes At p'.os
      else b'.used = min maxBytes content.length := by
  obtain ⟨grown, got, buf, hgrow, hgrown, hhalf, hgranted, htake, hlengot, hpos, hnext, hstore,
    hholds⟩ := h.read fresh hserves hmax hsize hgrant
  obtain ⟨hsame, hcapeq, hcap, hroom, hwant⟩ := hgrown
  have hused := h.holds.used_le
  have hlt := h.used_lt
  have hmod : (b.used + got.length) % 2 ^ w = b.used + got.length :=
    Nat.mod_eq_of_lt (by omega)
  refine ⟨!decide (got.length < readTextWant w grown) && !decide (maxBytes ≤ b.used + got.length),
    ⟨buf, grown.cap, b.used + got.length⟩,
    { p with os := (os.fread fp (readTextWant w grown) p.os).2 }, ?_, hholds, fun fuel => ?_, ?_⟩
  · rw [readTextRounds]
    dsimp only
    rw [hgrow]
    dsimp only
    rw [htake, hsame, hstore]
    dsimp only
    rw [hmod]
  · have hlen : (content.take b.used).length = b.used := List.length_take_of_le hused
    have hlen' : (content.take b.used ++ got).length = b.used + got.length := by
      rw [List.length_append, hlen]
    have hgoes : ¬(b.cap ≤ b.used + 1 ∧ min (b.cap * 2) (maxBytes + 1) = b.cap) := by
      rintro ⟨hfull, hnone⟩
      rw [if_pos hfull, hnone] at hcapeq
      omega
    have hmore : (readTextRoom os (b.cap ≤ b.used + 1) (min (b.cap * 2) (maxBytes + 1))).run p =
        (some true, p) := by
      rw [readTextRoom]
      split_ifs with hfull
      · have hrealloc := hgranted hfull
        rw [if_pos hfull] at hcapeq
        rw [hcapeq] at hrealloc
        rw [Op.run_sys, hrealloc]
        rfl
      · rfl
    rw [readTextLoop]
    dsimp only
    rw [hlen, if_neg hgoes, Op.run_bind_of_some hmore, if_pos rfl, ← hcapeq, ← hwant,
      Op.run_bind_of_some (Op.run_sys ..), htake, hlen', hnext]
    by_cases hshort : got.length < readTextWant w grown
    · rw [if_pos hshort, decide_eq_true hshort]
      rfl
    · rw [if_neg hshort, decide_eq_false hshort]
      by_cases hend : maxBytes ≤ b.used + got.length
      · rw [if_pos hend, decide_eq_true hend]
        rfl
      · rw [if_neg hend, decide_eq_false hend]
        rfl
  · split_ifs with hgoes
    · simp only [Bool.and_eq_true, Bool.not_eq_true', decide_eq_false_iff_not, not_lt,
        not_le] at hgoes
      exact ⟨by dsimp only; omega, hholds, hgoes.2, hcap, hhalf, hpos⟩
    · simp only [Bool.and_eq_true, Bool.not_eq_true', decide_eq_false_iff_not, not_lt, not_le,
        not_and_or] at hgoes
      dsimp only
      omega

/-! ### All rounds -/

/-- The loop ends, and it has read what the limit allows. -/
theorem TextBuffer.Reading.run (h : b.Reading w content maxBytes At p.os)
    (hserves : os.Serves fp content At) (hmax : maxBytes < 2 ^ w)
    (hsize : ∀ n s, os.allocates n s = true → n < 2 ^ (w - 1))
    (hgrant : ∀ t, (readTextRounds w fresh os maxBytes fp).Heads (.buffer b, p) t →
      ∀ b, t.1 = .buffer b → readTextGrow w fresh os maxBytes b t.2.os ≠ .oom)
    {fuel : ℕ} (hfuel : maxBytes < fuel + b.used) :
    ∃ b' p', (readTextRounds w fresh os maxBytes fp).run fuel (.buffer b, p) =
        some (false, .buffer b', p') ∧ b'.Holds content ∧
      b'.used = min maxBytes content.length ∧
      (readTextLoop os fp maxBytes fuel b.cap (content.take b.used)).run p =
        (some (content.take b'.used), p') := by
  induction fuel generalizing b p with
  | zero =>
    have hlt := h.used_lt
    omega
  | succ fuel ih =>
    obtain ⟨goes, b', p', hround, hholds, hloop, hnext⟩ :=
      h.round fresh hserves hmax hsize (hgrant _ .start b rfl)
    have hrun : (readTextRounds w fresh os maxBytes fp).run (fuel + 1) (.buffer b, p) =
        if goes then (readTextRounds w fresh os maxBytes fp).run fuel (.buffer b', p')
        else some (false, .buffer b', p') := by
      rw [GuardedLoop.run, hround]
      cases goes <;> rfl
    rw [hrun, hloop]
    cases goes with
    | true =>
      obtain ⟨hmore, hreading⟩ := hnext
      exact ih hreading (fun t ht => hgrant t ((GuardedLoop.Heads.next .start rfl hround).trans ht))
        (by omega)
    | false => exact ⟨b', p', rfl, hholds, hnext, rfl⟩

/-- The file is read at the head of every round, as long as the rounds before it were
granted the room they asked for. -/
private theorem TextBuffer.Reading.heads (h : b.Reading w content maxBytes At p.os)
    (hserves : os.Serves fp content At) (hmax : maxBytes < 2 ^ w)
    (hsize : ∀ n s, os.allocates n s = true → n < 2 ^ (w - 1))
    (hgrant : ∀ b' q, (readTextRounds w fresh os maxBytes fp).Heads (.buffer b, p) (.buffer b', q) →
      b'.Reading w content maxBytes At q.os → readTextGrow w fresh os maxBytes b' q.os ≠ .oom)
    {t : TextRead × Proc σ}
    (hhead : (readTextRounds w fresh os maxBytes fp).Heads (.buffer b, p) t) :
    ∃ b', t.1 = .buffer b' ∧ b'.Reading w content maxBytes At t.2.os := by
  induction hhead with
  | start => exact ⟨b, rfl, h⟩
  | @next t t' hbefore _ hround ih =>
    obtain ⟨b₁, hb₁, hreading⟩ := ih
    obtain ⟨state, q⟩ := t
    obtain rfl : state = .buffer b₁ := hb₁
    obtain ⟨goes, b₂, p₂, hround', -, -, hnext⟩ :=
      hreading.round fresh hserves hmax hsize (hgrant b₁ q hbefore hreading)
    obtain ⟨rfl, rfl⟩ := Prod.mk.inj (hround'.symm.trans hround)
    exact ⟨b₂, rfl, hnext.2⟩

/-- The buffer in front of the first round has room for 1023 bytes. -/
private theorem reading_start (hmax : 1023 ≤ maxBytes) (hhalf : 1024 < 2 ^ (w - 1)) {s : σ}
    (hstart : At 0 s) : (readTextStart fresh).Reading w content maxBytes At s where
  holds := ⟨List.length_replicate, List.nil_prefix, Nat.zero_le _, Nat.le_of_ble_eq_true rfl⟩
  used_lt := by
    change 0 < maxBytes
    omega
  cap_le := by
    change 1024 ≤ maxBytes + 1
    omega
  cap_lt := hhalf
  position := hstart

/-- With a limit below half the address space a round asks for a block up to the limit. -/
private theorem TextBuffer.Reading.grow_ne_oom {s : σ} (h : b.Reading w content maxBytes At s)
    (hmax : maxBytes + 1 < 2 ^ (w - 1))
    (hgrants : ∀ n, 0 < n → n ≤ maxBytes + 1 → os.allocates n s = true) :
    readTextGrow w fresh os maxBytes b s ≠ .oom := by
  have hroom := h.holds.room
  have hdouble := mul_two_lt_of_lt h.cap_lt (by omega)
  have hlimit := mul_two_lt_of_lt hmax (by omega)
  rw [readTextGrow, Nat.mod_eq_of_lt hdouble, Nat.mod_eq_of_lt (by omega : maxBytes + 1 < 2 ^ w)]
  dsimp only
  obtain ⟨newCap, hnew, hpos, hle⟩ : ∃ newCap,
      (if maxBytes + 1 < b.cap * 2 then maxBytes + 1 else b.cap * 2) = newCap ∧
      0 < newCap ∧ newCap ≤ maxBytes + 1 := by
    refine ⟨_, rfl, ?_, ?_⟩ <;> split_ifs <;> omega
  have hgranted : (os.realloc newCap s).1 = true := by
    rw [Os.realloc, hgrants newCap hpos hle, decide_eq_true hpos]
    rfl
  rw [hnew, hgranted, if_pos rfl]
  split_ifs <;> simp

/-- Where every block up to the limit is granted, as for the limits of the two callers, the
allocations succeed. -/
theorem allocationsSucceed_of_le {content : Bytes} {At : ℕ → σ → Prop} {fp : ℕ} {p : Proc σ}
    (hserves : os.Serves fp content At) (hstart : At 0 p.os) (hmin : 1023 ≤ maxBytes)
    (hmax : maxBytes + 1 < 2 ^ (w - 1))
    (hsize : ∀ n s, os.allocates n s = true → n < 2 ^ (w - 1))
    (hgrants : ∀ n s, 0 < n → n ≤ maxBytes + 1 → os.allocates n s = true) :
    AllocationsSucceed w fresh os maxBytes fp p := by
  refine ⟨hgrants 1024 p.os (by omega) (by omega), fun t hhead b hb => ?_⟩
  have hlimit := mul_two_lt_of_lt hmax (by omega)
  obtain ⟨b', hb', hreading⟩ := TextBuffer.Reading.heads fresh
    (reading_start fresh hmin (by omega) hstart) hserves (by omega) hsize
    (fun b₁ q _ hreading => hreading.grow_ne_oom fresh hmax fun n => hgrants n q.os) hhead
  obtain rfl : b = b' := by simpa using hb.symm.trans hb'
  exact hreading.grow_ne_oom fresh hmax fun n => hgrants n t.2.os

/-- The closing NUL is inside the buffer, and what stands in front of it is the trimmed
text. -/
theorem TextBuffer.Holds.finish (h : b.Holds content) :
    ∃ block, readTextEnd b = some block ∧
      cStr block = (cStr (content.take b.used)).rdropWhile isTrailing := by
  have htext : b.buf.take b.used = content.take b.used := by
    have hpre := List.prefix_iff_eq_take.mp h.contents
    rw [List.length_take_of_le h.used_le] at hpre
    exact hpre.symm
  obtain ⟨text, hshort, hnul, hpre⟩ : ∃ text,
      (cStr (content.take b.used)).rdropWhile isTrailing = text ∧ 0 ∉ text ∧
        text <+: content.take b.used := by
    refine ⟨_, rfl, fun h0 => zero_notMem_cStr _ ((List.rdropWhile_prefix _ _).subset h0), ?_⟩
    exact (List.rdropWhile_prefix _ _).trans (List.takeWhile_prefix _)
  obtain ⟨block, hstore, -, hblock⟩ := exists_store_append (hpre.trans h.contents) [0] (by
    have hlen := hpre.length_le
    have hroom := h.room
    rw [List.length_take_of_le h.used_le] at hlen
    rw [List.length_append, List.length_singleton, h.length_buf]
    omega)
  refine ⟨block, ?_, ?_⟩
  · rw [readTextEnd, htext, hshort]
    exact hstore
  · rw [hshort]
    exact cStr_eq_of_prefix hnul hblock

/-- **A text file** is read up to the limit, as long as the allocations succeed. At every
round there is room for the NUL and the buffer is not above the limit, and when it has grown
there is room for another byte. -/
theorem readTextFileIn_eq {path : Bytes} {s : σ} (hopen : os.fopenRb path p.os = (.ok fp, s))
    (hserves : os.Serves fp content At) (hstart : At 0 s) (hmin : 1023 ≤ maxBytes)
    (hmax : maxBytes < 2 ^ w) (hsize : ∀ n s, os.allocates n s = true → n < 2 ^ (w - 1))
    (hmem : AllocationsSucceed w fresh os maxBytes fp { p with os := s }) :
    (∃ block p', (readTextFileIn w fresh os maxBytes path).run p = (some (some block), p') ∧
      cStr block = (cStr (content.take maxBytes)).rdropWhile isTrailing ∧
      (readTextFile os path maxBytes).run p = (some (cStr block), p')) ∧
    ∀ t, (readTextRounds w fresh os maxBytes fp).Heads
        (.buffer (readTextStart fresh), { p with os := s }) t →
      ∃ b grown, t.1 = .buffer b ∧ b.used + 1 ≤ b.cap ∧ b.cap ≤ maxBytes + 1 ∧
        readTextGrow w fresh os maxBytes b t.2.os = .room grown ∧ grown.used = b.used ∧
        grown.used + 1 ≤ grown.cap ∧ grown.cap ≤ maxBytes + 1 ∧
        readTextWant w grown = grown.cap - 1 - grown.used ∧ 0 < readTextWant w grown := by
  obtain ⟨hfirst, hrounds⟩ := hmem
  have hreading : (readTextStart fresh).Reading w content maxBytes At s :=
    reading_start fresh hmin (hsize 1024 s hfirst) hstart
  have hmalloc : (Op.sys (os.malloc 1024)).run { p with os := s } =
      (some true, { p with os := s }) := by
    rw [Op.run_sys, Os.malloc, show os.allocates 1024 s = true from hfirst]
  constructor
  · obtain ⟨b, p', hrun, hholds, hused, hloop⟩ :=
      TextBuffer.Reading.run fresh (p := { p with os := s }) hreading hserves hmax hsize hrounds
        (Nat.lt_add_right _ (Nat.lt_succ_self maxBytes))
    obtain ⟨block, hend, hblock⟩ := hholds.finish
    have htake : content.take b.used = content.take maxBytes := by
      rw [hused]
      exact List.take_eq_take_min.symm
    have htext : cStr block = (cStr (content.take maxBytes)).rdropWhile isTrailing := by
      rw [hblock, htake]
    refine ⟨block, { p' with os := (os.fclose fp p'.os).2 }, ?_, htext, ?_⟩
    · rw [readTextFileIn, Op.run_bind_of_some (Op.run_sys ..), hopen]
      dsimp only
      rw [Op.run_bind_of_some hmalloc, if_pos rfl]
      dsimp only
      rw [hrun]
      dsimp only
      rw [hend]
    · have hread : (readTextLoop os fp maxBytes (maxBytes + 1) 1024 []).run { p with os := s } =
          (some (content.take b.used), p') := hloop
      rw [readTextFile, Op.run_bind_of_some (Op.run_sys ..), hopen]
      dsimp only
      rw [Op.run_bind_of_some hmalloc, if_pos rfl, Op.run_bind_of_some hread,
        Op.run_bind_of_some (Op.run_sys ..), htext, htake]
      rfl
  · intro t hhead
    obtain ⟨b, hb, hround⟩ := TextBuffer.Reading.heads fresh (p := { p with os := s }) hreading
      hserves hmax hsize (fun b' q hbefore _ => hrounds _ hbefore b' rfl) hhead
    obtain ⟨grown, hgrow, -, ⟨hsame, -, hcap, hroom, hwant⟩, -, -⟩ :=
      hround.holds.grow fresh hmax hsize hround.used_lt hround.cap_le hround.cap_lt
        (hrounds t hhead b hb)
    refine ⟨b, grown, hb, hround.holds.room, hround.cap_le, hgrow, hsame, ?_, hcap, ?_, ?_⟩
    · rw [hsame]
      exact hroom.le
    · rw [hsame]
      exact hwant
    · rw [hwant]
      omega

end Round

/-- System calls with one file, of which the outside is how much has been read. Every block
below half of an address space of 64 bits is granted. -/
def textFileOs (content : Bytes) : Os ℕ :=
  { Os.failing ℕ with
    allocates := fun n _ => decide (n < 2 ^ 63)
    fopenRb := fun _ _ => (.ok 3, 0)
    fread := fun _ want n =>
      (((content.drop n).take want, 0), n + min want (content.length - n)) }

/-- A file of 5000 bytes, read with a limit of 4096 bytes: the buffer is enlarged twice. -/
theorem readTextFileIn_eq_long :
    ∃ block p', (readTextFileIn 64 0 (textFileOs (List.replicate 5000 97)) 4096 (utf8 "/f")).run
      ⟨fileOpsInit, [], 0⟩ = (some (some block), p') ∧
      cStr block = (cStr ((List.replicate 5000 97).take 4096)).rdropWhile isTrailing := by
  have hserves : (textFileOs (List.replicate 5000 97)).Serves 3 (List.replicate 5000 97)
      fun n s => s = n := by
    intro n s want hs _
    subst hs
    exact ⟨rfl, rfl⟩
  have hopen : (textFileOs (List.replicate 5000 97)).fopenRb (utf8 "/f") 0 = (.ok 3, 0) := rfl
  have hsize : ∀ n s, (textFileOs (List.replicate 5000 97)).allocates n s = true →
      n < 2 ^ (64 - 1) := fun n s h => of_decide_eq_true h
  have hmem : AllocationsSucceed 64 0 (textFileOs (List.replicate 5000 97)) 4096 3
      ⟨fileOpsInit, [], 0⟩ :=
    allocationsSucceed_of_le 0 hserves rfl (by decide) (by decide) hsize
      fun n s _ hn => decide_eq_true (by omega)
  obtain ⟨block, p', hrun, htext, -⟩ := (readTextFileIn_eq 0 (p := ⟨fileOpsInit, [], 0⟩) hopen
    hserves rfl (by decide) (by decide) hsize hmem).1
  exact ⟨block, p', hrun, htext⟩

end UsbResponder
