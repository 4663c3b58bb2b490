import Mathlib.Tactic

/-!
# Length-prefixed framing over a chunked stream

A `Format` cuts a stream into frames: a header of fixed size announces the size of its
frame, and a complete frame decodes to a value or is refused. The stream reaches a reader in
chunks whose boundaries mean nothing, so a reader keeps a buffer, refills it until the frame
it wants is complete, and leaves the rest of the buffer for the next frame.

* `Format.next` is the meaning of one frame on an undivided stream, and `Format.parse` the
  greedy parse of the whole stream: every frame with the suffix after it, and how it ends.
* `Reader` is a buffer in front of chunks still to come, `Reader.fill` the refill loop, and
  `Format.recv` one receive: refill to the header, take the size, refill to the frame,
  decode.
* `Format.ReadBy` says that a receive operation of some other state type agrees with
  `Format.next` on the bytes the state has not consumed yet. `Format.recv_readBy` proves it
  of `Format.recv`, and `Format.ReadBy.drain_eq_parse` is the reassembly theorem: such an
  operation, called until it fails or runs out of input, returns exactly the greedy parse,
  with the right suffix left over after every frame, however the stream was cut.
  `Format.ReadBy.receive_flatMap` is the case of a stream made of encoded frames.
-/

namespace Framing

variable {α β σ : Type*}

/-! ### Formats and their greedy parse -/

/-- A length-prefixed frame format: the header has `headerSize` symbols, `frameSize` reads
from it the size of the whole frame (`none` refuses the header), and `decode` reads the
frame. -/
structure Format (α β : Type*) where
  headerSize : ℕ
  frameSize : List α → Option ℕ
  decode : List α → Option β
  headerSize_pos : 0 < headerSize
  headerSize_le : ∀ {h : List α} {n : ℕ}, frameSize h = some n → headerSize ≤ n

/-- What the front of a stream is: too short to tell, refused, or a frame and what follows.
The three cases are what a receive can do, whatever it does to get there. -/
inductive Parsed (α β : Type*)
  | more
  | reject
  | item (b : β) (rest : List α)

/-- The frame at the front of a stream. This is the meaning of a format; buffers, refills
and pieces do not occur in it. -/
def Format.next (F : Format α β) (s : List α) : Parsed α β :=
  if s.length < F.headerSize then .more
  else
    match F.frameSize (s.take F.headerSize) with
    | none => .reject
    | some n =>
      if s.length < n then .more
      else
        match F.decode (s.take n) with
        | none => .reject
        | some b => .item b (s.drop n)

/-- How reading a stream ends: it wants input beyond the end, a frame is refused, or it was
stopped by the caller. -/
inductive Stop
  | blocked
  | failed
  | running
  deriving DecidableEq

/-- A frame at the front of a stream uses up at least its header. This is the termination
argument of every greedy reader of the format. -/
private theorem Format.length_of_next_item {F : Format α β} {s rest : List α} {b : β}
    (h : F.next s = .item b rest) : rest.length < s.length := by
  have hpos := F.headerSize_pos
  unfold Format.next at h
  split_ifs at h with hlen
  cases hsize : F.frameSize (s.take F.headerSize) with
  | none => simp [hsize] at h
  | some n =>
    have hle := F.headerSize_le hsize
    simp only [hsize] at h
    split_ifs at h with hn
    cases hdec : F.decode (s.take n) with
    | none => simp [hdec] at h
    | some b' =>
      simp only [hdec, Parsed.item.injEq] at h
      rw [← h.2, List.length_drop]
      omega

/-- A part of a frame, from its front on, is too short to tell. -/
theorem Format.next_of_prefix {F : Format α β} {s buf : List α} {b : β}
    (h : F.next s = .item b []) (hpre : buf <+: s) (hne : buf ≠ s) : F.next buf = .more := by
  have hlt : buf.length < s.length := by
    rcases hpre.length_le.lt_or_eq with hlt | heq
    · exact hlt
    · exact absurd (hpre.eq_of_length heq) hne
  unfold Format.next at h
  split_ifs at h with hlen
  rcases hsize : F.frameSize (s.take F.headerSize) with _ | n
  · simp [hsize] at h
  simp only [hsize] at h
  split_ifs at h with hn
  rcases hdec : F.decode (s.take n) with _ | b'
  · simp [hdec] at h
  simp only [hdec, Parsed.item.injEq] at h
  -- the frame is all of the stream
  have hall : s.length ≤ n := List.drop_eq_nil_iff.mp h.2
  rw [Format.next]
  by_cases hheader : buf.length < F.headerSize
  · rw [if_pos hheader]
  · obtain ⟨t, rfl⟩ := hpre
    rw [List.take_append_of_le_length (by omega)] at hsize
    rw [if_neg hheader, hsize]
    exact if_pos (by omega)

/-- The greedy parse of a stream: its frames, each with the suffix after it, and the way the
parse ends. It terminates because a frame uses up at least its header. -/
def Format.parse (F : Format α β) (s : List α) : List (β × List α) × Stop :=
  match h : F.next s with
  | .more => ([], .blocked)
  | .reject => ([], .failed)
  | .item b rest =>
    have : rest.length < s.length := F.length_of_next_item h
    ((b, rest) :: (F.parse rest).1, (F.parse rest).2)
termination_by s.length

private theorem Format.parse_of_more {F : Format α β} {s : List α} (h : F.next s = .more) :
    F.parse s = ([], .blocked) := by
  rw [Format.parse]
  split <;> simp_all

private theorem Format.parse_of_reject {F : Format α β} {s : List α} (h : F.next s = .reject) :
    F.parse s = ([], .failed) := by
  rw [Format.parse]
  split <;> simp_all

private theorem Format.parse_of_item {F : Format α β} {s rest : List α} {b : β}
    (h : F.next s = .item b rest) :
    F.parse s = ((b, rest) :: (F.parse rest).1, (F.parse rest).2) := by
  rw [Format.parse]
  split <;> simp_all

/-! ### Buffered readers -/

/-- A buffer in front of chunks still to come. A reader takes a chunk only when the buffer
does not hold what it needs. -/
structure Reader (α : Type*) where
  buf : List α
  pending : List (List α)

/-- The part of the stream not consumed yet: the buffer and everything still to come. -/
def Reader.unread (r : Reader α) : List α := r.buf ++ r.pending.flatten

/-- Refill a buffer chunk by chunk until it holds `n` symbols; `none` when the chunks run
out before that. -/
def Reader.fill (n : ℕ) (buf : List α) : List (List α) → Option (Reader α)
  | [] => if n ≤ buf.length then some ⟨buf, []⟩ else none
  | c :: cs => if n ≤ buf.length then some ⟨buf, c :: cs⟩ else Reader.fill n (buf ++ c) cs

/-- Refilling succeeds exactly when the rest of the stream is long enough. -/
theorem Reader.fill_eq_none_iff {n : ℕ} {buf : List α} {cs : List (List α)} :
    Reader.fill n buf cs = none ↔ (buf ++ cs.flatten).length < n := by
  induction cs generalizing buf with
  | nil => simp [Reader.fill]
  | cons c cs ih =>
    rw [Reader.fill]
    split_ifs with hn
    · simp only [false_iff, not_lt, List.length_append]
      omega
    · rw [ih, List.flatten_cons, List.append_assoc]

/-- A refilled buffer is long enough and no symbol is lost, duplicated or moved: what has
not been consumed is the same stream as before, and the buffer has only grown at its end. -/
theorem Reader.fill_eq_some {n : ℕ} {buf : List α} {cs : List (List α)} {r : Reader α}
    (h : Reader.fill n buf cs = some r) :
    n ≤ r.buf.length ∧ r.unread = buf ++ cs.flatten ∧ buf <+: r.buf := by
  induction cs generalizing buf with
  | nil =>
    rw [Reader.fill] at h
    split_ifs at h with hn
    obtain rfl := Option.some_injective _ h
    exact ⟨hn, rfl, List.prefix_rfl⟩
  | cons c cs ih =>
    rw [Reader.fill] at h
    split_ifs at h with hn
    · obtain rfl := Option.some_injective _ h
      exact ⟨hn, rfl, List.prefix_rfl⟩
    · obtain ⟨hlen, hunread, hpre⟩ := ih h
      refine ⟨hlen, ?_, (List.prefix_append buf c).trans hpre⟩
      rw [hunread, List.flatten_cons, List.append_assoc]

private theorem Reader.take_unread {n : ℕ} {r : Reader α} (h : n ≤ r.buf.length) :
    r.unread.take n = r.buf.take n := by
  rw [Reader.unread, List.take_append_of_le_length h]

private theorem Reader.drop_unread {n : ℕ} {r : Reader α} (h : n ≤ r.buf.length) :
    r.unread.drop n = r.buf.drop n ++ r.pending.flatten := by
  rw [Reader.unread, List.drop_append_of_le_length h]

/-- One receive: refill to the header, read the frame size, refill to the frame, decode it
and drop it from the buffer. The outer `none` is a reader left waiting for input, the inner
one a refusal. -/
def Format.recv (F : Format α β) (r : Reader α) : Option (Option β × Reader α) :=
  match Reader.fill F.headerSize r.buf r.pending with
  | none => none
  | some r₁ =>
    match F.frameSize (r₁.buf.take F.headerSize) with
    | none => some (none, r₁)
    | some n =>
      match Reader.fill n r₁.buf r₁.pending with
      | none => none
      | some r₂ => some (F.decode (r₂.buf.take n), ⟨r₂.buf.drop n, r₂.pending⟩)

/-! ### Reassembly -/

/-- `read` is a receive operation for the format on a state whose bytes not consumed yet are
`unread`, under the invariant `Inv`: it waits, refuses or delivers exactly as `Format.next`
says, and keeps the rest of the stream. -/
structure Format.ReadBy (F : Format α β) (read : σ → Option (Option β × σ))
    (unread : σ → List α) (Inv : σ → Prop) : Prop where
  more : ∀ {s}, Inv s → F.next (unread s) = .more → read s = none
  reject : ∀ {s}, Inv s → F.next (unread s) = .reject → ∃ s', read s = some (none, s')
  item : ∀ {s b rest}, Inv s → F.next (unread s) = .item b rest →
    ∃ s', read s = some (some b, s') ∧ unread s' = rest ∧ Inv s'

/-- Receive until a receive fails, waits for input or the call budget is used up: every
frame received with the state after it, and the way it ended. -/
def drain (read : σ → Option (Option β × σ)) : ℕ → σ → List (β × σ) × Stop
  | 0, _ => ([], .running)
  | k + 1, s =>
    match read s with
    | none => ([], .blocked)
    | some (none, _) => ([], .failed)
    | some (some b, s') => ((b, s') :: (drain read k s').1, (drain read k s').2)

/-- **Reassembly.** A receive operation for the format, called until it fails or waits for
input, delivers the greedy parse of the bytes it had not consumed: the same frames, the same
suffix left after each, the same ending. Each frame uses up at least one symbol, so a budget
above the length of the stream is never used up. -/
theorem Format.ReadBy.drain_eq_parse {F : Format α β} {read : σ → Option (Option β × σ)}
    {unread : σ → List α} {Inv : σ → Prop} (hF : F.ReadBy read unread Inv) {k : ℕ} {s : σ}
    (hs : Inv s) (hk : (unread s).length < k) :
    ((drain read k s).1.map fun p => (p.1, unread p.2)) = (F.parse (unread s)).1 ∧
      (drain read k s).2 = (F.parse (unread s)).2 := by
  induction k generalizing s with
  | zero => omega
  | succ k ih =>
    cases hn : F.next (unread s) with
    | more =>
      rw [drain, hF.more hs hn, F.parse_of_more hn]
      exact ⟨rfl, rfl⟩
    | reject =>
      obtain ⟨s', hread⟩ := hF.reject hs hn
      rw [drain, hread, F.parse_of_reject hn]
      exact ⟨rfl, rfl⟩
    | item b rest =>
      obtain ⟨s', hread, hrest, hs'⟩ := hF.item hs hn
      have hlt := F.length_of_next_item hn
      obtain ⟨hframes, hstop⟩ := ih hs' (by rw [hrest]; omega)
      rw [drain, hread, F.parse_of_item hn]
      constructor
      · rw [List.map_cons, hframes, hrest]
      · rw [hstop, hrest]

/-- Receive `k` frames in a row, if all of them arrive and none is refused. -/
def receive (read : σ → Option (Option β × σ)) : ℕ → σ → Option (List β × σ)
  | 0, s => some ([], s)
  | k + 1, s =>
    match read s with
    | some (some b, s') => (receive read k s').map fun r => (b :: r.1, r.2)
    | _ => none

/-- **A stream of encoded frames.** When the bytes not consumed yet are the encodings of
some frames, receiving as many frames returns them in order and uses up every byte. The
encoding enters only through what `Format.next` says of it in front of any other bytes. -/
theorem Format.ReadBy.receive_flatMap {F : Format α β} {read : σ → Option (Option β × σ)}
    {unread : σ → List α} {Inv : σ → Prop} (hF : F.ReadBy read unread Inv) {enc : β → List α}
    {bs : List β} (henc : ∀ b ∈ bs, ∀ t, F.next (enc b ++ t) = .item b t) {s : σ} (hs : Inv s)
    (hunread : unread s = bs.flatMap enc) :
    ∃ s', receive read bs.length s = some (bs, s') ∧ unread s' = [] ∧ Inv s' := by
  induction bs generalizing s with
  | nil => exact ⟨s, rfl, hunread, hs⟩
  | cons b bs ih =>
    have hb := henc b (by simp) (bs.flatMap enc)
    rw [List.flatMap_cons] at hunread
    rw [← hunread] at hb
    obtain ⟨s', hread, hrest, hs'⟩ := hF.item hs hb
    obtain ⟨s'', hrun, hempty, hs''⟩ := ih (fun b' hb' => henc b' (by simp [hb'])) hs' hrest
    refine ⟨s'', ?_, hempty, hs''⟩
    rw [List.length_cons, receive, hread]
    simp only [hrun, Option.map_some]

/-- **A format that refuses later.** When `G` differs from `F` only in that it may still
want more of a stream that `F` refuses, the two find the same frames in every stream, and
where their parses end differently `F` refuses and `G` waits. The induction is on the length
of the stream. -/
theorem Format.parse_of_refuses_later {F G : Format α β}
    (h : ∀ s, G.next s = F.next s ∨ F.next s = .reject ∧ G.next s = .more) (s : List α) :
    (G.parse s).1 = (F.parse s).1 ∧
      ((G.parse s).2 = (F.parse s).2 ∨ (F.parse s).2 = .failed ∧ (G.parse s).2 = .blocked) := by
  induction hlen : s.length using Nat.strong_induction_on generalizing s with
  | _ n ih =>
    obtain hsame | ⟨hreject, hmore⟩ := h s
    swap
    · rw [F.parse_of_reject hreject, G.parse_of_more hmore]
      exact ⟨rfl, .inr ⟨rfl, rfl⟩⟩
    cases hn : F.next s with
    | more =>
      rw [F.parse_of_more hn, G.parse_of_more (hsame.trans hn)]
      exact ⟨rfl, .inl rfl⟩
    | reject =>
      rw [F.parse_of_reject hn, G.parse_of_reject (hsame.trans hn)]
      exact ⟨rfl, .inl rfl⟩
    | item b rest =>
      obtain ⟨hframes, hstop⟩ := ih rest.length (hlen ▸ F.length_of_next_item hn) rest rfl
      rw [F.parse_of_item hn, G.parse_of_item (hsame.trans hn), hframes]
      exact ⟨rfl, hstop⟩

/-- One receive does what `Format.next` says of the bytes not consumed yet. The cases are
those of the definition: the header is short, it is refused, the frame is short, or the
frame is there. -/
private theorem Format.recv_spec (F : Format α β) (r : Reader α) :
    match F.next r.unread with
    | .more => F.recv r = none
    | .reject => ∃ r', F.recv r = some (none, r')
    | .item b rest => ∃ r', F.recv r = some (some b, r') ∧ r'.unread = rest := by
  rw [Format.next, Format.recv]
  cases hfill : Reader.fill F.headerSize r.buf r.pending with
  | none =>
    -- a fill that does not succeed has used up all there is to read
    have hshort : r.unread.length < F.headerSize := Reader.fill_eq_none_iff.mp hfill
    simp [hshort]
  | some r₁ =>
    obtain ⟨hlen, hunread, -⟩ := Reader.fill_eq_some hfill
    rw [show r.unread = r₁.unread from hunread.symm, Reader.take_unread hlen]
    have hheader : ¬r₁.unread.length < F.headerSize := by
      rw [Reader.unread, List.length_append]
      omega
    rw [if_neg hheader]
    dsimp only
    cases hsize : F.frameSize (r₁.buf.take F.headerSize) with
    | none => exact ⟨r₁, rfl⟩
    | some n =>
      dsimp only
      cases hfill₂ : Reader.fill n r₁.buf r₁.pending with
      | none =>
        have hshort : r₁.unread.length < n := Reader.fill_eq_none_iff.mp hfill₂
        simp [hshort]
      | some r₂ =>
        obtain ⟨hlen₂, hunread₂, -⟩ := Reader.fill_eq_some hfill₂
        have hlong : ¬r₂.unread.length < n := by
          rw [Reader.unread, List.length_append]
          omega
        rw [show r₁.unread = r₂.unread from hunread₂.symm, if_neg hlong,
          Reader.take_unread hlen₂, Reader.drop_unread hlen₂]
        dsimp only
        cases F.decode (r₂.buf.take n) with
        | none => exact ⟨_, rfl⟩
        | some b => exact ⟨_, rfl, rfl⟩

/-- The buffered receive reads its format, whatever the chunks. -/
theorem Format.recv_readBy (F : Format α β) : F.ReadBy F.recv Reader.unread fun _ => True where
  more := by
    intro r _ hn
    simpa [hn] using F.recv_spec r
  reject := by
    intro r _ hn
    simpa [hn] using F.recv_spec r
  item := by
    intro r b rest _ hn
    simpa [hn] using F.recv_spec r

end Framing
