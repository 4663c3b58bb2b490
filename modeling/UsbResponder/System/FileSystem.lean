import UsbResponder.System.Process

/-!
# A file system behind buffered streams

A concrete outside world for the upload functions: files by path, and streams, each a
user-space buffer in front of the file it was opened on. Data passed to `fwrite` first lands
in the buffer; how much of the buffer reaches the file, and when, is not determined until
`fflush` or `fclose` write the rest out. When one of the three fails to write, what it has
not written is thrown away, as the usual C libraries do: the stream goes on, but these bytes
never reach the file. A stream keeps its file when the file is renamed and loses it when the
file is removed or replaced.

`Faults` says how the calls made during one operation turn out, and `Os.withFs` are the
system calls of this world. All calls that the upload functions do not make are left open.

The notion the proofs work with is `Fs.Writes fs fp path w`: the stream `fp` writes to the
file `path`, and `w` is what the file holds with what is still in the buffer. Each call has
a lemma saying what it does to this: what it takes is added at the end of `w`, and what it
loses is cut off there. `Fs.SameElsewhere` says that a call leaves all other paths and
streams alone.

Directories are left out: a path is a file or nothing, and every file can be created,
renamed and removed. So are file modes and the page cache behind the files.
-/

namespace UsbResponder

/-- An open output stream: the file it writes to, if that still has a name, the file offset,
and the bytes not written yet. Nothing can be said of a file without a name any more, so its
writes are lost from view. -/
structure Stream where
  path : Option Bytes
  pos : ℕ
  buffer : Bytes
  deriving DecidableEq, Repr

/-- A file system with its open streams. The mount table is kept with it because the uploads
to a storage root look at it. -/
structure Fs where
  files : Bytes → Option Bytes
  streams : ℕ → Option Stream
  nextStream : ℕ
  mountinfo : Option (List Bytes)

/-- The empty file system, with no mount table. -/
def Fs.empty : Fs where
  files _ := none
  streams _ := none
  nextStream := 0
  mountinfo := none

/-- How the system calls made during one operation turn out. `none` is success; a call that
fails has its `errno`, and a call on a stream also a count: the bytes `fwrite` accepts, the
bytes `fflush` writes out before it fails, the bytes at the end of the buffer that `fclose`
loses. `drained` is how much of the buffer an `fwrite` passes on to the file. What a failing
`fwrite` or `fflush` has not written it discards, up to the `kept` bytes a C library may
leave in the buffer. -/
structure Faults where
  fopen : Option Errno := none
  fwrite : Option (ℕ × Errno) := none
  drained : ℕ := 0
  fflush : Option (ℕ × Errno) := none
  kept : ℕ := 0
  fsync : Option Errno := none
  fclose : Option (ℕ × Errno) := none
  rename : Option Errno := none
  chmod : Option Errno := none
  unlink : Option Errno := none

/-- Every call succeeds. How much of its buffer a stream passes on stays open. -/
structure Faults.AllOk (f : Faults) : Prop where
  fopen : f.fopen = none
  fwrite : f.fwrite = none
  fflush : f.fflush = none
  fsync : f.fsync = none
  fclose : f.fclose = none
  rename : f.rename = none
  chmod : f.chmod = none
  unlink : f.unlink = none

/-- `ENOENT`. -/
def eNoEnt : Errno := 2

/-! ### Calls -/

/-- The contents of a file after `data` is written at offset `pos`; a gap is filled with
zeros, as happens when the file was truncated behind the stream's back. -/
def overwrite (content : Bytes) (pos : ℕ) (data : Bytes) : Bytes :=
  content.take pos ++ List.replicate (pos - content.length) 0 ++ data ++
    content.drop (pos + data.length)

/-- Write the first `n` bytes of a stream's buffer to its file. A file that is gone is not
created again. -/
def Fs.flush (fs : Fs) (fp n : ℕ) : Fs :=
  match fs.streams fp with
  | none => fs
  | some st =>
    { fs with
      files :=
        match st.path with
        | none => fs.files
        | some path =>
          Function.update fs.files path
            ((fs.files path).map fun content => overwrite content st.pos (st.buffer.take n))
      streams := Function.update fs.streams fp (some
        { st with pos := st.pos + (st.buffer.take n).length, buffer := st.buffer.drop n }) }

/-- Discard a stream's buffer but for its first `kept` bytes. -/
def Fs.discard (fs : Fs) (fp kept : ℕ) : Fs :=
  { fs with
    streams := Function.update fs.streams fp ((fs.streams fp).map fun st =>
      { st with buffer := st.buffer.take kept }) }

/-- The number of bytes in a stream's buffer. -/
def Fs.buffered (fs : Fs) (fp : ℕ) : ℕ :=
  match fs.streams fp with
  | none => 0
  | some st => st.buffer.length

/-- `fopen(path, "wb")`: create or truncate. -/
def Fs.fopenWb (f : Faults) (path : Bytes) (fs : Fs) : Except Errno ℕ × Fs :=
  match f.fopen with
  | some e => (.error e, fs)
  | none =>
    (.ok fs.nextStream,
      { fs with
        files := Function.update fs.files path (some [])
        streams := Function.update fs.streams fs.nextStream (some ⟨some path, 0, []⟩)
        nextStream := fs.nextStream + 1 })

/-- The number of bytes of `data` an `fwrite` accepts. -/
def Faults.accepted (f : Faults) (data : Bytes) : ℕ :=
  match f.fwrite with
  | none => data.length
  | some (n, _) => min n data.length

/-- Put bytes into a stream's buffer. -/
def Fs.put (fs : Fs) (fp : ℕ) (data : Bytes) : Fs :=
  { fs with
    streams := Function.update fs.streams fp ((fs.streams fp).map fun st =>
      { st with buffer := st.buffer ++ data }) }

/-- `fwrite`: what is accepted goes to the buffer, and some of the buffer to the file. A
short count means that the file could not be written, and the rest of the buffer is
discarded with the data that was not accepted. -/
def Fs.fwrite (f : Faults) (fp : ℕ) (data : Bytes) (fs : Fs) : (ℕ × Errno) × Fs :=
  let written := (fs.put fp (data.take (f.accepted data))).flush fp f.drained
  ((f.accepted data, (f.fwrite.map Prod.snd).getD 0),
    if f.accepted data = data.length then written else written.discard fp f.kept)

/-- `fflush`. -/
def Fs.fflush (f : Faults) (fp : ℕ) (fs : Fs) : Option Errno × Fs :=
  match f.fflush with
  | none => (none, fs.flush fp (fs.buffered fp))
  | some (n, e) => (some e, (fs.flush fp n).discard fp f.kept)

/-- `fclose`: the stream is gone, whether its buffer could be written or not. -/
def Fs.fclose (f : Faults) (fp : ℕ) (fs : Fs) : Option Errno × Fs :=
  let written := fs.buffered fp - ((f.fclose.map Prod.fst).getD 0)
  let flushed := fs.flush fp written
  (f.fclose.map Prod.snd, { flushed with streams := Function.update flushed.streams fp none })

/-- Where a stream writes after the file `src` was renamed to `dst`. -/
def Stream.renamed (src dst : Bytes) (st : Stream) : Stream :=
  if st.path = some src then { st with path := some dst }
  else if st.path = some dst then { st with path := none }
  else st

/-- `rename`. -/
def Fs.rename (f : Faults) (src dst : Bytes) (fs : Fs) : Option Errno × Fs :=
  match f.rename with
  | some e => (some e, fs)
  | none =>
    match fs.files src with
    | none => (some eNoEnt, fs)
    | some content =>
      (none,
        { fs with
          files := Function.update (Function.update fs.files src none) dst (some content)
          streams := fun fp => (fs.streams fp).map (Stream.renamed src dst) })

/-- Where a stream writes after the file `path` was removed. -/
def Stream.unlinked (path : Bytes) (st : Stream) : Stream :=
  if st.path = some path then { st with path := none } else st

/-- `unlink`. -/
def Fs.unlink (f : Faults) (path : Bytes) (fs : Fs) : Option Errno × Fs :=
  match f.unlink with
  | some e => (some e, fs)
  | none =>
    match fs.files path with
    | none => (some eNoEnt, fs)
    | some _ =>
      (none,
        { fs with
          files := Function.update fs.files path none
          streams := fun fp => (fs.streams fp).map (Stream.unlinked path) })

/-- The system calls of this file system, during an operation whose calls turn out as `f`
says. File modes are not modelled, so a `chmod` changes nothing; nor does an `fsync`. -/
def Os.withFs (os : Os Fs) (f : Faults) : Os Fs :=
  { os.withMountinfo Fs.mountinfo with
    fopenWb := Fs.fopenWb f
    fwrite := Fs.fwrite f
    fflush := Fs.fflush f
    fsync := fun _ fs => (f.fsync, fs)
    fclose := Fs.fclose f
    rename := Fs.rename f
    chmod := fun _ _ fs => (f.chmod, fs)
    unlink := Fs.unlink f }

@[simp] theorem Os.withFs_mountinfo (os : Os Fs) (f : Faults) (fs : Fs) :
    (os.withFs f).mountinfo fs = (fs.mountinfo, fs) :=
  os.withMountinfo_mountinfo Fs.mountinfo fs

/-! ### What a stream holds -/

/-- The stream `fp` writes to the file `path`, of which nothing was written by others, and
holds the bytes `w`: those in the file and those still in the buffer. The offset is the end
of the file, so that a flush appends. -/
def Fs.Writes (fs : Fs) (fp : ℕ) (path w : Bytes) : Prop :=
  ∃ content buffer, fs.files path = some content ∧
    fs.streams fp = some ⟨some path, content.length, buffer⟩ ∧ content ++ buffer = w

/-- Two file systems that differ at most at the given path and the given stream. This is the
frame condition of the calls on one stream. -/
structure Fs.SameElsewhere (fs fs' : Fs) (path : Bytes) (fp : ℕ) : Prop where
  files : ∀ q, q ≠ path → fs'.files q = fs.files q
  streams : ∀ k, k ≠ fp → fs'.streams k = fs.streams k
  nextStream : fs.nextStream ≤ fs'.nextStream
  mountinfo : fs'.mountinfo = fs.mountinfo

theorem Fs.SameElsewhere.refl (fs : Fs) (path : Bytes) (fp : ℕ) : fs.SameElsewhere fs path fp :=
  ⟨fun _ _ => rfl, fun _ _ => rfl, le_rfl, rfl⟩

theorem Fs.SameElsewhere.trans {fs₁ fs₂ fs₃ : Fs} {path : Bytes} {fp : ℕ}
    (h₁ : fs₁.SameElsewhere fs₂ path fp) (h₂ : fs₂.SameElsewhere fs₃ path fp) :
    fs₁.SameElsewhere fs₃ path fp where
  files := fun q hq => (h₂.files q hq).trans (h₁.files q hq)
  streams := fun k hk => (h₂.streams k hk).trans (h₁.streams k hk)
  nextStream := h₁.nextStream.trans h₂.nextStream
  mountinfo := h₂.mountinfo.trans h₁.mountinfo

/-- A stream that writes to another file is not affected. -/
theorem Fs.Writes.of_sameElsewhere {fs fs' : Fs} {path q w : Bytes} {fp k : ℕ}
    (h : fs.Writes k q w) (hsame : fs.SameElsewhere fs' path fp) (hq : q ≠ path) (hk : k ≠ fp) :
    fs'.Writes k q w := by
  obtain ⟨content, buffer, hfile, hstream, hw⟩ := h
  exact ⟨content, buffer, by rw [hsame.files q hq, hfile], by rw [hsame.streams k hk, hstream], hw⟩

/-- Writing at the end of a file appends. -/
private theorem overwrite_length (content data : Bytes) :
    overwrite content content.length data = content ++ data := by
  rw [overwrite, List.take_length, Nat.sub_self, List.replicate_zero, List.append_nil,
    List.drop_of_length_le (by omega), List.append_nil]

/-! ### What each call does -/

section Calls

variable {fs : Fs} {fp k n : ℕ} {path w q v : Bytes}

/-- Flushing moves bytes from the buffer to the file and takes no part in what the stream
holds. So when the buffer is written out makes no difference as long as every write
succeeds. -/
theorem Fs.Writes.flush (h : fs.Writes fp path w) (n : ℕ) :
    (fs.flush fp n).Writes fp path w ∧ fs.SameElsewhere (fs.flush fp n) path fp := by
  obtain ⟨content, buffer, hfile, hstream, rfl⟩ := h
  have hflush : fs.flush fp n =
      { fs with
        files := Function.update fs.files path (some (content ++ buffer.take n))
        streams := Function.update fs.streams fp
          (some ⟨some path, content.length + (buffer.take n).length, buffer.drop n⟩) } := by
    simp only [Fs.flush, hstream, hfile, Option.map_some, overwrite_length]
  rw [hflush]
  refine ⟨⟨content ++ buffer.take n, buffer.drop n, Function.update_self .., ?_, ?_⟩, ?_⟩
  · exact (Function.update_self ..).trans (by rw [List.length_append])
  · rw [List.append_assoc, List.take_append_drop]
  · exact ⟨fun q hq => Function.update_of_ne hq .., fun k hk => Function.update_of_ne hk ..,
      le_rfl, rfl⟩

/-- The file after a flush. -/
private theorem Fs.Writes.flush_files (h : fs.Writes fp path w) (n : ℕ) :
    (fs.flush fp n).files path = some (w.take (w.length - (fs.buffered fp - n))) := by
  obtain ⟨content, buffer, hfile, hstream, rfl⟩ := h
  simp only [Fs.flush, Fs.buffered, hstream, hfile, Option.map_some, overwrite_length,
    Function.update_self, Option.some.injEq]
  have hlen : (content ++ buffer).length - (buffer.length - n) =
      content.length + min n buffer.length := by
    rw [List.length_append]
    omega
  rw [hlen, List.take_length_add_append, ← List.take_eq_take_min]

/-- The buffer after a flush. -/
private theorem Fs.buffered_flush (fs : Fs) (fp n : ℕ) :
    (fs.flush fp n).buffered fp = fs.buffered fp - n := by
  cases hstream : fs.streams fp with
  | none => simp only [Fs.flush, Fs.buffered, hstream, Nat.zero_sub]
  | some st =>
    simp only [Fs.flush, Fs.buffered, hstream, Function.update_self, List.length_drop]

/-- What is put into the buffer is held. -/
theorem Fs.Writes.put (h : fs.Writes fp path w) (data : Bytes) :
    (fs.put fp data).Writes fp path (w ++ data) ∧
      (fs.put fp data).buffered fp = fs.buffered fp + data.length ∧
      fs.SameElsewhere (fs.put fp data) path fp := by
  obtain ⟨content, buffer, hfile, hstream, rfl⟩ := h
  have hput : (fs.put fp data).streams fp = some ⟨some path, content.length, buffer ++ data⟩ := by
    rw [Fs.put, hstream]
    exact Function.update_self ..
  refine ⟨⟨content, buffer ++ data, hfile, hput, (List.append_assoc ..).symm⟩, ?_, ?_⟩
  · simp only [Fs.buffered, hput, hstream, List.length_append]
  · exact ⟨fun q _ => rfl, fun k hk => Function.update_of_ne hk .., le_rfl, rfl⟩

/-- What is discarded of the buffer is cut off the end of what the stream holds. This is the
only way in which bytes that were accepted are lost before the stream is closed. -/
theorem Fs.Writes.discard (h : fs.Writes fp path w) (kept : ℕ) :
    (fs.discard fp kept).Writes fp path (w.take (w.length - (fs.buffered fp - kept))) ∧
      (fs.discard fp kept).buffered fp = min kept (fs.buffered fp) ∧
      fs.SameElsewhere (fs.discard fp kept) path fp := by
  obtain ⟨content, buffer, hfile, hstream, rfl⟩ := h
  have hdiscard : (fs.discard fp kept).streams fp =
      some ⟨some path, content.length, buffer.take kept⟩ := by
    rw [Fs.discard, hstream]
    exact Function.update_self ..
  have hbuffered : fs.buffered fp = buffer.length := by rw [Fs.buffered, hstream]
  refine ⟨⟨content, buffer.take kept, hfile, hdiscard, ?_⟩, ?_, ?_⟩
  · have hlen : (content ++ buffer).length - (buffer.length - kept) =
        content.length + min kept buffer.length := by
      rw [List.length_append]
      omega
    rw [hbuffered, hlen, List.take_length_add_append, ← List.take_eq_take_min]
  · simp only [Fs.buffered, hdiscard, hstream, List.length_take]
  · exact ⟨fun q _ => rfl, fun k hk => Function.update_of_ne hk .., le_rfl, rfl⟩

/-- A fresh stream holds nothing. -/
theorem Fs.fopenWb_of_ok {f : Faults} (h : f.fopen = none) (path : Bytes) (fs : Fs) :
    ∃ fs', Fs.fopenWb f path fs = (.ok fs.nextStream, fs') ∧ fs'.Writes fs.nextStream path [] ∧
      fs.SameElsewhere fs' path fs.nextStream ∧ fs.nextStream < fs'.nextStream := by
  rw [Fs.fopenWb, h]
  refine ⟨_, rfl, ⟨[], [], Function.update_self .., Function.update_self .., rfl⟩, ?_, by simp⟩
  exact ⟨fun q hq => Function.update_of_ne hq .., fun k hk => Function.update_of_ne hk ..,
    Nat.le_succ _, rfl⟩

/-- A failing `fopen` changes nothing. -/
theorem Fs.fopenWb_of_error {f : Faults} {e : Errno} (h : f.fopen = some e) (path : Bytes)
    (fs : Fs) : Fs.fopenWb f path fs = (.error e, fs) := by
  rw [Fs.fopenWb, h]

/-- The number of bytes in the buffer when an `fwrite` has passed on what it does. -/
def Faults.undrained (f : Faults) (data : Bytes) (buffered : ℕ) : ℕ :=
  buffered + f.accepted data - f.drained

/-- The number of bytes an `fwrite` discards: none if it accepts all of the data. -/
def Faults.lostByFwrite (f : Faults) (data : Bytes) (buffered : ℕ) : ℕ :=
  if f.accepted data = data.length then 0 else f.undrained data buffered - f.kept

/-- The number of bytes an `fwrite` leaves in the buffer. -/
def Faults.leftByFwrite (f : Faults) (data : Bytes) (buffered : ℕ) : ℕ :=
  if f.accepted data = data.length then f.undrained data buffered
  else min f.kept (f.undrained data buffered)

/-- The number of bytes an `fflush` discards. -/
def Faults.lostByFflush (f : Faults) (buffered : ℕ) : ℕ :=
  match f.fflush with
  | none => 0
  | some (n, _) => buffered - n - f.kept

/-- The number of bytes an `fflush` leaves in the buffer. -/
def Faults.leftByFflush (f : Faults) (buffered : ℕ) : ℕ :=
  match f.fflush with
  | none => 0
  | some (n, _) => min f.kept (buffered - n)

theorem Faults.length_accepted (f : Faults) (data : Bytes) :
    (data.take (f.accepted data)).length = f.accepted data := by
  rw [List.length_take, Faults.accepted]
  split
  · exact min_self _
  · exact min_eq_left (min_le_right _ _)

/-- An `fwrite` adds the bytes it accepts to what the stream holds, and a short one discards
from the end of that. -/
theorem Fs.Writes.fwrite (h : fs.Writes fp path w) (f : Faults) (data : Bytes) :
    (Fs.fwrite f fp data fs).2.Writes fp path ((w ++ data.take (f.accepted data)).take
        ((w ++ data.take (f.accepted data)).length - f.lostByFwrite data (fs.buffered fp))) ∧
      (Fs.fwrite f fp data fs).2.buffered fp = f.leftByFwrite data (fs.buffered fp) ∧
      fs.SameElsewhere (Fs.fwrite f fp data fs).2 path fp := by
  obtain ⟨hput, hbuffered, hsame⟩ := h.put (data.take (f.accepted data))
  obtain ⟨hwritten, hsame'⟩ := hput.flush f.drained
  have hundrained : ((fs.put fp (data.take (f.accepted data))).flush fp f.drained).buffered fp =
      f.undrained data (fs.buffered fp) := by
    rw [Fs.buffered_flush, hbuffered, f.length_accepted, Faults.undrained]
  rw [Fs.fwrite, Faults.lostByFwrite, Faults.leftByFwrite]
  split_ifs with hall
  · rw [Nat.sub_zero, List.take_length]
    exact ⟨hwritten, hundrained, hsame.trans hsame'⟩
  · obtain ⟨hdiscard, hleft, hsame''⟩ := hwritten.discard f.kept
    rw [hundrained] at hdiscard hleft
    exact ⟨hdiscard, hleft, (hsame.trans hsame').trans hsame''⟩

/-- An `fflush` that fails discards from the end of what the stream holds. -/
theorem Fs.Writes.fflush (h : fs.Writes fp path w) (f : Faults) :
    (Fs.fflush f fp fs).2.Writes fp path
        (w.take (w.length - f.lostByFflush (fs.buffered fp))) ∧
      (Fs.fflush f fp fs).2.buffered fp = f.leftByFflush (fs.buffered fp) ∧
      fs.SameElsewhere (Fs.fflush f fp fs).2 path fp := by
  rw [Fs.fflush, Faults.lostByFflush, Faults.leftByFflush]
  obtain hfault | ⟨⟨n, e⟩, hfault⟩ := Option.eq_none_or_eq_some f.fflush
  · obtain ⟨hwritten, hsame⟩ := h.flush (fs.buffered fp)
    simp only [hfault, Nat.sub_zero, List.take_length]
    exact ⟨hwritten, by rw [Fs.buffered_flush, Nat.sub_self], hsame⟩
  · simp only [hfault]
    obtain ⟨hwritten, hsame⟩ := h.flush n
    obtain ⟨hdiscard, hleft, hsame'⟩ := hwritten.discard f.kept
    rw [Fs.buffered_flush] at hdiscard hleft
    exact ⟨hdiscard, hleft, hsame.trans hsame'⟩

/-- The number of bytes an `fclose` loses of a buffer of the given length. -/
def Faults.lost (f : Faults) (buffered : ℕ) : ℕ :=
  min ((f.fclose.map Prod.fst).getD 0) buffered

theorem Faults.lost_of_ok {f : Faults} (h : f.fclose = none) (buffered : ℕ) :
    f.lost buffered = 0 := by
  simp [Faults.lost, h]

/-- After `fclose` the file holds what the stream held, less what was lost of its end. -/
theorem Fs.Writes.fclose (h : fs.Writes fp path w) (f : Faults) :
    (Fs.fclose f fp fs).2.files path = some (w.take (w.length - f.lost (fs.buffered fp))) ∧
      (Fs.fclose f fp fs).2.streams fp = none ∧
      fs.SameElsewhere (Fs.fclose f fp fs).2 path fp := by
  obtain ⟨-, hsame⟩ := h.flush (fs.buffered fp - ((f.fclose.map Prod.fst).getD 0))
  have hfiles := h.flush_files (fs.buffered fp - ((f.fclose.map Prod.fst).getD 0))
  rw [Fs.fclose]
  refine ⟨?_, Function.update_self .., hsame.files, fun k hk => ?_, hsame.nextStream,
    hsame.mountinfo⟩
  · rw [hfiles, Faults.lost]
    congr 3
    omega
  · exact (Function.update_of_ne hk ..).trans (hsame.streams k hk)

/-- A successful `rename` moves the file, replaces what was at the target, and leaves the
streams of other files alone. -/
theorem Fs.rename_of_ok {f : Faults} (h : f.rename = none) {src : Bytes} (dst : Bytes)
    {content : Bytes} (hsrc : fs.files src = some content) :
    ∃ fs', Fs.rename f src dst fs = (none, fs') ∧
      fs'.files = Function.update (Function.update fs.files src none) dst (some content) ∧
      (∀ k q v, fs.Writes k q v → q ≠ src → q ≠ dst → fs'.Writes k q v) ∧
      fs'.nextStream = fs.nextStream ∧ fs'.mountinfo = fs.mountinfo := by
  rw [Fs.rename, h, hsrc]
  refine ⟨_, rfl, rfl, ?_, rfl, rfl⟩
  rintro k q v ⟨c, b, hfile, hstream, hv⟩ hqs hqd
  refine ⟨c, b, ?_, ?_, hv⟩
  · dsimp only
    rw [Function.update_of_ne hqd, Function.update_of_ne hqs, hfile]
  · dsimp only
    rw [hstream, Option.map_some, Stream.renamed, if_neg (by simpa using hqs),
      if_neg (by simpa using hqd)]

end Calls

end UsbResponder
