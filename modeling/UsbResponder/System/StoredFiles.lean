import UsbResponder.FileOps.Tree
import UsbResponder.System.FileSystem

/-!
# Reading the file system

The calls that read files and look at them, for the file system of
`UsbResponder.System.FileSystem`. A stream that was opened for reading has nothing buffered;
it has an offset, which `fseek` sets, `ftell` tells and `fread` moves on. There is memory
for every block that is asked for.

The kind and the size of a file are those of its content. The rest of what `lstat` reports
is given by a function on paths, which also says where there are directories. These stay
where they are: that a directory is renamed, and the files below it with it, has no place in
a file system that keeps files by their paths. Results about it are for paths of files
(`IsDir`).

`fileRead_withReads` and the lemmas after it say what the file operations that end in one
call make of a file, and `Fs.SameFiles` that reading changes no file and no other stream.
Both are proved for any system calls underneath and any faults of the calls that write,
because an operation that only reads does not depend on them; the removal of a path is the
exception, and asks that its `unlink` succeeds.

Reads that fail in the middle of a file, and files that change while they are read, are left
to the results that quantify over all outsides.
-/

namespace UsbResponder

open CString

/-! ### Calls -/

/-- `EBADF`, for a call on a stream that is not open. -/
def eBadF : Errno := 9

/-- `fopen(path, "rb")`. The stream starts at the beginning of the file, with nothing
buffered. -/
def Fs.fopenRb (path : Bytes) (fs : Fs) : Except Errno ℕ × Fs :=
  match fs.files path with
  | none => (.error eNoEnt, fs)
  | some _ =>
    (.ok fs.nextStream,
      { fs with
        streams := Function.update fs.streams fs.nextStream (some ⟨some path, 0, []⟩)
        nextStream := fs.nextStream + 1 })

/-- A stream at another offset. The buffer is not looked at, since the responder seeks only
in streams that read. -/
def Fs.seek (fp pos : ℕ) (fs : Fs) : Fs :=
  { fs with streams := Function.update fs.streams fp ((fs.streams fp).map fun st =>
      { st with pos := pos }) }

/-- The content behind a stream, none when its file has lost its name or the stream is not
open. -/
def Fs.contentOf (fs : Fs) (fp : ℕ) : Option Bytes :=
  ((fs.streams fp).bind Stream.path).bind fs.files

/-- `fseek(fp, 0, SEEK_END)`. -/
def Fs.fseekEnd (fp : ℕ) (fs : Fs) : Option Errno × Fs :=
  match fs.contentOf fp with
  | none => (some eBadF, fs)
  | some content => (none, fs.seek fp content.length)

/-- `fseek(fp, 0, SEEK_SET)`. -/
def Fs.fseekSet (fp : ℕ) (fs : Fs) : Option Errno × Fs :=
  match fs.contentOf fp with
  | none => (some eBadF, fs)
  | some _ => (none, fs.seek fp 0)

/-- `ftell`, the offset of the file. It is asked of streams that read only. -/
def Fs.ftell (fp : ℕ) (fs : Fs) : Except Errno ℕ × Fs :=
  match fs.streams fp with
  | none => (.error eBadF, fs)
  | some st => (.ok st.pos, fs)

/-- `fread`. It returns as much as there is, so a short count means the end of the file. -/
def Fs.fread (fp size : ℕ) (fs : Fs) : (Bytes × Errno) × Fs :=
  match fs.streams fp, fs.contentOf fp with
  | some st, some content =>
    (((content.drop st.pos).take size, 0),
      fs.seek fp (st.pos + ((content.drop st.pos).take size).length))
  | _, _ => (([], eBadF), fs)

/-- The directory a path is in: what is in front of the last slash, or the root. -/
def parentDir (path : Bytes) : Bytes :=
  let dir := (path.reverse.dropWhile (· ≠ slash)).tail.reverse
  if dir = [] then [slash] else dir

/-- There is a directory at the path. Directories come with the attributes, and nothing
changes them. -/
def IsDir (attrs : Bytes → Stat) (path : Bytes) : Prop := (attrs path).kind = .directory

instance (attrs : Bytes → Stat) (path : Bytes) : Decidable (IsDir attrs path) :=
  inferInstanceAs (Decidable (_ = _))

/-- `lstat`: a file with its size and what else there is to say of it, or a directory. -/
def Fs.lstat (attrs : Bytes → Stat) (path : Bytes) (fs : Fs) : Except Errno Stat × Fs :=
  match fs.files path with
  | none => if IsDir attrs path then (.ok (attrs path), fs) else (.error eNoEnt, fs)
  | some content => (.ok { attrs path with kind := .regular, size := content.length }, fs)

private theorem Fs.lstat_of_none {attrs : Bytes → Stat} {path : Bytes} {fs : Fs}
    (h : fs.files path = none) (hdir : ¬IsDir attrs path) :
    Fs.lstat attrs path fs = (.error eNoEnt, fs) := by
  rw [Fs.lstat, h]
  exact if_neg hdir

private theorem Fs.lstat_of_some {attrs : Bytes → Stat} {path content : Bytes} {fs : Fs}
    (h : fs.files path = some content) : Fs.lstat attrs path fs =
      (.ok { attrs path with kind := .regular, size := content.length }, fs) := by
  rw [Fs.lstat, h]

/-- System calls with those that read this file system. What else looks at files (`stat`,
`opendir`) is that of `os`. -/
def Os.withReads (os : Os Fs) (attrs : Bytes → Stat) : Os Fs :=
  { os with
    allocates := fun _ _ => true
    fopenRb := Fs.fopenRb
    fseekEnd := Fs.fseekEnd
    fseekSet := Fs.fseekSet
    ftell := Fs.ftell
    fread := Fs.fread
    lstat := Fs.lstat attrs
    getpwuid := fun uid fs => ((os.getpwuid uid fs).1, fs)
    getgrgid := fun gid fs => ((os.getgrgid gid fs).1, fs) }

/-! ### What reading leaves alone -/

/-- The same files, and the same streams among those that were open. Streams opened since
may be anything. -/
structure Fs.SameFiles (fs fs' : Fs) : Prop where
  files : fs'.files = fs.files
  streams : ∀ k, k < fs.nextStream → fs'.streams k = fs.streams k
  nextStream : fs.nextStream ≤ fs'.nextStream
  mountinfo : fs'.mountinfo = fs.mountinfo

namespace Fs.SameFiles

variable {fs fs₁ fs₂ : Fs}

theorem refl (fs : Fs) : fs.SameFiles fs := ⟨rfl, fun _ _ => rfl, le_rfl, rfl⟩

theorem trans (h₁ : fs.SameFiles fs₁) (h₂ : fs₁.SameFiles fs₂) : fs.SameFiles fs₂ where
  files := h₂.files.trans h₁.files
  streams := fun k hk => (h₂.streams k (hk.trans_le h₁.nextStream)).trans (h₁.streams k hk)
  nextStream := h₁.nextStream.trans h₂.nextStream
  mountinfo := h₂.mountinfo.trans h₁.mountinfo

/-- What a stream writes is not affected. -/
theorem writes (h : fs.SameFiles fs₁) {k : ℕ} (hk : k < fs.nextStream) {path w : Bytes}
    (hw : fs.Writes k path w) : fs₁.Writes k path w := by
  obtain ⟨content, buffer, hfile, hstream, hcontent⟩ := hw
  exact ⟨content, buffer, by rw [h.files, hfile], by rw [h.streams k hk, hstream], hcontent⟩

end Fs.SameFiles

/-- The stream `fp` reads the file `path` and is at the given offset. With nothing buffered,
closing it writes nothing. -/
structure Fs.Reads (fs : Fs) (fp : ℕ) (path content : Bytes) (pos : ℕ) : Prop where
  file : fs.files path = some content
  stream : fs.streams fp = some ⟨some path, pos, []⟩

section Reads

variable {fs : Fs} {fp pos : ℕ} {path content : Bytes}

private theorem Fs.Reads.contentOf (h : fs.Reads fp path content pos) :
    fs.contentOf fp = some content := by
  rw [Fs.contentOf, h.stream, Option.bind_some, Option.bind_some, h.file]

private theorem Fs.Reads.seek (h : fs.Reads fp path content pos) (pos' : ℕ) :
    (fs.seek fp pos').Reads fp path content pos' where
  file := h.file
  stream := (Function.update_self ..).trans (by rw [h.stream, Option.map_some])

/-- Streams that are opened later can be moved. -/
private theorem Fs.SameFiles.seek {fs₀ : Fs} (h : fs₀.SameFiles fs) (hfp : fs₀.nextStream ≤ fp)
    (pos : ℕ) : fs₀.SameFiles (fs.seek fp pos) where
  files := h.files
  streams := fun k hk => (Function.update_of_ne (hk.trans_le hfp).ne ..).trans (h.streams k hk)
  nextStream := h.nextStream
  mountinfo := h.mountinfo

/-- Closing a stream that reads changes no file. -/
theorem Fs.SameFiles.fclose {fs₀ : Fs} (h : fs₀.SameFiles fs) (hfp : fs₀.nextStream ≤ fp)
    (hreads : fs.Reads fp path content pos) (hpos : pos ≤ content.length) (f : Faults) :
    fs₀.SameFiles (Fs.fclose f fp fs).2 := by
  have hoverwrite : overwrite content pos [] = content := by
    rw [overwrite, Nat.sub_eq_zero_of_le hpos, List.replicate_zero, List.append_nil,
      List.append_nil, List.length_nil, Nat.add_zero, List.take_append_drop]
  have hflush : ∀ n, (fs.flush fp n).files = fs.files := by
    intro n
    simp only [Fs.flush, hreads.stream, List.take_nil, hreads.file, Option.map_some, hoverwrite]
    rw [← hreads.file, Function.update_eq_self]
  have hstreams : ∀ n k, k ≠ fp → (fs.flush fp n).streams k = fs.streams k := by
    intro n k hk
    simp only [Fs.flush, hreads.stream]
    exact Function.update_of_ne hk ..
  have hrest : ∀ n, (fs.flush fp n).nextStream = fs.nextStream ∧
      (fs.flush fp n).mountinfo = fs.mountinfo := by
    intro n
    simp only [Fs.flush, hreads.stream, and_self]
  rw [Fs.fclose]
  refine ⟨(hflush _).trans h.files, fun k hk => ?_, ?_, (hrest _).2.trans h.mountinfo⟩
  · have hne : k ≠ fp := (hk.trans_le hfp).ne
    exact (Function.update_of_ne hne ..).trans ((hstreams _ k hne).trans (h.streams k hk))
  · exact h.nextStream.trans (hrest _).1.ge

/-- Opening a file that is there. -/
private theorem Fs.fopenRb_of_some (h : fs.files path = some content) :
    ∃ fs', Fs.fopenRb path fs = (.ok fs.nextStream, fs') ∧
      fs'.Reads fs.nextStream path content 0 ∧ fs.SameFiles fs' := by
  rw [Fs.fopenRb, h]
  refine ⟨_, rfl, ⟨h, Function.update_self ..⟩, rfl, fun k hk => ?_, Nat.le_succ _, rfl⟩
  exact Function.update_of_ne hk.ne ..

end Reads

/-! ### Operations -/

section Operations

variable (os : Os Fs) (attrs : Bytes → Stat) (f : Faults) {p : Proc Fs}
  {relativePath path : Bytes} {storage : Storage}

/-- A file that is not there cannot be read. -/
private theorem readFileAll_of_none (h : p.os.files path = none) :
    ∃ lastError, (readFileAll ((os.withReads attrs).withFs f) path).run p =
      (none, { p with lastError := lastError }) := by
  have hopen : ((os.withReads attrs).withFs f).fopenRb path p.os = (.error eNoEnt, p.os) := by
    show Fs.fopenRb path p.os = _
    rw [Fs.fopenRb, h]
  rw [readFileAll, Op.run_bind_of_some (Op.run_sys ..), hopen]
  exact ⟨_, rfl⟩

/-- **A file that is there** is read completely, and no file changes. -/
theorem readFileAll_of_some {content : Bytes} (h : p.os.files path = some content) :
    ∃ fs', (readFileAll ((os.withReads attrs).withFs f) path).run p =
        (some content, { p with os := fs' }) ∧ p.os.SameFiles fs' := by
  obtain ⟨fs₁, hopen, hreads, hsame⟩ := Fs.fopenRb_of_some h
  -- the four calls after the opening move the stream, and nothing else
  have hend : Fs.fseekEnd p.os.nextStream fs₁ =
      (none, fs₁.seek p.os.nextStream content.length) := by
    rw [Fs.fseekEnd, hreads.contentOf]
  have hreads₂ := hreads.seek content.length
  have hsame₂ := hsame.seek le_rfl content.length
  obtain ⟨fs₂, hfs₂⟩ : ∃ fs₂, fs₂ = fs₁.seek p.os.nextStream content.length := ⟨_, rfl⟩
  rw [← hfs₂] at hend hreads₂ hsame₂
  have htell : Fs.ftell p.os.nextStream fs₂ = (.ok content.length, fs₂) := by
    rw [Fs.ftell, hreads₂.stream]
  have hset : Fs.fseekSet p.os.nextStream fs₂ = (none, fs₂.seek p.os.nextStream 0) := by
    rw [Fs.fseekSet, hreads₂.contentOf]
  have hreads₃ := hreads₂.seek 0
  have hsame₃ := hsame₂.seek le_rfl 0
  obtain ⟨fs₃, hfs₃⟩ : ∃ fs₃, fs₃ = fs₂.seek p.os.nextStream 0 := ⟨_, rfl⟩
  rw [← hfs₃] at hset hreads₃ hsame₃
  have hread : Fs.fread p.os.nextStream content.length fs₃ =
      ((content, 0), fs₃.seek p.os.nextStream content.length) := by
    simp only [Fs.fread, hreads₃.stream, hreads₃.contentOf, List.drop_zero, List.take_length,
      Nat.zero_add]
  have hreads₄ := hreads₃.seek content.length
  have hsame₄ := hsame₃.seek le_rfl content.length
  rw [readFileAll, Op.run_bind_of_some (Op.run_sys ..)]
  simp only [show ((os.withReads attrs).withFs f).fopenRb = Fs.fopenRb from rfl, hopen]
  rw [Op.run_bind_of_some (Op.run_sys ..)]
  simp only [show ((os.withReads attrs).withFs f).fseekEnd = Fs.fseekEnd from rfl, hend]
  rw [Op.run_bind_of_some (Op.run_sys ..)]
  simp only [show ((os.withReads attrs).withFs f).ftell = Fs.ftell from rfl, htell]
  rw [Op.run_bind_of_some (Op.run_sys ..)]
  simp only [show ((os.withReads attrs).withFs f).fseekSet = Fs.fseekSet from rfl, hset]
  split_ifs with hempty
  · rw [Op.run_bind_of_some (Op.run_sys ..), Op.run_pure]
    have hnil := List.length_eq_zero_iff.mp hempty
    rw [hnil]
    exact ⟨_, rfl, hsame₃.fclose le_rfl hreads₃ (Nat.zero_le _) f⟩
  · have hmalloc : ∀ s, ((os.withReads attrs).withFs f).malloc content.length s = (true, s) :=
      fun _ => rfl
    rw [Op.run_bind_of_some (Op.run_sys ..), hmalloc, if_pos rfl,
      Op.run_bind_of_some (Op.run_sys ..)]
    simp only [show ((os.withReads attrs).withFs f).fread = Fs.fread from rfl, hread,
      List.take_length, ne_eq, not_true_eq_false, if_false]
    rw [Op.run_bind_of_some (Op.run_sys ..), Op.run_pure]
    exact ⟨_, rfl, hsame₄.fclose le_rfl hreads₄ le_rfl f⟩

/-- `usb_responder_file_read` on this file system. -/
theorem fileRead_withReads (hpath : buildPath relativePath pathMaxLen = (path, .ok storage)) :
    ∃ p', (fileRead ((os.withReads attrs).withFs f) relativePath).run p = (p.os.files path, p') ∧
      p'.sessions = p.sessions ∧ p.os.SameFiles p'.os := by
  rw [fileRead, Op.run_bind_of_some (buildPathOp_run hpath p)]
  rcases hfile : p.os.files path with _ | content
  · obtain ⟨lastError, hrun⟩ := readFileAll_of_none os attrs f hfile
    exact ⟨_, hrun, rfl, .refl _⟩
  · obtain ⟨fs', hrun, hsame⟩ := readFileAll_of_some os attrs f hfile
    exact ⟨_, hrun, rfl, hsame⟩

/-- `usb_responder_file_stat` on this file system, where there is no directory: it succeeds
exactly for a file that is there, and tells its size. -/
theorem fileStat_withReads (hpath : buildPath relativePath pathMaxLen = (path, .ok storage))
    (hdir : ¬IsDir attrs path) :
    ∃ r p', (fileStat ((os.withReads attrs).withFs f) relativePath).run p = (r, p') ∧
      p'.sessions = p.sessions ∧ p'.os = p.os ∧
      match p.os.files path with
      | none => r = none
      | some content => ∃ owner perm, r = some ⟨owner, perm,
          snprintf 32 (formatNat 10 0 content.length), utf8 "file"⟩ := by
  rw [fileStat, Op.run_bind_of_some (buildPathOp_run hpath p),
    Op.run_bind_of_some (Op.run_sys ..)]
  have hcall : ((os.withReads attrs).withFs f).lstat path p.os = Fs.lstat attrs path p.os := rfl
  rcases hfile : p.os.files path with _ | content
  · rw [hcall, Fs.lstat_of_none hfile hdir]
    exact ⟨none, _, rfl, rfl, rfl, rfl⟩
  · rw [hcall, Fs.lstat_of_some hfile]
    exact ⟨_, _, rfl, rfl, rfl, _, _, rfl⟩

/-- Removing a path removes the file that is there, if it is no directory, and fails if
there is none. Streams that write to other files are not disturbed. -/
theorem removePathRecursive_withReads (hok : f.AllOk) {path : Bytes} (hdir : ¬IsDir attrs path)
    {fuel : ℕ} (hfuel : 0 < fuel) :
    ∃ p', (removePathRecursive ((os.withReads attrs).withFs f) fuel path).run p =
        ((p.os.files path).map fun _ => (), p') ∧ p'.sessions = p.sessions ∧
      p'.os.files = Function.update p.os.files path none ∧
      (∀ k q w, p.os.Writes k q w → q ≠ path → p'.os.Writes k q w) ∧
      p'.os.nextStream = p.os.nextStream ∧ p'.os.mountinfo = p.os.mountinfo := by
  obtain ⟨fuel, rfl⟩ := Nat.exists_eq_succ_of_ne_zero hfuel.ne'
  rw [removePathRecursive, Op.run_bind_of_some (Op.run_sys ..)]
  have hcall : ((os.withReads attrs).withFs f).lstat path p.os = Fs.lstat attrs path p.os := rfl
  rcases hfile : p.os.files path with _ | content
  · rw [hcall, Fs.lstat_of_none hfile hdir]
    refine ⟨_, rfl, rfl, ?_, fun k q w hw _ => hw, rfl, rfl⟩
    rw [← hfile, Function.update_eq_self]
    rfl
  · rw [hcall, Fs.lstat_of_some hfile]
    have hunlink : ((os.withReads attrs).withFs f).unlink path p.os = (none, { p.os with
        files := Function.update p.os.files path none
        streams := fun fp => (p.os.streams fp).map (Stream.unlinked path) }) := by
      show Fs.unlink f path p.os = _
      rw [Fs.unlink, hok.unlink, hfile]
    dsimp only
    rw [if_neg (by simp), Op.run_bind_of_some (Op.run_sys ..), hunlink]
    refine ⟨_, rfl, rfl, rfl, ?_, rfl, rfl⟩
    rintro k q w ⟨c, b, hc, hstream, hw⟩ hq
    refine ⟨c, b, (Function.update_of_ne hq ..).trans hc, ?_, hw⟩
    dsimp only
    rw [hstream, Option.map_some, Stream.unlinked, if_neg (by simpa using hq)]

end Operations

end UsbResponder
