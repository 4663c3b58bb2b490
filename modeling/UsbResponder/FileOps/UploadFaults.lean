import UsbResponder.FileOps.OpenUpload

/-!
# What a confirmed upload delivers under I/O faults

One upload from begin to end, on an empty session table and any file system, with every
pattern of outcomes of its system calls. The functions look at the results of `fwrite`,
`rename` and `chmod`. They do not look at the result of `fclose`, which writes the buffered
tail out, nor at that of the `fflush` that paces the write-back; and a chunk that `fwrite`
took in part is refused with its part left in the stream. A call that fails discards what it
has not written, which may be bytes of chunks that were confirmed long before.

So a finish may confirm a file that is not what the confirmed chunks add up to.
`confirmed_upload_complete_iff` says exactly when it does not. The condition follows the
stream of the upload through its chunks, as far as their data and the outcomes of their
calls determine it: `UploadStream` has the bytes it holds, how many of them are in the
buffer, and how many bytes were discarded. The upload is complete if the finish is not
confirmed, or if as many bytes are lost, by failing calls and by `fclose`, as refused chunks
put into the stream, and what is left starts with the confirmed data. Where no chunk is
refused this says that nothing is lost (`UploadRun.holdsWhen_iff_of_noneRefused`).

The proof is one step lemma, `UploadStands.append`, and an induction along the chunks. A
finish then cuts what the stream holds by what `fclose` loses, and the comparison with the
confirmed data is about two lists and their lengths (`take_eq_iff`).
-/

namespace UsbResponder

open CString

/-- A chunk, with the outcomes of the system calls made for it. -/
structure ChunkCall where
  data : Bytes
  faults : Faults

/-- One upload, with the outcomes of all system calls. The outcomes are part of the input,
so that a condition on a run is a condition on these. -/
structure UploadRun where
  transferId : UInt32
  relativePath : Bytes
  desireStorage : Option Bytes
  perm : Option Bytes
  beginFaults : Faults
  chunks : List ChunkCall
  endFaults : Faults

/-- The chunks of an upload one after another: the data of those that were confirmed, and
the process after them. A refused chunk does not end the upload; the client may go on. -/
def appendChunks (os : Os Fs) (transferId : UInt32) : List ChunkCall → Proc Fs → Bytes × Proc Fs
  | [], p => ([], p)
  | chunk :: chunks, p =>
    let r := (fileAppendUploadChunk (os.withFs chunk.faults) transferId chunk.data).run p
    let rest := appendChunks os transferId chunks r.2
    (if r.1 = some () then chunk.data ++ rest.1 else rest.1, rest.2)

/-- The upload up to its end: the confirmed data, and the process. -/
def UploadRun.beforeEnd (u : UploadRun) (os : Os Fs) (p : Proc Fs) : Bytes × Proc Fs :=
  appendChunks os u.transferId u.chunks
    ((fileBeginUpload (os.withFs u.beginFaults) u.transferId u.relativePath u.desireStorage
      u.perm).run p).2

/-- The whole upload: the result of the finish, and the process. -/
def UploadRun.result (u : UploadRun) (os : Os Fs) (p : Proc Fs) : Option Unit × Proc Fs :=
  (fileFinishUpload (os.withFs u.endFaults) u.transferId).run (u.beforeEnd os p).2

/-! ### The stream of an upload -/

/-- What a chunk puts into the stream: the bytes `fwrite` accepts. -/
def ChunkCall.taken (chunk : ChunkCall) : Bytes :=
  chunk.data.take (chunk.faults.accepted chunk.data)

/-- A chunk is accepted when it has data and `fwrite` takes all of it. The flush behind it
is not asked. -/
def ChunkCall.Accepted (chunk : ChunkCall) : Prop :=
  chunk.data ≠ [] ∧ chunk.faults.accepted chunk.data = chunk.data.length

instance (chunk : ChunkCall) : Decidable chunk.Accepted :=
  inferInstanceAs (Decidable (_ ∧ _))

/-- The data of a chunk if it is accepted, and nothing otherwise. Put together they are what
the client believes to have sent. -/
def ChunkCall.confirmed (chunk : ChunkCall) : Bytes :=
  if chunk.Accepted then chunk.data else []

/-- The number of bytes refused chunks put into the stream. -/
def leftByRefused (chunks : List ChunkCall) : ℕ :=
  (chunks.map fun chunk => chunk.taken.length - chunk.confirmed.length).sum

/-- How the stream of an upload stands: the bytes it holds in the file and in the buffer,
the number of those in the buffer, the number of bytes discarded since the begin, and the
session with its byte counters. -/
structure UploadStream where
  held : Bytes := []
  buffered : ℕ := 0
  discarded : ℕ := 0
  session : UploadSession := {}

/-- The stream after a chunk, as its data and the outcomes of its calls determine it: first
the bytes that are taken are added at the end, then those that are discarded are cut off
there. -/
def UploadStream.append (s : UploadStream) (chunk : ChunkCall) : UploadStream :=
  let lost := chunk.faults.lostByAppend s.session chunk.data s.buffered
  let held := s.held ++ chunk.taken
  { held := held.take (held.length - lost)
    buffered := chunk.faults.leftByAppend s.session chunk.data s.buffered
    discarded := s.discarded + lost
    session := if chunk.Accepted then s.session.taking chunk.data else s.session }

/-- The stream of an upload before its end, computed from the chunks and the outcomes of
their calls alone. -/
def UploadRun.stream (u : UploadRun) : UploadStream := u.chunks.foldl UploadStream.append {}

private theorem ChunkCall.length_taken (chunk : ChunkCall) :
    chunk.taken.length =
      chunk.confirmed.length + (chunk.taken.length - chunk.confirmed.length) := by
  rw [ChunkCall.taken, ChunkCall.confirmed]
  split_ifs with h
  · rw [h.2, List.take_length, Nat.sub_self, add_zero]
  · simp

/-- What the chunks put into the stream are the confirmed bytes and those of refused chunks. -/
private theorem length_flatMap_taken (chunks : List ChunkCall) :
    (chunks.flatMap ChunkCall.taken).length =
      (chunks.flatMap ChunkCall.confirmed).length + leftByRefused chunks := by
  induction chunks with
  | nil => rfl
  | cons chunk chunks ih =>
    have hchunk := chunk.length_taken
    have hleft : leftByRefused (chunk :: chunks) =
        chunk.taken.length - chunk.confirmed.length + leftByRefused chunks := by
      rw [leftByRefused, List.map_cons, List.sum_cons, leftByRefused]
    rw [List.flatMap_cons, List.length_append, ih, List.flatMap_cons, List.length_append, hleft]
    omega

/-- An append discards bytes of the buffer only. What has reached the file stays there. -/
private theorem Faults.leftByAppend_add_lostByAppend_le (f : Faults) (session : UploadSession)
    (data : Bytes) (buffered : ℕ) :
    f.leftByAppend session data buffered + f.lostByAppend session data buffered ≤
      buffered + f.accepted data := by
  have hwrite : f.leftByFwrite data buffered + f.lostByFwrite data buffered ≤
      buffered + f.accepted data := by
    rw [Faults.leftByFwrite, Faults.lostByFwrite, Faults.undrained]
    split_ifs <;> omega
  have hflush : ∀ n, f.leftByFflush n + f.lostByFflush n ≤ n := by
    intro n
    rw [Faults.leftByFflush, Faults.lostByFflush]
    split <;> omega
  have hpaced := hflush (f.leftByFwrite data buffered)
  rw [Faults.leftByAppend, Faults.lostByAppend]
  split_ifs <;> omega

/-- What is in the buffer is held, and what is put into the stream is held or discarded. -/
private theorem UploadStream.append_length {s : UploadStream} (h : s.buffered ≤ s.held.length)
    (chunk : ChunkCall) :
    (s.append chunk).buffered ≤ (s.append chunk).held.length ∧
      (s.append chunk).held.length + (s.append chunk).discarded =
        s.held.length + s.discarded + chunk.taken.length := by
  have hle := chunk.faults.leftByAppend_add_lostByAppend_le s.session chunk.data s.buffered
  have htaken : chunk.taken.length = chunk.faults.accepted chunk.data :=
    chunk.faults.length_accepted chunk.data
  simp only [UploadStream.append, List.length_take, List.length_append, htaken]
  omega

private theorem UploadStream.foldl_append_length (chunks : List ChunkCall) {s : UploadStream}
    (h : s.buffered ≤ s.held.length) :
    (chunks.foldl append s).buffered ≤ (chunks.foldl append s).held.length ∧
      (chunks.foldl append s).held.length + (chunks.foldl append s).discarded =
        s.held.length + s.discarded + (chunks.flatMap ChunkCall.taken).length := by
  induction chunks generalizing s with
  | nil => exact ⟨h, by simp⟩
  | cons chunk chunks ih =>
    obtain ⟨hbuffered, hlength⟩ := append_length h chunk
    obtain ⟨hbuffered', hlength'⟩ := ih hbuffered
    refine ⟨hbuffered', ?_⟩
    rw [List.foldl_cons, hlength', hlength, List.flatMap_cons, List.length_append, add_assoc]

/-- As long as nothing is discarded, the stream holds all that was put into it. -/
private theorem UploadStream.held_of_discarded_eq_zero (chunks : List ChunkCall) {s : UploadStream}
    (h : (chunks.foldl append s).discarded = 0) :
    s.discarded = 0 ∧ (chunks.foldl append s).held = s.held ++ chunks.flatMap ChunkCall.taken := by
  induction chunks generalizing s with
  | nil => exact ⟨h, by simp⟩
  | cons chunk chunks ih =>
    obtain ⟨hzero, hheld⟩ := ih h
    simp only [append] at hzero
    obtain ⟨hdiscarded, hlost⟩ := Nat.add_eq_zero_iff.mp hzero
    refine ⟨hdiscarded, ?_⟩
    rw [List.foldl_cons, hheld, append, hlost, Nat.sub_zero, List.take_length, List.append_assoc,
      List.flatMap_cons]

/-! ### The chunks -/

/-- Slot `i` holds the upload of `target`, and its stream `fp` stands as `s` says. It is the
invariant along the chunks. -/
structure UploadStands (p : Proc Fs) (i : Fin maxUploadSessions) (transferId : UInt32)
    (target : UploadTarget) (fp : ℕ) (s : UploadStream) : Prop where
  isOpen : UploadOpen p i transferId target fp s.held
  buffered : p.os.buffered fp = s.buffered
  bytesWritten : (p.sessions i).bytesWritten = s.session.bytesWritten
  syncedBytes : (p.sessions i).syncedBytes = s.session.syncedBytes

section Chunks

variable {p : Proc Fs} {i : Fin maxUploadSessions} {transferId : UInt32} {target : UploadTarget}
  {fp : ℕ} {s : UploadStream}

/-- Whether a flush is due depends on the counters only. -/
private theorem UploadSession.due_congr {session session' : UploadSession}
    (hwritten : session.bytesWritten = session'.bytesWritten)
    (hsynced : session.syncedBytes = session'.syncedBytes) (data : Bytes) :
    session.Due data ↔ session'.Due data := by
  rw [UploadSession.Due, UploadSession.Due, hwritten, hsynced]

/-- One chunk: it is confirmed when it is accepted, and the stream goes on as `s.append`
says. -/
theorem UploadStands.append (h : UploadStands p i transferId target fp s) (os : Os Fs)
    (chunk : ChunkCall) :
    let r := (fileAppendUploadChunk (os.withFs chunk.faults) transferId chunk.data).run p
    UploadStands r.2 i transferId target fp (s.append chunk) ∧
      (r.1 = some () ↔ chunk.Accepted) ∧
      (∀ j, j ≠ i → r.2.sessions j = p.sessions j) ∧
      p.os.SameElsewhere r.2.os target.tempPath fp := by
  intro r
  obtain ⟨hopen, hres, hsessions, hleft, hsame⟩ := h.isOpen.append os chunk.faults chunk.data
  have hdue := UploadSession.due_congr h.bytesWritten h.syncedBytes chunk.data
  have hlost : chunk.faults.lostByAppend (p.sessions i) chunk.data (p.os.buffered fp) =
      chunk.faults.lostByAppend s.session chunk.data s.buffered := by
    simp only [Faults.lostByAppend, hdue, h.buffered]
  have hleft' : chunk.faults.leftByAppend (p.sessions i) chunk.data (p.os.buffered fp) =
      chunk.faults.leftByAppend s.session chunk.data s.buffered := by
    simp only [Faults.leftByAppend, hdue, h.buffered]
  rw [hlost] at hopen
  have hslot : r.2.sessions i =
      if chunk.Accepted then (p.sessions i).taking chunk.data else p.sessions i := by
    rw [hsessions, Function.update_self]
    exact if_congr hres rfl rfl
  refine ⟨⟨hopen, hleft.trans hleft', ?_, ?_⟩, hres, fun j hj => ?_, hsame⟩
  · rw [hslot, UploadStream.append]
    dsimp only
    split_ifs
    · rw [UploadSession.taking, UploadSession.taking, h.bytesWritten]
    · exact h.bytesWritten
  · rw [hslot, UploadStream.append]
    dsimp only
    split_ifs
    · simp only [UploadSession.taking, hdue, h.bytesWritten, h.syncedBytes]
    · exact h.syncedBytes
  · rw [hsessions, Function.update_of_ne hj]

/-- After any chunks the upload is still open, and its stream stands as they determine. -/
theorem UploadStands.appendChunks (h : UploadStands p i transferId target fp s) (os : Os Fs)
    (chunks : List ChunkCall) :
    UploadStands (appendChunks os transferId chunks p).2 i transferId target fp
        (chunks.foldl UploadStream.append s) ∧
      (UsbResponder.appendChunks os transferId chunks p).1 =
        chunks.flatMap ChunkCall.confirmed ∧
      (∀ j, j ≠ i → (UsbResponder.appendChunks os transferId chunks p).2.sessions j =
        p.sessions j) ∧
      p.os.SameElsewhere (UsbResponder.appendChunks os transferId chunks p).2.os
        target.tempPath fp := by
  induction chunks generalizing p s with
  | nil => exact ⟨h, rfl, fun _ _ => rfl, .refl ..⟩
  | cons chunk chunks ih =>
    obtain ⟨hstands, hres, hslots, hsame⟩ := h.append os chunk
    obtain ⟨hstands', hconfirmed, hslots', hsame'⟩ := ih hstands
    refine ⟨hstands', ?_, fun j hj => (hslots' j hj).trans (hslots j hj), hsame.trans hsame'⟩
    rw [UsbResponder.appendChunks, List.flatMap_cons, ChunkCall.confirmed]
    simp only [hres, hconfirmed]
    split_ifs
    · rfl
    · rfl

private theorem Fs.Writes.buffered_le {fs : Fs} {fp : ℕ} {path w : Bytes}
    (h : fs.Writes fp path w) : fs.buffered fp ≤ w.length := by
  obtain ⟨content, buffer, -, hstream, rfl⟩ := h
  simp only [Fs.buffered, hstream, List.length_append]
  omega

/-- The stream of a fresh session. -/
theorem UploadStands.of_begin {relativePath : Bytes} {sessions : FileOps}
    (hp : p.sessions = Function.update sessions i (target.session transferId relativePath fp))
    (hother : ∀ j, j ≠ i → (sessions j).key ≠ some transferId)
    (hwrites : p.os.Writes fp target.tempPath []) :
    UploadStands p i transferId target fp {} where
  isOpen := .of_begin hp hother hwrites
  buffered := Nat.le_zero.mp hwrites.buffered_le
  bytesWritten := by rw [hp, Function.update_self]; rfl
  syncedBytes := by rw [hp, Function.update_self]; rfl

end Chunks

/-- Without a session no chunk and no finish is confirmed. -/
private theorem appendChunks_of_none {p : Proc Fs} {transferId : UInt32}
    (h : findSession p.sessions transferId = none) (os : Os Fs) (chunks : List ChunkCall) :
    findSession (appendChunks os transferId chunks p).2.sessions transferId = none := by
  induction chunks generalizing p with
  | nil => exact h
  | cons chunk chunks ih =>
    obtain ⟨msg, hrun⟩ :=
      fileAppendUploadChunk_of_none h (os.withFs chunk.faults) chunk.data
    refine ih ?_
    rw [hrun, Proc.setLastError_sessions, h]

/-! ### The whole upload -/

/-- The condition under which a confirmed upload is complete. The begin is refused, or the
finish is not confirmed because `rename` fails, or `chmod` where a permission is asked for;
or the bytes that failing calls discard and `fclose` loses are as many as refused chunks put
into the stream, and the stream starts with the confirmed data before its end. -/
def UploadRun.HoldsWhen (u : UploadRun) (os : Os Fs) (fs : Fs) : Prop :=
  ((∀ target, ¬UploadChecks (os.withFs u.beginFaults) u.relativePath u.desireStorage u.perm fs
      target) ∨ u.beginFaults.fopen ≠ none) ∨
  u.endFaults.rename ≠ none ∨
  ((∃ mode, uploadPerm os.ulongMax u.perm = some (true, mode)) ∧ u.endFaults.chmod ≠ none) ∨
  (u.stream.discarded + u.endFaults.lost u.stream.buffered = leftByRefused u.chunks ∧
    u.chunks.flatMap ChunkCall.confirmed <+: u.stream.held)

/-- Where no chunk is refused, a confirmed upload is complete exactly when nothing is lost:
no flush that fails has anything left to write, and `fclose` writes the whole buffer. -/
theorem UploadRun.holdsWhen_iff_of_noneRefused (u : UploadRun) (os : Os Fs) (fs : Fs)
    (h : ∀ chunk ∈ u.chunks, chunk.faults.accepted chunk.data = chunk.data.length) :
    u.HoldsWhen os fs ↔
      ((∀ target, ¬UploadChecks (os.withFs u.beginFaults) u.relativePath u.desireStorage u.perm fs
          target) ∨ u.beginFaults.fopen ≠ none) ∨
      u.endFaults.rename ≠ none ∨
      ((∃ mode, uploadPerm os.ulongMax u.perm = some (true, mode)) ∧ u.endFaults.chmod ≠ none) ∨
      (u.stream.discarded = 0 ∧ u.endFaults.lost u.stream.buffered = 0) := by
  have hconfirmed : ∀ chunk ∈ u.chunks, chunk.confirmed = chunk.taken := by
    intro chunk hchunk
    rw [ChunkCall.confirmed, ChunkCall.taken, h chunk hchunk, List.take_length]
    split_ifs with haccepted
    · rfl
    · by_contra hdata
      exact haccepted ⟨fun hnil => hdata hnil.symm, h chunk hchunk⟩
  have hleft : leftByRefused u.chunks = 0 := by
    refine List.sum_eq_zero fun n hn => ?_
    obtain ⟨chunk, hchunk, rfl⟩ := List.mem_map.mp hn
    rw [hconfirmed chunk hchunk, Nat.sub_self]
  have hprefix : u.stream.discarded = 0 ∧ u.endFaults.lost u.stream.buffered = 0 →
      u.chunks.flatMap ChunkCall.confirmed <+: u.stream.held := by
    rintro ⟨hdiscarded, -⟩
    rw [UploadRun.stream, (UploadStream.held_of_discarded_eq_zero _ hdiscarded).2,
      List.flatMap_congr hconfirmed]
    exact List.prefix_rfl
  rw [UploadRun.HoldsWhen, hleft, Nat.add_eq_zero_iff, and_iff_left_of_imp hprefix]

/-- A list cut short by `lost` is another list exactly when its length is and it starts with
it. Here it turns the comparison of two files into one of lengths. -/
private theorem take_eq_iff {held confirmed : Bytes} {lost discarded left : ℕ}
    (hlen : held.length + discarded = confirmed.length + left) (hlost : lost ≤ held.length) :
    held.take (held.length - lost) = confirmed ↔
      discarded + lost = left ∧ confirmed <+: held := by
  constructor
  · intro h
    have hcut := congrArg List.length h
    rw [List.length_take] at hcut
    exact ⟨by omega, h ▸ List.take_prefix _ _⟩
  · rintro ⟨rfl, hprefix⟩
    rw [show held.length - lost = confirmed.length by omega]
    exact (List.prefix_iff_eq_take.mp hprefix).symm

/-- The empty table has a free slot, so the begin of a single upload is never refused for
want of one. -/
theorem exists_alloc_fileOpsInit :
    ∃ i, SlotTable.alloc UploadSession.key fileOpsInit = some i := by
  cases halloc : SlotTable.alloc UploadSession.key fileOpsInit with
  | none => exact absurd rfl (SlotTable.alloc_eq_none_iff_forall.mp halloc ⟨0, by decide⟩)
  | some i => exact ⟨i, rfl⟩

/-- The empty table has no session. -/
theorem key_ne_of_eq_fileOpsInit {sessions : FileOps} (hempty : sessions = fileOpsInit)
    (transferId : UInt32) (j : Fin maxUploadSessions) : (sessions j).key ≠ some transferId := by
  rw [hempty]
  simp [fileOpsInit, UploadSession.key]

/-- A begin that is refused leaves no session for the calls behind it, so the end fails. -/
private theorem UploadRun.result_of_refused (os : Os Fs) (u : UploadRun) {p : Proc Fs}
    (hempty : p.sessions = fileOpsInit)
    (hrefused : (∀ target, ¬UploadChecks (os.withFs u.beginFaults) u.relativePath u.desireStorage
      u.perm p.os target) ∨ u.beginFaults.fopen ≠ none) : (u.result os p).1 = none := by
  obtain ⟨i, halloc⟩ := exists_alloc_fileOpsInit
  rw [← hempty] at halloc
  have hkey := key_ne_of_eq_fileOpsInit hempty u.transferId
  have hfind : findSession p.sessions u.transferId = none := SlotTable.find_eq_none_iff.mpr hkey
  obtain ⟨record, fs', msg, hrecord, hbegin⟩ :=
    fileBeginUpload_withFs_eq_none os u.beginFaults hfind halloc hrefused
  have hnone : findSession ((fileBeginUpload (os.withFs u.beginFaults) u.transferId
      u.relativePath u.desireStorage u.perm).run p).2.sessions u.transferId = none := by
    rw [hbegin]
    refine SlotTable.find_eq_none_iff.mpr fun j => ?_
    rw [Proc.setLastError_sessions, Proc.setSession_sessions, Function.update_apply]
    split_ifs
    · rw [UploadSession.key_eq_none_iff.mpr hrecord]
      exact (Option.some_ne_none _).symm
    · exact hkey j
  simp only [UploadRun.result, fileFinishUpload, UploadRun.beforeEnd, appendChunks_of_none hnone]

/-- **When a confirmed upload is a complete file.** For every upload, with every pattern of
outcomes of its system calls, starting with an empty session table on any file system: that
a confirmed finish leaves exactly the confirmed data at the final path holds if and only if
`HoldsWhen` does. -/
theorem confirmed_upload_complete_iff (os : Os Fs) (u : UploadRun) (fs : Fs) (lastError : Bytes) :
    let p : Proc Fs := ⟨fileOpsInit, lastError, fs⟩
    ((u.result os p).1 = some () →
      (u.result os p).2.os.files (buildPath u.relativePath pathMaxLen).1 =
        some (u.beforeEnd os p).1) ↔
    u.HoldsWhen os fs := by
  intro p
  obtain ⟨i, halloc⟩ := exists_alloc_fileOpsInit
  have hkey := @key_ne_of_eq_fileOpsInit p.sessions rfl u.transferId
  have hfind : findSession p.sessions u.transferId = none := SlotTable.find_eq_none_iff.mpr hkey
  by_cases hrefused : (∀ target, ¬UploadChecks (os.withFs u.beginFaults) u.relativePath
      u.desireStorage u.perm fs target) ∨ u.beginFaults.fopen ≠ none
  · -- no session: nothing is confirmed
    have hres := u.result_of_refused os (p := p) rfl hrefused
    exact iff_of_true (fun h => absurd (hres.symm.trans h) (Option.some_ne_none _).symm)
      (.inl hrefused)
  · push Not at hrefused
    obtain ⟨⟨target, hchecks⟩, hopen⟩ := hrefused
    obtain ⟨fs', hbegin, hwrites, -, -⟩ :=
      fileBeginUpload_withFs (p := p) hfind halloc hchecks hopen
    have hup : UploadStands ((fileBeginUpload (os.withFs u.beginFaults) u.transferId
        u.relativePath u.desireStorage u.perm).run p).2 i u.transferId target fs.nextStream {} := by
      rw [hbegin]
      exact .of_begin rfl (fun j _ => hkey j) hwrites
    obtain ⟨hend, hconfirmed, -, -⟩ := hup.appendChunks os u.chunks
    obtain ⟨hres, -, hdelivered⟩ := hend.isOpen.finish os u.endFaults
    rw [hend.buffered] at hdelivered
    have hperm : (∃ mode, uploadPerm os.ulongMax u.perm = some (true, mode)) ↔
        target.applyPerm = true := by
      rw [show os.ulongMax = (os.withFs u.beginFaults).ulongMax from rfl, hchecks.perm]
      simp
    obtain ⟨hbuffered, hlength⟩ :=
      UploadStream.foldl_append_length u.chunks (s := {}) (Nat.zero_le _)
    have hlost : u.endFaults.lost u.stream.buffered ≤ u.stream.held.length :=
      (min_le_right _ _).trans hbuffered
    have hlen : u.stream.held.length + u.stream.discarded =
        (u.chunks.flatMap ChunkCall.confirmed).length + leftByRefused u.chunks := by
      rw [← length_flatMap_taken]
      exact hlength.trans (Nat.zero_add _)
    have hcut := take_eq_iff hlen hlost
    rw [hchecks.path, show (u.beforeEnd os p).1 = _ from hconfirmed, UploadRun.HoldsWhen, hperm,
      ← hcut]
    constructor
    · intro h
      by_cases hrename : u.endFaults.rename = none
      · by_cases hchmod : target.applyPerm = true → u.endFaults.chmod = none
        · have hok := hres.mpr ⟨hrename, hchmod⟩
          have hfile := (hdelivered hok).final
          refine .inr (.inr (.inr ?_))
          exact Option.some.inj (hfile.symm.trans (h hok))
        · push Not at hchmod
          exact .inr (.inr (.inl hchmod))
      · exact .inr (.inl hrename)
    · intro h hok
      obtain ⟨hrename, hchmod⟩ := hres.mp hok
      obtain hrefused | h | ⟨hp, hc⟩ | h := h
      · obtain hnot | hfopen := hrefused
        · exact absurd hchecks (hnot target)
        · exact absurd hopen hfopen
      · exact absurd hrename h
      · exact absurd (hchmod hp) hc
      · rw [← h]
        exact (hdelivered hok).final

/-- An upload of one chunk whose three bytes are still buffered when `fclose` fails to write
them out. -/
def lostTail : UploadRun where
  transferId := 1
  relativePath := utf8 "a"
  desireStorage := none
  perm := none
  beginFaults := {}
  chunks := [{ data := [1, 2, 3], faults := {} }]
  endFaults := { fclose := some (3, 28) }

/-- A confirmed upload need not be a complete file: the finish of `lostTail` is confirmed,
and the file at its final path is empty. -/
theorem not_confirmed_upload_complete :
    ¬∀ (os : Os Fs) (u : UploadRun) (fs : Fs) (lastError : Bytes),
      let p : Proc Fs := ⟨fileOpsInit, lastError, fs⟩
      (u.result os p).1 = some () →
        (u.result os p).2.os.files (buildPath u.relativePath pathMaxLen).1 =
          some (u.beforeEnd os p).1 := by
  intro h
  have hlost := h (Os.failing Fs) lostTail Fs.empty [] rfl
  have hempty : (lostTail.result (Os.failing Fs) ⟨fileOpsInit, [], Fs.empty⟩).2.os.files
      (buildPath lostTail.relativePath pathMaxLen).1 = some [] := by rfl
  rw [hempty] at hlost
  exact absurd hlost (by decide)

end UsbResponder
