import UsbResponder.FileOps.UploadFaults

/-!
# Uploads one after another

A list of complete uploads, each from begin to end before the next, with every system call
succeeding and every frame confirmed, as a recursive copy makes them. An upload opens,
truncates and renames a second file next to its target, `<path>.part`, and nothing keeps
another upload or another file from having that name.

`sequential_uploads_deliver` therefore asks that no target is the temporary path of a later
upload, and protects the files that are neither a target nor a temporary path.
`not_sequential_uploads_independent` is the copy of a directory with the files `a.part` and
`a`.

One upload is described by `UploadRun.Confirmed.delivers`: it leaves its data at its path
and the table empty, so the next one starts as it did. The list is an induction with this as
its step. What is delivered when calls fail is the subject of `FileOps.UploadFaults`, and
uploads that overlap in time are that of `FileOps.InterleavedUploads`.
-/

namespace UsbResponder

open CString

variable {os : Os Fs} {p : Proc Fs} {u : UploadRun}

/-! ### Runs of uploads -/

/-- Every system call of the upload succeeds. -/
structure UploadRun.AllOk (u : UploadRun) : Prop where
  beginOk : u.beginFaults.AllOk
  chunksOk : ∀ chunk ∈ u.chunks, chunk.faults.AllOk
  endOk : u.endFaults.AllOk

/-- Every chunk is confirmed. -/
def ChunksConfirmed (os : Os Fs) (transferId : UInt32) : List ChunkCall → Proc Fs → Prop
  | [], _ => True
  | chunk :: chunks, p =>
    let r := (fileAppendUploadChunk (os.withFs chunk.faults) transferId chunk.data).run p
    r.1 = some () ∧ ChunksConfirmed os transferId chunks r.2

/-- The begin, every chunk and the finish are confirmed. A client that gets an error instead
stops, and the list with it. -/
def UploadRun.Confirmed (u : UploadRun) (os : Os Fs) (p : Proc Fs) : Prop :=
  let b := (fileBeginUpload (os.withFs u.beginFaults) u.transferId u.relativePath u.desireStorage
    u.perm).run p
  b.1 = some () ∧ ChunksConfirmed os u.transferId u.chunks b.2 ∧ (u.result os p).1 = some ()

/-- The process after the uploads, one after another, with what the earlier ones have left
behind. -/
def uploadAll (os : Os Fs) (us : List UploadRun) (p : Proc Fs) : Proc Fs :=
  us.foldl (fun p u => (u.result os p).2) p

/-- Every upload is confirmed. -/
def AllConfirmed (os : Os Fs) : List UploadRun → Proc Fs → Prop
  | [], _ => True
  | u :: us, p => u.Confirmed os p ∧ AllConfirmed os us (u.result os p).2

/-- The normalised path of an upload. -/
def UploadRun.path (u : UploadRun) : Bytes := (buildPath u.relativePath pathMaxLen).1

/-- The temporary path of an upload. -/
def UploadRun.tempPath (u : UploadRun) : Bytes := u.path ++ utf8 ".part"

/-- The data of an upload, of all its chunks. Where every chunk is confirmed it is the
confirmed data. -/
def UploadRun.content (u : UploadRun) : Bytes := u.chunks.flatMap ChunkCall.data

/-! ### One upload -/

/-- When all calls succeed the stream holds the data of the chunks: none is refused in part,
and nothing is discarded. -/
private theorem held_foldl_append_of_allOk {chunks : List ChunkCall}
    (h : ∀ chunk ∈ chunks, chunk.faults.AllOk) (s : UploadStream) :
    (chunks.foldl UploadStream.append s).held = s.held ++ chunks.flatMap ChunkCall.data := by
  induction chunks generalizing s with
  | nil => simp
  | cons chunk chunks ih =>
    have hok := h chunk List.mem_cons_self
    rw [List.foldl_cons, ih fun c hc => h c (List.mem_cons_of_mem _ hc), UploadStream.append,
      hok.lostByAppend, Nat.sub_zero, List.take_length, ChunkCall.taken, hok.accepted,
      List.take_length, List.append_assoc, List.flatMap_cons]

/-- **One upload.** On an empty table a confirmed upload leaves its data at its path,
removes its temporary file, leaves all other files alone and the table empty. -/
theorem UploadRun.Confirmed.delivers (h : u.Confirmed os p) (hok : u.AllOk)
    (hempty : p.sessions = fileOpsInit) :
    (u.result os p).2.sessions = fileOpsInit ∧
      (u.result os p).2.os.files u.path = some u.content ∧
      (u.result os p).2.os.files u.tempPath = none ∧
      ∀ q, q ≠ u.path → q ≠ u.tempPath → (u.result os p).2.os.files q = p.os.files q := by
  obtain ⟨i, halloc⟩ := exists_alloc_fileOpsInit
  rw [← hempty] at halloc
  have hkey := key_ne_of_eq_fileOpsInit hempty u.transferId
  have hfind : findSession p.sessions u.transferId = none := SlotTable.find_eq_none_iff.mpr hkey
  -- a confirmed begin passed its checks
  have hchecks : ∃ target, UploadChecks (os.withFs u.beginFaults) u.relativePath u.desireStorage
      u.perm p.os target := by
    by_contra hnot
    obtain ⟨record, fs', msg, -, hbegin⟩ := fileBeginUpload_withFs_eq_none os u.beginFaults
      hfind halloc (.inl (not_exists.mp hnot))
    have hb := h.1
    rw [hbegin] at hb
    simp at hb
  obtain ⟨target, hchecks⟩ := hchecks
  obtain ⟨fs', hbegin, hwrites, hsame, -⟩ := fileBeginUpload_withFs hfind halloc hchecks
    hok.beginOk.fopen
  have hup : UploadStands ((fileBeginUpload (os.withFs u.beginFaults) u.transferId u.relativePath
      u.desireStorage u.perm).run p).2 i u.transferId target p.os.nextStream {} := by
    rw [hbegin]
    exact .of_begin rfl (fun j _ => hkey j) hwrites
  obtain ⟨hstands, -, hslots, hsame'⟩ := hup.appendChunks os u.chunks
  have hend := hstands.isOpen
  rw [held_foldl_append_of_allOk hok.chunksOk, List.nil_append] at hend
  obtain ⟨-, hsessions, hdelivered⟩ := hend.finish os u.endFaults
  have hd := hdelivered h.2.2
  have hpath : u.path = target.path := by rw [UploadRun.path, hchecks.path]
  have htemp : u.tempPath = target.tempPath := by
    rw [UploadRun.tempPath, hpath, UploadTarget.tempPath]
  rw [hpath, htemp]
  refine ⟨?_, ?_, hd.temp, fun q hq hqt => ?_⟩
  · rw [UploadRun.result, UploadRun.beforeEnd, hsessions]
    funext j
    by_cases hj : j = i
    · rw [hj, Function.update_self, fileOpsInit]
    · rw [Function.update_of_ne hj, hslots j hj, hbegin, Proc.setSession_sessions,
        Function.update_of_ne hj, hempty]
  · have hfinal := hd.final
    rw [Faults.lost_of_ok hok.endOk.fclose, Nat.sub_zero, List.take_length] at hfinal
    exact hfinal
  · have hbegun : ((fileBeginUpload (os.withFs u.beginFaults) u.transferId u.relativePath
        u.desireStorage u.perm).run p).2.os.files q = p.os.files q := by
      rw [hbegin]
      exact hsame.files q hqt
    exact (hd.files q hqt hq).trans ((hsame'.files q hqt).trans hbegun)

/-! ### A list of uploads -/

/-- Files that are neither a target nor a temporary path are left alone by the whole list.
In particular a target keeps its data while later uploads go on. -/
private theorem AllConfirmed.files_of_ne {us : List UploadRun} (hconfirmed : AllConfirmed os us p)
    (hok : ∀ u ∈ us, u.AllOk) (hempty : p.sessions = fileOpsInit) {q : Bytes}
    (hq : ∀ u ∈ us, q ≠ u.path ∧ q ≠ u.tempPath) :
    (uploadAll os us p).os.files q = p.os.files q := by
  induction us generalizing p with
  | nil => rfl
  | cons u us ih =>
    obtain ⟨hempty', -, -, hfiles⟩ := hconfirmed.1.delivers (hok u (by simp)) hempty
    obtain ⟨hpath, htemp⟩ := hq u (by simp)
    have hrest := ih hconfirmed.2 (fun v hv => hok v (by simp [hv])) hempty'
      fun v hv => hq v (by simp [hv])
    exact hrest.trans (hfiles q hpath htemp)

/-- Every target holds its data after the whole list, provided no later upload has it as its
target or as its temporary path. -/
private theorem AllConfirmed.files_path {us : List UploadRun} (hconfirmed : AllConfirmed os us p)
    (hok : ∀ u ∈ us, u.AllOk) (hempty : p.sessions = fileOpsInit)
    (hpaths : us.Pairwise fun u v => u.path ≠ v.path ∧ u.path ≠ v.tempPath)
    (hu : u ∈ us) : (uploadAll os us p).os.files u.path = some u.content := by
  induction us generalizing p with
  | nil => simp at hu
  | cons v us ih =>
    obtain ⟨hfirst, hpaths'⟩ := List.pairwise_cons.mp hpaths
    have hok' : ∀ w ∈ us, w.AllOk := fun w hw => hok w (by simp [hw])
    obtain ⟨hempty', hfile, -, -⟩ := hconfirmed.1.delivers (hok v (by simp)) hempty
    obtain rfl | hu := List.mem_cons.mp hu
    · exact (hconfirmed.2.files_of_ne hok' hempty' hfirst).trans hfile
    · exact ih hconfirmed.2 hok' hempty' hpaths' hu

/-- **Sequential uploads.** Uploads one after another, all confirmed, to distinct normalised
paths of which none is the temporary path of a later upload: afterwards every path holds its
data, and every file that is neither one of the paths nor one of the temporary paths is as
before. -/
theorem sequential_uploads_deliver (os : Os Fs) (us : List UploadRun) (fs : Fs)
    (lastError : Bytes) (hok : ∀ u ∈ us, u.AllOk)
    (hconfirmed : AllConfirmed os us ⟨fileOpsInit, lastError, fs⟩)
    (hdistinct : us.Pairwise fun u v => u.path ≠ v.path)
    (htemp : us.Pairwise fun u v => u.path ≠ v.tempPath) :
    (∀ u ∈ us, (uploadAll os us ⟨fileOpsInit, lastError, fs⟩).os.files u.path =
      some u.content) ∧
    ∀ q, (∀ u ∈ us, q ≠ u.path ∧ q ≠ u.tempPath) →
      (uploadAll os us ⟨fileOpsInit, lastError, fs⟩).os.files q = fs.files q :=
  ⟨fun _ hu => hconfirmed.files_path hok rfl (hdistinct.and htemp) hu,
    fun _ hq => hconfirmed.files_of_ne hok rfl hq⟩

/-- The upload of one file with one chunk. -/
def uploadOf (transferId : UInt32) (name : String) (data : Bytes) : UploadRun where
  transferId := transferId
  relativePath := utf8 name
  desireStorage := none
  perm := none
  beginFaults := {}
  chunks := [{ data := data, faults := {} }]
  endFaults := {}

private theorem uploadOf_allOk (transferId : UInt32) (name : String) (data : Bytes) :
    (uploadOf transferId name data).AllOk where
  beginOk := ⟨rfl, rfl, rfl, rfl, rfl, rfl, rfl, rfl⟩
  chunksOk := by
    intro chunk hchunk
    obtain rfl := List.mem_singleton.mp hchunk
    exact ⟨rfl, rfl, rfl, rfl, rfl, rfl, rfl, rfl⟩
  endOk := ⟨rfl, rfl, rfl, rfl, rfl, rfl, rfl, rfl⟩

/-- `sequential_uploads_deliver` on a list of two files. -/
theorem sequential_uploads_deliver_two :
    let us := [uploadOf 1 "a" [1], uploadOf 2 "b" [2]]
    (∀ u ∈ us, (uploadAll (Os.failing Fs) us ⟨fileOpsInit, [], Fs.empty⟩).os.files u.path =
      some u.content) ∧
    ∀ q, (∀ u ∈ us, q ≠ u.path ∧ q ≠ u.tempPath) →
      (uploadAll (Os.failing Fs) us ⟨fileOpsInit, [], Fs.empty⟩).os.files q = none :=
  sequential_uploads_deliver (Os.failing Fs) [uploadOf 1 "a" [1], uploadOf 2 "b" [2]] Fs.empty []
    (by simp [uploadOf_allOk])
    ⟨⟨rfl, ⟨rfl, trivial⟩, rfl⟩, ⟨rfl, ⟨rfl, trivial⟩, rfl⟩, trivial⟩
    (by simp only [List.pairwise_cons, List.mem_singleton, forall_eq, List.not_mem_nil,
          false_imp_iff, implies_true, List.Pairwise.nil, and_true]; decide)
    (by simp only [List.pairwise_cons, List.mem_singleton, forall_eq, List.not_mem_nil,
          false_imp_iff, implies_true, List.Pairwise.nil, and_true]; decide)

/-- Without the condition on temporary paths the files of a list are not safe from each
other: uploading `a` after `a.part` removes `a.part`. -/
theorem not_sequential_uploads_independent :
    ¬∀ (os : Os Fs) (us : List UploadRun) (fs : Fs) (lastError : Bytes),
      (∀ u ∈ us, u.AllOk) → AllConfirmed os us ⟨fileOpsInit, lastError, fs⟩ →
      us.Pairwise (fun u v => u.path ≠ v.path) →
      (∀ u ∈ us, (uploadAll os us ⟨fileOpsInit, lastError, fs⟩).os.files u.path =
        some u.content) ∧
      ∀ q, (∀ u ∈ us, q ≠ u.path) →
        (uploadAll os us ⟨fileOpsInit, lastError, fs⟩).os.files q = fs.files q := by
  intro h
  have hfiles := (h (Os.failing Fs) [uploadOf 1 "a.part" [1], uploadOf 2 "a" [2]] Fs.empty []
    (by simp [uploadOf_allOk])
    ⟨⟨rfl, ⟨rfl, trivial⟩, rfl⟩, ⟨rfl, ⟨rfl, trivial⟩, rfl⟩, trivial⟩
    (by simp only [List.pairwise_cons, List.mem_singleton, forall_eq, List.not_mem_nil,
          false_imp_iff, implies_true, List.Pairwise.nil, and_true]; decide)).1
    (uploadOf 1 "a.part" [1]) (by simp)
  have hgone : (uploadAll (Os.failing Fs) [uploadOf 1 "a.part" [1], uploadOf 2 "a" [2]]
      ⟨fileOpsInit, [], Fs.empty⟩).os.files (uploadOf 1 "a.part" [1]).path = none := by rfl
  rw [hgone] at hfiles
  exact absurd hfiles (by simp)

end UsbResponder
