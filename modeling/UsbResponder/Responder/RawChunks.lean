import UsbResponder.Responder.InterleavedPuts
import UsbResponder.Responder.SharedFiles

/-!
# Chunks without a transfer id

A chunk may start with its transfer id or, as the protocol describes it, carry file data
only, in which case the request id of its header says which upload it belongs to. The
handler does not look at the sessions to tell the two apart: it takes the first four bytes
for a transfer id whenever there are four. A chunk of file data that is that long is
therefore refused, unless it happens to start with the id of a live session.

`raw_chunks_appended_iff` says that an upload of file data is delivered exactly if all its
chunks are shorter than four bytes.

The upload is followed by what the stream of its session holds, and one chunk adds all of
its data or nothing (`UploadOpen.rawChunk`). For the converse it is enough that the data
appended is determined by the session, so that a chunk which adds nothing cannot have been
appended whole. A chunk that starts with the id of a live session is written to that
session, and is excluded by the definition of the second form. Every system call succeeds
here.
-/

namespace UsbResponder

open LittleEndian CString

variable {os : Os Fs} {shell : ExecShell Fs} {dev : Device Fs} {i : Fin maxUploadSessions}
  {requestId : UInt32} {target : UploadTarget} {fp : ℕ} {w : Bytes} {c : FrameCall}
  {calls : List FrameCall}

/-! ### Frames -/

/-- The device after frames have been handled one after another. -/
def handleCalls (os : Os Fs) (shell : ExecShell Fs) (calls : List FrameCall) (dev : Device Fs) :
    Device Fs :=
  calls.foldl (fun dev c => (handleFrame (os.withFs c.faults) shell c.frame dev).2) dev

/-- A chunk in the second form: its payload is not empty and does not start with the id of a
session that is live in `sessions`. -/
structure Frame.IsRawChunk (frame : Frame) (sessions : FileOps) (requestId : UInt32) : Prop where
  type : frame.header.type = MsgType.filePutChunk.code
  requestId : frame.header.requestId = requestId
  nonempty : frame.payload ≠ []
  not_live : 4 ≤ frame.payload.length → findSession sessions (readLe32 frame.payload) = none

/-- What the handler appends of a chunk in the second form: all of it when it is shorter
than four bytes, and nothing otherwise. -/
def Frame.rawTaken (frame : Frame) : Bytes :=
  if frame.payload.length < 4 then frame.payload else []

private theorem flatMap_rawTaken (h : ∀ c ∈ calls, c.frame.payload.length < 4) :
    calls.flatMap (fun c => c.frame.rawTaken) = calls.flatMap fun c => c.frame.payload :=
  List.flatMap_congr fun c hc => by rw [Frame.rawTaken, if_pos (h c hc)]

/-! ### An open upload -/

/-- An upload that is open is a matter of the sessions and of the outside world, not of the
last error. -/
theorem UploadOpen.of_eq {p p' : Proc Fs} (h : UploadOpen p i requestId target fp w)
    (hsessions : p'.sessions = p.sessions) (hos : p'.os = p.os) :
    UploadOpen p' i requestId target fp w :=
  h.of_sessions hsessions (by rw [hos]; exact h.writes)

/-- What the stream of an open upload has taken is determined by the process. -/
theorem UploadOpen.unique {p : Proc Fs} {i' : Fin maxUploadSessions} {target' : UploadTarget}
    {fp' : ℕ} {w' : Bytes} (h : UploadOpen p i requestId target fp w)
    (h' : UploadOpen p i' requestId target' fp' w') : w = w' := by
  obtain rfl : i = i' := Option.some.inj (h.find.symm.trans h'.find)
  obtain rfl : fp = fp' := Option.some.inj (h.stream.symm.trans h'.stream)
  obtain ⟨content, buffer, hfile, hstream, rfl⟩ := h.writes
  obtain ⟨content', buffer', hfile', hstream', rfl⟩ := h'.writes
  rw [h.tempPath.symm.trans h'.tempPath, hfile', Option.some.injEq] at hfile
  rw [hstream', Option.some.injEq, Stream.mk.injEq] at hstream
  rw [hfile, hstream.2.2]

/-- The data the session of a transfer id has taken grows by `data` from `p` to `p'`. -/
def Appended (requestId : UInt32) (p p' : Proc Fs) (data : Bytes) : Prop :=
  ∃ i target fp w, UploadOpen p i requestId target fp w ∧
    UploadOpen p' i requestId target fp (w ++ data)

/-- A begin that succeeds opens an upload of the normalised path. -/
private theorem uploadOpen_of_begin {f : Faults} {p : Proc Fs} (hok : SessionsOk p.sessions)
    {relativePath : Bytes} {desireStorage perm : Option Bytes}
    (h : ((fileBeginUpload (os.withFs f) requestId relativePath desireStorage perm).run p).1 =
      some ()) :
    ∃ i target fp, target.path = (buildPath relativePath pathMaxLen).1 ∧
      UploadOpen ((fileBeginUpload (os.withFs f) requestId relativePath desireStorage perm).run p).2
        i requestId target fp [] := by
  obtain ⟨-, hrun⟩ | ⟨i, -, ⟨_, _, _, -, -, -, hrun⟩ | ⟨target, fp, s, hchecks, hopen, hrun⟩⟩ :=
    fileBeginUpload_cases (os.withFs f) requestId relativePath desireStorage perm p
  · rw [hrun] at h
    simp at h
  · rw [hrun] at h
    simp at h
  · obtain ⟨-, -, hother⟩ := hok.beforeBegin (os.withFs f) requestId
    refine ⟨i, target, fp, by rw [hchecks.path], ?_⟩
    rw [hrun]
    refine .of_begin rfl (fun j _ => hother j) ?_
    -- the stream that `fopen` returns is fresh
    cases hfault : f.fopen with
    | some e =>
      have herror : (os.withFs f).fopenWb target.tempPath
          ((os.withFs f).afterMountCheck target.storage
            (beforeBegin (os.withFs f) requestId p).os) = (.error e, _) :=
        Fs.fopenWb_of_error hfault _ _
      rw [herror] at hopen
      simp at hopen
    | none =>
      obtain ⟨fs', hfopen, hwrites, -⟩ := Fs.fopenWb_of_ok hfault target.tempPath
        ((os.withFs f).afterMountCheck target.storage (beforeBegin (os.withFs f) requestId p).os)
      obtain ⟨hfp, rfl⟩ := Prod.mk.inj (hfopen.symm.trans hopen)
      rw [Except.ok.inj hfp] at hwrites
      exact hwrites

/-! ### Chunks -/

/-- **A chunk in the second form.** It is appended whole if it is shorter than four bytes,
and not at all otherwise; which ids are live does not change. -/
theorem UploadOpen.rawChunk (h : UploadOpen dev.proc i requestId target fp w)
    (hraw : c.frame.IsRawChunk dev.proc.sessions requestId) (hok : c.faults.AllOk) :
    let dev' := (handleFrame (os.withFs c.faults) shell c.frame dev).2
    UploadOpen dev'.proc i requestId target fp (w ++ c.frame.rawTaken) ∧
      ∀ id, findSession dev'.proc.sessions id = findSession dev.proc.sessions id := by
  intro dev'
  obtain ⟨hsessions, hos⟩ := handleFrame_of_call_proc (os.withFs c.faults) shell
    (uploadCall?_chunk hraw.type) dev
  rw [UploadCall.op, transferId, chunkData] at hsessions hos
  by_cases hshort : c.frame.payload.length < 4
  · rw [if_neg (by omega), if_neg (by omega), hraw.requestId] at hsessions hos
    obtain ⟨hopen, -, hslots, -⟩ := h.append_of_allOk os hok c.frame.payload
    have hopen' := hopen.of_eq hsessions hos
    rw [Frame.rawTaken, if_pos hshort]
    refine ⟨hopen', fun id => ?_⟩
    -- no slot changes its id
    have hkeys : ∀ j, (dev'.proc.sessions j).key = (dev.proc.sessions j).key := by
      intro j
      by_cases hj : j = i
      · rw [hj, key_of_findSession hopen'.find, key_of_findSession h.find]
      · rw [hsessions]
        exact congrArg UploadSession.key (hslots j hj)
    exact SlotTable.find_congr hkeys id
  · -- four bytes of file data are taken for an id, and no session has it
    rw [if_pos (by omega), if_pos (by omega)] at hsessions hos
    obtain ⟨msg, hrefused⟩ := fileAppendUploadChunk_of_none (hraw.not_live (by omega))
      (os.withFs c.faults) (c.frame.payload.drop 4)
    rw [hrefused] at hsessions hos
    rw [Frame.rawTaken, if_neg hshort, List.append_nil]
    exact ⟨h.of_eq hsessions hos, fun id => congrArg (findSession · id) hsessions⟩

/-- After any chunks in the second form the upload is still open, and its stream has taken
those that are shorter than four bytes. -/
private theorem UploadOpen.rawChunks (h : UploadOpen dev.proc i requestId target fp w)
    (hcalls : ∀ c ∈ calls, c.frame.IsRawChunk dev.proc.sessions requestId ∧ c.faults.AllOk) :
    UploadOpen (handleCalls os shell calls dev).proc i requestId target fp
      (w ++ calls.flatMap fun c => c.frame.rawTaken) := by
  induction calls generalizing dev w with
  | nil => rwa [List.flatMap_nil, List.append_nil]
  | cons c calls ih =>
    obtain ⟨hraw, hok⟩ := hcalls c (by simp)
    obtain ⟨hopen, hfind⟩ := @UploadOpen.rawChunk os shell _ _ _ _ _ _ _ h hraw hok
    rw [List.flatMap_cons, ← List.append_assoc]
    refine ih hopen fun c' hc' => ?_
    obtain ⟨hraw', hok'⟩ := hcalls c' (by simp [hc'])
    exact ⟨⟨hraw'.type, hraw'.requestId, hraw'.nonempty, fun hlong =>
      (hfind _).trans (hraw'.not_live hlong)⟩, hok'⟩

/-- **When chunks without a transfer id are appended.** Take an upload begun with a request
id, any chunks in the second form, and its end, with every system call succeeding. Every
chunk is appended whole to the session and the final file is the concatenation of the
chunks, exactly if every chunk is shorter than four bytes. -/
theorem raw_chunks_appended_iff (os : Os Fs) (shell : ExecShell Fs) {start stop : FrameCall}
    {relativePath : Bytes} {desireStorage perm : Option Bytes} (hok : SessionsOk dev.proc.sessions)
    (hstart : uploadCall? start.frame = some (.begin requestId relativePath desireStorage perm))
    (hbegun : ((fileBeginUpload (os.withFs start.faults) requestId relativePath desireStorage
      perm).run dev.proc).1 = some ())
    (hcalls : ∀ c ∈ calls, c.frame.IsRawChunk
      (handleCalls os shell [start] dev).proc.sessions requestId ∧ c.faults.AllOk)
    (hstop : uploadCall? stop.frame = some (.finish requestId)) (hstopOk : stop.faults.AllOk) :
    ((∀ pre c post, calls = pre ++ c :: post → Appended requestId
        (handleCalls os shell (start :: pre) dev).proc
        (handleCalls os shell (start :: (pre ++ [c])) dev).proc c.frame.payload) ∧
      (handleCalls os shell (start :: (calls ++ [stop])) dev).proc.os.files
        (buildPath relativePath pathMaxLen).1 = some (calls.flatMap fun c => c.frame.payload)) ↔
    ∀ c ∈ calls, c.frame.payload.length < 4 := by
  obtain ⟨i, target, fp, hpath, hopen⟩ := uploadOpen_of_begin hok hbegun
  obtain ⟨hsessions, hos⟩ := handleFrame_of_call_proc (os.withFs start.faults) shell hstart dev
  have hopen₀ : UploadOpen (handleCalls os shell [start] dev).proc i requestId target fp [] :=
    hopen.of_eq hsessions hos
  have hrun : ∀ pre, pre <+: calls → UploadOpen (handleCalls os shell (start :: pre) dev).proc i
      requestId target fp (pre.flatMap fun c => c.frame.rawTaken) :=
    fun pre hpre => hopen₀.rawChunks fun c hc => hcalls c (hpre.subset hc)
  constructor
  · rintro ⟨happended, -⟩ c hc
    by_contra hlong
    obtain ⟨pre, post, rfl⟩ := List.append_of_mem hc
    obtain ⟨i', target', fp', w, hbefore, hafter⟩ := happended pre c post rfl
    obtain rfl := hbefore.unique (hrun pre (List.prefix_append _ _))
    have hsame := hafter.unique (hrun (pre ++ [c]) (by simp))
    -- nothing of the chunk was taken, and it is not empty
    rw [List.flatMap_append, List.flatMap_singleton, List.append_cancel_left_eq, Frame.rawTaken,
      if_neg hlong] at hsame
    exact (hcalls c hc).1.nonempty hsame
  · intro hshort
    constructor
    · rintro pre c post rfl
      have hafter := hrun (pre ++ [c]) (by simp)
      rw [List.flatMap_append, List.flatMap_singleton, Frame.rawTaken,
        if_pos (hshort c (by simp))] at hafter
      exact ⟨i, target, fp, _, hrun pre (List.prefix_append _ _), hafter⟩
    · have hend := hrun calls (List.prefix_refl calls)
      rw [flatMap_rawTaken hshort] at hend
      obtain ⟨hresult, -, hdelivered⟩ := hend.finish os stop.faults
      obtain ⟨-, hosEnd⟩ := handleFrame_of_call_proc (os.withFs stop.faults) shell hstop
        (handleCalls os shell (start :: calls) dev)
      have hlast : handleCalls os shell (start :: (calls ++ [stop])) dev =
          (handleFrame (os.withFs stop.faults) shell stop.frame
            (handleCalls os shell (start :: calls) dev)).2 := by
        rw [← List.cons_append, handleCalls, List.foldl_concat, handleCalls]
      have hfinal := (hdelivered (hresult.mpr ⟨hstopOk.rename, fun _ => hstopOk.chmod⟩)).final
      rw [Faults.lost_of_ok hstopOk.fclose, Nat.sub_zero, List.take_length] at hfinal
      rw [hlast, hosEnd, ← hpath]
      exact hfinal

/-- A frame of an upload, with every system call succeeding. -/
def callOf (type : MsgType) (requestId : UInt32) (payload : Bytes) : FrameCall where
  frame := frameOf type.code 0 requestId payload
  faults := {}

/-- `raw_chunks_appended_iff` for an upload of `ab` in one chunk. -/
theorem raw_chunks_appended_iff_ab :
    let handle := handleCalls (Os.failing Fs) (fun _ _ s => (none, s))
    let calls := [callOf .filePutChunk 1 (utf8 "ab")]
    ((∀ pre c post, calls = pre ++ c :: post → Appended 1
        (handle (⟨beginFrame 1 "a", {}⟩ :: pre) idleDevice).proc
        (handle (⟨beginFrame 1 "a", {}⟩ :: (pre ++ [c])) idleDevice).proc c.frame.payload) ∧
      (handle (⟨beginFrame 1 "a", {}⟩ :: (calls ++ [callOf .filePutEnd 1 []]))
        idleDevice).proc.os.files (buildPath (utf8 "a") pathMaxLen).1 =
          some (calls.flatMap fun c => c.frame.payload)) ↔
    ∀ c ∈ calls, c.frame.payload.length < 4 :=
  raw_chunks_appended_iff (Os.failing Fs) (fun _ _ s => (none, s)) .init
    (uploadCall?_beginFrame 1 (by decide)) rfl
    (by
      intro c hc
      obtain rfl := List.mem_singleton.mp hc
      exact ⟨⟨rfl, rfl, by decide, fun hlong => absurd hlong (by decide)⟩,
        ⟨rfl, rfl, rfl, rfl, rfl, rfl, rfl, rfl⟩⟩)
    (uploadCall?_end rfl) ⟨rfl, rfl, rfl, rfl, rfl, rfl, rfl, rfl⟩

/-- **A longer chunk without a transfer id is lost.** After a begin for `a`, the one chunk
`hello` and an end, with every system call succeeding, the file `/a` is not `hello`. -/
theorem not_raw_chunks_appended :
    ¬∀ (os : Os Fs) (shell : ExecShell Fs) (dev : Device Fs) (start stop : FrameCall)
      (calls : List FrameCall) (requestId : UInt32) (relativePath : Bytes)
      (desireStorage perm : Option Bytes), SessionsOk dev.proc.sessions →
      uploadCall? start.frame = some (.begin requestId relativePath desireStorage perm) →
      ((fileBeginUpload (os.withFs start.faults) requestId relativePath desireStorage perm).run
        dev.proc).1 = some () →
      (∀ c ∈ calls, c.frame.IsRawChunk (handleCalls os shell [start] dev).proc.sessions requestId ∧
        c.faults.AllOk) →
      uploadCall? stop.frame = some (.finish requestId) → stop.faults.AllOk →
      (∀ pre c post, calls = pre ++ c :: post → Appended requestId
        (handleCalls os shell (start :: pre) dev).proc
        (handleCalls os shell (start :: (pre ++ [c])) dev).proc c.frame.payload) ∧
      (handleCalls os shell (start :: (calls ++ [stop])) dev).proc.os.files
        (buildPath relativePath pathMaxLen).1 = some (calls.flatMap fun c => c.frame.payload) := by
  intro h
  have hfile := (h (Os.failing Fs) (fun _ _ s => (none, s)) idleDevice ⟨beginFrame 1 "a", {}⟩
    (callOf .filePutEnd 1 []) [callOf .filePutChunk 1 (utf8 "hello")] 1 (utf8 "a") none none .init
    (uploadCall?_beginFrame 1 (by decide)) rfl
    (by
      intro c hc
      obtain rfl := List.mem_singleton.mp hc
      exact ⟨⟨rfl, rfl, by decide, fun _ => by decide +kernel⟩,
        ⟨rfl, rfl, rfl, rfl, rfl, rfl, rfl, rfl⟩⟩)
    (uploadCall?_end rfl) ⟨rfl, rfl, rfl, rfl, rfl, rfl, rfl, rfl⟩).2
  revert hfile
  decide +kernel

end UsbResponder
