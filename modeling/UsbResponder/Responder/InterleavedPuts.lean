import UsbResponder.Base.Interleaving
import UsbResponder.FileOps.InterleavedUploads
import UsbResponder.Host.FilePut
import UsbResponder.Responder.UploadFrames

/-!
# Interleaved uploads of the client

Several calls of the client's `file_put` whose frames reach the responder in any order that
keeps the frames of each call in order. The frames of one call make the calls of its plan
(`Host.FilePut.calls_of_delivered`), so a schedule of frames is a schedule of calls, and the
interleaving rule carries `Uploading` through it. The result is `interleaved_puts_deliver`.

A frame is what the device decodes of the encoding of a frame of the host (`DeliveredAs`),
so the payloads are those the client has built: a begin with the path, chunks and an end
with the transfer id in front. Since the ids are different, the frames of one call are
chunks of no other.

Every system call succeeds here, and every upload passes its checks. How the frames come
over the link, and what happens when one of them has a length that ends the session, is the
subject of `Responder.HostTransfers`.
-/

namespace UsbResponder

open LittleEndian CString Interleaving

/-! ### Frames on their way -/

/-- The device decodes the frame from what the host encodes. The fields of such a frame fit,
since the host has encoded it. -/
def DeliveredAs (f : Host.Frame) (g : Frame) : Prop :=
  ∃ raw, f.encode = .ok raw ∧ decodeFrame raw = some g

/-- A frame, with the outcomes of the system calls made while it is handled. -/
structure FrameCall where
  frame : Frame
  faults : Faults

/-- Handling a frame of a schedule. -/
def handleCall {ι : Type} (os : Os Fs) (shell : ExecShell Fs) (dev : Device Fs)
    (e : ι × FrameCall) : Device Fs :=
  (handleFrame (os.withFs e.2.faults) shell e.2.frame dev).2

/-- The device after a schedule, whose frames are handled in its order, whichever upload
they are from. -/
def handleSchedule {ι : Type} (os : Os Fs) (shell : ExecShell Fs) (w : List (ι × FrameCall))
    (dev : Device Fs) : Device Fs :=
  w.foldl (handleCall os shell) dev

/-- From `dev` to `dev'` a frame has been answered with `STATUS`: one response with its
request id has been written completely, and nothing else. -/
def AnsweredStatus {σ : Type} (frame : Frame) (dev dev' : Device σ) : Prop :=
  ∃ payload writes, dev'.log = dev.log ++
      .sending (responseFrame .status frame.header.requestId payload) :: writes ∧
    (∀ event ∈ writes, event.IsWrite) ∧
    sentBytes writes = encodeFrame (responseFrame .status frame.header.requestId payload)

/-! ### The calls of `file_put` -/

/-- What the device sees of a call of `file_put`: a transfer id, arguments, and pieces. -/
def Host.FilePut.plan (put : Host.FilePut) (target : UploadTarget) : UploadPlan where
  transferId := UInt32.ofNat put.requestId
  relativePath := cStr (utf8 put.remotePath)
  desireStorage := Host.seenValue put.desireStorage
  perm := Host.seenValue put.perm
  target := target
  pieces := put.pieces

private theorem DeliveredAs.eq_toDevice {f : Host.Frame} {g : Frame} (h : DeliveredAs f g)
    (hmax : f.payload.length ≤ 2 ^ 32 - 25) : g = f.toDevice := by
  obtain ⟨raw, hencode, hdecode⟩ := h
  rw [Host.Frame.decodeFrame_of_encode hencode hmax] at hdecode
  exact (Option.some.inj hdecode).symm

/-- The transfer id at the front of a payload is read back. -/
theorem readLe32_leBytes_append {n : ℕ} (hn : n < 2 ^ 32) (rest : Bytes) :
    readLe32 (leBytes 4 n ++ rest) = UInt32.ofNat n := by
  have hlen : 4 ≤ (leBytes 4 n ++ rest).length := by
    rw [List.length_append, length_leBytes]
    omega
  refine UInt32.toNat_inj.mp ?_
  rw [toNat_readLe32 hlen, List.take_left' (length_leBytes 4 n), leNat_leBytes_of_lt hn,
    UInt32.toNat_ofNat_of_lt' hn]

/-- The chunks and the end, each of which starts with the request id, make the calls that
follow the begin. The induction is on the pieces. -/
private theorem callsFrom_of_delivered {put : Host.FilePut} (hid : put.requestId < 2 ^ 32)
    (target : UploadTarget) {pieces : List Bytes}
    (hpieces : ∀ piece ∈ pieces, piece.length ≤ 8 * 1024 * 1024 - 4) {gs : List Frame}
    (h : List.Forall₂ DeliveredAs
      (pieces.map (fun piece =>
          Host.Frame.mk 11 put.requestId 0 (leBytes 4 put.requestId ++ piece)) ++
        [Host.Frame.mk 12 put.requestId 0 (leBytes 4 put.requestId)]) gs) :
    List.Forall₂ (fun g call => uploadCall? g = some call) gs
      ((put.plan target).callsFrom pieces) := by
  induction pieces generalizing gs with
  | nil =>
    obtain ⟨g, gs, hend, hnil, rfl⟩ := List.forall₂_cons_left_iff.mp h
    obtain rfl := List.forall₂_nil_left_iff.mp hnil
    have hg := hend.eq_toDevice (by rw [length_leBytes]; omega)
    have hpayload : g.payload = leBytes 4 put.requestId := by
      rw [hg]
      rfl
    have htransfer : transferId g = UInt32.ofNat put.requestId := by
      have hread := readLe32_leBytes_append hid []
      rw [List.append_nil] at hread
      rw [transferId, hpayload, if_pos (by rw [length_leBytes]), hread]
    refine .cons ?_ .nil
    rw [uploadCall?_end (by rw [hg]; rfl), htransfer]
    rfl
  | cons piece pieces ih =>
    obtain ⟨g, gs, hchunk, hrest, rfl⟩ := List.forall₂_cons_left_iff.mp h
    have hlen := hpieces piece (by simp)
    have hg := hchunk.eq_toDevice (by rw [List.length_append, length_leBytes]; omega)
    have hpayload : g.payload = leBytes 4 put.requestId ++ piece := by
      rw [hg]
      rfl
    have hlong : 4 ≤ g.payload.length := by
      rw [hpayload, List.length_append, length_leBytes]
      omega
    -- the first four bytes of a payload are the request id, and what follows is the chunk
    have htransfer : transferId g = UInt32.ofNat put.requestId := by
      rw [transferId, if_pos hlong, hpayload, readLe32_leBytes_append hid]
    have hdata : chunkData g = piece := by
      rw [chunkData, if_pos hlong, hpayload, List.drop_left' (length_leBytes 4 _)]
    refine .cons ?_ (ih (fun p hp => hpieces p (by simp [hp])) hrest)
    rw [uploadCall?_chunk (by rw [hg]; rfl), htransfer, hdata]
    rfl

/-- The frames of a call of `file_put` make the calls of its plan. -/
theorem calls_of_delivered {put : Host.FilePut} {frames : List Host.Frame}
    (hframes : put.frames = .ok frames) (hchunk : put.chunkSize ≤ 8 * 1024 * 1024 - 4)
    (target : UploadTarget) {gs : List Frame} (hdelivered : List.Forall₂ DeliveredAs frames gs) :
    List.Forall₂ (fun g call => uploadCall? g = some call) gs (put.plan target).calls := by
  obtain ⟨hid, hfits, rfl⟩ := Host.FilePut.frames_eq_ok hframes
  obtain ⟨hpath, hdesire, hperm⟩ := put.kvGet_items
  -- a begin carries the path and at most two options
  have hcount : (put.items.map Host.kvOf).length ≤ 3 := by
    have hone : ∀ key value, (Host.optionalItem key value).length ≤ 1 := by
      intro key value
      cases value with
      | none => simp [Host.optionalItem]
      | some value =>
        rw [Host.optionalItem]
        split_ifs
        · simp
        · simp
    have hdesire := hone "desire_storage" put.desireStorage
    have hperm := hone "perm" put.perm
    rw [List.length_map, Host.FilePut.items, List.length_cons, List.length_append]
    omega
  obtain ⟨g, gs, hbegin, hrest, rfl⟩ := List.forall₂_cons_left_iff.mp hdelivered
  refine .cons ?_ (callsFrom_of_delivered hid target (fun piece hpiece => ?_) hrest)
  · have hlen := length_kvLayout_le hfits
    have hg := hbegin.eq_toDevice (by dsimp only; omega)
    have hdecode : decodeKv g.payload maxKv = some (put.items.map Host.kvOf) := by
      rw [hg]
      exact decodeKv_kvLayout hfits (hcount.trans (by decide))
    rw [uploadCall?_begin (by rw [hg]; rfl), beginCall?, hdecode]
    simp only [hpath, hdesire, hperm]
    rw [hg]
    rfl
  · exact (Host.mem_readPieces hpiece).2.trans hchunk

/-! ### Runs of schedules -/

section Run

variable {ι : Type} [Fintype ι] [DecidableEq ι] {os : Os Fs} {shell : ExecShell Fs} {fs₀ : Fs}
  {plans : ι → UploadPlan} {dev : Device Fs} {rest : ι → List FrameCall} {i : ι}

/-- The state of a device with uploads in progress, by the frames of each that are still to
come. It is `Uploading` in terms of frames. -/
structure PutsRunning (plans : ι → UploadPlan) (fs₀ : Fs) (dev : Device Fs)
    (rest : ι → List FrameCall) : Prop where
  benign : dev.Benign
  calls : ∃ calls : ι → List UploadCall,
    (∀ i, List.Forall₂ (fun c call => c.faults.AllOk ∧ uploadCall? c.frame = some call) (rest i)
      (calls i)) ∧ Uploading plans fs₀ dev.proc calls

/-- A frame that makes a call of `finish_upload` is an end. -/
private theorem type_of_uploadCall?_finish {frame : Frame} {id : UInt32}
    (h : uploadCall? frame = some (.finish id)) :
    frame.header.type = MsgType.filePutEnd.code := by
  rw [uploadCall?] at h
  split at h
  · rw [beginCall?] at h
    split at h
    · simp at h
    · split at h
      · simp at h
      · simp at h
  · simp at h
  · rename_i htype
    exact (MsgType.ofCode_eq_some_iff.mp htype).symm
  · simp at h

/-- **One frame of a schedule.** It is answered with `STATUS`, and a final path changes only
by the end of its own upload. -/
theorem PutsRunning.step (hgroup : UploadGroup os fs₀ plans) (h : PutsRunning plans fs₀ dev rest)
    {c : FrameCall} {cs : List FrameCall} (hrest : rest i = c :: cs) :
    AnsweredStatus c.frame dev (handleCall os shell dev (i, c)) ∧
      PutsRunning plans fs₀ (handleCall os shell dev (i, c)) (Function.update rest i cs) ∧
      ∀ j, (handleCall os shell dev (i, c)).proc.os.files (plans j).target.path ≠
          dev.proc.os.files (plans j).target.path →
        j = i ∧ c.frame.header.type = MsgType.filePutEnd.code := by
  obtain ⟨calls, hcalls, huploading⟩ := h.calls
  have hi := hcalls i
  rw [hrest] at hi
  obtain ⟨call, calls', ⟨hok, hcall⟩, hrest', hcallsi⟩ := List.forall₂_cons_left_iff.mp hi
  obtain ⟨hr, huploading', hpath⟩ := huploading.step hgroup hok hcallsi
  obtain ⟨payload, dev', hrun, hbenign, hproc, hlog⟩ :=
    handleFrame_of_call_of_benign (os.withFs c.faults) shell hcall h.benign
  rw [hr] at hlog
  rw [handleCall, hrun]
  dsimp only
  rw [hproc]
  refine ⟨⟨payload, hlog⟩, ⟨hbenign, Function.update calls i calls', fun j => ?_, ?_⟩,
    fun j hj => ?_⟩
  · by_cases hji : j = i
    · rw [hji, Function.update_self, Function.update_self]
      exact hrest'
    · rw [Function.update_of_ne hji, Function.update_of_ne hji]
      exact hcalls j
  · rw [hproc]
    exact huploading'
  · obtain ⟨hji, rfl⟩ := hpath j hj
    exact ⟨hji, type_of_uploadCall?_finish hcall⟩

end Run

/-- **Interleaved uploads deliver exactly the local files.** Take at most sixteen calls of
`file_put` with different request ids, chunk sizes from 1 to 8 MiB less 4, any local files
and remote paths whose final and temporary paths are all different, whose begins pass their
checks. Take any interleaving of their frames, handled from an empty session table with
every system call succeeding. Then every frame is answered with `STATUS`, and a final path
changes only by the end of its own upload; afterwards every final path holds exactly its
local file, no temporary path exists, every other path is as it was, and the session table
is empty. -/
theorem interleaved_puts_deliver {ι : Type} [Fintype ι] [DecidableEq ι] (os : Os Fs)
    (shell : ExecShell Fs) (puts : ι → Host.FilePut) {frames : ι → List Host.Frame}
    {target : ι → UploadTarget} {dev : Device Fs} {calls : ι → List FrameCall}
    {w : List (ι × FrameCall)}
    (hcount : Fintype.card ι ≤ maxUploadSessions)
    (hids : Function.Injective fun i => (puts i).requestId)
    (hchunk : ∀ i, 1 ≤ (puts i).chunkSize ∧ (puts i).chunkSize ≤ 8 * 1024 * 1024 - 4)
    (hframes : ∀ i, (puts i).frames = .ok (frames i))
    (hchecks : ∀ i, UploadChecks (os.withFs {}) (cStr (utf8 (puts i).remotePath))
      (Host.seenValue (puts i).desireStorage) (Host.seenValue (puts i).perm) dev.proc.os (target i))
    (hpaths : ∀ i j, i ≠ j → (target i).path ≠ (target j).path ∧
      (target i).tempPath ≠ (target j).path)
    (hdelivered : ∀ i, List.Forall₂ (fun f c => DeliveredAs f c.frame) (frames i) (calls i))
    (hok : ∀ i, ∀ c ∈ calls i, c.faults.AllOk)
    (hw : IsInterleaving calls w)
    (hempty : dev.proc.sessions = fileOpsInit) (hbenign : dev.Benign) :
    (∀ u i c v, w = u ++ (i, c) :: v →
      AnsweredStatus c.frame (handleSchedule os shell u dev)
        (handleSchedule os shell (u ++ [(i, c)]) dev) ∧
      ∀ j, (handleSchedule os shell (u ++ [(i, c)]) dev).proc.os.files (target j).path ≠
          (handleSchedule os shell u dev).proc.os.files (target j).path →
        j = i ∧ c.frame.header.type = MsgType.filePutEnd.code) ∧
    (∀ i, (handleSchedule os shell w dev).proc.os.files (target i).path = some (puts i).content ∧
      (handleSchedule os shell w dev).proc.os.files (target i).tempPath = none) ∧
    (∀ q, (∀ i, q ≠ (target i).path ∧ q ≠ (target i).tempPath) →
      (handleSchedule os shell w dev).proc.os.files q = dev.proc.os.files q) ∧
    ∀ slot, ((handleSchedule os shell w dev).proc.sessions slot).used = false := by
  obtain ⟨plans, hplans⟩ : ∃ plans, plans = fun i => (puts i).plan (target i) := ⟨_, rfl⟩
  have hid : ∀ i, (puts i).requestId < 2 ^ 32 :=
    fun i => (Host.FilePut.frames_eq_ok (hframes i)).1
  have hgroup : UploadGroup os dev.proc.os plans := by
    subst hplans
    refine ⟨hcount, fun i j hij => hids ?_, fun {i j} => hpaths i j, hchecks, fun i piece hpiece =>
      (Host.mem_readPieces hpiece).1⟩
    have hnat := congrArg UInt32.toNat hij
    change (UInt32.ofNat (puts i).requestId).toNat = (UInt32.ofNat (puts j).requestId).toNat at hnat
    rwa [UInt32.toNat_ofNat_of_lt' (hid i), UInt32.toNat_ofNat_of_lt' (hid j)] at hnat
  have hcontent : ∀ i, (plans i).content = (puts i).content := by
    subst hplans
    exact fun i => Host.flatten_readPieces (hchunk i).1 le_rfl
  have hstart : PutsRunning plans dev.proc.os dev calls := by
    refine ⟨hbenign, fun i => (plans i).calls, fun i => ?_, .start hempty rfl⟩
    have hforall : List.Forall₂ DeliveredAs (frames i) ((calls i).map FrameCall.frame) :=
      List.forall₂_map_right_iff.mpr (hdelivered i)
    have hcalls := calls_of_delivered (hframes i) (hchunk i).2 (target i) hforall
    rw [List.forall₂_map_left_iff] at hcalls
    subst hplans
    exact (List.forall₂_and_left _ _).mpr ⟨hok i, hcalls⟩
  -- the frames that are still to come determine what the device has to look like
  have hrun : ∀ u v, w = u ++ v → PutsRunning plans dev.proc.os (handleSchedule os shell u dev)
      fun i => proj i v := by
    rintro u v rfl
    exact IsInterleaving.run (fun h hrest => (h.step hgroup hrest).2.1) hstart hw
  have htarget : ∀ i, (plans i).target = target i := by
    subst hplans
    exact fun _ => rfl
  constructor
  · rintro u i c v rfl
    obtain ⟨hanswered, -, hpath⟩ :
        AnsweredStatus c.frame _ (handleCall os shell _ (i, c)) ∧ _ ∧ _ :=
      (hrun u ((i, c) :: v) rfl).step hgroup (proj_cons_self i c v)
    have hnext : handleSchedule os shell (u ++ [(i, c)]) dev =
        handleCall os shell (handleSchedule os shell u dev) (i, c) := by
      rw [handleSchedule, List.foldl_concat, handleSchedule]
    rw [hnext]
    refine ⟨hanswered, fun j hj => hpath j ?_⟩
    rwa [htarget j]
  · -- no frames are left, so all plans are finished
    obtain ⟨-, rest, hrest, huploading⟩ := hrun w [] (List.append_nil w).symm
    have hnone : rest = fun _ => [] := funext fun i => List.forall₂_nil_left_iff.mp (hrest i)
    rw [hnone] at huploading
    obtain ⟨hfiles, hsessions⟩ := huploading.finished
    have hothers := huploading.others
    simp only [htarget, hcontent] at hfiles hothers
    exact ⟨hfiles, hothers, hsessions⟩

/-- The upload of a local file under a name in the root. -/
def putOf (requestId : ℕ) (name : String) (content : Bytes) : Host.FilePut where
  requestId := requestId
  remotePath := name
  chunkSize := 2
  desireStorage := none
  perm := none
  content := content

/-- The frames of an upload of at most two bytes. -/
def framesOf (requestId : ℕ) (name : String) (pieces : List Bytes) : List Host.Frame :=
  { type := 10, requestId := requestId, payload := kvLayout [⟨utf8 "path", utf8 name⟩] } ::
    (pieces.map (fun piece =>
        { type := 11, requestId := requestId, payload := leBytes 4 requestId ++ piece }) ++
      [{ type := 12, requestId := requestId, payload := leBytes 4 requestId }])

/-- What the device handles of frames, with every system call succeeding. -/
def callsOf (frames : List Host.Frame) : List FrameCall := frames.map fun f => ⟨f.toDevice, {}⟩

/-- Frames whose fields fit are delivered. -/
private theorem delivered_callsOf {frames : List Host.Frame}
    (h : ∀ f ∈ frames, f.type < 2 ^ 16 ∧ f.flags < 2 ^ 32 ∧ f.requestId < 2 ^ 32 ∧
      f.payload.length < 2 ^ 20) :
    List.Forall₂ (fun f c => DeliveredAs f c.frame) frames (callsOf frames) := by
  refine List.forall₂_map_right_iff.mpr (List.forall₂_same.mpr fun f hf => ?_)
  obtain ⟨htype, hflags, hid, hlen⟩ := h f hf
  have hencode : f.encode = .ok (wire f.type f.flags f.requestId f.payload) :=
    Host.Frame.encode_eq_wire htype hflags hid (by omega)
  exact ⟨_, hencode, Host.Frame.decodeFrame_of_encode hencode (by omega)⟩

/-- The checks pass for a plain name in the root. -/
private theorem uploadChecks_plain {name path : Bytes}
    (hpath : buildPath name pathMaxLen = (path, .ok .nand)) (hname : name.length < pathMaxLen)
    (htemp : (path ++ utf8 ".part").length < pathMaxLen) (fs : Fs) :
    UploadChecks ((Os.failing Fs).withFs {}) name none none fs ⟨path, .nand, false, 0o644⟩ where
  perm := rfl
  path := hpath
  desire := by simp [StorageMatches]
  writeable := by simp [StorageWriteable]
  relative_lt := hname
  temp_lt := htemp

/-- Two uploads: a file of one byte and an empty file. -/
def twoPuts : Bool → Host.FilePut
  | false => putOf 1 "a" [7]
  | true => putOf 2 "b" []

/-- Their frames. -/
def twoFrames : Bool → List Host.Frame
  | false => framesOf 1 "a" [[7]]
  | true => framesOf 2 "b" []

/-- Their targets. -/
def twoTargets : Bool → UploadTarget
  | false => ⟨utf8 "/a", .nand, false, 0o644⟩
  | true => ⟨utf8 "/b", .nand, false, 0o644⟩

/-- The second upload is begun and ended while the first is open. -/
def twoSchedule : List (Bool × FrameCall) :=
  let first := (callsOf (twoFrames false)).map (false, ·)
  first.take 1 ++ (callsOf (twoFrames true)).map (true, ·) ++ first.drop 1

/-- `interleaved_puts_deliver` for these two uploads on the empty file system. -/
theorem interleaved_puts_deliver_two :
    let last := handleSchedule (Os.failing Fs) (fun _ _ s => (none, s)) twoSchedule idleDevice
    (∀ i, last.proc.os.files (twoTargets i).path = some (twoPuts i).content ∧
      last.proc.os.files (twoTargets i).tempPath = none) ∧
    (∀ q, (∀ i, q ≠ (twoTargets i).path ∧ q ≠ (twoTargets i).tempPath) →
      last.proc.os.files q = idleDevice.proc.os.files q) ∧
    ∀ slot, (last.proc.sessions slot).used = false := by
  have hids : Function.Injective fun i => (twoPuts i).requestId := by decide
  have hchunk : ∀ i, 1 ≤ (twoPuts i).chunkSize ∧ (twoPuts i).chunkSize ≤ 8 * 1024 * 1024 - 4 := by
    decide
  have hframes : ∀ i, (twoPuts i).frames = .ok (twoFrames i) := by
    intro i
    cases i
    · rfl
    · rfl
  have hchecks : ∀ i, UploadChecks ((Os.failing Fs).withFs {}) (cStr (utf8 (twoPuts i).remotePath))
      (Host.seenValue (twoPuts i).desireStorage) (Host.seenValue (twoPuts i).perm)
      idleDevice.proc.os (twoTargets i) :=
    Bool.forall_bool.mpr ⟨uploadChecks_plain rfl (by decide) (by decide) _,
      uploadChecks_plain rfl (by decide) (by decide) _⟩
  have hpaths : ∀ i j, i ≠ j → (twoTargets i).path ≠ (twoTargets j).path ∧
      (twoTargets i).tempPath ≠ (twoTargets j).path := by decide
  have hdelivered : ∀ i, List.Forall₂ (fun f c => DeliveredAs f c.frame) (twoFrames i)
      (callsOf (twoFrames i)) := fun i => delivered_callsOf (by revert i; decide)
  have hok : ∀ i, ∀ c ∈ callsOf (twoFrames i), c.faults.AllOk := by
    intro i c hc
    obtain ⟨f, -, rfl⟩ := List.mem_map.mp hc
    exact ⟨rfl, rfl, rfl, rfl, rfl, rfl, rfl, rfl⟩
  have hw : IsInterleaving (fun i => callsOf (twoFrames i)) twoSchedule :=
    Bool.forall_bool.mpr ⟨rfl, rfl⟩
  exact (interleaved_puts_deliver (Os.failing Fs) (fun _ _ s => (none, s)) twoPuts (by decide) hids
    hchunk hframes hchecks hpaths hdelivered hok hw rfl (by simp [Device.Benign, idleDevice])).2

end UsbResponder
