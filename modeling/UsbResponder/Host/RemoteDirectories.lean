import UsbResponder.FileOps.MakeDirectories
import UsbResponder.Host.FileClient

/-!
# Making a remote directory

`dir_mkdir` of the client with `parents`, on a device that stands for a store of files.
Where directories can be, the device makes the directory or finds it (`dirMkdir_of_isDir`),
confirms it, and the client returns, while every file stays as it is (`Represents.mkdir`).

The file system of the uploads does not keep directories. Where they are is given once and
for all (`IsDir`), those that the client asks for among them, so a directory may be made
each time that it is asked for, or be found (`KeepsDirectories`).

The request is one frame, whose three items are short, so it is far from a length that would
end the session, and its confirmation is not followed by an empty packet. The handler walks
along the components of the path; each of its calls succeeds or finds a directory, which is
all the induction needs. A path at which a file is in the way is left out, since the results
are for paths where directories can be.
-/

namespace UsbResponder

open CString Components StagedStore

/-! ### Directories of the device -/

/-- Where a directory can be, it can be made, or is there already. Neither changes a file.
This is what is assumed of `mkdir` and `stat`. -/
def KeepsDirectories (os : Os Fs) (attrs : Bytes → Stat) : Prop :=
  ∀ path fs, IsDir attrs path → os.mkdir path 0o755 fs = (none, fs) ∨
    os.mkdir path 0o755 fs = (some eExist, fs) ∧
      ∃ st, os.stat path fs = (.ok st, fs) ∧ st.kind = .directory

section Directories

variable {os : Os Fs} {attrs : Bytes → Stat} {p : Proc Fs}

/-- A walk along directories passes every component. The induction is on the components to
come. -/
private theorem mkdirWalk_of_isDir (hdirs : KeepsDirectories os attrs) {seen cs : List Bytes}
    (hisDir : ∀ q, q ≠ [] → q <+: cs → IsDir attrs (normalPath (seen ++ q))) :
    (mkdirWalk os seen cs).run p = (some (), p) := by
  induction cs generalizing seen with
  | nil => rfl
  | cons c cs ih =>
    have hwalk : (mkdirWalk os (seen ++ [c]) cs).run p = (some (), p) := by
      refine ih fun q hq hpre => ?_
      rw [List.append_assoc, List.singleton_append]
      exact hisDir (c :: q) (List.cons_ne_nil _ _) (List.cons_prefix_cons.mpr ⟨rfl, hpre⟩)
    have hnext := hisDir [c] (List.cons_ne_nil _ _)
      (List.cons_prefix_cons.mpr ⟨rfl, List.nil_prefix⟩)
    obtain hmade | ⟨hexists, st, hstat, hdir⟩ := hdirs _ p.os hnext
    · rw [mkdirWalk_of_made hmade]
      exact hwalk
    · rw [mkdirWalk_of_exists hexists hstat, if_pos hdir]
      exact hwalk

/-- A request for a directory with its parents succeeds where directories can be, and leaves
the files as they are. -/
theorem dirMkdir_of_isDir (hdirs : KeepsDirectories os attrs) {relative : Bytes}
    {desireStorage : Option Bytes}
    (hup : utf8 ".." ∉ pathComponents relative)
    (hfit : (normalPath (pathComponents relative)).length < pathMaxLen)
    (hdesired : StorageMatches (storageOf (pathComponents relative)) desireStorage)
    (hwriteable : StorageWriteable os (storageOf (pathComponents relative)) p.os)
    (hmount : (os.mountinfo p.os).2 = p.os)
    (hisDir : ∀ q, q ≠ [] → q <+: pathComponents relative → IsDir attrs (normalPath q)) :
    (dirMkdir os relative true desireStorage).run p = (some (), p) := by
  have hbuilt : buildPath relative pathMaxLen = (normalPath (pathComponents relative),
      .ok (storageOf (pathComponents relative))) :=
    (buildPath_eq_ok_iff (by decide)).mpr ⟨hup, hfit, rfl, rfl⟩
  have hcomponents := components_drop_normalPath fun c hc =>
    (normalComponents_pathComponents relative c hc).1
  have hloop : mkdirLoop os ((normalPath (pathComponents relative)).length + 1)
      ((normalPath (pathComponents relative)).drop 1) (normalPath []) = _ :=
    mkdirLoop_eq_walk os (by rw [List.length_drop]; omega) (List.forall_mem_nil _)
      (by rwa [hcomponents])
  rw [hcomponents] at hloop
  have hafter : p.afterMountCheck os (storageOf (pathComponents relative)) = p := by
    rcases storageOf (pathComponents relative) with _ | _
    · rfl
    · rw [Proc.afterMountCheck, Os.afterMountCheck, hmount]
  rw [dirMkdir, Op.run_bind_of_some (buildPathOp_run hbuilt p)]
  dsimp only
  rw [Op.run_bind_of_some (pathStorageMatchesDesire_of hdesired p),
    Op.run_bind_of_some (ensureStorageWriteable_of hwriteable), if_pos rfl, hafter]
  exact (congrFun (congrArg Op.run hloop) _).trans (mkdirWalk_of_isDir hdirs hisDir)

/-- The handler confirms a directory that is made while the process stays as it is. -/
private theorem handleFileMkdir_of_done (os : Os Fs) {frame : Frame} {dev : Device Fs}
    {kvs : List Kv} (hkvs : decodeKv frame.payload maxKv = some kvs) {path : Bytes}
    (hpath : kvGet kvs (utf8 "path") = some path)
    (hparents : (kvGet kvs (utf8 "parents")).any isParentsValue = true)
    (hdone : (dirMkdir os path true (kvGet kvs (utf8 "desire_storage"))).run dev.proc =
      (some (), dev.proc)) :
    handleFileMkdir os frame dev = sendOk os frame.header.requestId dev := by
  rw [handleFileMkdir, hkvs]
  dsimp only
  rw [hpath, hparents, Device.opWith, Device.op, hdone]
  rfl

end Directories

namespace Host

/-! ### A directory over the wire -/

/-- The items of a request for a directory with its parents, in the order of the client. -/
def mkdirItems (path : String) (desireStorage : Option String) : List (String × String) :=
  ("path", path) :: ([("parents", "1")] ++ optionalItem "desire_storage" desireStorage)

private theorem length_mkdirItems_le (path : String) (desireStorage : Option String) :
    (mkdirItems path desireStorage).length ≤ 3 := by
  have hdesire := length_optionalItem_le "desire_storage" desireStorage
  rw [mkdirItems, List.length_cons, List.length_append, List.length_singleton]
  omega

/-- The device reads the three items. -/
private theorem kvGet_mkdirItems (path : String) (desireStorage : Option String) :
    kvGet ((mkdirItems path desireStorage).map kvOf) (utf8 "path") = some (cStr (utf8 path)) ∧
      kvGet ((mkdirItems path desireStorage).map kvOf) (utf8 "parents") =
        some (cStr (utf8 "1")) ∧
      kvGet ((mkdirItems path desireStorage).map kvOf) (utf8 "desire_storage") =
        seenValue desireStorage := by
  rw [mkdirItems, List.map_cons, List.map_append, List.map_singleton, List.singleton_append]
  refine ⟨?_, ?_, ?_⟩
  · rw [kvGet_cons, kvOf_key, if_pos rfl, kvOf_value]
  · rw [kvGet_cons, kvOf_key, if_neg (show cStr (utf8 "path") ≠ cStr (utf8 "parents") by decide),
      kvGet_cons, kvOf_key, if_pos rfl, kvOf_value]
  · rw [kvGet_cons, kvOf_key,
      if_neg (show cStr (utf8 "path") ≠ cStr (utf8 "desire_storage") by decide), kvGet_cons,
      kvOf_key, if_neg (show cStr (utf8 "parents") ≠ cStr (utf8 "desire_storage") by decide),
      kvGet_desireStorage]

/-- The payload that confirms an operation: the one item `status=ok`. -/
def okPayload : Bytes := kvLayout ([("status", "ok")].map kvOf)

private theorem encodeKv_ok : UsbResponder.encodeKv ([("status", "ok")].map kvOf) =
    some okPayload :=
  (representable_of_mem_confirmations List.mem_cons_self).encodeKv_eq.1

/-- The response that confirms an operation can be received. -/
private theorem sendable_ok (reqId : UInt32) :
    (responseFrame .status reqId okPayload).Sendable := by
  have hlen : okPayload.length = 14 := by decide +kernel
  constructor
  · show (UInt32.ofNat okPayload.length).toNat = _
    rw [hlen]
    rfl
  · show okPayload.length ≤ _
    rw [hlen, maxPayload]
    omega

/-- The request for a directory with its parents, as a frame of the client. -/
def mkdirFrame (id : ℕ) (path : String) (desireStorage : Option String) : Frame :=
  ⟨17, id, 0, kvLayout ((mkdirItems path desireStorage).map kvOf)⟩

section MkdirFrame

variable {path : String} {desireStorage : Option String} {id : ℕ}
  (hfits : ∀ item ∈ (mkdirItems path desireStorage).map kvOf, item.Fits)

include hfits

private theorem length_mkdirFrame_le :
    (mkdirFrame id path desireStorage).payload.length ≤ maxPayload :=
  length_kvLayout_le_maxPayload hfits (by
    rw [List.length_map]
    exact length_mkdirItems_le path desireStorage)

private theorem encode_mkdirFrame (hid : id < 2 ^ 32) :
    (mkdirFrame id path desireStorage).encode = .ok (mkdirFrame id path desireStorage).raw := by
  have hlen := @length_mkdirFrame_le _ _ id hfits
  rw [maxPayload] at hlen
  refine Frame.encode_eq_ok_iff.mpr ⟨?_, ?_, hid, by omega, rfl⟩
  · show 17 < 2 ^ 16
    norm_num
  · show 0 < 2 ^ 32
    norm_num

private theorem start_dirMkdir (req : ℕ) : (ClientOp.dirMkdir path true desireStorage).start req =
    (nextId req, .ok [mkdirFrame (nextId req) path desireStorage]) := by
  have hcount := length_mkdirItems_le path desireStorage
  have hencode := encodeKv_of_fits hfits (by omega)
  rw [ClientOp.start, if_pos rfl]
  show oneFrame req 17 (encodeKv (mkdirItems path desireStorage)) = _
  rw [hencode]
  rfl

private theorem decodeKv_mkdirFrame :
    UsbResponder.decodeKv (mkdirFrame id path desireStorage).toDevice.payload maxKv =
      some ((mkdirItems path desireStorage).map kvOf) := by
  have hcount := length_mkdirItems_le path desireStorage
  exact UsbResponder.decodeKv_kvLayout hfits (by rw [List.length_map, maxKv]; omega)

/-- A directory that is made while the process stays as it is, is confirmed. -/
private theorem handleFrame_mkdirFrame {os : Os Fs} (shell : ExecShell Fs) {dev : Device Fs}
    (hdone : (dirMkdir os (cStr (utf8 path)) true (seenValue desireStorage)).run dev.proc =
      (some (), dev.proc)) :
    handleFrame os shell (mkdirFrame id path desireStorage).toDevice dev =
      writeFrame os (responseFrame .status (UInt32.ofNat id) okPayload) dev := by
  obtain ⟨hpath, hparents, hdesire⟩ := kvGet_mkdirItems path desireStorage
  have htype : MsgType.ofCode (mkdirFrame id path desireStorage).toDevice.header.type =
      some .fileMkdir := rfl
  have hreqId : (mkdirFrame id path desireStorage).toDevice.header.requestId = UInt32.ofNat id :=
    rfl
  rw [handleFrame, htype]
  dsimp only
  rw [handleFileMkdir_of_done os (decodeKv_mkdirFrame hfits) hpath (by rw [hparents]; decide)
    (by rw [hdesire]; exact hdone), hreqId]
  show sendKvResponse os .status _ ([("status", "ok")].map kvOf) dev = _
  rw [sendKvResponse, encodeKv_ok]

end MkdirFrame

namespace Dialog

variable {K : Set Bytes} {mount : Option (List Bytes)} {os : Os Fs} {attrs : Bytes → Stat}
  {f : Faults} {link : Link} {d : Dialog Fs} {m : Bytes → Option Bytes}
  (shell : ExecShell Fs)

/-- **A directory**, with its parents: the client returns where directories can be, and no
file changes. -/
theorem Represents.mkdir (h : d.Represents K mount (.idle m)) (hdirs : KeepsDirectories os attrs)
    (hlink : link.Faithful) (hfree : d.dev.endsInZlp = false) {path : String}
    {desireStorage : Option String} (hpass : (ClientOp.dirMkdir path true desireStorage).FramesPass)
    (hfits : ∀ item ∈ (mkdirItems path desireStorage).map kvOf, item.Fits) {cs : List Bytes}
    (hcs : pathComponents (cStr (utf8 path)) = cs) (hup : utf8 ".." ∉ cs)
    (hfit : (normalPath cs).length < pathMaxLen)
    (hdesired : StorageMatches (storageOf cs) (seenValue desireStorage))
    (hwriteable : Writeable mount (storageOf cs))
    (hisDir : ∀ q, q ≠ [] → q <+: cs → IsDir attrs (normalPath q)) :
    ∃ vs d', Dialog.perform ((os.withReads attrs).withFs f) shell link
        (.dirMkdir path true desireStorage) d = some (.ok vs, d') ∧
      d'.Represents K mount (.idle m) ∧ d'.dev.endsInZlp = false := by
  have hlt := nextId_lt d.lastId
  have hdirs' : KeepsDirectories ((os.withReads attrs).withFs f) attrs := hdirs
  have hdone : (dirMkdir ((os.withReads attrs).withFs f) (cStr (utf8 path)) true
      (seenValue desireStorage)).run d.dev.proc = (some (), d.dev.proc) := by
    subst hcs
    refine dirMkdir_of_isDir hdirs' hup hfit hdesired ?_ ?_ hisDir
    · rw [← h.store.mountinfo] at hwriteable
      exact (storageWriteable_withFs _ f).mpr hwriteable
    · rw [Os.withFs_mountinfo]
  obtain ⟨g, hg⟩ : ∃ g, g = mkdirFrame (nextId d.lastId) path desireStorage := ⟨_, rfl⟩
  obtain ⟨resp, hresp⟩ : ∃ resp, resp =
      responseFrame .status (UInt32.ofNat (nextId d.lastId)) okPayload := ⟨_, rfl⟩
  -- the device makes the directory and confirms it
  obtain ⟨dev', hwrite, hwrote⟩ :=
    writeFrame_of_benign h.benign ((os.withReads attrs).withFs f) resp
  have hhandle : handleFrame ((os.withReads attrs).withFs f) shell g.toDevice d.dev =
      (true, dev') := by
    rw [← hwrite, hg, hresp]
    exact handleFrame_mkdirFrame hfits shell hdone
  have hsent : HasSent d.dev (handleFrame ((os.withReads attrs).withFs f) shell g.toDevice
      d.dev).2 [resp] := by
    rw [hhandle]
    exact hwrote.sent rfl
  -- the confirmation is what the client receives
  have hlen : ¬ioChunk ∣ headerSize + g.payload.length :=
    hpass _ _ _ (start_dirMkdir hfits d.lastId) g (hg ▸ List.mem_singleton_self _)
  have hsendable : resp.Sendable := hresp ▸ sendable_ok _
  obtain ⟨d', hrequest, hquiet, hwaits, halike⟩ := @request_eq _ _ _ _ _ hlink
    (hg ▸ encode_mkdirFrame hfits hlt) (hg ▸ length_mkdirFrame_le hfits) hlen
    { d with lastId := nextId d.lastId } h.quiet h.waits hfree resp hsendable hsent
  rw [hhandle] at halike
  have hexpect := @expectKv_confirmation _ List.mem_cons_self
    (UInt32.ofNat (nextId d.lastId)) _ encodeKv_ok
  rw [UInt32.toNat_ofNat_of_lt' hlt, ← hresp] at hexpect
  have hreceive : (ClientOp.dirMkdir path true desireStorage).receive (nextId d.lastId)
      (Frame.ofDevice resp) = (expectKv (nextId d.lastId) (Frame.ofDevice resp)).map .items := rfl
  refine ⟨[.items [("status", "ok")].reverse], d', ?_, ⟨hquiet, hwaits, ?_, h.exclusive, ?_⟩, ?_⟩
  · rw [Dialog.perform, start_dirMkdir hfits, ← hg]
    dsimp only
    rw [Dialog.exchangeAll, hrequest]
    dsimp only
    rw [hreceive, hexpect]
    rfl
  · rw [Device.Benign, halike.tx]
    exact hwrote.benign h.benign
  · rw [halike.proc, hwrote.proc]
    exact h.store
  · rw [halike.endsInZlp]
    rw [hhandle] at hsent
    refine Bool.eq_false_iff.mpr fun hends => ?_
    have hdvd := dvd_of_endsInZlp hsendable hsent hends
    rw [hresp] at hdvd
    exact not_dvd_of_mem_confirmations List.mem_cons_self hdvd

end Dialog

end Host

end UsbResponder
