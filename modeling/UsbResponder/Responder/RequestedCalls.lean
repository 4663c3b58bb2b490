import UsbResponder.FileOps.RequestedPaths
import UsbResponder.Responder.SdWrites

/-!
# Every call on a file was requested

A host can make the responder change the files its requests name, and no others.
`Frame.Grants` says which calls a request stands for: FILE_PUT_BEGIN the creation of the
temporary path beside its own, FILE_DELETE those within its path, FILE_MKDIR those on the
way to it, FILE_RENAME the renaming. All other requests stand for none.

A call may be made for an upload that began many frames ago, with anything in between.
`Begun` is what connects it to the frame that named its path: every transfer of the session
table was begun by the last frame of the history that began or ended an upload with its id.
`every_call_requested` is the result for whole runs.

A frame that goes on with an upload may remove the path of the upload, which may be a
storage root: no check keeps an upload from naming one. FILE_DELETE and FILE_RENAME never
reach a storage root.

A round is charged in two parts. What a frame that is no call of an upload issues, it grants
itself (`handleFrame_grants`), by the results of `FileOps.RequestedPaths` for each
operation. For a call of an upload the transfer is looked up in the table, and `Begun` names
the begin. The invariant `Accountable` carries both the table and the streams from one round
to the next. Commands are not charged, since a shell may do anything.
-/

namespace UsbResponder

open CString Components

variable {σ α : Type}

/-! ### What a request stands for -/

/-- The request has the value under the key, as `kv_get` finds it in the decoded payload. -/
def Frame.Names (frame : Frame) (key : String) (value : Bytes) : Prop :=
  ∃ kvs, decodeKv frame.payload maxKv = some kvs ∧ kvGet kvs (utf8 key) = some value

/-- The request stands for the call. There is a rule for each of the four requests that
change files, and it is read off the payload alone. -/
inductive Frame.Grants (frame : Frame) : FileCall → Prop
  | create {relative path : Bytes} (htype : frame.header.type = MsgType.filePutBegin.code)
    (hname : frame.Names "path" relative) (hpath : Resolves relative path) :
    frame.Grants (.create (path ++ utf8 ".part"))
  | unlink {relative dir path : Bytes} (htype : frame.header.type = MsgType.fileDelete.code)
    (hname : frame.Names "path" relative) (hdir : Resolves relative dir)
    (hroot : pathIsStorageRoot dir = false) (hpath : Within dir path) :
    frame.Grants (.unlink path)
  | rmdir {relative dir path : Bytes} (htype : frame.header.type = MsgType.fileDelete.code)
    (hname : frame.Names "path" relative) (hdir : Resolves relative dir)
    (hroot : pathIsStorageRoot dir = false) (hpath : Within dir path) :
    frame.Grants (.rmdir path)
  | mkdir {relative path : Bytes} {q : List Bytes}
    (htype : frame.header.type = MsgType.fileMkdir.code) (hname : frame.Names "path" relative)
    (hpath : Resolves relative path) (hq : q <+: pathComponents relative) :
    frame.Grants (.mkdir (normalPath q))
  | rename {fromRelative toRelative fromPath toPath : Bytes}
    (htype : frame.header.type = MsgType.fileRename.code)
    (hfromName : frame.Names "from" fromRelative) (htoName : frame.Names "to" toRelative)
    (hfrom : Resolves fromRelative fromPath) (hto : Resolves toRelative toPath)
    (hfromRoot : pathIsStorageRoot fromPath = false) (htoRoot : pathIsStorageRoot toPath = false) :
    frame.Grants (.rename fromPath toPath)

/-- No request stands for a call that leads out of the tree or up in it. -/
theorem Frame.Grants.plain {frame : Frame} {call : FileCall} (h : frame.Grants call)
    {path : Bytes} (hpath : path ∈ call.paths) : PlainPath path := by
  cases h with
  | create _ _ hfinal =>
    rw [List.mem_singleton.mp hpath]
    exact hfinal.plain.part
  | unlink _ _ hdir hroot hwithin =>
    obtain rfl := List.mem_singleton.mp hpath
    exact hwithin.plain hdir hroot
  | rmdir _ _ hdir hroot hwithin =>
    obtain rfl := List.mem_singleton.mp hpath
    exact hwithin.plain hdir hroot
  | mkdir _ _ hresolves hq =>
    obtain rfl := List.mem_singleton.mp hpath
    exact plainPath_of_prefix hresolves hq
  | rename _ _ _ hfrom hto =>
    obtain rfl | hpath := List.mem_cons.mp hpath
    · exact hfrom.plain
    · rw [List.mem_singleton.mp hpath]
      exact hto.plain

/-- A request to delete or to rename stands for no call on a storage root. -/
theorem Frame.Grants.notRoot {frame : Frame} {call : FileCall} (h : frame.Grants call)
    (htype : frame.header.type = MsgType.fileDelete.code ∨
      frame.header.type = MsgType.fileRename.code) {path : Bytes} (hpath : path ∈ call.paths) :
    pathIsStorageRoot path = false := by
  cases h with
  | create hbegin =>
    rw [hbegin] at htype
    exact absurd htype (by decide)
  | unlink _ _ hdir hroot hwithin =>
    obtain rfl := List.mem_singleton.mp hpath
    exact hwithin.notRoot hdir hroot
  | rmdir _ _ hdir hroot hwithin =>
    obtain rfl := List.mem_singleton.mp hpath
    exact hwithin.notRoot hdir hroot
  | mkdir hmkdir =>
    rw [hmkdir] at htype
    exact absurd htype (by decide)
  | rename _ _ _ _ _ hfromRoot htoRoot =>
    obtain rfl | hpath := List.mem_cons.mp hpath
    · exact hfromRoot
    · rw [List.mem_singleton.mp hpath]
      exact htoRoot

/-! ### Frames that are no calls of an upload -/

section Frames

variable (os : Os σ) (shell : ExecShell σ) (frame : Frame) {Q : FileCall → Prop}
  (dev : Device (Recorded σ))

private theorem issues_opWith_of_eq {value : Option Bytes} {x : Bytes → Op (Recorded σ) α}
    (hx : ∀ v, value = some v → (x v).IssuesAt Q dev.proc) :
    dev.Issues Q (dev.opWith value x).2 := by
  rcases value with _ | value
  · exact .refl dev
  · exact issues_op (hx value rfl)

private theorem handleFileDelete_grants (hnames : os.ReadsNames)
    (htype : frame.header.type = MsgType.fileDelete.code) :
    dev.Issues frame.Grants (handleFileDelete os.recording frame dev).2 := by
  rw [handleFileDelete]
  rcases hkvs : decodeKv frame.payload maxKv with _ | kvs
  · exact issues_sendKv _ _ _ dev
  refine (issues_opWith_of_eq dev fun path hpath => ?_).trans (issues_confirm _ _ _)
  refine fileDelete_issuesAt_within os hnames (fun dir hdir hroot path hwithin => ?_) _
  exact ⟨.unlink htype ⟨kvs, hkvs, hpath⟩ hdir hroot hwithin,
    .rmdir htype ⟨kvs, hkvs, hpath⟩ hdir hroot hwithin⟩

private theorem handleFileMkdir_grants (htype : frame.header.type = MsgType.fileMkdir.code) :
    dev.Issues frame.Grants (handleFileMkdir os.recording frame dev).2 := by
  rw [handleFileMkdir]
  rcases hkvs : decodeKv frame.payload maxKv with _ | kvs
  · exact issues_sendKv _ _ _ dev
  refine (issues_opWith_of_eq dev fun path hpath => ?_).trans (issues_confirm _ _ _)
  refine dirMkdir_issuesAt_inits os (fun hresolves q hq => ?_) _ _
  obtain ⟨final, hfinal⟩ := hresolves
  exact .mkdir htype ⟨kvs, hkvs, hpath⟩ hfinal hq

private theorem handleFileRename_grants (htype : frame.header.type = MsgType.fileRename.code) :
    dev.Issues frame.Grants (handleFileRename os.recording frame dev).2 := by
  rw [handleFileRename]
  rcases hkvs : decodeKv frame.payload maxKv with _ | kvs
  · exact issues_sendKv _ _ _ dev
  rcases hfrom : kvGet kvs (utf8 "from") with _ | fromRelative
  · simp only [hfrom]
    exact issues_sendKv _ _ _ dev
  simp only [hfrom]
  refine (issues_opWith_of_eq dev fun toRelative hto => ?_).trans (issues_confirm _ _ _)
  exact fileRename_issuesAt_paths os (fun fromPath toPath hfromPath htoPath hfromRoot htoRoot =>
    .rename htype ⟨kvs, hkvs, hfrom⟩ ⟨kvs, hkvs, hto⟩ hfromPath htoPath hfromRoot htoRoot) _

/-- **A frame that is no call of an upload.** What it issues it stands for. -/
theorem handleFrame_grants (hnames : os.ReadsNames) (hcall : uploadCall? frame = none) :
    dev.Issues frame.Grants (handleFrame os.recording shell.recording frame dev).2 := by
  by_cases hframe : frame.IsUploadFrame
  · obtain ⟨payload, hrun⟩ := handleFrame_of_no_call os.recording shell.recording hframe hcall dev
    rw [hrun]
    exact issues_writeFrame _ dev
  rw [handleFrame]
  rcases htype : MsgType.ofCode frame.header.type with _ | type
  · exact issues_sendKv _ _ _ dev
  have hcode := MsgType.ofCode_eq_some_iff.mp htype
  rcases type
  case filePutBegin => exact absurd (.inl hcode.symm) hframe
  case filePutChunk => exact absurd (.inr (.inl hcode.symm)) hframe
  case filePutEnd => exact absurd (.inr (.inr hcode.symm)) hframe
  case fileGet => exact handleFileGet_issues os frame dev
  case fileList => exact handleFileList_issues os frame dev
  case fileStat => exact handleFileStat_issues os frame dev
  case fileDelete => exact handleFileDelete_grants os frame dev hnames hcode.symm
  case fileMkdir => exact handleFileMkdir_grants os frame dev hcode.symm
  case fileRename => exact handleFileRename_grants os frame dev hcode.symm
  case commandExec => exact handleCommandExec_issues os shell frame dev
  case devinfo => exact handleDevinfo_issues os shell frame dev
  all_goals exact issues_sendKv _ _ _ dev

end Frames

/-- A request to delete or to rename is no call of an upload. -/
private theorem uploadCall?_of_changes {frame : Frame}
    (h : frame.header.type = MsgType.fileDelete.code ∨
      frame.header.type = MsgType.fileRename.code) : uploadCall? frame = none := by
  obtain h | h := h
  · rw [uploadCall?, MsgType.ofCode_eq_some_iff.mpr h.symm]
  · rw [uploadCall?, MsgType.ofCode_eq_some_iff.mpr h.symm]

/-! ### Uploads in progress -/

/-- A begin with the id `transferId` that names a path for `final`. -/
structure Frame.Begins (frame : Frame) (transferId : UInt32) (final : Bytes) : Prop where
  type : frame.header.type = MsgType.filePutBegin.code
  id : frame.header.requestId = transferId
  path : ∃ relative, frame.Names "path" relative ∧ Resolves relative final

/-- A begin stands for the creation of its temporary path. -/
private theorem Frame.Begins.grants {frame : Frame} {transferId : UInt32} {final : Bytes}
    (h : frame.Begins transferId final) : frame.Grants (.create (final ++ utf8 ".part")) := by
  obtain ⟨relative, hname, hpath⟩ := h.path
  exact .create h.type hname hpath

theorem Frame.Begins.plain {frame : Frame} {transferId : UInt32} {final : Bytes}
    (h : frame.Begins transferId final) : PlainPath final := by
  obtain ⟨relative, -, hpath⟩ := h.path
  exact hpath.plain

private theorem begins_of_uploadCall? {frame : Frame} {transferId : UInt32} {relative : Bytes}
    {desireStorage perm : Option Bytes}
    (h : uploadCall? frame = some (.begin transferId relative desireStorage perm)) {final : Bytes}
    (hfinal : Resolves relative final) : frame.Begins transferId final := by
  rw [uploadCall?] at h
  split at h
  · rename_i htype
    rw [beginCall?] at h
    rcases hkvs : decodeKv frame.payload maxKv with _ | kvs
    · simp [hkvs] at h
    rcases hpath : kvGet kvs (utf8 "path") with _ | path
    · simp [hkvs, hpath] at h
    simp only [hkvs, hpath, Option.some.injEq, UploadCall.begin.injEq] at h
    obtain ⟨hid, rfl, -, -⟩ := h
    exact ⟨(MsgType.ofCode_eq_some_iff.mp htype).symm, hid, path, ⟨kvs, hkvs, hpath⟩, hfinal⟩
  · simp at h
  · simp at h
  · simp at h

/-- The frame begins or ends an upload with the id. Between two such frames the id stands
for one upload. -/
def Frame.Turns (frame : Frame) (transferId : UInt32) : Prop :=
  ∃ call, uploadCall? frame = some call ∧ call.transferId = transferId ∧
    ∀ data, call ≠ .append transferId data

/-- The last frame of the history that begins or ends an upload with the id begins one for
`final`. -/
def LastBegins (history : List Frame) (transferId : UInt32) (final : Bytes) : Prop :=
  ∃ before earlier after, history = before ++ earlier :: after ∧
    earlier.Begins transferId final ∧ ∀ frame ∈ after, ¬frame.Turns transferId

/-- Every transfer was begun by such a frame, and works beside the path named there. A
transfer that is not live any more needs none. -/
def Begun (history : List Frame) (sessions : FileOps) : Prop :=
  ∀ transferId t, transfers sessions transferId = some t →
    t.tempPath = t.finalPath ++ utf8 ".part" ∧ LastBegins history transferId t.finalPath

section Begun

variable {history : List Frame} {frame : Frame} {transferId : UInt32} {final : Bytes}

theorem LastBegins.plain (h : LastBegins history transferId final) : PlainPath final := by
  obtain ⟨-, earlier, -, -, hbegins, -⟩ := h
  exact hbegins.plain

/-- A frame that does not turn the id leaves the last begin the last one. -/
theorem LastBegins.concat (h : LastBegins history transferId final)
    (hframe : ¬frame.Turns transferId) : LastBegins (history ++ [frame]) transferId final := by
  obtain ⟨before, earlier, after, rfl, hbegins, hafter⟩ := h
  refine ⟨before, earlier, after ++ [frame], by simp, hbegins, ?_⟩
  exact List.forall_mem_append.mpr ⟨hafter, List.forall_mem_singleton.mpr hframe⟩

private theorem Frame.not_turns_of_ne {call : UploadCall} (hcall : uploadCall? frame = some call)
    (hne : transferId ≠ call.transferId) : ¬frame.Turns transferId := by
  rintro ⟨call', hcall', hid, -⟩
  obtain rfl := Option.some.inj (hcall.symm.trans hcall')
  exact hne hid.symm

private theorem Frame.not_turns_of_append {id : UInt32} {data : Bytes}
    (hcall : uploadCall? frame = some (.append id data)) : ¬frame.Turns transferId := by
  rintro ⟨call', hcall', hid, hnot⟩
  obtain rfl := Option.some.inj (hcall.symm.trans hcall')
  exact hnot data (congrArg (UploadCall.append · data) hid)

theorem Begun.concat {sessions : FileOps} (h : Begun history sessions)
    (hframe : ∀ transferId, ¬frame.Turns transferId) : Begun (history ++ [frame]) sessions := by
  intro transferId t ht
  obtain ⟨htemp, hlast⟩ := h transferId t ht
  exact ⟨htemp, hlast.concat (hframe transferId)⟩

/-- One call of an upload, made for the next frame. The transfer it begins is named by this
frame, and the one it ends is gone. -/
theorem Begun.call {p : Proc σ} (h : Begun history p.sessions) (hok : SessionsOk p.sessions)
    (os : Os σ) {call : UploadCall} (hcall : uploadCall? frame = some call) :
    Begun (history ++ [frame]) ((call.op os).run p).2.sessions := by
  obtain ⟨-, heffect⟩ := hok.call os call
  have hothers : ∀ transferId t, transferId ≠ call.transferId →
      transfers p.sessions transferId = some t →
      t.tempPath = t.finalPath ++ utf8 ".part" ∧
        LastBegins (history ++ [frame]) transferId t.finalPath := by
    intro transferId t hid ht
    obtain ⟨htemp, hlast⟩ := h transferId t ht
    exact ⟨htemp, hlast.concat (Frame.not_turns_of_ne hcall hid)⟩
  -- a map in which the entry is gone
  have herase : transfers ((call.op os).run p).2.sessions =
      Function.update (transfers p.sessions) call.transferId none →
      Begun (history ++ [frame]) ((call.op os).run p).2.sessions := by
    intro hmap transferId t ht
    rw [hmap] at ht
    by_cases hid : transferId = call.transferId
    · rw [hid, Function.update_self] at ht
      simp at ht
    · rw [Function.update_of_ne hid] at ht
      exact hothers transferId t hid ht
  rcases call with ⟨id, relative, desire, perm⟩ | ⟨id, data⟩ | id | id
  · rcases hrun : (((UploadCall.begin id relative desire perm).op os).run p).1 with _ | _
    · rw [hrun] at heffect
      exact herase heffect
    · rw [hrun] at heffect
      obtain ⟨path, storage, applyPerm, fileMode, hpath, -, hmap⟩ := heffect
      intro transferId t ht
      rw [hmap] at ht
      by_cases hid : transferId = id
      · rw [hid, Function.update_self, Option.some_inj] at ht
        rw [← ht, hid]
        exact ⟨rfl, history, frame, [], rfl, begins_of_uploadCall? hcall ⟨storage, hpath⟩,
          List.forall_mem_nil _⟩
      · rw [Function.update_of_ne hid] at ht
        exact hothers transferId t hid ht
  · have hconcat := h.concat fun transferId => @Frame.not_turns_of_append _ transferId _ _ hcall
    rcases hrun : (((UploadCall.append id data).op os).run p).1 with _ | _
    · rw [hrun] at heffect
      rwa [Begun, show transfers (((UploadCall.append id data).op os).run p).2.sessions = _
        from heffect]
    · rw [hrun] at heffect
      obtain ⟨t₀, ht₀, hmap⟩ := heffect
      intro transferId t ht
      rw [hmap] at ht
      by_cases hid : transferId = id
      · rw [hid, Function.update_self, Option.some_inj] at ht
        rw [← ht, hid]
        exact hconcat id t₀ ht₀
      · rw [Function.update_of_ne hid] at ht
        exact hconcat transferId t ht
  · exact herase heffect
  · exact herase heffect

end Begun

/-! ### Rounds and runs -/

/-- The call was requested: by the frame itself, or by the begin of the live upload that the
frame goes on with or replaces. In the second case it is about the two paths of that upload
only. -/
def RequestedBy (history : List Frame) (sessions : FileOps) (frame : Frame) (call : FileCall) :
    Prop :=
  frame.Grants call ∨ ∃ upload t, uploadCall? frame = some upload ∧
    transfers sessions upload.transferId = some t ∧
    LastBegins history upload.transferId t.finalPath ∧ call ∈ uploadFileCalls t.finalPath

/-- What holds between two rounds: the table is in order, each session has its stream, and
each transfer its begin. -/
structure Accountable (history : List Frame) (p : Proc (Recorded σ)) : Prop where
  streams : StreamsOk p
  sessions : SessionsOk p.sessions
  begun : Begun history p.sessions

namespace SdRound

variable (os : Os σ) (shell : ExecShell σ) {history : List Frame} {dev : Device (Recorded σ)}

/-- **One round.** All its calls were requested, by its frame or by the begin of the upload
it goes on with. -/
theorem requestedBy (hnames : os.ReadsNames) (h : Accountable history dev.proc)
    (round : SdRound σ) :
    ∀ call ∈ (round.handle os shell dev).proc.os.calls,
      RequestedBy history dev.proc.sessions round.frame call := by
  have hstart := round.start_streamsOk h.streams
  rw [handle]
  rcases hcall : uploadCall? round.frame with _ | call
  · have hissues := handleFrame_grants os shell round.frame (round.start dev) hnames hcall
    exact fun call hmem => .inl (hissues.issued.of_nil rfl call hmem)
  · obtain ⟨payload, hrun⟩ :=
      handleFrame_of_call os.recording shell.recording hcall (round.start dev)
    rw [hrun, (writeFrame_onlyWrites os.recording _ _).os]
    refine (UploadCall.issued_transfer os hstart call (fun t ht => ?_) ?_).of_nil rfl
    · obtain ⟨htemp, hlast⟩ := h.begun call.transferId t ht
      exact ⟨htemp, fun fileCall hmem => .inr ⟨call, t, hcall, ht, hlast, hmem⟩⟩
    · rintro transferId relative desire perm rfl final hfinal
      exact .inl (begins_of_uploadCall? hcall hfinal).grants

/-- Every round keeps what holds between rounds; its frame joins the history. -/
private theorem handle_accountable (h : Accountable history dev.proc) (round : SdRound σ) :
    Accountable (history ++ [round.frame]) (round.handle os shell dev).proc := by
  have hstreams : StreamsOk (round.handle os shell dev).proc :=
    round.handle_streamsOk shell h.streams
  rcases hcall : uploadCall? round.frame with _ | call
  · have hsessions : (round.handle os shell dev).proc.sessions = dev.proc.sessions :=
      (handleFrame_issues os shell round.frame (round.start dev) hcall).sessions
    refine ⟨hstreams, ?_, ?_⟩
    · rw [hsessions]
      exact h.sessions
    · rw [hsessions]
      refine h.begun.concat fun transferId => ?_
      rintro ⟨call, hsome, -⟩
      exact Option.some_ne_none call (hsome.symm.trans hcall)
  · have hsessions : (round.handle os shell dev).proc.sessions =
        ((call.op os.recording).run (round.start dev).proc).2.sessions :=
      (handleFrame_of_call_proc os.recording shell.recording hcall (round.start dev)).1
    have hok : SessionsOk (round.start dev).proc.sessions := h.sessions
    refine ⟨hstreams, ?_, ?_⟩
    · rw [hsessions]
      exact (hok.call os.recording call).1
    · rw [hsessions]
      exact Begun.call (p := (round.start dev).proc) h.begun hok os.recording hcall

/-- The device after some rounds. -/
def after (rounds : List (SdRound σ)) (dev : Device (Recorded σ)) : Device (Recorded σ) :=
  rounds.foldl (fun dev round => round.handle os shell dev) dev

private theorem after_accountable (h : Accountable history dev.proc) (rounds : List (SdRound σ)) :
    Accountable (history ++ rounds.map SdRound.frame) (after os shell rounds dev).proc := by
  induction rounds generalizing history dev with
  | nil => rwa [List.map_nil, List.append_nil]
  | cons round rounds ih =>
    rw [List.map_cons, List.append_cons]
    exact ih (handle_accountable os shell h round)

end SdRound

/-- **Every call on a file was requested.** In every run, with anything happening between
the frames and any outcomes of the system calls: a call that creates, writes, renames,
changes or removes a file, made while a frame is handled, is one that this frame stands for,
or one on the paths of a live upload that the frame goes on with or replaces. The last frame
before it that began or ended an upload with this id is the one that named the path. All
paths of the call are plain, and when the frame asks to delete or to rename, none of them is
a storage root. -/
theorem every_call_requested (os : Os σ) (hnames : os.ReadsNames) (shell : ExecShell σ)
    (cfg : Config) (s : σ) (rounds : List (SdRound σ)) (round : SdRound σ) :
    let dev := SdRound.after os shell rounds (recordedBoot cfg s)
    ∀ call ∈ (round.handle os shell dev).proc.os.calls,
      RequestedBy (rounds.map SdRound.frame) dev.proc.sessions round.frame call ∧
      (∀ path ∈ call.paths, PlainPath path) ∧
      (round.frame.header.type = MsgType.fileDelete.code ∨
        round.frame.header.type = MsgType.fileRename.code →
          ∀ path ∈ call.paths, pathIsStorageRoot path = false) := by
  intro dev call hcall
  have hboot : Accountable [] (recordedBoot cfg s).proc := by
    refine ⟨recordedBoot_streamsOk cfg s, SessionsOk.init, fun transferId t ht => ?_⟩
    have hnone : transfers fileOpsInit transferId = none :=
      transfers_eq_none_iff.mpr (SlotTable.find_eq_none_iff.mpr fun i hi => by
        simp [fileOpsInit, UploadSession.key] at hi)
    rw [show (recordedBoot cfg s).proc.sessions = fileOpsInit from rfl, hnone] at ht
    simp at ht
  have hafter := SdRound.after_accountable os shell hboot rounds
  rw [List.nil_append] at hafter
  have hrequested := round.requestedBy os shell hnames hafter call hcall
  refine ⟨hrequested, fun path hpath => ?_, fun htype path hpath => ?_⟩
  · obtain hgrants | ⟨upload, t, -, -, hlast, hmem⟩ := hrequested
    · exact hgrants.plain hpath
    · exact hlast.plain.of_mem_uploadFileCalls hmem hpath
  · obtain hgrants | ⟨upload, t, hupload, -⟩ := hrequested
    · exact hgrants.notRoot htype hpath
    · rw [uploadCall?_of_changes htype] at hupload
      simp at hupload

/-- The byte for an upload begun a frame before is written where that frame asks for it. -/
theorem every_call_requested_chunk :
    RequestedBy ([beginRound].map SdRound.frame)
        (SdRound.after sdOs sdShell [beginRound] (recordedBoot ⟨0, 0, 0⟩ Fs.empty)).proc.sessions
        chunkRound.frame (.write (utf8 "/sd/a.part")) ∧
      PlainPath (utf8 "/sd/a.part") := by
  obtain ⟨hrequested, hplain, -⟩ := every_call_requested sdOs
    (fun _ _ _ hopen => absurd hopen (by
      simp [sdOs, Os.withFs, Os.withMountinfo, Os.failing])) sdShell ⟨0, 0, 0⟩
    Fs.empty [beginRound] chunkRound (.write (utf8 "/sd/a.part")) (by decide +kernel)
  exact ⟨hrequested, hplain _ (by simp [FileCall.paths])⟩

end UsbResponder
