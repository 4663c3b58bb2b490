import UsbResponder.FileOps.ErrorTexts
import UsbResponder.FileOps.SdUploads

/-!
# The paths a request names

The operations that change files do so along the path of a request, and nowhere else. What
that means depends on the operation: deleting stays at or below the path
(`fileDelete_issuesAt_within`), creating directories stays on the way to it
(`dirMkdir_issuesAt_inits`), renaming is about the two paths only
(`fileRename_issuesAt_paths`), and an upload works on its path and on the temporary path
beside it (`UploadCall.issued_transfer`). Each result is for any property `Q` of calls that
holds of these, so the calls of a request can be charged to it.

All of these paths are plain: absolute, and without empty components, `.` and `..`. For a
deletion this needs that `readdir` yields names of entries (`Os.ReadsNames`), which is the
one thing assumed of the outside.

Paths are compared as byte strings. Where a symbolic link leads is for the system calls to
say, and not in these results.
-/

namespace UsbResponder

open CString Components

variable {σ α : Type}

/-! ### Plain paths -/

/-- A component that names an entry of a directory: not the directory itself, and not the
one above. -/
def IsEntryName (c : Bytes) : Prop := IsComponent slash c ∧ c ≠ utf8 "." ∧ c ≠ utf8 ".."

/-- An absolute path whose components all name entries. Two plain paths are the same place
only if they are the same bytes, links apart. -/
def PlainPath (path : Bytes) : Prop := ∃ cs, (∀ c ∈ cs, IsEntryName c) ∧ path = normalPath cs

/-- The path `build_path` delivers for the path of a request, when it does not refuse it. -/
def Resolves (relative path : Bytes) : Prop :=
  ∃ storage, buildPath relative pathMaxLen = (path, .ok storage)

theorem Resolves.components {relative path : Bytes} (h : Resolves relative path) :
    (∀ c ∈ pathComponents relative, IsEntryName c) ∧
      path = normalPath (pathComponents relative) := by
  obtain ⟨storage, hbuilt⟩ := h
  obtain ⟨hup, -, hpath, -⟩ := (buildPath_eq_ok_iff (by decide)).mp hbuilt
  refine ⟨fun c hc => ?_, hpath⟩
  obtain ⟨hcomponent, hdot⟩ := normalComponents_pathComponents relative c hc
  exact ⟨hcomponent, hdot, fun h => hup (h ▸ hc)⟩

theorem Resolves.plain {relative path : Bytes} (h : Resolves relative path) : PlainPath path :=
  ⟨_, h.components⟩

/-- A directory on the way to a plain path has a plain path too. It is what a request with
`parents` asks for. -/
theorem plainPath_of_prefix {relative path : Bytes} (h : Resolves relative path) {q : List Bytes}
    (hq : q <+: pathComponents relative) : PlainPath (normalPath q) :=
  ⟨q, fun c hc => h.components.1 c (hq.subset hc), rfl⟩

/-- `path` is `dir`, or reached from it through entries of directories. These are the paths
a recursive removal comes to. -/
inductive Within (dir : Bytes) : Bytes → Prop
  | self : Within dir dir
  | entry {path name : Bytes} (h : Within dir path) (hname : IsEntryName name) :
    Within dir (childPath path name)

/-- An entry of a plain path other than the root has a plain path. -/
private theorem plainPath_childPath {cs : List Bytes} (hcs : ∀ c ∈ cs, IsEntryName c)
    (hne : cs ≠ [])
    (name : Bytes) : childPath (normalPath cs) name = normalPath (cs ++ [name]) := by
  have hcomponents : ∀ c ∈ cs, IsComponent slash c := fun c hc => (hcs c hc).1
  rw [normalPath_append hcomponents, if_pos ((one_lt_length_normalPath hcomponents).mpr hne),
    childPath]

theorem Within.components {dir path : Bytes} (h : Within dir path) {cs : List Bytes}
    (hcs : ∀ c ∈ cs, IsEntryName c) (hne : cs ≠ []) (hdir : dir = normalPath cs) :
    ∃ names, (∀ name ∈ names, IsEntryName name) ∧ path = normalPath (cs ++ names) := by
  induction h with
  | self => exact ⟨[], by simp, by rw [hdir, List.append_nil]⟩
  | @entry path name _ hname ih =>
    obtain ⟨names, hnames, rfl⟩ := ih
    have hall : ∀ c ∈ cs ++ names, IsEntryName c := fun c hc =>
      (List.mem_append.mp hc).elim (hcs c) (hnames c)
    refine ⟨names ++ [name], fun c hc => ?_, ?_⟩
    · obtain hc | hc := List.mem_append.mp hc
      · exact hnames c hc
      · exact List.mem_singleton.mp hc ▸ hname
    · rw [plainPath_childPath hall (List.append_ne_nil_of_left_ne_nil hne _), List.append_assoc]

/-- Nothing within a path other than a storage root is a storage root. -/
theorem Within.notRoot {relative dir path : Bytes} (h : Within dir path)
    (hdir : Resolves relative dir) (hroot : pathIsStorageRoot dir = false) :
    pathIsStorageRoot path = false := by
  obtain ⟨hcs, rfl⟩ := hdir.components
  have hnormal : ∀ {cs : List Bytes}, (∀ c ∈ cs, IsEntryName c) → NormalComponents cs :=
    fun hcs c hc => ⟨(hcs c hc).1, (hcs c hc).2.1⟩
  rw [Bool.eq_false_iff, ne_eq, pathIsStorageRoot_normalPath (hnormal hcs), not_or] at hroot
  obtain ⟨hne, hsd⟩ := hroot
  obtain ⟨names, hnames, rfl⟩ := h.components hcs hne rfl
  have hall : ∀ c ∈ pathComponents relative ++ names, IsEntryName c :=
    List.forall_mem_append.mpr ⟨hcs, hnames⟩
  rw [Bool.eq_false_iff, ne_eq, pathIsStorageRoot_normalPath (hnormal hall), not_or]
  refine ⟨fun hnil => hne (List.append_eq_nil_iff.mp hnil).1, fun hone => ?_⟩
  obtain ⟨hnil, -⟩ | ⟨hdir, -⟩ := List.append_eq_singleton_iff.mp hone
  · exact hne hnil
  · exact hsd hdir

/-- What is removed with a path that is no storage root has a plain path. -/
theorem Within.plain {relative dir path : Bytes} (h : Within dir path)
    (hdir : Resolves relative dir) (hroot : pathIsStorageRoot dir = false) : PlainPath path := by
  obtain ⟨hcs, hpath⟩ := hdir.components
  have hne : pathComponents relative ≠ [] := by
    intro hnil
    rw [hpath, hnil] at hroot
    exact absurd hroot (by decide)
  obtain ⟨names, hnames, rfl⟩ := h.components hcs hne hpath
  exact ⟨_, fun c hc => (List.mem_append.mp hc).elim (hcs c) (hnames c), rfl⟩

/-- The temporary path beside a plain path is plain: it is that of another entry. -/
theorem PlainPath.part {path : Bytes} (h : PlainPath path) : PlainPath (path ++ utf8 ".part") := by
  have hlen : (utf8 ".part").length = 5 := by decide
  have hslash : slash ∉ utf8 ".part" := by decide
  have hpart : ∀ c : Bytes, slash ∉ c → IsEntryName (c ++ utf8 ".part") := by
    intro c hc
    refine ⟨⟨fun hnil => ?_, fun hmem => ?_⟩, fun hdot => ?_, fun hdots => ?_⟩
    · exact absurd (List.append_eq_nil_iff.mp hnil).2 (by decide)
    · exact (List.mem_append.mp hmem).elim hc hslash
    · have := congrArg List.length hdot
      rw [List.length_append, hlen, show (utf8 ".").length = 1 by decide] at this
      omega
    · have := congrArg List.length hdots
      rw [List.length_append, hlen, show (utf8 "..").length = 2 by decide] at this
      omega
  obtain ⟨cs, hcs, rfl⟩ := h
  obtain rfl | ⟨cs, c, rfl⟩ := List.eq_nil_or_concat' cs
  · refine ⟨[utf8 ".part"], fun c hc => ?_, by decide⟩
    rw [List.mem_singleton.mp hc]
    exact hpart [] (by simp)
  · refine ⟨cs ++ [c ++ utf8 ".part"], fun d hd => ?_, ?_⟩
    · obtain hd | hd := List.mem_append.mp hd
      · exact hcs d (List.mem_append_left _ hd)
      · rw [List.mem_singleton.mp hd]
        exact hpart c (hcs c (by simp)).1.2
    · have hcomponents : ∀ d ∈ cs, IsComponent slash d := fun d hd =>
        (hcs d (List.mem_append_left _ hd)).1
      rw [normalPath_append hcomponents, normalPath_append hcomponents, List.append_assoc]

/-! ### Deleting, creating directories, renaming -/

/-- What `opendir` yields are names: not empty, and without a slash. -/
def Os.ReadsNames (os : Os σ) : Prop :=
  ∀ path s names, (os.opendir path s).1 = .ok names → ∀ name ∈ names, IsComponent slash name

section OneFrame

variable (os : Os σ) {Q : FileCall → Prop} {p : Proc (Recorded σ)}

private theorem removeEntries_issues_of_mem {remove : Bytes → Op (Recorded σ) Unit}
    {absPath : Bytes} {names : List Bytes} (h : ∀ name ∈ names, isDotName name = false →
      (remove (childPath absPath name)).Issues Q) :
    (removeEntries remove absPath names).Issues Q := by
  induction names with
  | nil => exact Op.issues_pure ()
  | cons name names ih =>
    rw [removeEntries]
    dsimp only
    have hrest := ih fun name hname => h name (List.mem_cons_of_mem _ hname)
    split_ifs with hdot
    · exact hrest
    · exact Op.issues_failWith _
    · exact (h name List.mem_cons_self (Bool.eq_false_iff.mpr hdot)).bind fun _ => hrest

/-- **Removing.** At any depth it stays within the path it starts from. The induction is on
the fuel, and inside it on the names of a directory. -/
theorem removePathRecursive_issues_within (hnames : os.ReadsNames) {dir : Bytes}
    (hQ : ∀ path, Within dir path → Q (.unlink path) ∧ Q (.rmdir path)) (fuel : ℕ) {path : Bytes}
    (hpath : Within dir path) : (removePathRecursive os.recording fuel path).Issues Q := by
  induction fuel generalizing path with
  | zero => exact Op.issues_fail
  | succ fuel ih =>
    rw [removePathRecursive]
    refine (Op.issues_lift _).bind fun found => ?_
    rcases found with e | st
    · exact Op.issues_failFile _ _ _ _
    dsimp only
    split_ifs
    · intro p
      refine (Op.issues_lift (os.opendir path) p).bind fun opened p' hrun => ?_
      rcases opened with e | names
      · exact Op.issues_failFile _ _ _ _ p'
      have hopened : (os.opendir path p.os.inner).1 = .ok names :=
        Option.some.inj (congrArg Prod.fst hrun)
      refine Op.Issues.bind (removeEntries_issues_of_mem fun name hname hdot => ?_) (fun _ => ?_) p'
      · rw [isDotName, Bool.or_eq_false_iff, decide_eq_false_iff_not,
          decide_eq_false_iff_not] at hdot
        exact ih (hpath.entry ⟨hnames path _ names hopened name hname, hdot⟩)
      · refine (Op.issues_issue (hQ path hpath).2 _).bind fun removed => ?_
        rcases removed with _ | e
        · exact Op.issues_pure ()
        · exact Op.issues_failFile _ _ _ _
    · refine (Op.issues_issue (hQ path hpath).1 _).bind fun removed => ?_
      rcases removed with _ | e
      · exact Op.issues_pure ()
      · exact Op.issues_failFile _ _ _ _

theorem fileDelete_issuesAt_within (hnames : os.ReadsNames) {relativePath : Bytes}
    (hQ : ∀ dir, Resolves relativePath dir → pathIsStorageRoot dir = false →
      ∀ path, Within dir path → Q (.unlink path) ∧ Q (.rmdir path)) (desireStorage : Option Bytes) :
    (fileDelete os.recording relativePath desireStorage).IssuesAt Q p := by
  refine (buildPathOp_issues relativePath p).bind fun path p₁ hpath => ?_
  obtain ⟨hbuilt, -⟩ := eq_of_buildPathOp hpath
  refine (pathStorageMatchesDesire_issues _ desireStorage _).bind fun _ p₂ _ => ?_
  refine ensureStorageWriteable_issuesAt os fun p₃ _ _ => ?_
  split_ifs with hroot
  · exact Op.issues_failWith _ _
  · exact removePathRecursive_issues_within os hnames
      (hQ _ ⟨_, hbuilt⟩ (Bool.eq_false_iff.mpr hroot)) _ .self _

/-- **Creating directories.** They are the ones on the way. -/
theorem mkdirWalk_issues (seen cs : List Bytes)
    (hQ : ∀ q, q <+: seen ++ cs → Q (.mkdir (normalPath q))) :
    (mkdirWalk os.recording seen cs).Issues Q := by
  induction cs generalizing seen with
  | nil => exact Op.issues_pure ()
  | cons c cs ih =>
    have hnext := ih (seen ++ [c]) (by simpa using hQ)
    have hmade : seen ++ [c] <+: seen ++ c :: cs := ⟨cs, by simp⟩
    rw [mkdirWalk]
    refine (Op.issues_issue (hQ _ hmade) _).bind fun made => ?_
    rcases made with _ | e
    · exact hnext
    dsimp only
    split_ifs
    · exact Op.issues_failFile _ _ _ _
    refine (Op.issues_lift _).bind fun found => ?_
    rcases found with e | st
    · exact Op.issues_failFile _ _ _ _
    dsimp only
    split_ifs
    · exact Op.issues_failWith _
    · exact hnext

theorem dirMkdir_issuesAt_inits {relativePath : Bytes}
    (hQ : (∃ path, Resolves relativePath path) →
      ∀ q, q <+: pathComponents relativePath → Q (.mkdir (normalPath q)))
    (parents : Bool) (desireStorage : Option Bytes) :
    (dirMkdir os.recording relativePath parents desireStorage).IssuesAt Q p := by
  refine (buildPathOp_issues relativePath p).bind fun path p₁ hpath => ?_
  obtain ⟨hbuilt, -⟩ := eq_of_buildPathOp hpath
  obtain ⟨hcs, hnormal⟩ := Resolves.components ⟨_, hbuilt⟩
  have hcomponents : ∀ c ∈ pathComponents relativePath, IsComponent slash c :=
    fun c hc => (hcs c hc).1
  replace hQ := hQ ⟨_, _, hbuilt⟩
  refine (pathStorageMatchesDesire_issues _ desireStorage _).bind fun _ p₂ _ => ?_
  refine ensureStorageWriteable_issuesAt os fun p₃ _ _ => ?_
  split_ifs
  · rw [mkdirLoop_eq_walk_of_buildPath os.recording hbuilt]
    exact mkdirWalk_issues os [] _ hQ p₃
  · refine Op.Issues.bind (Op.issues_issue ?_ _) (fun made => ?_) _
    · rw [hnormal]
      exact hQ _ List.prefix_rfl
    · rcases made with _ | e
      · exact Op.issues_pure ()
      · exact Op.issues_failFile _ _ _ _

theorem fileRename_issuesAt_paths {fromRelative toRelative : Bytes}
    (hQ : ∀ fromPath toPath, Resolves fromRelative fromPath → Resolves toRelative toPath →
      pathIsStorageRoot fromPath = false → pathIsStorageRoot toPath = false →
      Q (.rename fromPath toPath)) (desireStorage : Option Bytes) :
    (fileRename os.recording fromRelative toRelative desireStorage).IssuesAt Q p := by
  refine (buildPathOp_issues fromRelative p).bind fun fromPath p₁ hfrom => ?_
  obtain ⟨hfromBuilt, -⟩ := eq_of_buildPathOp hfrom
  refine (buildPathOp_issues toRelative _).bind fun toPath p₂ hto => ?_
  obtain ⟨htoBuilt, -⟩ := eq_of_buildPathOp hto
  refine (pathStorageMatchesDesire_issues _ desireStorage _).bind fun _ p₃ _ => ?_
  refine (pathStorageMatchesDesire_issues _ desireStorage _).bind fun _ p₄ _ => ?_
  refine ensureStorageWriteable_issuesAt os fun p₅ _ _ => ?_
  have hrest : (renameChecked os.recording fromPath toPath).Issues Q := by
    unfold renameChecked
    split_ifs with hroot
    · exact Op.issues_failWith _
    · exact Op.issues_failWith _
    · rw [Bool.or_eq_true, not_or, Bool.not_eq_true, Bool.not_eq_true] at hroot
      have hrename := hQ _ _ ⟨_, hfromBuilt⟩ ⟨_, htoBuilt⟩ hroot.1 hroot.2
      refine (Op.issues_issue hrename _).bind fun moved => ?_
      rcases moved with _ | e
      · exact Op.issues_pure ()
      · exact Op.issues_failFile _ _ _ _
  by_cases hstorage : toPath.2 ≠ fromPath.2
  · rw [if_pos hstorage]
    exact ensureStorageWriteable_issuesAt os fun p₆ _ _ => hrest p₆
  · rw [if_neg hstorage]
    exact hrest p₅

end OneFrame

/-! ### Uploads -/

/-- The calls of an upload to a path: they are about the temporary path beside it, until
that is renamed. The final path is changed by the rename, its mode by the `chmod` behind it,
and it is removed when that fails. -/
def uploadFileCalls (path : Bytes) : List FileCall :=
  let temp := path ++ utf8 ".part"
  [.create temp, .write temp, .rename temp path, .chmod path, .unlink temp, .unlink path]

theorem PlainPath.of_mem_uploadFileCalls {final : Bytes} (h : PlainPath final) {call : FileCall}
    (hcall : call ∈ uploadFileCalls final) {path : Bytes} (hpath : path ∈ call.paths) :
    PlainPath path := by
  have hmem : path = final ++ utf8 ".part" ∨ path = final := by
    simp only [uploadFileCalls, List.mem_cons, List.not_mem_nil, or_false] at hcall
    rcases hcall with rfl | rfl | rfl | rfl | rfl | rfl <;>
      simp only [FileCall.paths, List.mem_cons, List.not_mem_nil, or_false] at hpath <;>
      tauto
  rcases hmem with rfl | rfl
  · exact h.part
  · exact h

/-- The transfer an upload call is about. -/
def UploadCall.transferId : UploadCall → UInt32
  | .begin transferId .. => transferId
  | .append transferId _ => transferId
  | .finish transferId => transferId
  | .abort transferId => transferId

section Uploads

variable (os : Os σ) {Q : FileCall → Prop} {p : Proc (Recorded σ)} {transferId : UInt32}
  {i : Fin maxUploadSessions}

/-- What a finish issues: it closes the stream of the session, renames, and sets the mode. -/
private theorem fileFinishUpload_issued (h : StreamsOk p)
    (hfind : findSession p.sessions transferId = some i) {final : Bytes}
    (hfinal : (p.sessions i).finalPath = final)
    (htemp : (p.sessions i).tempPath = final ++ utf8 ".part")
    (hQ : ∀ call ∈ uploadFileCalls final, Q call) :
    Recorded.Issued Q p.os ((fileFinishUpload os.recording transferId).run p).2.os := by
  have hclosed : Recorded.Issued Q p.os
      (closeStream os.recording (p.sessions i).fp p).os :=
    (h i).closeStream os (used_of_findSession hfind) (hQ _ (by simp [htemp, uploadFileCalls]))
  simp only [fileFinishUpload, hfind, hfinal, htemp]
  refine hclosed.trans ?_
  have hrenamed : Recorded.Issued Q (closeStream os.recording (p.sessions i).fp p).os
      (os.recording.rename (final ++ utf8 ".part") final
        (closeStream os.recording (p.sessions i).fp p).os).2 :=
    (Recorded.Issued.of_issue (hQ _ (by simp [uploadFileCalls])) _).trans (.of_lift _ _)
  rcases hmove : os.recording.rename (final ++ utf8 ".part") final
    (closeStream os.recording (p.sessions i).fp p).os with ⟨_ | e, r⟩
  · rw [hmove] at hrenamed
    refine hrenamed.trans ?_
    dsimp only
    split_ifs
    · have hchmod : Recorded.Issued Q r
          (os.recording.chmod final (p.sessions i).fileMode r).2 :=
        (Recorded.Issued.of_issue (hQ _ (by simp [uploadFileCalls])) r).trans (.of_lift _ _)
      rcases hmode : os.recording.chmod final (p.sessions i).fileMode r with ⟨_ | e, r'⟩
      · rw [hmode] at hchmod
        exact hchmod
      · rw [hmode] at hchmod
        refine hchmod.trans (issued_unlinkPath os (hQ _ ?_) { p with os := r' })
        simp [uploadFileCalls]
    · exact .refl r
  · rw [hmove] at hrenamed
    refine hrenamed.trans (issued_unlinkPath os (hQ _ ?_) { p with os := r })
    simp [uploadFileCalls]

/-- **One call of an upload.** All it issues belongs to the transfer its id stands for, or
to the upload it begins. A begin of an id that is live aborts the old transfer first, so it
may issue both kinds. -/
theorem UploadCall.issued_transfer (h : StreamsOk p) (call : UploadCall)
    (hlive : ∀ t, transfers p.sessions call.transferId = some t →
      t.tempPath = t.finalPath ++ utf8 ".part" ∧ ∀ call ∈ uploadFileCalls t.finalPath, Q call)
    (hbegin : ∀ transferId path desireStorage perm,
      call = .begin transferId path desireStorage perm →
      ∀ final, Resolves path final → Q (.create (final ++ utf8 ".part"))) :
    Recorded.Issued Q p.os ((call.op os.recording).run p).2.os := by
  have hsession : ∀ {i}, findSession p.sessions call.transferId = some i →
      (p.sessions i).tempPath = (p.sessions i).finalPath ++ utf8 ".part" ∧
        ∀ call ∈ uploadFileCalls (p.sessions i).finalPath, Q call := fun hfind =>
    hlive _ (transfers_of_findSession hfind)
  have habort : Recorded.Issued Q p.os
      ((fileAbortUpload os.recording call.transferId).run p).2.os := by
    rcases hfind : findSession p.sessions call.transferId with _ | i
    · rw [fileAbortUpload_of_none hfind]
      exact .refl p.os
    · obtain ⟨htemp, hQ⟩ := hsession hfind
      refine fileAbortUpload_issued os h hfind (hQ _ ?_) (hQ _ ?_)
      · simp [htemp, uploadFileCalls]
      · simp [htemp, uploadFileCalls]
  rcases call with ⟨transferId, path, desire, perm⟩ | ⟨transferId, data⟩ | transferId | transferId
  · have hbefore : Recorded.Issued Q p.os
        (UsbResponder.beforeBegin os.recording transferId p).os := by
      rw [UsbResponder.beforeBegin]
      rcases hfind : findSession p.sessions transferId with _ | i
      · exact .refl p.os
      · exact habort
    exact hbefore.trans (fileBeginUpload_issued os p transferId fun target hchecks =>
      hbegin _ _ _ _ rfl _ ⟨_, hchecks.path⟩)
  · refine fileAppendUploadChunk_issued os h fun i _ hfind => ?_
    obtain ⟨htemp, hQ⟩ := hsession hfind
    exact hQ _ (by simp [htemp, uploadFileCalls])
  · rcases hfind : findSession p.sessions transferId with _ | i
    · simp only [UploadCall.op, fileFinishUpload, hfind]
      exact .refl p.os
    · obtain ⟨htemp, hQ⟩ := hsession hfind
      exact fileFinishUpload_issued os h hfind rfl htemp hQ
  · exact habort

end Uploads

end UsbResponder
