import UsbResponder.FileOps.OpenUpload
import UsbResponder.FileOps.Tree

/-!
# Operations that report their failures

`g_last_error` is one buffer for the whole process, and a handler that reports a failure
reads it after the operation has returned. No operation reads it itself, so an operation
does the same whatever it finds there, and a report is about the operation if the operation
has set the buffer before it returns `false`.

`Op.Reports mute` says this of an operation, with the case `mute` in which it may fail
without a word. The rules of the section below make it a matter of the calls an operation is
built of, and every operation here but `fileList` is never mute: that one says nothing when
the directory cannot be opened (`fileList_reportsAt`).

Both halves are in one statement, that an operation has an `Outcome`: a result, a process,
and the last error if it sets one, from which the run for any last error found is computed.
So the rules carry the independence of the buffer along with the duty to set it, and no
operation has to be treated twice.

What the texts say is not the subject here but that of `FileOps.ErrorTexts`.
-/

namespace UsbResponder

open CString

variable {σ α β : Type}

/-! ### Texts of the error buffer -/

/-- A text that begins with a character, so that it is not the empty text when it is read as
a C string. -/
def Speaks (text : Bytes) : Prop := (text.head?.any (· != 0)) = true

instance (text : Bytes) : Decidable (Speaks text) :=
  inferInstanceAs (Decidable (text.head?.any (· != 0) = true))

theorem Speaks.append {pre : Bytes} (h : Speaks pre) (rest : Bytes) : Speaks (pre ++ rest) := by
  rcases pre with _ | ⟨b, pre⟩
  · exact absurd h (by decide)
  · exact h

theorem Speaks.snprintf {text : Bytes} (h : Speaks text) {size : ℕ} (hsize : 1 < size) :
    Speaks (snprintf size text) := by
  rw [Speaks, CString.snprintf, List.head?_take, if_neg (by omega)]
  exact h

/-- A text the error buffer can hold: a C string that fits, and is empty only as a buffer.
This is what a message has become when the response is made of it. -/
structure ErrorText (text : Bytes) : Prop where
  fits : text.length < 256
  head : text.head? ≠ some 0

/-- The buffer holds such a text after a message is stored. -/
theorem Speaks.errorText {msg : Bytes} (h : Speaks msg) : ErrorText (CString.snprintf 256 msg) := by
  refine ⟨lt_of_le_of_lt (length_snprintf_le 256 msg) (by decide), fun hnul => ?_⟩
  have hspeaks := h.snprintf (show 1 < 256 by decide)
  rw [Speaks, hnul] at hspeaks
  exact absurd hspeaks (by decide)

/-- So it does after a message about a file, or with the text of `errno` behind it. -/
theorem Speaks.errorText_file {pre : Bytes} (h : Speaks pre) (size : ℕ) (hsize : 1 < size)
    (rest : Bytes) : ErrorText (CString.snprintf 256 (CString.snprintf size (pre ++ rest))) :=
  ((h.append rest).snprintf hsize).errorText

/-! ### Outcomes -/

/-- What an operation does, apart from the last error it finds: its result, the process
after it, and the last error it has set, if it has. -/
structure Outcome (σ α : Type) where
  result : Option α
  proc : Proc σ
  error : Option Bytes

/-- The run of an operation with a given outcome that has found the last error `found`. -/
def Outcome.after (o : Outcome σ α) (found : Bytes) : Option α × Proc σ :=
  (o.result, { o.proc with lastError := o.error.getD found })

/-- On the process `p`, whatever its last error, the operation has one outcome: it does not
read the last error, sets it to texts of the buffer only, and fails without setting it only
if `mute` holds. -/
def Op.ReportsAt (mute : Prop) (x : Op σ α) (p : Proc σ) : Prop :=
  ∃ o : Outcome σ α, (∀ e, x.run { p with lastError := e } = o.after e) ∧
    (∀ msg ∈ o.error, ErrorText msg) ∧ (o.result = none → o.error = none → mute)

/-- So it is on every process. -/
def Op.Reports (mute : Prop) (x : Op σ α) : Prop := ∀ p, x.ReportsAt mute p

namespace Op

variable {mute : Prop}

theorem reports_pure (a : α) : (pure a : Op σ α).Reports mute :=
  fun p => ⟨⟨some a, p, none⟩, fun _ => rfl, by simp, by simp⟩

theorem reports_sys (call : σ → β × σ) : (sys call).Reports mute :=
  fun p => ⟨⟨some (call p.os).1, { p with os := (call p.os).2 }, none⟩, fun _ => rfl, by simp,
    by simp⟩

theorem reports_fail (h : mute) : (fail : Op σ α).Reports mute :=
  fun p => ⟨⟨none, p, none⟩, fun _ => rfl, by simp, fun _ _ => h⟩

theorem reports_failClosing (os : Os σ) (fp : ℕ) (h : mute) :
    (failClosing os fp : Op σ α).Reports mute :=
  fun p => ⟨⟨none, { p with os := (os.fclose fp p.os).2 }, none⟩, fun _ => rfl, by simp,
    fun _ _ => h⟩

private theorem reports_failWith {msg : Bytes} (h : Speaks msg) :
    (failWith msg : Op σ α).Reports mute :=
  fun p => ⟨⟨none, p, some (snprintf 256 msg)⟩, fun _ => rfl, fun _ hmsg =>
    Option.some.inj hmsg ▸ h.errorText, by simp⟩

private theorem reports_failFile (os : Os σ) {pre : Bytes} (h : Speaks pre) (path : Bytes)
    (e : Errno) : (failFile os pre path e : Op σ α).Reports mute := by
  have htext := h.errorText_file 512 (by decide) (utf8 " " ++ path ++ utf8 ": " ++ os.strerror e)
  simp only [← List.append_assoc] at htext
  refine fun p => ⟨⟨none, p, some _⟩, fun _ => rfl, ?_, by simp⟩
  rintro msg ⟨⟩
  exact htext

/-- An operation in two steps reports what either of them reports; the second one runs only
on values that the first one returns. -/
theorem Reports.bind_of_run {x : Op σ β} {f : β → Op σ α} (hx : x.Reports mute)
    (hf : ∀ p b p', x.run p = (some b, p') → (f b).Reports mute) : (x >>= f).Reports mute := by
  intro p
  obtain ⟨⟨_ | b, p₁, error₁⟩, hrun₁, htext₁, hmute₁⟩ := hx p
  · exact ⟨⟨none, p₁, error₁⟩, fun e => run_bind_of_none (hrun₁ e), htext₁,
      fun _ => hmute₁ rfl⟩
  · obtain ⟨⟨result, p₂, error₂⟩, hrun₂, htext₂, hmute₂⟩ := hf _ b _ (hrun₁ p.lastError) p₁
    refine ⟨⟨result, p₂, error₂.or error₁⟩, fun e => ?_, ?_, fun hnone herror => ?_⟩
    · rw [run_bind_of_some (hrun₁ e)]
      refine (hrun₂ (error₁.getD e)).trans ?_
      rcases error₂ with _ | msg <;> rfl
    · intro msg hmsg
      obtain hmsg | ⟨-, hmsg⟩ := Option.or_eq_some_iff.mp hmsg
      · exact htext₂ msg hmsg
      · exact htext₁ msg hmsg
    · exact hmute₂ hnone (Option.or_eq_none_iff.mp herror).1

theorem Reports.bind {x : Op σ β} {f : β → Op σ α} (hx : x.Reports mute)
    (hf : ∀ b, (f b).Reports mute) : (x >>= f).Reports mute :=
  hx.bind_of_run fun _ b _ _ => hf b

end Op

/-! ### Paths and checks -/

variable {mute : Prop} (os : Os σ)

/-- The errors of `build_path` begin with a letter. -/
private theorem speaks_of_buildPath {relative msg : Bytes} {outSize : ℕ}
    (h : (buildPath relative outSize).2 = .error msg) : Speaks msg := by
  obtain rfl | rfl := buildPath_error h
  · decide
  · decide

private theorem buildPathOp_reports (relative : Bytes) :
    (buildPathOp relative : Op σ (Bytes × Storage)).Reports mute := by
  rw [buildPathOp]
  rcases hpath : buildPath relative pathMaxLen with ⟨path, msg | storage⟩
  · exact Op.reports_failWith (speaks_of_buildPath (congrArg Prod.snd hpath))
  · exact Op.reports_pure _

private theorem pathStorageMatchesDesire_reports (actual : Storage) (desireStorage : Option Bytes) :
    (pathStorageMatchesDesire actual desireStorage : Op σ Unit).Reports mute := by
  rcases desireStorage with _ | desire
  · exact Op.reports_pure ()
  · rw [pathStorageMatchesDesire]
    split_ifs
    · exact Op.reports_pure ()
    · rcases storageFromName desire with _ | desired
      · exact Op.reports_failWith (by decide)
      · dsimp only
        split_ifs
        · exact Op.reports_pure ()
        · refine Op.reports_failWith ?_
          rcases desired with _ | _ <;> rcases actual with _ | _ <;> decide

/-- Asking for the mount never fails. -/
theorem isSdMounted_reports : (isSdMounted os).Reports mute :=
  fun p => ⟨⟨some ((os.mountinfo p.os).1.bind fun lines =>
      lines.findSome? mountinfoLineSource).isSome, { p with os := (os.mountinfo p.os).2 }, none⟩,
    fun e => isSdMounted_run os { p with lastError := e }, by simp, by simp⟩

private theorem ensureStorageWriteable_reports (storage : Storage) :
    (ensureStorageWriteable os storage).Reports mute := by
  rcases storage with _ | _
  · exact Op.reports_pure ()
  · refine (isSdMounted_reports os).bind fun mounted => ?_
    split_ifs
    · exact Op.reports_pure ()
    · exact Op.reports_failWith (by decide)

/-! ### The file tree -/

/-- Failing with the text of `errno`. -/
private theorem reports_errno {pre : Bytes} (h : Speaks pre) (e : Errno) :
    (⟨fun p => (none, p.setErrnoError os pre e)⟩ : Op σ α).Reports mute := by
  have htext := h.errorText_file 256 (by decide) (utf8 ": " ++ os.strerror e)
  rw [← List.append_assoc] at htext
  refine fun p => ⟨⟨none, p, some _⟩, fun _ => rfl, ?_, by simp⟩
  rintro msg ⟨⟩
  exact htext

private theorem failStream_reports (fp : ℕ) {pre : Bytes} (h : Speaks pre) (e : Errno) :
    (failStream os fp pre e : Op σ α).Reports mute := by
  have htext := h.errorText_file 256 (by decide) (utf8 ": " ++ os.strerror e)
  rw [← List.append_assoc] at htext
  refine fun p => ⟨⟨none, { p with os := (os.fclose fp p.os).2 }, some _⟩, fun _ => rfl, ?_,
    by simp⟩
  rintro msg ⟨⟩
  exact htext

/-- Failing with a text of one's own, and the stream closed. -/
private theorem failClosing_reports (fp : ℕ) {msg : Bytes} (h : Speaks msg) :
    (⟨fun p => (Op.failClosing os fp).run (p.setLastError msg)⟩ : Op σ α).Reports mute := by
  refine fun p => ⟨⟨none, { p with os := (os.fclose fp p.os).2 }, some (snprintf 256 msg)⟩,
    fun _ => rfl, ?_, by simp⟩
  rintro _ ⟨⟩
  exact h.errorText

private theorem readFileAll_reports (path : Bytes) : (readFileAll os path).Reports mute := by
  rw [readFileAll]
  refine (Op.reports_sys _).bind fun opened => ?_
  rcases opened with e | fp
  · exact reports_errno os (by decide) e
  · refine (Op.reports_sys _).bind fun sought => ?_
    rcases sought with _ | e
    · refine (Op.reports_sys _).bind fun told => ?_
      rcases told with e | fileSize
      · exact failStream_reports os fp (by decide) e
      · refine (Op.reports_sys _).bind fun back => ?_
        rcases back with _ | e
        · dsimp only
          split_ifs
          · exact (Op.reports_sys _).bind fun _ => Op.reports_pure _
          refine (Op.reports_sys _).bind fun granted => ?_
          split_ifs
          · refine (Op.reports_sys _).bind fun read => ?_
            split_ifs
            · exact failStream_reports os fp (by decide) _
            · exact (Op.reports_sys _).bind fun _ => Op.reports_pure _
          · exact failClosing_reports os fp (by decide)
        · exact failStream_reports os fp (by decide) e
    · exact failStream_reports os fp (by decide) e

theorem fileRead_reports (relativePath : Bytes) : (fileRead os relativePath).Reports mute :=
  (buildPathOp_reports relativePath).bind fun path => readFileAll_reports os path.1

private theorem fileListLoop_reports (dirpath : Bytes) (names : List Bytes)
    (files dirs : ListText) : (fileListLoop os dirpath names files dirs).Reports mute := by
  induction names generalizing files dirs with
  | nil => exact Op.reports_pure _
  | cons name names ih =>
    rw [fileListLoop]
    dsimp only
    split_ifs
    · exact ih files dirs
    · exact Op.reports_failWith (by decide)
    · refine (Op.reports_sys _).bind fun found => ?_
      rcases found with e | st
      · exact Op.reports_failFile os (by decide) _ e
      · dsimp only
        split_ifs
        · exact ih _ _
        · exact ih _ _

/-- The directory of a list request cannot be opened. -/
def ListUnopened (os : Os σ) (relativePath : Bytes) (s : σ) : Prop :=
  ∃ dirpath storage e, buildPath relativePath pathMaxLen = (dirpath, .ok storage) ∧
    (os.opendir dirpath s).1 = .error e

/-- **A listing is mute about one failure.** When its directory cannot be opened, a list
fails without a word; it reports every other failure. What the host reads then is the error
of some earlier operation, or none. -/
theorem fileList_reportsAt (relativePath : Bytes) (p : Proc σ) :
    (fileList os relativePath).ReportsAt (ListUnopened os relativePath p.os) p := by
  rcases hpath : buildPath relativePath pathMaxLen with ⟨dirpath, msg | storage⟩
  · have hfail : (Op.failWith msg : Op σ (Bytes × Bytes)).Reports
        (ListUnopened os relativePath p.os) :=
      Op.reports_failWith (speaks_of_buildPath (congrArg Prod.snd hpath))
    rw [fileList, buildPathOp, hpath]
    exact hfail p
  · rcases hopen : os.opendir dirpath p.os with ⟨e | names, s⟩
    · exact ⟨⟨none, { p with os := s }, none⟩, fun _ => fileList_of_unopened hpath hopen, by simp,
        fun _ _ => ⟨dirpath, storage, e, hpath, congrArg Prod.fst hopen⟩⟩
    · obtain ⟨o, hrun, hrest⟩ := fileListLoop_reports os dirpath names {} {} { p with os := s }
      have hopened : ∀ found,
          os.opendir dirpath { p with lastError := found }.os = (.ok names, s) := fun _ => hopen
      exact ⟨o, fun found => (fileList_of_opened hpath (hopened found)).trans (hrun found), hrest⟩

theorem fileStat_reports (relativePath : Bytes) : (fileStat os relativePath).Reports mute := by
  refine (buildPathOp_reports relativePath).bind fun path => ?_
  refine (Op.reports_sys _).bind fun found => ?_
  rcases found with e | st
  · exact Op.reports_failFile os (by decide) _ e
  · exact (Op.reports_sys _).bind fun _ => (Op.reports_sys _).bind fun _ => Op.reports_pure _

private theorem removeEntries_reports {remove : Bytes → Op σ Unit} {absPath : Bytes}
    (h : ∀ name, (childPath absPath name).length < pathMaxLen →
      (remove (childPath absPath name)).Reports mute) (names : List Bytes) :
    (removeEntries remove absPath names).Reports mute := by
  induction names with
  | nil => exact Op.reports_pure ()
  | cons name names ih =>
    rw [removeEntries]
    dsimp only
    split_ifs with hdot hlong
    · exact ih
    · exact Op.reports_failWith (by decide)
    · exact (h name (not_le.mp hlong)).bind fun _ => ih

/-- The recursion is never deeper than a path is long, so the end of the fuel, which says
nothing, is not reached. -/
private theorem removePathRecursive_reports {fuel : ℕ} {absPath : Bytes}
    (hlen : absPath.length < pathMaxLen) (hfuel : pathMaxLen ≤ fuel + absPath.length) :
    (removePathRecursive os fuel absPath).Reports mute := by
  induction fuel generalizing absPath with
  | zero => omega
  | succ fuel ih =>
    rw [removePathRecursive]
    refine (Op.reports_sys _).bind fun found => ?_
    rcases found with e | st
    · exact Op.reports_failFile os (by decide) _ e
    · dsimp only
      split_ifs
      · refine (Op.reports_sys _).bind fun opened => ?_
        rcases opened with e | names
        · exact Op.reports_failFile os (by decide) _ e
        · refine Op.Reports.bind (removeEntries_reports (fun name hchild => ih hchild ?_) names)
            fun _ => (Op.reports_sys _).bind fun removed => ?_
          · simp only [childPath, List.length_append, List.length_singleton]
            omega
          · rcases removed with _ | e
            · exact Op.reports_pure ()
            · exact Op.reports_failFile os (by decide) _ e
      · refine (Op.reports_sys _).bind fun removed => ?_
        rcases removed with _ | e
        · exact Op.reports_pure ()
        · exact Op.reports_failFile os (by decide) _ e

theorem fileDelete_reports (relativePath : Bytes) (desireStorage : Option Bytes) :
    (fileDelete os relativePath desireStorage).Reports mute := by
  refine (buildPathOp_reports relativePath).bind_of_run fun p path p' hpath => ?_
  refine (pathStorageMatchesDesire_reports _ desireStorage).bind fun _ => ?_
  refine (ensureStorageWriteable_reports os _).bind fun _ => ?_
  split_ifs
  · exact Op.reports_failWith (by decide)
  · have hlen := length_lt_of_buildPath (eq_of_buildPathOp hpath).1
    exact removePathRecursive_reports os hlen (by omega)

private theorem mkdirLoop_reports (fuel : ℕ) (r work : Bytes) :
    (mkdirLoop os fuel r work).Reports mute := by
  induction fuel generalizing r work with
  | zero => exact Op.reports_pure ()
  | succ fuel ih =>
    rw [mkdirLoop]
    dsimp only
    split_ifs with hnil hroot hlong
    · exact Op.reports_pure ()
    all_goals first
      | exact Op.reports_failWith (by decide)
      | refine (Op.reports_sys _).bind fun made => ?_
        rcases made with _ | e
        · exact ih _ _
        · dsimp only
          split_ifs
          · exact Op.reports_failFile os (by decide) _ e
          · refine (Op.reports_sys _).bind fun found => ?_
            rcases found with e | st
            · exact Op.reports_failFile os (by decide) _ e
            · dsimp only
              split_ifs
              · exact Op.reports_failWith (by decide)
              · exact ih _ _

theorem dirMkdir_reports (relativePath : Bytes) (parents : Bool)
    (desireStorage : Option Bytes) :
    (dirMkdir os relativePath parents desireStorage).Reports mute := by
  refine (buildPathOp_reports relativePath).bind fun path => ?_
  refine (pathStorageMatchesDesire_reports _ desireStorage).bind fun _ => ?_
  refine (ensureStorageWriteable_reports os _).bind fun _ => ?_
  split_ifs
  · exact mkdirLoop_reports os _ _ _
  · refine (Op.reports_sys _).bind fun made => ?_
    rcases made with _ | e
    · exact Op.reports_pure ()
    · exact Op.reports_failFile os (by decide) _ e

theorem fileRename_reports (fromRelative toRelative : Bytes) (desireStorage : Option Bytes) :
    (fileRename os fromRelative toRelative desireStorage).Reports mute := by
  refine (buildPathOp_reports fromRelative).bind fun fromPath => ?_
  refine (buildPathOp_reports toRelative).bind fun toPath => ?_
  refine (pathStorageMatchesDesire_reports _ desireStorage).bind fun _ => ?_
  refine (pathStorageMatchesDesire_reports _ desireStorage).bind fun _ => ?_
  refine (ensureStorageWriteable_reports os _).bind fun _ => ?_
  have hrest : (renameChecked os fromPath toPath).Reports mute := by
    unfold renameChecked
    split_ifs
    · exact Op.reports_failWith (by decide)
    · exact Op.reports_failWith (by decide)
    · refine (Op.reports_sys _).bind fun moved => ?_
      rcases moved with _ | e
      · exact Op.reports_pure ()
      · exact Op.reports_failFile os (by decide) _ e
  by_cases hstorage : toPath.2 ≠ fromPath.2
  · rw [if_pos hstorage]
    exact (ensureStorageWriteable_reports os _).bind fun _ => hrest
  · rw [if_neg hstorage]
    exact hrest

/-! ### Uploads -/

private theorem checkUploadStorage_reports (relative : Bytes) (desireStorage : Option Bytes) :
    (checkUploadStorage os (buildPath relative pathMaxLen).2 desireStorage).Reports mute := by
  rcases hpath : (buildPath relative pathMaxLen).2 with msg | storage
  · exact Op.reports_failWith (speaks_of_buildPath hpath)
  · exact (pathStorageMatchesDesire_reports storage desireStorage).bind
      fun _ => ensureStorageWriteable_reports os storage

/-- Closing a stream and removing a path neither read nor set the last error. -/
private theorem closeStream_lastError_eq (fp : Option ℕ) (p : Proc σ) (e : Bytes) :
    closeStream os fp { p with lastError := e } =
      { closeStream os fp p with lastError := e } := by
  rcases fp with _ | fp <;> rfl

private theorem uploadPaceWriteback_lastError_eq (fp : Option ℕ) (p : Proc σ) (e : Bytes) :
    uploadPaceWriteback os fp { p with lastError := e } =
      { uploadPaceWriteback os fp p with lastError := e } := by
  rcases fp with _ | fp
  · rfl
  · rw [uploadPaceWriteback, uploadPaceWriteback]
    dsimp only
    rcases os.fflush fp p.os with ⟨_ | e', s⟩ <;> rfl

/-- The error of a call on a file, as the whole of what is said. -/
private theorem reportsAt_file {x : Op σ α} {p : Proc σ} (q : Proc σ) (pre : Bytes) (h : Speaks pre)
    (path : Bytes) (errno : Errno)
    (hrun : ∀ e, x.run { p with lastError := e } =
      (none, { q with lastError := (q.setFileError os pre path errno).lastError })) :
    x.ReportsAt mute p := by
  have htext := h.errorText_file 512 (by decide)
    (utf8 " " ++ path ++ utf8 ": " ++ os.strerror errno)
  simp only [← List.append_assoc] at htext
  refine ⟨⟨none, q, some _⟩, hrun, ?_, by simp⟩
  rintro msg ⟨⟩
  exact htext

/-- A message, as the whole of what is said. -/
private theorem reportsAt_message {x : Op σ α} {p : Proc σ} (q : Proc σ) (msg : Bytes)
    (h : Speaks msg) (hrun : ∀ e, x.run { p with lastError := e } =
      (none, { q with lastError := snprintf 256 msg })) : x.ReportsAt mute p := by
  refine ⟨⟨none, q, some _⟩, hrun, ?_, by simp⟩
  rintro msg ⟨⟩
  exact h.errorText

/-- A run that succeeds has nothing to say. -/
private theorem reportsAt_success {x : Op σ α} {p : Proc σ} (q : Proc σ) (a : α)
    (hrun : ∀ e, x.run { p with lastError := e } = (some a, { q with lastError := e })) :
    x.ReportsAt mute p :=
  ⟨⟨some a, q, none⟩, hrun, by simp, by simp⟩

private theorem beginSession_reports (i : Fin maxUploadSessions) (transferId : UInt32)
    (relativePath : Bytes) (desireStorage perm : Option Bytes) :
    (beginSession os i transferId relativePath desireStorage perm).Reports mute := by
  intro p
  rcases hperm : uploadPerm os.ulongMax perm with _ | ⟨applyPerm, fileMode⟩
  · refine reportsAt_message (p.setSession i
      { p.sessions i with applyPerm := false, fileMode := 0o644, used := false })
      (utf8 "invalid perm") (by decide) fun e => ?_
    rw [beginSession]
    dsimp only
    rw [setSessionPerm_of_none hperm]
    rfl
  · have hset := setSessionPerm_of_some { p.sessions i with applyPerm := false, fileMode := 0o644 }
      rfl rfl hperm
    -- the record behind the checks; its later fields depend on how far the begin gets
    obtain ⟨record, hrecord⟩ : ∃ record : UploadSession, record = { p.sessions i with
        applyPerm := applyPerm, fileMode := fileMode,
        finalPath := (buildPath relativePath pathMaxLen).1 } := ⟨_, rfl⟩
    have hreports : (checkUploadStorage os (buildPath relativePath pathMaxLen).2
        desireStorage).Reports mute := checkUploadStorage_reports os relativePath desireStorage
    obtain ⟨⟨_ | _, q, error⟩, hcheck, htext, hspoken⟩ := hreports p
    · refine ⟨⟨none, q.setSession i { record with used := false }, error⟩, fun e => ?_, htext,
        fun _ => hspoken rfl⟩
      simp only [beginSession, hset, hcheck, Outcome.after, hrecord]
      rfl
    · by_cases hrel : pathMaxLen ≤ relativePath.length
      · refine reportsAt_message (q.setSession i { record with
          relativePath := snprintf pathMaxLen relativePath, used := false })
          (utf8 "relative path too long") (by decide) fun e => ?_
        simp only [beginSession, hset, hcheck, Outcome.after, hrecord, if_pos hrel]
        rfl
      · by_cases htemp : pathMaxLen ≤ (record.finalPath ++ utf8 ".part").length
        · refine reportsAt_message (q.setSession i { record with
            relativePath := snprintf pathMaxLen relativePath
            tempPath := snprintf pathMaxLen (record.finalPath ++ utf8 ".part"), used := false })
            (utf8 "temp path too long") (by decide) fun e => ?_
          simp only [hrecord] at htemp
          simp only [beginSession, hset, hcheck, Outcome.after, hrecord, if_neg hrel, if_pos htemp]
          rfl
        · simp only [hrecord] at htemp
          rcases hopen : os.fopenWb (snprintf pathMaxLen (record.finalPath ++ utf8 ".part"))
            q.os with ⟨errno | fp, s⟩
          · refine reportsAt_file os ({ q with os := s }.setSession i { record with
              relativePath := snprintf pathMaxLen relativePath
              tempPath := snprintf pathMaxLen (record.finalPath ++ utf8 ".part")
              fp := none, used := false }) (utf8 "fopen") (by decide)
              (snprintf pathMaxLen (record.finalPath ++ utf8 ".part")) errno fun e => ?_
            simp only [hrecord] at hopen
            simp only [beginSession, hset, hcheck, Outcome.after, hrecord, if_neg hrel,
              if_neg htemp, hopen]
            rfl
          · refine ⟨⟨some (), { q with os := s }.setSession i { record with
              relativePath := snprintf pathMaxLen relativePath
              tempPath := snprintf pathMaxLen (record.finalPath ++ utf8 ".part")
              fp := some fp, transferId := transferId, bytesWritten := 0, syncedBytes := 0 },
              error⟩, fun e => ?_, htext, by simp⟩
            simp only [hrecord] at hopen
            simp only [beginSession, hset, hcheck, Outcome.after, hrecord, if_neg hrel,
              if_neg htemp, hopen]
            rfl

theorem fileBeginUpload_reports (transferId : UInt32) (relativePath : Bytes)
    (desireStorage perm : Option Bytes) :
    (fileBeginUpload os transferId relativePath desireStorage perm).Reports mute := by
  intro p
  have hbefore : ∀ e, beforeBegin os transferId { p with lastError := e } =
      { beforeBegin os transferId p with lastError := e } := by
    intro e
    rw [beforeBegin, beforeBegin]
    rcases hfind : findSession p.sessions transferId with _ | i
    · rfl
    · simp only [hfind, fileAbortUpload, closeStream_lastError_eq]
      rfl
  rcases halloc : SlotTable.alloc UploadSession.key (beforeBegin os transferId p).sessions with
    _ | i
  · refine reportsAt_message (beforeBegin os transferId p) (utf8 "no free upload session")
      (by decide) fun e => ?_
    refine (fileBeginUpload_of_full transferId desireStorage perm ?_).trans ?_
    · rw [hbefore e]
      exact halloc
    · rw [hbefore e]
      rfl
  · obtain ⟨o, hbegin, hrest⟩ := beginSession_reports os i transferId relativePath desireStorage
      perm ((beforeBegin os transferId p).setSession i
        { (beforeBegin os transferId p).sessions i with used := true })
    refine ⟨o, fun e => ?_, hrest⟩
    refine (fileBeginUpload_of_slot i transferId desireStorage perm ?_).trans ?_
    · rw [hbefore e]
      exact halloc
    · rw [hbefore e]
      exact hbegin e

theorem fileAppendUploadChunk_reports (transferId : UInt32) (data : Bytes) :
    (fileAppendUploadChunk os transferId data).Reports mute := by
  intro p
  rw [fileAppendUploadChunk]
  split_ifs
  · exact reportsAt_message p (utf8 "invalid upload chunk") (by decide) fun _ => rfl
  · rcases hfind : findSession p.sessions transferId with _ | i
    · refine reportsAt_message p (utf8 "upload session not found") (by decide) fun _ => ?_
      simp only [hfind]
      rfl
    · rcases hfp : (p.sessions i).fp with _ | fp
      · refine reportsAt_message p (utf8 "upload session not found") (by decide) fun _ => ?_
        simp only [hfind, hfp]
        rfl
      · rcases hwrite : os.fwrite fp data p.os with ⟨⟨written, errno⟩, s⟩
        by_cases hshort : written ≠ data.length
        · refine reportsAt_file os { p with os := s } (utf8 "fwrite") (by decide)
            (p.sessions i).tempPath errno fun _ => ?_
          simp only [hfind, hfp, hwrite, if_pos hshort]
          rfl
        · by_cases hsync : uploadSyncInterval ≤ (p.sessions i).bytesWritten +
              UInt64.ofNat data.length - (p.sessions i).syncedBytes
          · refine reportsAt_success ((uploadPaceWriteback os (some fp)
              { p with os := s }).setSession i
              { p.sessions i with
                bytesWritten := (p.sessions i).bytesWritten + UInt64.ofNat data.length
                syncedBytes := (p.sessions i).bytesWritten + UInt64.ofNat data.length }) ()
              fun e => ?_
            -- the write-back neither reads nor sets the last error
            have hpace := uploadPaceWriteback_lastError_eq os (some fp) { p with os := s } e
            dsimp only at hpace
            simp only [hfind, hfp, hwrite, if_neg hshort, if_pos hsync, hpace]
            rfl
          · refine reportsAt_success ({ p with os := s }.setSession i { p.sessions i with
              bytesWritten := (p.sessions i).bytesWritten + UInt64.ofNat data.length }) ()
              fun e => ?_
            simp only [hfind, hfp, hwrite, if_neg hshort, if_neg hsync]
            rfl

theorem fileFinishUpload_reports (transferId : UInt32) :
    (fileFinishUpload os transferId).Reports mute := by
  intro p
  rw [fileFinishUpload]
  rcases hfind : findSession p.sessions transferId with _ | i
  · refine reportsAt_message p (utf8 "upload session not found") (by decide) fun _ => ?_
    simp only [hfind]
    rfl
  · rcases hrename : os.rename (p.sessions i).tempPath (p.sessions i).finalPath
      (closeStream os (p.sessions i).fp p).os with ⟨_ | errno, s⟩
    · rcases hperm : (p.sessions i).applyPerm with _ | _
      · refine reportsAt_success ({ closeStream os (p.sessions i).fp p with
          os := s }.setSession i {}) () fun _ => ?_
        simp only [hfind, closeStream_lastError_eq, hrename, hperm]
        rfl
      · rcases hchmod : os.chmod (p.sessions i).finalPath (p.sessions i).fileMode s with
          ⟨_ | errno, s'⟩
        · refine reportsAt_success ({ closeStream os (p.sessions i).fp p with
            os := s' }.setSession i {}) () fun _ => ?_
          simp only [hfind, closeStream_lastError_eq, hrename, hperm, if_true, hchmod]
          rfl
        · refine reportsAt_file os ((unlinkPath os (p.sessions i).finalPath
            { closeStream os (p.sessions i).fp p with os := s' }).setSession i {}) (utf8 "chmod")
            (by decide) (p.sessions i).finalPath errno fun _ => ?_
          simp only [hfind, closeStream_lastError_eq, hrename, hperm, if_true, hchmod]
          rfl
    · refine reportsAt_file os ((unlinkPath os (p.sessions i).tempPath
        { closeStream os (p.sessions i).fp p with os := s }).setSession i {}) (utf8 "rename")
        (by decide) (p.sessions i).finalPath errno fun _ => ?_
      simp only [hfind, closeStream_lastError_eq, hrename]
      rfl

end UsbResponder
