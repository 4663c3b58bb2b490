import UsbResponder.FileOps.Normalise
import UsbResponder.FileOps.Tree
import UsbResponder.FileOps.SessionTable
import UsbResponder.System.CallTrace

/-!
# The SD card

A path is on the SD card if it is `/sd` or below it. `build_path` says so of the path it
delivers (`onSd_buildPath`), and an operation that changes files asks for the mount before
its first call if it does. The operations that start and end in one frame therefore make
calls on the card only while it is mounted: deleting, creating directories and renaming
(`fileDelete_issuesAt`, `dirMkdir_issuesAt`, `fileRename_issuesAt`). The others change no
file at all.

The guard is one lemma, `ensureStorageWriteable_issuesAt`: what comes behind the check runs
with the card mounted, or is about the other storage. What remains for each operation is
that the paths it goes on to are on the same storage as the one that was checked, which for
a path off the card means that no name appended to it leads onto the card.

The mount that counts is the one the code sees, that is, what `read_mountinfo_sd` finds in
the table. When this is the truth is the subject of `FileOps.MountTable`. That the card is
taken out between the check and the call is not excluded by the code, and not spoken of.
-/

namespace UsbResponder

open CString Components

variable {σ α : Type}

/-! ### Paths on the card -/

/-- What follows a further slash is not part of the first component. -/
private theorem firstComponent_append_slash (t rest : Bytes) :
    firstComponent (slash :: t ++ slash :: rest) = firstComponent (slash :: t) := by
  simp only [firstComponent, List.cons_append, List.drop_succ_cons, List.drop_zero,
    List.takeWhile_append]
  split_ifs with hwhole
  · rw [List.takeWhile_cons_of_neg (by simp), List.append_nil]
    exact ((List.takeWhile_prefix _).eq_of_length hwhole).symm
  · rfl

/-- A path stays off the card when names are appended to it, because its first component
stays what it was. -/
private theorem not_onSd_append_slash {t : Bytes} (h : ¬OnSd (slash :: t)) (rest : Bytes) :
    ¬OnSd (slash :: t ++ slash :: rest) := by
  rw [List.cons_append, onSd_iff, ← List.cons_append, firstComponent_append_slash, ← onSd_iff]
  exact h

/-- The temporary path of a path off the card is off the card. -/
theorem not_onSd_part {t : Bytes} (h : ¬OnSd (slash :: t)) :
    ¬OnSd (slash :: t ++ utf8 ".part") := by
  rw [onSd_iff, firstComponent] at h
  rw [List.cons_append, onSd_iff, firstComponent]
  simp only [List.drop_succ_cons, List.drop_zero, List.takeWhile_append] at h ⊢
  split_ifs
  · intro hsd
    have hlen := congrArg List.length hsd
    rw [List.length_append] at hlen
    have hpart : ((utf8 ".part").takeWhile (· != slash)).length = 5 := by decide
    have hname : (utf8 "sd").length = 2 := by decide
    omega
  · exact h

/-- **Where a path is.** The path `build_path` delivers is absolute, and it is on the card
exactly if the storage is. -/
theorem onSd_buildPath {relative path : Bytes} {storage : Storage}
    (h : buildPath relative pathMaxLen = (path, .ok storage)) :
    (∃ t, path = slash :: t ∧ t.head? ≠ some slash) ∧ (OnSd path ↔ storage = .sd) := by
  obtain ⟨-, -, rfl, rfl⟩ := (buildPath_eq_ok_iff (by decide)).mp h
  have hnormal := normalComponents_pathComponents relative
  exact ⟨normalPath_eq_cons hnormal, (onSd_normalPath hnormal).trans storageOf_eq_sd_iff.symm⟩

/-! ### The mount -/

/-- The mount table shows an mmc mount of `/sd`, as the code reads the table. -/
def Os.SdMounted (os : Os σ) (s : σ) : Prop :=
  ∃ lines, (os.mountinfo s).1 = some lines ∧ (lines.findSome? mountinfoLineSource).isSome

/-- The check of a writeable storage, on the recorded outside. -/
theorem storageWriteable_recording_iff {os : Os σ} {storage : Storage} {r : Recorded σ} :
    StorageWriteable os.recording storage r ↔ (storage = .sd → os.SdMounted r.inner) := by
  rw [StorageWriteable, os.recording_mountinfo]
  exact Iff.rfl

/-- A call that is not about the card: none of its paths is on it. A renaming has two. -/
def FileCall.OffSd (call : FileCall) : Prop := ∀ path ∈ call.paths, ¬OnSd path

/-- A call that is not about the card, unless the card is mounted. A rename is about two
paths, and both count. -/
def FileCall.Allowed (mounted : Prop) (call : FileCall) : Prop := mounted ∨ call.OffSd

private theorem FileCall.Allowed.of_paths {mounted : Prop} {path : Bytes} (h : mounted ∨ ¬OnSd path)
    {call : FileCall} (hpaths : call.paths = [path]) : call.Allowed mounted := by
  refine h.imp_right fun hoff path' hmem => ?_
  rw [hpaths, List.mem_singleton] at hmem
  rwa [hmem]

section Guards

variable (os : Os σ) {p : Proc (Recorded σ)}

theorem buildPathOp_issues {Q : FileCall → Prop} (relative : Bytes) :
    (buildPathOp relative : Op (Recorded σ) (Bytes × Storage)).Issues Q := by
  rw [buildPathOp]
  rcases buildPath relative pathMaxLen with ⟨path, msg | storage⟩
  · exact Op.issues_failWith msg
  · exact Op.issues_pure _

theorem pathStorageMatchesDesire_issues {Q : FileCall → Prop} (storage : Storage)
    (desireStorage : Option Bytes) :
    (pathStorageMatchesDesire storage desireStorage : Op (Recorded σ) Unit).Issues Q := by
  intro p
  by_cases hmatches : StorageMatches storage desireStorage
  · have hrun := pathStorageMatchesDesire_of hmatches p
    refine ⟨?_, ?_⟩ <;> rw [hrun]
    exact .refl p.os
  · obtain ⟨msg, hrun, -⟩ := pathStorageMatchesDesire_of_not hmatches p
    refine ⟨?_, ?_⟩ <;> rw [hrun]
    · exact .refl p.os
    · rfl

/-- The comparison with the desired storage changes nothing when it succeeds. -/
private theorem eq_of_pathStorageMatchesDesire {storage : Storage} {desireStorage : Option Bytes}
    {u : Unit} {p' : Proc (Recorded σ)}
    (h : (pathStorageMatchesDesire storage desireStorage : Op (Recorded σ) Unit).run p =
      (some u, p')) : p' = p := by
  by_cases hmatches : StorageMatches storage desireStorage
  · rw [pathStorageMatchesDesire_of hmatches] at h
    exact (congrArg Prod.snd h).symm
  · obtain ⟨msg, hrun, -⟩ := pathStorageMatchesDesire_of_not hmatches p
    simp [hrun] at h

/-- **The guard.** What comes behind the mount check runs with the card mounted, unless it
is for the other storage; then nothing has happened. -/
theorem ensureStorageWriteable_issuesAt {Q : FileCall → Prop} {storage : Storage}
    {x : Op (Recorded σ) α}
    (hx : ∀ p', (storage = .nand → p' = p) → (storage = .sd → os.SdMounted p.os.inner) →
      x.IssuesAt Q p') :
    (ensureStorageWriteable os.recording storage >>= fun _ => x).IssuesAt Q p := by
  rcases storage with _ | _
  · exact hx p (fun _ => rfl) fun hsd => nomatch hsd
  have hcheck : Recorded.Issued Q p.os (os.recording.mountinfo p.os).2 :=
    .of_mountinfo os p.os
  by_cases hwriteable : StorageWriteable os.recording .sd p.os
  · have hrun := ensureStorageWriteable_of hwriteable
    refine Op.IssuesAt.bind ⟨?_, ?_⟩ fun _ p' _ => hx p' (fun hnand => nomatch hnand)
      (storageWriteable_recording_iff.mp hwriteable)
    · rw [hrun]
      exact hcheck
    · rw [hrun]
      rfl
  · obtain ⟨msg, hrun, -⟩ := ensureStorageWriteable_of_not hwriteable
    refine ⟨?_, ?_⟩ <;> rw [Op.run_bind_of_none hrun]
    · exact hcheck
    · rfl

/-! ### Operations of one frame -/

private theorem removeEntries_issues {Q : FileCall → Prop} {remove : Bytes → Op (Recorded σ) Unit}
    {absPath : Bytes} (h : ∀ name, (remove (childPath absPath name)).Issues Q)
    (names : List Bytes) : (removeEntries remove absPath names).Issues Q := by
  induction names with
  | nil => exact Op.issues_pure ()
  | cons name names ih =>
    rw [removeEntries]
    dsimp only
    split_ifs
    · exact ih
    · exact Op.issues_failWith _
    · exact (h name).bind fun _ => ih

/-- Removing a path off the card stays off the card, at any depth. -/
private theorem removePathRecursive_issues {mounted : Prop} {t : Bytes}
    (h : mounted ∨ ¬OnSd (slash :: t)) (fuel : ℕ) :
    (removePathRecursive os.recording fuel (slash :: t)).Issues (FileCall.Allowed mounted) := by
  induction fuel generalizing t with
  | zero => exact Op.issues_fail
  | succ fuel ih =>
    rw [removePathRecursive]
    refine (Op.issues_lift _).bind fun found => ?_
    rcases found with e | st
    · exact Op.issues_failFile _ _ _ _
    · dsimp only
      split_ifs
      · refine (Op.issues_lift _).bind fun opened => ?_
        rcases opened with e | names
        · exact Op.issues_failFile _ _ _ _
        · refine (removeEntries_issues (fun name => ?_) names).bind fun _ => ?_
          · have hchild := h.imp_right fun hoff => not_onSd_append_slash hoff name
            rw [List.cons_append] at hchild
            simpa [childPath] using ih hchild
          · refine (Op.issues_issue (.of_paths h rfl) _).bind fun removed => ?_
            rcases removed with _ | e
            · exact Op.issues_pure ()
            · exact Op.issues_failFile _ _ _ _
      · refine (Op.issues_issue (.of_paths h rfl) _).bind fun removed => ?_
        rcases removed with _ | e
        · exact Op.issues_pure ()
        · exact Op.issues_failFile _ _ _ _

/-- The path an operation works on behind the mount check. -/
theorem mounted_or_not_onSd {relative path : Bytes} {storage : Storage} {mounted : Prop}
    (hbuilt : buildPath relative pathMaxLen = (path, .ok storage))
    (hmounted : storage = .sd → mounted) :
    (∃ t, path = slash :: t ∧ t.head? ≠ some slash) ∧ (mounted ∨ ¬OnSd path) := by
  obtain ⟨hpath, honSd⟩ := onSd_buildPath hbuilt
  refine ⟨hpath, ?_⟩
  by_cases hsd : storage = .sd
  · exact .inl (hmounted hsd)
  · exact .inr (honSd.not.mpr hsd)

theorem fileDelete_issuesAt (relativePath : Bytes) (desireStorage : Option Bytes) :
    (fileDelete os.recording relativePath desireStorage).IssuesAt
      (FileCall.Allowed (os.SdMounted p.os.inner)) p := by
  refine (buildPathOp_issues relativePath p).bind fun path p₁ hpath => ?_
  obtain ⟨hbuilt, rfl⟩ := eq_of_buildPathOp hpath
  refine (pathStorageMatchesDesire_issues _ desireStorage _).bind fun _ p₂ hdesire => ?_
  obtain rfl := eq_of_pathStorageMatchesDesire hdesire
  refine ensureStorageWriteable_issuesAt os fun p₃ _ hmounted => ?_
  obtain ⟨⟨t, ht, -⟩, hoff⟩ := mounted_or_not_onSd hbuilt hmounted
  split_ifs
  · exact Op.issues_failWith _ _
  · rw [ht] at hoff ⊢
    exact removePathRecursive_issues os hoff _ _

/-- The directories made on the way to a path off the card are off the card: the first one
is, and the others are below it. The root itself is not made. -/
private theorem mkdirLoop_issues {mounted : Prop} (fuel : ℕ) {r t : Bytes}
    (h : mounted ∨ if t = [] then firstComponent (slash :: r.dropWhile (· == slash)) ≠ utf8 "sd"
      else ¬OnSd (slash :: t)) :
    (mkdirLoop os.recording fuel r (slash :: t)).Issues (FileCall.Allowed mounted) := by
  induction fuel generalizing r t with
  | zero => exact Op.issues_pure ()
  | succ fuel ih =>
    rw [mkdirLoop]
    dsimp only
    by_cases hnil : r.dropWhile (· == slash) = []
    · rw [if_pos hnil]
      exact Op.issues_pure ()
    rw [if_neg hnil]
    obtain ⟨seg, hseg⟩ : ∃ seg, seg = (r.dropWhile (· == slash)).takeWhile (· != slash) := ⟨_, rfl⟩
    rw [← hseg]
    have hne : seg ≠ [] := hseg ▸ (isComponent_takeWhile hnil).1
    -- the next directory: its first component is that of the path, so it is off the card too
    obtain ⟨t', hwork, ht', hoff⟩ : ∃ t', slash :: t ++ (if slash :: t = [slash] then [] else
        [slash]) ++ seg = slash :: t' ∧ t' ≠ [] ∧ (mounted ∨ ¬OnSd (slash :: t')) := by
      rcases t with _ | ⟨b, t⟩
      · refine ⟨seg, rfl, hne, h.imp_right fun hfirst => ?_⟩
        rw [if_pos rfl, firstComponent, List.drop_succ_cons, List.drop_zero, ← hseg] at hfirst
        rw [onSd_iff, firstComponent, List.drop_succ_cons, List.drop_zero, hseg,
          List.takeWhile_idem, ← hseg]
        exact hfirst
      · refine ⟨b :: t ++ slash :: seg, by simp, by simp, h.imp_right fun hdir => ?_⟩
        rw [if_neg (List.cons_ne_nil b t)] at hdir
        have hnext := not_onSd_append_slash hdir seg
        rwa [List.cons_append] at hnext
    rw [hwork]
    have hnext : ∀ r', (mkdirLoop os.recording fuel r' (slash :: t')).Issues
        (FileCall.Allowed mounted) := fun r' => ih (by rwa [if_neg ht'])
    split_ifs
    · exact Op.issues_failWith _
    · refine (Op.issues_issue (.of_paths hoff rfl) _).bind fun made => ?_
      rcases made with _ | e
      · exact hnext _
      · dsimp only
        split_ifs
        · exact Op.issues_failFile _ _ _ _
        · refine (Op.issues_lift _).bind fun found => ?_
          rcases found with e | st
          · exact Op.issues_failFile _ _ _ _
          · dsimp only
            split_ifs
            · exact Op.issues_failWith _
            · exact hnext _

theorem dirMkdir_issuesAt (relativePath : Bytes) (parents : Bool) (desireStorage : Option Bytes) :
    (dirMkdir os.recording relativePath parents desireStorage).IssuesAt
      (FileCall.Allowed (os.SdMounted p.os.inner)) p := by
  refine (buildPathOp_issues relativePath p).bind fun path p₁ hpath => ?_
  obtain ⟨hbuilt, rfl⟩ := eq_of_buildPathOp hpath
  refine (pathStorageMatchesDesire_issues _ desireStorage _).bind fun _ p₂ hdesire => ?_
  obtain rfl := eq_of_pathStorageMatchesDesire hdesire
  refine ensureStorageWriteable_issuesAt os fun p₃ _ hmounted => ?_
  obtain ⟨⟨t, ht, hhead⟩, hoff⟩ := mounted_or_not_onSd hbuilt hmounted
  split_ifs
  · refine mkdirLoop_issues os _ ?_ _
    rw [if_pos rfl, ht, List.drop_succ_cons, List.drop_zero]
    have hskip : t.dropWhile (· == slash) = t := by
      rcases t with _ | ⟨b, t⟩
      · rfl
      · exact List.dropWhile_cons_of_neg (by simpa using hhead)
    rw [hskip]
    exact hoff.imp_right fun hnot => mt onSd_iff.mpr (ht ▸ hnot)
  · refine Op.Issues.bind (Op.issues_issue (.of_paths hoff rfl) _) (fun made => ?_) _
    rcases made with _ | e
    · exact Op.issues_pure ()
    · exact Op.issues_failFile _ _ _ _

theorem fileRename_issuesAt (fromRelative toRelative : Bytes) (desireStorage : Option Bytes) :
    (fileRename os.recording fromRelative toRelative desireStorage).IssuesAt
      (FileCall.Allowed (os.SdMounted p.os.inner)) p := by
  refine (buildPathOp_issues fromRelative p).bind fun fromPath p₁ hfrom => ?_
  obtain ⟨hfromBuilt, rfl⟩ := eq_of_buildPathOp hfrom
  refine (buildPathOp_issues toRelative _).bind fun toPath p₂ hto => ?_
  obtain ⟨htoBuilt, rfl⟩ := eq_of_buildPathOp hto
  refine (pathStorageMatchesDesire_issues _ desireStorage _).bind fun _ p₃ hdesire => ?_
  obtain rfl := eq_of_pathStorageMatchesDesire hdesire
  refine (pathStorageMatchesDesire_issues _ desireStorage _).bind fun _ p₄ hdesire' => ?_
  obtain rfl := eq_of_pathStorageMatchesDesire hdesire'
  refine ensureStorageWriteable_issuesAt os fun p₅ hnand hmounted => ?_
  obtain ⟨-, hfromOff⟩ := mounted_or_not_onSd hfromBuilt hmounted
  have hrest : (toPath.2 = .sd → os.SdMounted p₄.os.inner) →
      (renameChecked os.recording fromPath toPath).Issues
        (FileCall.Allowed (os.SdMounted p₄.os.inner)) := by
    intro htoMounted
    obtain ⟨-, htoOff⟩ := mounted_or_not_onSd htoBuilt htoMounted
    unfold renameChecked
    split_ifs
    · exact Op.issues_failWith _
    · exact Op.issues_failWith _
    · refine (Op.issues_issue ?_ _).bind fun moved => ?_
      · obtain hmounted | hfromOff := hfromOff
        · exact .inl hmounted
        · refine htoOff.imp_right fun htoOff path hpath => ?_
          obtain rfl | rfl : path = fromPath.1 ∨ path = toPath.1 := by
            simpa [FileCall.paths] using hpath
          · exact hfromOff
          · exact htoOff
      · rcases moved with _ | e
        · exact Op.issues_pure ()
        · exact Op.issues_failFile _ _ _ _
  by_cases hstorage : toPath.2 ≠ fromPath.2
  · rw [if_pos hstorage]
    -- the second check sees the card as the first one has
    refine ensureStorageWriteable_issuesAt os fun p₆ _ hmounted' => hrest (fun hsd => ?_) p₆
    by_cases hfromNand : fromPath.2 = .nand
    · rw [← hnand hfromNand]
      exact hmounted' hsd
    · rcases hcases : fromPath.2 with _ | _
      · exact absurd hcases hfromNand
      · exact hmounted hcases
  · rw [if_neg hstorage]
    exact hrest (fun hsd => hmounted ((not_not.mp hstorage).symm.trans hsd)) p₅

end Guards

/-! ### Operations that only read -/

section Readers

variable (os : Os σ) {Q : FileCall → Prop}

private theorem failStream_issuesReading (fp : ℕ) (pre : Bytes) (e : Errno) :
    (failStream os.recording fp pre e : Op (Recorded σ) α).IssuesReading fp Q := by
  intro p hp
  have hclose := Op.issuesReading_fclose (Q := Q) os fp (p.setErrnoError os.recording pre e) hp
  exact ⟨hclose.issued, hclose.sessions⟩

private theorem readFileAll_issues (path : Bytes) : (readFileAll os.recording path).Issues Q := by
  refine Op.issues_fopenRb_bind os path (fun e p => ⟨.refl p.os, rfl⟩) fun fp => ?_
  refine ((Op.issues_stream fp os.fseekEnd).reading fp).bind fun atEnd => ?_
  rcases atEnd with _ | e
  swap
  · exact failStream_issuesReading os fp _ e
  refine ((Op.issues_stream fp os.ftell).reading fp).bind fun told => ?_
  rcases told with e | fileSize
  · exact failStream_issuesReading os fp _ e
  refine ((Op.issues_stream fp os.fseekSet).reading fp).bind fun atStart => ?_
  rcases atStart with _ | e
  swap
  · exact failStream_issuesReading os fp _ e
  split_ifs
  · exact (Op.issuesReading_fclose os fp).bind fun _ => (Op.issues_pure _).reading fp
  refine ((Op.issues_malloc os fileSize).reading fp).bind fun granted => ?_
  split_ifs
  · refine ((Op.issues_stream fp fun fd => os.fread fd fileSize).reading fp).bind fun got => ?_
    dsimp only
    split_ifs
    · exact failStream_issuesReading os fp _ _
    · exact (Op.issuesReading_fclose os fp).bind fun _ => (Op.issues_pure _).reading fp
  · intro p hp
    have hclose := @Op.issuesReading_failClosing _ Bytes Q os fp (p.setLastError (utf8 "oom")) hp
    exact ⟨hclose.issued, hclose.sessions⟩

theorem fileRead_issues (relativePath : Bytes) :
    (fileRead os.recording relativePath).Issues Q :=
  (buildPathOp_issues relativePath).bind fun path => readFileAll_issues os path.1

private theorem fileListLoop_issues (dirpath : Bytes) (names : List Bytes) (files dirs : ListText) :
    (fileListLoop os.recording dirpath names files dirs).Issues Q := by
  induction names generalizing files dirs with
  | nil => exact Op.issues_pure _
  | cons name names ih =>
    rw [fileListLoop]
    dsimp only
    split_ifs
    · exact ih files dirs
    · exact Op.issues_failWith _
    · refine (Op.issues_lift _).bind fun found => ?_
      rcases found with e | st
      · exact Op.issues_failFile _ _ _ _
      · dsimp only
        split_ifs
        · exact ih files _
        · exact ih _ dirs

theorem fileList_issues (relativePath : Bytes) :
    (fileList os.recording relativePath).Issues Q := by
  refine (buildPathOp_issues relativePath).bind fun path => ?_
  refine (Op.issues_lift _).bind fun opened => ?_
  rcases opened with e | names
  · exact Op.issues_fail
  · exact fileListLoop_issues os _ _ _ _

theorem fileStat_issues (relativePath : Bytes) :
    (fileStat os.recording relativePath).Issues Q := by
  refine (buildPathOp_issues relativePath).bind fun path => ?_
  refine (Op.issues_lift _).bind fun found => ?_
  rcases found with e | st
  · exact Op.issues_failFile _ _ _ _
  · exact (Op.issues_lift _).bind fun _ => (Op.issues_lift _).bind fun _ => Op.issues_pure _

private theorem storageStatvfsOrZero_issues (path : Bytes) :
    (storageStatvfsOrZero os.recording path).Issues Q := by
  refine (Op.issues_lift _).bind fun found => ?_
  rcases found with _ | sv
  · exact Op.issues_pure _
  · exact Op.issues_pure _

private theorem isSdMounted_issues : (isSdMounted os.recording).Issues Q := by
  intro p
  refine ⟨?_, ?_⟩
  · rw [isSdMounted_run]
    exact .of_mountinfo os p.os
  · rw [isSdMounted_run]

theorem storageInfoRead_issues : (storageInfoRead os.recording).Issues Q := by
  refine (storageStatvfsOrZero_issues os _).bind fun nand => ?_
  refine (isSdMounted_issues os).bind fun mounted => ?_
  dsimp only
  split_ifs
  · exact (storageStatvfsOrZero_issues os _).bind fun _ => Op.issues_pure _
  · exact (Op.issues_pure _).bind fun _ => Op.issues_pure _

end Readers

end UsbResponder
