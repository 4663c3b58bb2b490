import UsbResponder.FileOps.FileStore

/-!
# Requests for files

What the other operations on files ask of a store of files, and that they do it. Each of
them first makes a path of its argument and goes through the checks of storage and mount
table; the request it stands for (`beginRequest`, `deleteRequest`, `renameRequest`,
`pathRequest`) is computed by the same checks from the arguments and the mount table alone,
and is `skip` or `cancel` where a check refuses.

`FilePaths` says which keys are paths of files: each is in a directory, and neither it nor
its temporary path is one. On such keys the operations never meet a directory, so the
recursion of `remove_path_recursive` ends at once, and `rename` moves one file. Operations
on directories are not described by a store; they are in `MakeDirectories` and
`RecursiveDelete`.

`Op.Guards` is how a check is used: it passes exactly under its condition, and otherwise
ends the operation with nothing changed but the last error.
-/

namespace UsbResponder

open CString StagedStore

/-! ### Files -/

section Files

variable {K : Set Bytes} {mount : Option (List Bytes)} {st : FileStore} {os : Os Fs}
  {attrs : Bytes → Stat} {f : Faults} {p : Proc Fs} {relativePath path : Bytes} {storage : Storage}

/-- A path that cannot be built ends an operation, with an error. -/
theorem buildPathOp_bind_of_error {α : Type} {out msg : Bytes}
    (h : buildPath relativePath pathMaxLen = (out, .error msg)) (k : Bytes × Storage → Op Fs α)
    (p : Proc Fs) : (buildPathOp relativePath >>= k).run p = (none, p.setLastError msg) := by
  rw [buildPathOp, h]
  exact Op.run_bind_of_none (Op.run_failWith ..)

/-- The paths of `K` are those of files: each is in a directory, and neither it nor its
temporary path is one; nor is it the temporary path of another one. Directories are in
directories, so no path of `K` leads through another one (`FilePaths.not_above`). -/
structure FilePaths (attrs : Bytes → Stat) (K : Set Bytes) : Prop where
  noClash : NoClash K
  dirs : ∀ dir, IsDir attrs dir → IsDir attrs (parentDir dir)
  inside : ∀ path ∈ K, IsDir attrs (parentDir path)
  notDir : ∀ path ∈ K, ¬IsDir attrs path
  partNotDir : ∀ path ∈ K, ¬IsDir attrs (partPath path)

/-- What is above the path of a file is a directory, so it is no path of a file, and
removing one file removes no other. -/
theorem FilePaths.not_above (h : FilePaths attrs K) (hpath : path ∈ K) {q : Bytes} (hq : q ∈ K)
    (n : ℕ) : parentDir^[n + 1] q ≠ path := by
  have hdir : IsDir attrs (parentDir^[n + 1] q) := by
    induction n with
    | zero => exact h.inside q hq
    | succ n ih =>
      rw [Function.iterate_succ_apply']
      exact h.dirs _ ih
  intro heq
  exact h.notDir path hpath (heq ▸ hdir)

variable (os attrs f) in
/-- **Reading a file** is reading the value of its path; what is too long is refused later.
Neither the store nor any stream of an upload changes. -/
theorem Represents.read (h : Represents K mount st p) (hK : NoClash K) (hpath : path ∈ K)
    (hbuilt : buildPath relativePath pathMaxLen = (path, .ok storage)) :
    let r := (fileRead ((os.withReads attrs).withFs f) relativePath).run p
    r.1 = st.committed path ∧ Represents K mount st r.2 := by
  intro r
  obtain ⟨p', hrun, hsessions, hsame⟩ := fileRead_withReads os attrs f (p := p) hbuilt
  rw [show r = _ from hrun]
  exact ⟨h.committed path hpath, h.of_sameFiles hK hsessions hsame⟩

variable (os attrs f) in
/-- **Inspecting a file** tells the length of the value of its path, and refuses a path
without one. -/
theorem Represents.stat (h : Represents K mount st p) (hK : FilePaths attrs K) (hpath : path ∈ K)
    (hbuilt : buildPath relativePath pathMaxLen = (path, .ok storage)) :
    let r := (fileStat ((os.withReads attrs).withFs f) relativePath).run p
    (st.committed path = none → r.1 = none) ∧
      (∀ v, st.committed path = some v → ∃ owner perm,
        r.1 = some ⟨owner, perm, snprintf 32 (formatNat 10 0 v.length), utf8 "file"⟩) ∧
      Represents K mount st r.2 := by
  intro r
  obtain ⟨r', p', hrun, hsessions, hos, hresult⟩ := fileStat_withReads os attrs f (p := p)
    hbuilt (hK.notDir path hpath)
  rw [h.committed path hpath] at hresult
  rw [show r = _ from hrun]
  refine ⟨fun hnone => ?_, fun v hv => ?_, h.of_eq hsessions hos⟩
  · simpa only [hnone] using hresult
  · simpa only [hv] using hresult

end Files

/-! ### What requests ask for -/

/-- The mount table lets files of the storage be changed. -/
def Writeable (mount : Option (List Bytes)) (storage : Storage) : Prop :=
  storage = .sd →
    (mount.any fun lines => (lines.findSome? mountinfoLineSource).isSome) = true

instance (mount : Option (List Bytes)) (storage : Storage) : Decidable (Writeable mount storage) :=
  inferInstanceAs (Decidable (_ → _))

instance (actual : Storage) (desireStorage : Option Bytes) :
    Decidable (StorageMatches actual desireStorage) :=
  decidable_of_iff ((desireStorage.all fun desire =>
      decide (desire = []) || decide (storageFromName desire = some actual)) = true) <| by
    cases desireStorage with
    | none => simp [StorageMatches]
    | some desire => simp [StorageMatches, or_iff_not_imp_left]

/-- The target of an upload, if the checks of its begin pass. It is computed from the
arguments and the mount table alone, so the request does not depend on the state of the
uploads. -/
def uploadTarget? (ulongMax : ℕ) (mount : Option (List Bytes)) (relativePath : Bytes)
    (desireStorage perm : Option Bytes) : Option UploadTarget :=
  match uploadPerm ulongMax perm, buildPath relativePath pathMaxLen with
  | some (applyPerm, fileMode), (path, .ok storage) =>
    if StorageMatches storage desireStorage ∧ Writeable mount storage ∧
        relativePath.length < pathMaxLen ∧ (path ++ utf8 ".part").length < pathMaxLen then
      some ⟨path, storage, applyPerm, fileMode⟩
    else none
  | _, _ => none

/-- The path that an operation changes, with its storage, if its checks pass. -/
def changeTarget? (mount : Option (List Bytes)) (relativePath : Bytes)
    (desireStorage : Option Bytes) : Option (Bytes × Storage) :=
  match buildPath relativePath pathMaxLen with
  | (_, .error _) => none
  | (path, .ok storage) =>
    if StorageMatches storage desireStorage ∧ Writeable mount storage ∧
        pathIsStorageRoot path = false then
      some (path, storage)
    else none

/-- What a begin asks of the store: to start a transfer, or to end an old one where a check
refuses the new one. -/
def beginRequest (ulongMax : ℕ) (mount : Option (List Bytes)) (transferId : UInt32)
    (relativePath : Bytes) (desireStorage perm : Option Bytes) : FileRequest :=
  match uploadTarget? ulongMax mount relativePath desireStorage perm with
  | none => .cancel transferId
  | some target => .start transferId target.path

/-- What a deletion asks of the store, as the checks of the source decide. A storage root is
never deleted. -/
def deleteRequest (mount : Option (List Bytes)) (relativePath : Bytes)
    (desireStorage : Option Bytes) : FileRequest :=
  match changeTarget? mount relativePath desireStorage with
  | none => .skip
  | some (path, _) => .remove path

/-- What a renaming asks of the store. Both paths go through the same checks, one after the
other. -/
def renameRequest (mount : Option (List Bytes)) (fromRelative toRelative : Bytes)
    (desireStorage : Option Bytes) : FileRequest :=
  match changeTarget? mount fromRelative desireStorage,
    changeTarget? mount toRelative desireStorage with
  | some (fromPath, fromStorage), some (toPath, toStorage) =>
    if fromStorage = toStorage then .move fromPath toPath else .skip
  | _, _ => .skip

/-- What a request that reads a path asks of the store. Reading needs no check of the
storage. -/
def pathRequest (request : Bytes → FileRequest) (relativePath : Bytes) : FileRequest :=
  match buildPath relativePath pathMaxLen with
  | (_, .error _) => .skip
  | (path, .ok _) => request path

section Requests

variable {K : Set Bytes} {mount : Option (List Bytes)} {st : FileStore} {os : Os Fs}
  {attrs : Bytes → Stat} {f : Faults} {p : Proc Fs} {id : UInt32} {path : Bytes}
  {relativePath : Bytes} {desireStorage perm : Option Bytes} {storage : Storage}

theorem storageWriteable_withFs (os : Os Fs) (f : Faults) {fs : Fs} :
    StorageWriteable (os.withFs f) storage fs ↔ Writeable fs.mountinfo storage := by
  simp only [StorageWriteable, Writeable, Option.any_eq_true, Os.withFs_mountinfo]

/-- The checks of a begin pass for exactly one target, or for none. So the request names
what the begin will open. -/
private theorem uploadTarget?_eq_some_iff {target : UploadTarget} :
    uploadTarget? os.ulongMax p.os.mountinfo relativePath desireStorage perm = some target ↔
      UploadChecks (os.withFs f) relativePath desireStorage perm p.os target := by
  constructor
  · intro h
    rw [uploadTarget?] at h
    rcases hperm : uploadPerm os.ulongMax perm with _ | ⟨applyPerm, fileMode⟩
    · simp [hperm] at h
    rcases hpath : buildPath relativePath pathMaxLen with ⟨path, msg | storage⟩
    · simp [hperm, hpath] at h
    simp only [hperm, hpath] at h
    split_ifs at h with hall
    obtain ⟨hdesire, hwriteable, hrel, htemp⟩ := hall
    obtain rfl := Option.some.inj h
    exact ⟨hperm, hpath, hdesire, (storageWriteable_withFs os f).mpr hwriteable, hrel, htemp⟩
  · rintro ⟨hperm, hpath, hdesire, hwriteable, hrel, htemp⟩
    have hperm' : uploadPerm os.ulongMax perm = some (target.applyPerm, target.fileMode) := hperm
    rw [uploadTarget?, hperm', hpath]
    exact if_pos ⟨hdesire, (storageWriteable_withFs os f).mp hwriteable, hrel, htemp⟩

private theorem changeTarget?_eq_some_iff :
    changeTarget? mount relativePath desireStorage = some (path, storage) ↔
      buildPath relativePath pathMaxLen = (path, .ok storage) ∧
        StorageMatches storage desireStorage ∧ Writeable mount storage ∧
        pathIsStorageRoot path = false := by
  rw [changeTarget?]
  rcases buildPath relativePath pathMaxLen with ⟨path', msg | storage'⟩
  · simp
  · dsimp only
    split_ifs with hall
    · simp only [Option.some.injEq, Prod.mk.injEq, Except.ok.injEq, iff_self_and]
      rintro ⟨rfl, rfl⟩
      exact hall
    · simp only [Prod.mk.injEq, Except.ok.injEq, false_iff]
      rintro ⟨⟨rfl, rfl⟩, hall'⟩
      exact hall hall'

/-- A renaming asks for nothing, or both of its paths have passed the checks, on one
storage. -/
theorem renameRequest_cases (mount : Option (List Bytes)) (fromRelative toRelative : Bytes)
    (desireStorage : Option Bytes) :
    renameRequest mount fromRelative toRelative desireStorage = .skip ∨
      ∃ fromPath toPath storage,
        changeTarget? mount fromRelative desireStorage = some (fromPath, storage) ∧
        changeTarget? mount toRelative desireStorage = some (toPath, storage) ∧
        renameRequest mount fromRelative toRelative desireStorage = .move fromPath toPath := by
  rw [renameRequest]
  rcases changeTarget? mount fromRelative desireStorage with _ | ⟨fromPath, fromStorage⟩
  · exact .inl rfl
  rcases changeTarget? mount toRelative desireStorage with _ | ⟨toPath, toStorage⟩
  · exact .inl rfl
  dsimp only
  split_ifs with hstorage
  · exact .inr ⟨fromPath, toPath, fromStorage, rfl, by rw [hstorage], rfl⟩
  · exact .inl rfl

/-! ### Deleting and renaming -/

/-- A step that lets an operation go on if `c` holds, and else fails with nothing but an
error. All checks of `file_ops.c` are of this kind. -/
def Op.Guards (x : Op Fs Unit) (c : Prop) (p : Proc Fs) : Prop :=
  (c → x.run p = (some (), p)) ∧ (¬c → ∃ e, x.run p = (none, { p with lastError := e }))

private theorem Op.Guards.bind_of {α : Type} {x : Op Fs Unit} {c : Prop} (h : x.Guards c p) (hc : c)
    (k : Unit → Op Fs α) : (x >>= k).run p = (k ()).run p :=
  Op.run_bind_of_some (h.1 hc)

private theorem Op.Guards.bind_of_not {α : Type} {x : Op Fs Unit} {c : Prop} (h : x.Guards c p)
    (hc : ¬c) (k : Unit → Op Fs α) : ∃ e, (x >>= k).run p = (none, { p with lastError := e }) := by
  obtain ⟨e, hrun⟩ := h.2 hc
  exact ⟨e, Op.run_bind_of_none hrun⟩

private theorem pathStorageMatchesDesire_guards (actual : Storage) (desireStorage : Option Bytes)
    (p : Proc Fs) : (pathStorageMatchesDesire actual desireStorage).Guards
      (StorageMatches actual desireStorage) p := by
  refine ⟨fun h => pathStorageMatchesDesire_of h p, fun h => ?_⟩
  obtain ⟨msg, hrun, -⟩ := pathStorageMatchesDesire_of_not h p
  exact ⟨_, hrun⟩

private theorem ensureStorageWriteable_guards (os : Os Fs) (f : Faults) (storage : Storage)
    (p : Proc Fs) :
    (ensureStorageWriteable (os.withFs f) storage).Guards (Writeable p.os.mountinfo storage) p := by
  have hafter : p.afterMountCheck (os.withFs f) storage = p := by
    rw [Proc.afterMountCheck, Os.withFs_afterMountCheck]
  rw [← storageWriteable_withFs os f]
  refine ⟨fun h => ?_, fun h => ?_⟩
  · rw [ensureStorageWriteable_of h, hafter]
  · obtain ⟨msg, hrun, -⟩ := ensureStorageWriteable_of_not h
    rw [hafter] at hrun
    exact ⟨_, hrun⟩

/-- A deletion whose checks pass removes its path. -/
private theorem fileDelete_of_some
    (h : changeTarget? p.os.mountinfo relativePath desireStorage = some (path, storage)) :
    (fileDelete (os.withFs f) relativePath desireStorage).run p =
      (removePathRecursive (os.withFs f) pathMaxLen path).run p := by
  obtain ⟨hpath, hdesire, hwriteable, hroot⟩ := changeTarget?_eq_some_iff.mp h
  rw [fileDelete, Op.run_bind_of_some (buildPathOp_run hpath p)]
  dsimp only
  rw [(pathStorageMatchesDesire_guards _ _ p).bind_of hdesire,
    (ensureStorageWriteable_guards os f _ p).bind_of hwriteable, hroot]
  rfl

variable (os f) in
/-- A deletion whose checks do not pass changes nothing but the last error. -/
private theorem fileDelete_of_none
    (h : changeTarget? p.os.mountinfo relativePath desireStorage = none) :
    ∃ e, (fileDelete (os.withFs f) relativePath desireStorage).run p =
      (none, { p with lastError := e }) := by
  rw [fileDelete, buildPathOp]
  rcases hpath : buildPath relativePath pathMaxLen with ⟨path, msg | storage⟩
  · exact ⟨_, Op.run_bind_of_none (Op.run_failWith ..)⟩
  rw [Op.run_bind_of_some (Op.run_pure ..)]
  dsimp only
  by_cases hdesire : StorageMatches storage desireStorage
  swap
  · exact (pathStorageMatchesDesire_guards _ _ p).bind_of_not hdesire _
  rw [(pathStorageMatchesDesire_guards _ _ p).bind_of hdesire]
  by_cases hwriteable : Writeable p.os.mountinfo storage
  swap
  · exact (ensureStorageWriteable_guards os f _ p).bind_of_not hwriteable _
  rw [(ensureStorageWriteable_guards os f _ p).bind_of hwriteable]
  split_ifs with hroot
  · exact ⟨_, rfl⟩
  · -- all checks have passed, against the hypothesis
    have hsome : changeTarget? p.os.mountinfo relativePath desireStorage = some (path, storage) :=
      changeTarget?_eq_some_iff.mpr ⟨hpath, hdesire, hwriteable, Bool.eq_false_iff.mpr hroot⟩
    rw [h] at hsome
    simp at hsome

/-- A renaming whose checks pass is a `rename`, made by `renameChecked`. -/
private theorem fileRename_of_some {fromRelative toRelative fromPath toPath : Bytes}
    (hfrom : changeTarget? p.os.mountinfo fromRelative desireStorage = some (fromPath, storage))
    (hto : changeTarget? p.os.mountinfo toRelative desireStorage = some (toPath, storage)) :
    (fileRename (os.withFs f) fromRelative toRelative desireStorage).run p =
      (renameChecked (os.withFs f) (fromPath, storage) (toPath, storage)).run p := by
  obtain ⟨hfromPath, hdesire, hwriteable, -⟩ := changeTarget?_eq_some_iff.mp hfrom
  obtain ⟨htoPath, -, -, -⟩ := changeTarget?_eq_some_iff.mp hto
  rw [fileRename, Op.run_bind_of_some (buildPathOp_run hfromPath p)]
  dsimp only
  rw [Op.run_bind_of_some (buildPathOp_run htoPath p)]
  dsimp only
  rw [(pathStorageMatchesDesire_guards _ _ p).bind_of hdesire,
    (pathStorageMatchesDesire_guards _ _ p).bind_of hdesire,
    (ensureStorageWriteable_guards os f _ p).bind_of hwriteable, if_neg (by simp)]

variable (os f) in
/-- A renaming whose checks do not pass changes nothing but the last error. -/
private theorem fileRename_of_skip {fromRelative toRelative : Bytes}
    (h : renameRequest p.os.mountinfo fromRelative toRelative desireStorage = .skip) :
    ∃ e, (fileRename (os.withFs f) fromRelative toRelative desireStorage).run p =
      (none, { p with lastError := e }) := by
  have hmatches := fun storage => pathStorageMatchesDesire_guards storage desireStorage p
  have hwrites := fun storage => ensureStorageWriteable_guards os f storage p
  rw [fileRename, buildPathOp]
  rcases hfrom : buildPath fromRelative pathMaxLen with ⟨fromPath, msg | fromStorage⟩
  · exact ⟨_, Op.run_bind_of_none (Op.run_failWith ..)⟩
  rw [Op.run_bind_of_some (Op.run_pure ..), buildPathOp]
  dsimp only
  rcases hto : buildPath toRelative pathMaxLen with ⟨toPath, msg | toStorage⟩
  · exact ⟨_, Op.run_bind_of_none (Op.run_failWith ..)⟩
  rw [Op.run_bind_of_some (Op.run_pure ..)]
  dsimp only
  by_cases hfromDesire : StorageMatches fromStorage desireStorage
  swap
  · exact (hmatches _).bind_of_not hfromDesire _
  rw [(hmatches _).bind_of hfromDesire]
  by_cases htoDesire : StorageMatches toStorage desireStorage
  swap
  · exact (hmatches _).bind_of_not htoDesire _
  rw [(hmatches _).bind_of htoDesire]
  by_cases hfromWrites : Writeable p.os.mountinfo fromStorage
  swap
  · exact (hwrites _).bind_of_not hfromWrites _
  rw [(hwrites _).bind_of hfromWrites]
  by_cases hstorage : toStorage = fromStorage
  · subst hstorage
    rw [if_neg (by simp), renameChecked]
    dsimp only
    split_ifs with hroot
    · exact ⟨_, rfl⟩
    · exact absurd rfl ‹_›
    · -- all checks have passed, against the hypothesis
      obtain ⟨hfromRoot, htoRoot⟩ := Bool.or_eq_false_iff.mp (Bool.eq_false_iff.mpr hroot)
      have hsome : changeTarget? p.os.mountinfo fromRelative desireStorage =
          some (fromPath, toStorage) :=
        changeTarget?_eq_some_iff.mpr ⟨hfrom, hfromDesire, hfromWrites, hfromRoot⟩
      have hsome' : changeTarget? p.os.mountinfo toRelative desireStorage =
          some (toPath, toStorage) :=
        changeTarget?_eq_some_iff.mpr ⟨hto, htoDesire, hfromWrites, htoRoot⟩
      rw [renameRequest, hsome, hsome'] at h
      simp at h
  · rw [if_pos hstorage]
    by_cases htoWrites : Writeable p.os.mountinfo toStorage
    swap
    · exact (hwrites _).bind_of_not htoWrites _
    rw [(hwrites _).bind_of htoWrites, renameChecked]
    dsimp only
    split_ifs with hroot hcross
    · exact ⟨_, rfl⟩
    · exact ⟨_, rfl⟩
    · exact absurd (not_not.mp hcross).symm hstorage

variable (os attrs) in
/-- **A deletion** is what it asks of the store. -/
theorem Represents.delete (h : Represents K mount st p) (hK : FilePaths attrs K) (hf : f.AllOk)
    (hadm : Admissible K st (deleteRequest mount relativePath desireStorage)) :
    let r := (fileDelete ((os.withReads attrs).withFs f) relativePath desireStorage).run p
    (r.1 = some () ↔ (storeStep (deleteRequest mount relativePath desireStorage) st).1 = .done) ∧
      Represents K mount (storeStep (deleteRequest mount relativePath desireStorage) st).2 r.2 := by
  intro r
  rcases htarget : changeTarget? mount relativePath desireStorage with _ | ⟨path, storage⟩
  · obtain ⟨e, hrun⟩ := fileDelete_of_none (os.withReads attrs) f
      (h.mountinfo.symm ▸ htarget)
    rw [show r = _ from hrun, deleteRequest, htarget, storeStep, step]
    exact ⟨by simp, h.of_eq rfl rfl⟩
  · have hpath : path ∈ K := by
      rw [deleteRequest, htarget] at hadm
      exact hadm
    obtain ⟨p', hremove, hsessions, hfiles, hwrites, hnext, hmount⟩ :=
      removePathRecursive_withReads os attrs f (p := p) hf (hK.notDir path hpath)
        (show 0 < pathMaxLen by decide)
    have hrun : r = ((p.os.files path).map fun _ => (), p') :=
      (fileDelete_of_some (h.mountinfo.symm ▸ htarget)).trans hremove
    have hstreams : ∀ k q w, k < p.os.nextStream → p.os.Writes k q w → q ∉ K →
        p'.os.Writes k q w := fun k q w _ hw hq => hwrites k q w hw fun heq => hq (heq ▸ hpath)
    have hrepr : ∀ st' : FileStore, st'.staged = st.staged →
        (∀ q ∈ K, Function.update p.os.files path none q = st'.committed q) →
        Represents K mount st' p' := fun st' hstaged hcommitted =>
      h.of_slots hK.noClash (hsessions ▸ h.ok) (by rw [hsessions])
        (fun j _ _ => congrFun hsessions j)
        (fun q hq => by rw [hfiles, hcommitted q hq]) hstaged hstreams hnext.ge hmount
    rw [hrun, deleteRequest, htarget, storeStep, step, h.committed path hpath]
    rcases hvalue : st.committed path with _ | v
    · refine ⟨by simp, hrepr st rfl fun q hq => ?_⟩
      rw [← h.committed q hq, ← hvalue, ← h.committed path hpath, Function.update_eq_self]
    · refine ⟨by simp, hrepr (st.erase path) rfl fun q hq => ?_⟩
      simp only [Store.erase, Function.update_apply, h.committed q hq]

variable (os) in
/-- **A renaming** is what it asks of the store. -/
theorem Represents.rename (h : Represents K mount st p) (hK : NoClash K) (hf : f.AllOk)
    {fromRelative toRelative : Bytes}
    (hadm : Admissible K st (renameRequest mount fromRelative toRelative desireStorage)) :
    let r := (fileRename (os.withFs f) fromRelative toRelative desireStorage).run p
    let request := renameRequest mount fromRelative toRelative desireStorage
    (r.1 = some () ↔ (storeStep request st).1 = .done) ∧
      Represents K mount (storeStep request st).2 r.2 := by
  intro r request
  obtain hskip | ⟨fromPath, toPath, storage, hfrom, hto, hmove⟩ :=
    renameRequest_cases mount fromRelative toRelative desireStorage
  · obtain ⟨e, hrun⟩ := fileRename_of_skip os f (h.mountinfo.symm ▸ hskip)
    rw [show r = _ from hrun, show request = _ from hskip, storeStep, step]
    exact ⟨by simp, h.of_eq rfl rfl⟩
  obtain ⟨hfromK, htoK⟩ : fromPath ∈ K ∧ toPath ∈ K := by
    rw [hmove] at hadm
    exact hadm
  obtain ⟨-, -, -, hfromRoot⟩ := changeTarget?_eq_some_iff.mp hfrom
  obtain ⟨-, -, -, htoRoot⟩ := changeTarget?_eq_some_iff.mp hto
  have hchecked : r = (renameChecked (os.withFs f) (fromPath, storage) (toPath, storage)).run p :=
    fileRename_of_some (h.mountinfo.symm ▸ hfrom) (h.mountinfo.symm ▸ hto)
  rw [renameChecked, hfromRoot, htoRoot] at hchecked
  simp only [Bool.or_self, Bool.false_eq_true, if_false, ne_eq, not_true_eq_false] at hchecked
  rw [Op.run_bind_of_some (Op.run_sys ..),
    show (os.withFs f).rename fromPath toPath p.os = Fs.rename f fromPath toPath p.os from rfl]
    at hchecked
  rw [show request = _ from hmove, storeStep, step]
  rcases hvalue : st.committed fromPath with _ | v
  · have hnone : Fs.rename f fromPath toPath p.os = (some eNoEnt, p.os) := by
      rw [Fs.rename, hf.rename, h.committed fromPath hfromK, hvalue]
    rw [hchecked, hnone]
    exact ⟨by simp [Op.failFile], h.of_eq rfl rfl⟩
  · obtain ⟨fs', hrename, hfiles, hwrites, hnext, hmount⟩ :=
      Fs.rename_of_ok hf.rename toPath ((h.committed fromPath hfromK).trans hvalue)
    rw [hchecked, hrename]
    refine ⟨by simp, h.of_slots hK h.ok rfl (fun _ _ _ => rfl) (fun q hq => ?_) rfl
      (fun k q w _ hw hq => ?_) hnext.ge hmount⟩
    · rw [Op.run_pure, hfiles]
      simp only [Store.put, Store.erase, Function.update_apply, h.committed q hq]
    · exact hwrites k q w hw (fun heq => hq (heq ▸ hfromK)) fun heq => hq (heq ▸ htoK)

/-- **A begin** is what it asks of the store. -/
theorem Represents.beginUpload (h : Represents K mount st p) (hK : NoClash K)
    (hex : Exclusive st) (hf : f.AllOk)
    (hadm : Admissible K st
      (beginRequest os.ulongMax mount id relativePath desireStorage perm)) :
    let r := (fileBeginUpload (os.withFs f) id relativePath desireStorage perm).run p
    let request := beginRequest os.ulongMax mount id relativePath desireStorage perm
    (r.1 = some () ↔ (storeStep request st).1 = .done) ∧
      Represents K mount (storeStep request st).2 r.2 := by
  intro r request
  rw [beginRequest] at hadm
  rcases htarget : uploadTarget? os.ulongMax mount relativePath desireStorage perm with _ | target
  · have hchecks : ∀ target,
        ¬UploadChecks (os.withFs f) relativePath desireStorage perm p.os target := by
      intro target hchecks
      have hsome := uploadTarget?_eq_some_iff.mpr hchecks
      rw [h.mountinfo, htarget] at hsome
      simp at hsome
    obtain ⟨hnone, hrepr⟩ := h.begin_refused id hK hex hf hchecks
    have hrequest : request = .cancel id := by
      simp only [request, beginRequest, htarget]
    rw [hrequest, storeStep, step]
    exact ⟨by rw [hnone]; simp, hrepr⟩
  · rw [htarget] at hadm
    have hrequest : request = .start id target.path := by
      simp only [request, beginRequest, htarget]
    rw [hrequest]
    exact h.begin hK hex hf (uploadTarget?_eq_some_iff.mp (h.mountinfo.symm ▸ htarget)) hadm

end Requests

end UsbResponder
