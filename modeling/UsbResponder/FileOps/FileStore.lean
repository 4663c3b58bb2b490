import UsbResponder.Base.StagedStore
import UsbResponder.FileOps.InterleavedUploads
import UsbResponder.FileOps.TempFiles
import UsbResponder.System.StoredFiles

/-!
# The files as a store

The process stands for a store whose values are written in stages (`StagedStore`). The keys
are paths of which none is the temporary path of another (`NoClash`); the committed value of
a key is the file at this path, and a transfer in progress is a live upload session, whose
stream writes to the temporary path.

`Represents K mount st p` is this relation between a store `st` and a process `p`. Two rules
carry it from one process to another, and every operation is one of the two:
`Represents.of_onlyTouches` for a call that works on one transfer, and `Represents.of_slots`
for one that leaves the transfers alone. The uploads are done here: a begin, a chunk and an
end are the requests `start`, `add` and `commit`, and a begin whose checks do not pass is a
`cancel`.

The relation is about system calls that succeed. What a failing call leaves behind is the
subject of `UploadFaults` and `TempFiles`, not of this module. `Exclusive` is what the
requests have to keep apart: the code lets two uploads write to one temporary file, and no
store describes that.
-/

namespace UsbResponder

open CString StagedStore

/-- A store of files, with uploads in progress: transfer ids name transfers, paths are keys,
and bytes are what values are made of. -/
abbrev FileStore := Store UInt32 Bytes UInt8

/-- A request to a store of files: transfers have the ids of uploads, keys are paths, and
values are bytes. -/
abbrev FileRequest := Request UInt32 Bytes UInt8

/-- How a request to a store of files is answered. -/
abbrev FileAnswer := Answer UInt8

/-- What a request does to a store of files. -/
noncomputable abbrev storeStep (r : FileRequest) (st : FileStore) : FileAnswer × FileStore :=
  step maxUploadSessions UInt32.size r st

/-- The process stands for the store `st` on the paths `K`, with the mount table `mount`.
Files outside `K` are not spoken of, other than the temporary files of the transfers. -/
structure Represents (K : Set Bytes) (mount : Option (List Bytes)) (st : FileStore)
    (p : Proc Fs) : Prop where
  ok : SessionsOk p.sessions
  committed : ∀ path ∈ K, p.os.files path = st.committed path
  idle : ∀ id, st.staged id = none → transfers p.sessions id = none
  staged : ∀ id path sent, st.staged id = some (path, sent) → path ∈ K ∧
    ∃ slot target fp, UploadOpen p slot id target fp sent ∧ target.path = path ∧
      fp < p.os.nextStream
  mountinfo : p.os.mountinfo = mount

/-- A request is about the paths of `K`, and starts no transfer for a path that another
transfer is in progress for. -/
def Admissible (K : Set Bytes) (st : FileStore) : FileRequest → Prop
  | .start id path => path ∈ K ∧ ∀ id' sent, st.staged id' = some (path, sent) → id' = id
  | .get path => path ∈ K
  | .measure path => path ∈ K
  | .remove path => path ∈ K
  | .move src dst => src ∈ K ∧ dst ∈ K
  | _ => True

/-- No path has two transfers in progress. It is kept by the requests that are `Admissible`,
and needed whenever a transfer is worked on. -/
def Exclusive (st : FileStore) : Prop :=
  ∀ id id' path sent sent', st.staged id = some (path, sent) → st.staged id' = some (path, sent') →
    id = id'

/-- A store without transfers is represented by an empty table. -/
theorem Represents.start {K : Set Bytes} {p : Proc Fs} (hempty : p.sessions = fileOpsInit)
    {st : FileStore} (hst : ∀ path ∈ K, p.os.files path = st.committed path)
    (hidle : ∀ id, st.staged id = none) : Represents K p.os.mountinfo st p where
  ok := hempty ▸ .init
  committed := hst
  idle := fun id _ => transfers_eq_none_iff.mpr
    (SlotTable.find_eq_none_iff.mpr (key_ne_of_eq_fileOpsInit hempty id))
  staged := fun id path sent h => by simp [hidle id] at h
  mountinfo := rfl

section Rules

variable {K : Set Bytes} {mount : Option (List Bytes)} {st st' : FileStore} {p p' : Proc Fs}

/-- An id is live exactly if its transfer is in progress. -/
theorem Represents.transfers_eq_none_iff (h : Represents K mount st p) (id : UInt32) :
    transfers p.sessions id = none ↔ st.staged id = none := by
  refine ⟨fun hnone => ?_, h.idle id⟩
  by_contra hstaged
  obtain ⟨⟨path, sent⟩, hsome⟩ := Option.ne_none_iff_exists'.mp hstaged
  obtain ⟨-, slot, target, fp, hopen, -⟩ := h.staged id path sent hsome
  rw [UsbResponder.transfers_eq_none_iff, hopen.find] at hnone
  simp at hnone

/-- There is no free slot exactly if the store has no room. Both have sixteen places. -/
private theorem Represents.full_iff (h : Represents K mount st p) :
    SlotTable.alloc UploadSession.key p.sessions = none ↔ st.Full maxUploadSessions := by
  rw [h.ok.unique.alloc_eq_none_iff, Store.Full]
  have hlive : ∀ id, SlotTable.lookup UploadSession.key p.sessions id ≠ none ↔
      st.staged id ≠ none := by
    intro id
    rw [not_iff_not, ← h.transfers_eq_none_iff id, transfers, Option.map_eq_none_iff]
  simp only [hlive]

/-- An upload stays open while another one is worked on: its slot has another id, and its
temporary file another path. -/
theorem UploadOpen.of_onlyTouches {plan : UploadPlan} {slot : Fin maxUploadSessions} {id : UInt32}
    {target : UploadTarget} {fp : ℕ} {sent : Bytes} (h : UploadOpen p slot id target fp sent)
    (htouch : plan.OnlyTouches p p') (hfp : fp < p.os.nextStream) (hid : id ≠ plan.transferId)
    (hpath : target.tempPath ≠ plan.target.path)
    (htemp : target.tempPath ≠ plan.target.tempPath) : UploadOpen p' slot id target fp sent := by
  have hkey := key_of_findSession h.find
  have hslot := htouch.slot slot id hkey hid
  exact {
    find := htouch.ok.unique.find_eq_some_iff.mpr (by rw [hslot, hkey])
    stream := by rw [hslot, h.stream]
    tempPath := by rw [hslot, h.tempPath]
    finalPath := by rw [hslot, h.finalPath]
    applyPerm := by rw [hslot, h.applyPerm]
    writes := htouch.writes _ _ _ hfp h.writes hpath htemp }

/-- **The rule of one transfer.** A call that touches one upload only, to a path of which no
other transfer is in progress. -/
theorem Represents.of_onlyTouches (h : Represents K mount st p) (hK : NoClash K)
    {plan : UploadPlan} (htouch : plan.OnlyTouches p p') (hkey : plan.target.path ∈ K)
    (halone : ∀ id path sent, id ≠ plan.transferId → st.staged id = some (path, sent) →
      path ≠ plan.target.path)
    (hcommitted : ∀ path, path ≠ plan.target.path → st'.committed path = st.committed path)
    (hfinal : p'.os.files plan.target.path = st'.committed plan.target.path)
    (hothers : ∀ id, id ≠ plan.transferId → st'.staged id = st.staged id)
    (hidle : st'.staged plan.transferId = none → transfers p'.sessions plan.transferId = none)
    (hstaged : ∀ path sent, st'.staged plan.transferId = some (path, sent) →
      path = plan.target.path ∧ ∃ slot fp, UploadOpen p' slot plan.transferId plan.target fp sent ∧
        fp < p'.os.nextStream) :
    Represents K mount st' p' where
  ok := htouch.ok
  committed := by
    intro path hpath
    by_cases heq : path = plan.target.path
    · rw [heq, hfinal]
    · rw [hcommitted path heq, ← h.committed path hpath]
      exact htouch.files path heq fun htemp =>
        hK _ hkey (show plan.target.tempPath ∈ K from htemp ▸ hpath)
  idle := by
    intro id hnone
    by_cases hid : id = plan.transferId
    · rw [hid] at hnone ⊢
      exact hidle hnone
    · rw [hothers id hid] at hnone
      exact (htouch.live id hid).trans (h.idle id hnone)
  staged := by
    intro id path sent hsome
    by_cases hid : id = plan.transferId
    · rw [hid] at hsome ⊢
      obtain ⟨rfl, slot, fp, hopen, hfp⟩ := hstaged path sent hsome
      exact ⟨hkey, slot, plan.target, fp, hopen, rfl, hfp⟩
    · rw [hothers id hid] at hsome
      obtain ⟨hpath, slot, target, fp, hopen, rfl, hfp⟩ := h.staged id path sent hsome
      have hne := halone id target.path sent hid hsome
      refine ⟨hpath, slot, target, fp, hopen.of_onlyTouches htouch hfp hid ?_ ?_, rfl,
        hfp.trans_le htouch.nextStream⟩
      · exact fun htemp => hK _ hpath (show target.tempPath ∈ K from htemp ▸ hkey)
      · exact fun htemp => hne (List.append_cancel_right htemp)
  mountinfo := htouch.mountinfo.trans h.mountinfo

/-- **The rule of no transfer.** A call that leaves the live sessions alone, and what
streams write outside of `K`. -/
theorem Represents.of_slots (h : Represents K mount st p) (hK : NoClash K)
    (hok : SessionsOk p'.sessions) (hlive : transfers p'.sessions = transfers p.sessions)
    (hslots : ∀ j id, (p.sessions j).key = some id → p'.sessions j = p.sessions j)
    (hcommitted : ∀ path ∈ K, p'.os.files path = st'.committed path)
    (hstaged : st'.staged = st.staged)
    (hwrites : ∀ k q w, k < p.os.nextStream → p.os.Writes k q w → q ∉ K → p'.os.Writes k q w)
    (hnext : p.os.nextStream ≤ p'.os.nextStream) (hmount : p'.os.mountinfo = p.os.mountinfo) :
    Represents K mount st' p' where
  ok := hok
  committed := hcommitted
  idle := fun id hnone => by
    rw [hlive]
    exact h.idle id (hstaged ▸ hnone)
  staged := by
    intro id path sent hsome
    rw [hstaged] at hsome
    obtain ⟨hpath, slot, target, fp, hopen, rfl, hfp⟩ := h.staged id path sent hsome
    have hkey := key_of_findSession hopen.find
    have hslot := hslots slot id hkey
    refine ⟨hpath, slot, target, fp, ?_, rfl, hfp.trans_le hnext⟩
    exact {
      find := hok.unique.find_eq_some_iff.mpr (by rw [hslot, hkey])
      stream := by rw [hslot, hopen.stream]
      tempPath := by rw [hslot, hopen.tempPath]
      finalPath := by rw [hslot, hopen.finalPath]
      applyPerm := by rw [hslot, hopen.applyPerm]
      writes := hwrites _ _ _ hfp hopen.writes fun htemp => hK _ hpath htemp }
  mountinfo := hmount.trans h.mountinfo

/-- Reading, and setting the last error. Streams that were opened for reading are closed
again, or at least are no stream of an upload. -/
theorem Represents.of_sameFiles (h : Represents K mount st p) (hK : NoClash K)
    (hsessions : p'.sessions = p.sessions) (hsame : p.os.SameFiles p'.os) :
    Represents K mount st p' :=
  h.of_slots hK (hsessions ▸ h.ok) (by rw [hsessions]) (fun j _ _ => congrFun hsessions j)
    (fun path hpath => (congrFun hsame.files path).trans (h.committed path hpath)) rfl
    (fun _ _ _ hk hw _ => hsame.writes hk hw) hsame.nextStream hsame.mountinfo

/-- Setting the last error, and nothing else. -/
theorem Represents.of_eq (h : Represents K mount st p) (hsessions : p'.sessions = p.sessions)
    (hos : p'.os = p.os) : Represents K mount st p' where
  ok := hsessions ▸ h.ok
  committed := hos ▸ h.committed
  idle := hsessions ▸ h.idle
  staged := fun id path sent hsome => by
    obtain ⟨hpath, slot, target, fp, hopen, heq, hfp⟩ := h.staged id path sent hsome
    exact ⟨hpath, slot, target, fp, hopen.of_sessions hsessions (hos ▸ hopen.writes), heq,
      hos ▸ hfp⟩
  mountinfo := hos ▸ h.mountinfo

end Rules

/-! ### Uploads -/

section Uploads

variable {K : Set Bytes} {mount : Option (List Bytes)} {st : FileStore} {os : Os Fs} {f : Faults}
  {p : Proc Fs} {id : UInt32} {target : UploadTarget} {slot : Fin maxUploadSessions} {fp : ℕ}
  {sent : Bytes}

/-- The upload of a transfer that is in progress; its pieces do not matter. -/
def planOf (id : UInt32) (target : UploadTarget) : UploadPlan where
  transferId := id
  relativePath := []
  desireStorage := none
  perm := none
  target := target
  pieces := []

@[simp] theorem planOf_transferId (id : UInt32) (target : UploadTarget) :
    (planOf id target).transferId = id := rfl

@[simp] theorem planOf_target (id : UInt32) (target : UploadTarget) :
    (planOf id target).target = target := rfl

variable (os) in
/-- An abort touches its own upload only, and its temporary file is gone. It belongs to no
request of its own: a store drops a transfer when its id begins again. -/
private theorem abort_onlyTouches (hok : SessionsOk p.sessions) (hf : f.AllOk)
    (hopen : UploadOpen p slot id target fp sent) :
    let r := (fileAbortUpload (os.withFs f) id).run p
    (planOf id target).OnlyTouches p r.2 ∧ transfers r.2.sessions id = none ∧
      r.2.os.files target.path = p.os.files target.path := by
  intro r
  obtain ⟨hfile, -, hsame⟩ := hopen.writes.fclose f
  obtain ⟨fs₁, hfs₁⟩ : ∃ fs₁, fs₁ = (Fs.fclose f fp p.os).2 := ⟨_, rfl⟩
  rw [← hfs₁] at hfile hsame
  have hunlink : Fs.unlink f target.tempPath fs₁ = (none, { fs₁ with
      files := Function.update fs₁.files target.tempPath none
      streams := fun k => (fs₁.streams k).map (Stream.unlinked target.tempPath) }) := by
    rw [Fs.unlink, hf.unlink, hfile]
  have hr : r = (some (), { p with os := { fs₁ with
      files := Function.update fs₁.files target.tempPath none
      streams := fun k => (fs₁.streams k).map (Stream.unlinked target.tempPath) } }.setSession
        slot {}) := by
    have hclose : closeStream (os.withFs f) (some fp) p = { p with os := fs₁ } := by
      rw [hfs₁]
      rfl
    have hcall : (os.withFs f).unlink target.tempPath fs₁ = _ := hunlink
    rw [show r = (fileAbortUpload (os.withFs f) id).run p from rfl,
      fileAbortUpload_of_some hopen.find, hopen.stream, hopen.tempPath, hclose, unlinkPath, hcall]
  obtain ⟨hok', hmap⟩ := hok.abort (os.withFs f) id
  have hother : ∀ q, q ≠ target.tempPath → r.2.os.files q = p.os.files q := by
    intro q hq
    rw [hr]
    exact (Function.update_of_ne hq ..).trans (hsame.files q hq)
  refine ⟨⟨hok', fun id' hid => ?_, fun j id' hj hid => ?_, fun q _ hq => hother q hq,
    fun k q w hk hw _ hq => ?_, ?_, ?_⟩, by rw [hmap, Function.update_self],
    hother _ target.tempPath_ne.symm⟩
  · rw [hmap]
    exact Function.update_of_ne hid ..
  · have hne : j ≠ slot := by
      rintro rfl
      exact hid (Option.some.inj (hj.symm.trans (key_of_findSession hopen.find)))
    rw [hr]
    exact Function.update_of_ne hne ..
  · -- another stream loses its file neither by the close nor by the removal
    obtain ⟨content, buffer, hq', hstream, hcontent⟩ :=
      hw.of_sameElsewhere hsame hq (hw.stream_ne hopen.writes hq)
    rw [hr]
    refine ⟨content, buffer, (Function.update_of_ne hq ..).trans hq', ?_, hcontent⟩
    dsimp only [Proc.setSession_os]
    rw [hstream, Option.map_some, Stream.unlinked, if_neg (by simpa using hq)]
  · rw [hr]
    exact hsame.nextStream
  · rw [hr]
    exact hsame.mountinfo

/-- The key of a transfer in progress belongs to no other transfer. -/
theorem Exclusive.alone (hex : Exclusive st) {path : Bytes} (hid : st.staged id = some (path, sent))
    (id' : UInt32) (path' sent' : Bytes) (hne : id' ≠ id)
    (hsome : st.staged id' = some (path', sent')) : path' ≠ path := by
  rintro rfl
  exact hne (hex id' id _ _ _ hsome hid)

variable (os) in
/-- Before a begin looks for a slot, its transfer is dropped. This is so whether the begin
is refused afterwards or not. -/
theorem Represents.beforeBegin (h : Represents K mount st p) (hK : NoClash K)
    (hex : Exclusive st) (hf : f.AllOk) (id : UInt32) :
    Represents K mount (st.drop id) (UsbResponder.beforeBegin (os.withFs f) id p) := by
  rcases hstaged : st.staged id with _ | ⟨path, sent⟩
  · have hdrop : st.drop id = st := by
      rw [Store.drop, ← hstaged, Function.update_eq_self]
    have hfind := UsbResponder.transfers_eq_none_iff.mp (h.idle id hstaged)
    rw [hdrop, UsbResponder.beforeBegin, hfind]
    exact h
  · obtain ⟨hpath, slot, target, fp, hopen, rfl, hfp⟩ := h.staged id path sent hstaged
    obtain ⟨htouch, hnone, hfile⟩ := abort_onlyTouches os h.ok hf hopen
    rw [UsbResponder.beforeBegin, hopen.find]
    exact h.of_onlyTouches hK htouch hpath (hex.alone hstaged)
      (fun _ _ => rfl) (hfile.trans (h.committed _ hpath))
      (fun id' hid => Function.update_of_ne hid ..) (fun _ => hnone) fun path' sent' hsome => by
        simp [Store.drop] at hsome

/-- A begin works on the process in which its transfer is dropped. -/
private theorem fileBeginUpload_beforeBegin (h : SessionsOk p.sessions) (os : Os Fs) (id : UInt32)
    (relativePath : Bytes) (desireStorage perm : Option Bytes) :
    (fileBeginUpload os id relativePath desireStorage perm).run p =
      (fileBeginUpload os id relativePath desireStorage perm).run (beforeBegin os id p) := by
  have hnone : findSession (beforeBegin os id p).sessions id = none :=
    SlotTable.find_eq_none_iff.mpr (h.beforeBegin os id).2.2
  have hsame : beforeBegin os id (beforeBegin os id p) = beforeBegin os id p := by
    rw [beforeBegin, hnone]
  rw [fileBeginUpload]
  dsimp only
  rw [← beforeBegin, ← beforeBegin, hsame]

/-- A begin whose checks do not pass changes a record that is not in use, and the last
error. -/
private theorem fileBeginUpload_refused {relativePath : Bytes} {desireStorage perm : Option Bytes}
    (hfind : findSession p.sessions id = none)
    (halloc : SlotTable.alloc UploadSession.key p.sessions = some slot)
    (h : ∀ target, ¬UploadChecks (os.withFs f) relativePath desireStorage perm p.os target) :
    ∃ record msg, record.used = false ∧
      (fileBeginUpload (os.withFs f) id relativePath desireStorage perm).run p =
        (none, (p.setSession slot record).setLastError msg) := by
  have hbefore : beforeBegin (os.withFs f) id p = p := by
    rw [beforeBegin, hfind]
  have hcases := fileBeginUpload_cases (os.withFs f) id relativePath desireStorage perm p
  simp only [hbefore, halloc, reduceCtorEq, false_and, false_or, Option.some.injEq,
    exists_eq_left'] at hcases
  obtain ⟨record, s, msg, hrecord, -, hrefused, hrun⟩ | ⟨t, fp, s, ht, -⟩ := hcases
  · have hs : s = p.os := by
      obtain ⟨-, rfl | rfl⟩ | ⟨t, e, ht, -⟩ := hrefused
      · rfl
      · rw [Os.withFs_mountinfo]
      · exact absurd ht (h t)
    rw [hs] at hrun
    exact ⟨record, msg, hrecord, hrun⟩
  · exact absurd ht (h t)

/-- **A begin whose checks pass** is a start. -/
theorem Represents.begin (h : Represents K mount st p) (hK : NoClash K) (hex : Exclusive st)
    (hf : f.AllOk) {relativePath : Bytes} {desireStorage perm : Option Bytes}
    (hchecks : UploadChecks (os.withFs f) relativePath desireStorage perm p.os target)
    (hadm : Admissible K st (.start id target.path)) :
    let r := (fileBeginUpload (os.withFs f) id relativePath desireStorage perm).run p
    (r.1 = some () ↔ (storeStep (.start id target.path) st).1 = .done) ∧
      Represents K mount (storeStep (.start id target.path) st).2 r.2 := by
  intro r
  obtain ⟨hpath, halone⟩ := hadm
  have hbefore := h.beforeBegin os hK hex hf id
  obtain ⟨b, hb⟩ : ∃ b, b = UsbResponder.beforeBegin (os.withFs f) id p := ⟨_, rfl⟩
  have hr : r = (fileBeginUpload (os.withFs f) id relativePath desireStorage perm).run b := by
    rw [hb]
    exact fileBeginUpload_beforeBegin h.ok _ _ _ _ _
  rw [← hb] at hbefore
  have hidle : transfers b.sessions id = none :=
    hbefore.idle id (Function.update_self ..)
  rcases halloc : SlotTable.alloc UploadSession.key b.sessions with _ | slot
  · have hfull := hbefore.full_iff.mp halloc
    have hrun : r = (none, b.setLastError (utf8 "no free upload session")) := by
      have hbb : UsbResponder.beforeBegin (os.withFs f) id b = b := by
        rw [UsbResponder.beforeBegin, UsbResponder.transfers_eq_none_iff.mp hidle]
      rw [hr, fileBeginUpload_of_full id desireStorage perm (by rw [hbb, halloc]), hbb]
    rw [hrun, storeStep, step, if_pos hfull]
    exact ⟨by simp, hbefore.of_eq rfl rfl⟩
  · have hroom : ¬(st.drop id).Full maxUploadSessions := by
      rw [← hbefore.full_iff, halloc]
      simp
    have hchecks' : UploadChecks (os.withFs f) relativePath desireStorage perm b.os target :=
      hchecks.of_mountinfo (hbefore.mountinfo.trans h.mountinfo.symm)
    obtain ⟨hdone, htouch, ⟨fp, hopen, hfp⟩, hfile⟩ := @UploadPlan.begin_onlyTouches
      ⟨id, relativePath, desireStorage, perm, target, []⟩ os f b slot hbefore.ok hf hidle halloc
      hchecks'
    rw [hr, storeStep, step_start id target.path hroom]
    refine ⟨iff_of_true hdone rfl, hbefore.of_onlyTouches hK htouch hpath ?_ (fun _ _ => rfl) ?_
      (fun id' hid => ?_) ?_ ?_⟩
    · intro id' path' sent' hne hsome
      rw [Store.drop] at hsome
      dsimp only at hsome hne
      rw [Function.update_of_ne hne] at hsome
      rintro rfl
      exact hne (halone id' sent' hsome)
    · exact hfile.trans (hbefore.committed _ hpath)
    · exact (Function.update_of_ne hid ..).trans (Function.update_of_ne hid ..).symm
    · intro hnone
      simp [Store.stage] at hnone
    · intro path' sent' hsome
      obtain ⟨rfl, rfl⟩ : target.path = path' ∧ [] = sent' := by
        simpa [Store.stage] using hsome
      exact ⟨rfl, slot, fp, hopen, hfp⟩

variable (id) in
/-- **A begin whose checks do not pass** drops its transfer. -/
theorem Represents.begin_refused (h : Represents K mount st p) (hK : NoClash K)
    (hex : Exclusive st) (hf : f.AllOk) {relativePath : Bytes} {desireStorage perm : Option Bytes}
    (hchecks : ∀ target, ¬UploadChecks (os.withFs f) relativePath desireStorage perm p.os target) :
    let r := (fileBeginUpload (os.withFs f) id relativePath desireStorage perm).run p
    r.1 = none ∧ Represents K mount (st.drop id) r.2 := by
  intro r
  have hbefore := h.beforeBegin os hK hex hf id
  obtain ⟨b, hb⟩ : ∃ b, b = UsbResponder.beforeBegin (os.withFs f) id p := ⟨_, rfl⟩
  have hr : r = (fileBeginUpload (os.withFs f) id relativePath desireStorage perm).run b := by
    rw [hb]
    exact fileBeginUpload_beforeBegin h.ok _ _ _ _ _
  rw [← hb] at hbefore
  have hfind : findSession b.sessions id = none :=
    UsbResponder.transfers_eq_none_iff.mp (hbefore.idle id (Function.update_self ..))
  rcases halloc : SlotTable.alloc UploadSession.key b.sessions with _ | slot
  · have hbb : UsbResponder.beforeBegin (os.withFs f) id b = b := by
      rw [UsbResponder.beforeBegin, hfind]
    rw [hr, fileBeginUpload_of_full id desireStorage perm (by rw [hbb, halloc]), hbb]
    exact ⟨rfl, hbefore.of_eq rfl rfl⟩
  · have hchecks' : ∀ t, ¬UploadChecks (os.withFs f) relativePath desireStorage perm b.os t :=
      fun t ht => hchecks t (ht.of_mountinfo (h.mountinfo.trans hbefore.mountinfo.symm))
    obtain ⟨record, msg, hrecord, hrun⟩ := fileBeginUpload_refused hfind halloc hchecks'
    have hfree := SlotTable.key_of_alloc halloc
    rw [hr, hrun]
    refine ⟨rfl, hbefore.of_slots hK (hbefore.ok.release hrecord)
      (hbefore.ok.transfers_free hrecord hfree) (fun j id' hj => ?_) hbefore.committed rfl
      (fun _ _ _ _ hw _ => hw) le_rfl rfl⟩
    refine Function.update_of_ne ?_ ..
    rintro rfl
    rw [hfree] at hj
    simp at hj

/-- **A chunk** adds its data to the transfer. How much of it is in the file by then does
not matter. -/
theorem Represents.append (h : Represents K mount st p) (hK : NoClash K) (hex : Exclusive st)
    (hf : f.AllOk) (id : UInt32) (data : Bytes) :
    let r := (fileAppendUploadChunk (os.withFs f) id data).run p
    (r.1 = some () ↔ (storeStep (.add id data) st).1 = .done) ∧
      Represents K mount (storeStep (.add id data) st).2 r.2 := by
  intro r
  rw [storeStep, step]
  rcases hstaged : st.staged id with _ | ⟨path, sent⟩
  · obtain ⟨msg, hrun⟩ := fileAppendUploadChunk_of_none
      (UsbResponder.transfers_eq_none_iff.mp (h.idle id hstaged)) (os.withFs f) data
    rw [show r = _ from hrun]
    exact ⟨by simp, h.of_eq rfl rfl⟩
  · dsimp only
    split_ifs with hdata
    · have hrun : r = (none, p.setLastError (utf8 "invalid upload chunk")) := by
        simp only [r, fileAppendUploadChunk, if_pos hdata]
      rw [hrun]
      exact ⟨by simp, h.of_eq rfl rfl⟩
    · obtain ⟨hpath, slot, target, fp, hopen, rfl, hfp⟩ := h.staged id path sent hstaged
      obtain ⟨hdone, htouch, hopen', hfile⟩ := @UploadPlan.append_onlyTouches
        (planOf id target) os f p slot fp sent h.ok hf hopen data hdata
      refine ⟨iff_of_true hdone rfl, h.of_onlyTouches hK htouch hpath (hex.alone hstaged)
        (fun _ _ => rfl) (hfile.trans (h.committed _ hpath))
        (fun id' hid => Function.update_of_ne hid ..) (fun hnone => ?_) fun path' sent' hsome => ?_⟩
      · simp [Store.stage] at hnone
      · obtain ⟨rfl, rfl⟩ : target.path = path' ∧ sent ++ data = sent' := by
          simpa [Store.stage] using hsome
        exact ⟨rfl, slot, fp, hopen', hfp.trans_le htouch.nextStream⟩

/-- **An end** commits the transfer. Closing the stream writes the rest, and the rename
gives it the final path. -/
theorem Represents.finish (h : Represents K mount st p) (hK : NoClash K) (hex : Exclusive st)
    (hf : f.AllOk) (id : UInt32) :
    let r := (fileFinishUpload (os.withFs f) id).run p
    (r.1 = some () ↔ (storeStep (.commit id) st).1 = .done) ∧
      Represents K mount (storeStep (.commit id) st).2 r.2 := by
  intro r
  rw [storeStep, step]
  rcases hstaged : st.staged id with _ | ⟨path, sent⟩
  · have hrun : r = (none, p.setLastError (utf8 "upload session not found")) := by
      simp only [r, fileFinishUpload, UsbResponder.transfers_eq_none_iff.mp (h.idle id hstaged)]
    rw [hrun]
    exact ⟨by simp, h.of_eq rfl rfl⟩
  · obtain ⟨hpath, slot, target, fp, hopen, rfl, hfp⟩ := h.staged id path sent hstaged
    obtain ⟨hdone, htouch, hnone, hfinal, -⟩ := @UploadPlan.finish_onlyTouches
      (planOf id target) os f p slot fp sent h.ok hf hopen
    refine ⟨iff_of_true hdone rfl, h.of_onlyTouches hK htouch hpath (hex.alone hstaged)
      (fun path' hne => Function.update_of_ne hne ..) ?_
      (fun id' hid => Function.update_of_ne hid ..) (fun _ => hnone) fun path' sent' hsome => ?_⟩
    · exact hfinal.trans (by simp [Store.put, Store.drop])
    · simp [Store.drop] at hsome

end Uploads

/-! ### Transfers of different keys -/

section Exclusive

variable {K : Set Bytes} {st : FileStore} {id : UInt32} {path sent : Bytes}

theorem Exclusive.drop (h : Exclusive st) (id : UInt32) : Exclusive (st.drop id) := by
  have hsub : ∀ {id' taken}, (st.drop id).staged id' = some taken → st.staged id' = some taken := by
    intro id' taken htaken
    by_cases hid : id' = id
    · simp [Store.drop, hid] at htaken
    · simpa [Store.drop, hid] using htaken
  exact fun id₁ id₂ path sent₁ sent₂ h₁ h₂ => h id₁ id₂ path sent₁ sent₂ (hsub h₁) (hsub h₂)

theorem Exclusive.stage (h : Exclusive st)
    (halone : ∀ id' sent', st.staged id' = some (path, sent') → id' = id) (sent : Bytes) :
    Exclusive (st.stage id (path, sent)) := by
  have hcases : ∀ {id' path' sent'}, (st.stage id (path, sent)).staged id' = some (path', sent') →
      (id' = id ∧ path' = path) ∨ st.staged id' = some (path', sent') := by
    intro id' path' sent' hsome
    by_cases hid : id' = id
    · obtain ⟨rfl, -⟩ : path = path' ∧ sent = sent' := by simpa [Store.stage, hid] using hsome
      exact .inl ⟨hid, rfl⟩
    · exact .inr (by simpa [Store.stage, hid] using hsome)
  intro id₁ id₂ path' sent₁ sent₂ h₁ h₂
  obtain ⟨hid₁, rfl⟩ | hold₁ := hcases h₁
  · obtain ⟨hid₂, -⟩ | hold₂ := hcases h₂
    · rw [hid₁, hid₂]
    · rw [hid₁, halone id₂ sent₂ hold₂]
  · obtain ⟨hid₂, rfl⟩ | hold₂ := hcases h₂
    · rw [hid₂, halone id₁ sent₁ hold₁]
    · exact h id₁ id₂ path' sent₁ sent₂ hold₁ hold₂

/-- **One request** keeps the transfers to different keys. -/
theorem Exclusive.step (h : Exclusive st) {r : FileRequest} (hadm : Admissible K st r) :
    Exclusive (storeStep r st).2 := by
  have hsame : ∀ {st' : FileStore}, st'.staged = st.staged → Exclusive st' := by
    intro st' hstaged
    rw [Exclusive, hstaged]
    exact h
  rw [storeStep]
  cases r with
  | start id path =>
    rw [StagedStore.step]
    split_ifs
    · exact h.drop id
    · exact h.stage hadm.2 []
  | cancel id => exact h.drop id
  | add id data =>
    rw [StagedStore.step]
    rcases hstaged : st.staged id with _ | ⟨path, sent⟩
    · exact h
    dsimp only
    split_ifs
    · exact h
    · exact h.stage (fun id' sent' hsome => (h _ _ _ _ _ hstaged hsome).symm) _
  | commit id =>
    rw [StagedStore.step]
    rcases hstaged : st.staged id with _ | ⟨path, sent⟩
    · exact h
    · have hput : Exclusive (st.put path sent) := hsame rfl
      exact hput.drop id
  | get path =>
    rw [StagedStore.step]
    rcases st.committed path with _ | v
    · exact h
    dsimp only
    split_ifs <;> exact h
  | measure path =>
    rw [StagedStore.step]
    rcases st.committed path with _ | v <;> exact h
  | remove path =>
    rw [StagedStore.step]
    rcases st.committed path with _ | v
    · exact h
    · exact hsame rfl
  | move src dst =>
    rw [StagedStore.step]
    rcases st.committed src with _ | v
    · exact h
    · exact hsame rfl
  | ping => exact h
  | skip => exact h

end Exclusive

end UsbResponder
