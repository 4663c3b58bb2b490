import UsbResponder.FileOps.SequentialUploads
import UsbResponder.FileOps.SessionTable

/-!
# Uploads at the same time

At most sixteen uploads whose calls arrive in any order that keeps the calls of each upload
in order, with every system call succeeding. `UploadPlan.Phase` says what the process has to
do with one upload, by the calls it has still to make: while it is open, one slot and one
stream hold exactly the pieces sent so far. `Uploading` is this for all uploads of a group,
and says that no other session is live and no other file has changed.

`Uploading.step` is the step of any schedule: the next call of any upload succeeds, keeps
`Uploading`, and changes a final path only when it finishes the upload of this path. The
work is to see that a call of one upload leaves the others as they are: `OnlyTouches` says
which session and which two paths a call changes, and `Phase.of_onlyTouches` that an upload
`Apart` from it stays in its phase.

Failing calls are left to `FileOps.UploadFaults`, and the frames that carry the calls to
`Responder.InterleavedPuts`.
-/

namespace UsbResponder

open CString

/-! ### One upload among others -/

/-- The checks of a begin depend on the file system only through its mount table. -/
theorem UploadChecks.of_mountinfo {os : Os Fs} {f f' : Faults} {relativePath : Bytes}
    {desireStorage perm : Option Bytes} {fs fs' : Fs} {target : UploadTarget}
    (h : UploadChecks (os.withFs f) relativePath desireStorage perm fs target)
    (hmount : fs'.mountinfo = fs.mountinfo) :
    UploadChecks (os.withFs f') relativePath desireStorage perm fs' target where
  perm := h.perm
  path := h.path
  desire := h.desire
  writeable := by
    intro hsd
    obtain ⟨lines, hlines, hsome⟩ := h.writeable hsd
    rw [os.withFs_mountinfo] at hlines
    exact ⟨lines, by rw [os.withFs_mountinfo, hmount, hlines], hsome⟩
  relative_lt := h.relative_lt
  temp_lt := h.temp_lt

/-- Streams that write to different files are different. So uploads with different temporary
paths do not share a buffer. -/
theorem Fs.Writes.stream_ne {fs : Fs} {k k' : ℕ} {q q' w w' : Bytes} (h : fs.Writes k q w)
    (h' : fs.Writes k' q' w') (hq : q ≠ q') : k ≠ k' := by
  rintro rfl
  obtain ⟨content, buffer, -, hstream, -⟩ := h
  obtain ⟨content', buffer', -, hstream', -⟩ := h'
  rw [hstream] at hstream'
  simp [hq] at hstream'

/-- One upload: what its begin asks for, the target this stands for, and its data in pieces.
The plan is fixed before the first call; a schedule only chooses when the calls are made. -/
structure UploadPlan where
  transferId : UInt32
  relativePath : Bytes
  desireStorage : Option Bytes
  perm : Option Bytes
  target : UploadTarget
  pieces : List Bytes

namespace UploadPlan

/-- The data of an upload. -/
def content (plan : UploadPlan) : Bytes := plan.pieces.flatten

/-- The calls of an upload that sends these pieces and ends. -/
def callsFrom (plan : UploadPlan) (pieces : List Bytes) : List UploadCall :=
  pieces.map (.append plan.transferId) ++ [.finish plan.transferId]

/-- The calls of an upload. -/
def calls (plan : UploadPlan) : List UploadCall :=
  .begin plan.transferId plan.relativePath plan.desireStorage plan.perm ::
    plan.callsFrom plan.pieces

/-- How far an upload has come, by the calls it has still to make: it is waiting, open with
some pieces sent, or finished. -/
inductive Phase (plan : UploadPlan) (fs₀ : Fs) (p : Proc Fs) (rest : List UploadCall) : Prop
  /-- Not begun: its id is not live, and its final path is as it was. -/
  | waiting (hrest : rest = plan.calls)
      (hlive : transfers p.sessions plan.transferId = none)
      (hfile : p.os.files plan.target.path = fs₀.files plan.target.path)
  /-- Begun: a session and a stream hold what was sent, and its final path is as it was. -/
  | sending {slot : Fin maxUploadSessions} {fp : ℕ} {sent : Bytes} {pieces : List Bytes}
      (hrest : rest = plan.callsFrom pieces) (hpieces : pieces <:+ plan.pieces)
      (hsent : sent ++ pieces.flatten = plan.content)
      (hopen : UploadOpen p slot plan.transferId plan.target fp sent)
      (hstream : fp < p.os.nextStream)
      (hfile : p.os.files plan.target.path = fs₀.files plan.target.path)
  /-- Ended: its id is not live, and its data is at its final path. -/
  | done (hrest : rest = []) (hlive : transfers p.sessions plan.transferId = none)
      (hfinal : p.os.files plan.target.path = some plan.content)
      (htemp : p.os.files plan.target.tempPath = none)

/-- From `p` to `p'` nothing has changed but what belongs to one upload: the session of its
id, its final path and its temporary path. Streams opened before keep what they write
elsewhere. -/
structure OnlyTouches (plan : UploadPlan) (p p' : Proc Fs) : Prop where
  ok : SessionsOk p'.sessions
  live : ∀ id, id ≠ plan.transferId → transfers p'.sessions id = transfers p.sessions id
  slot : ∀ j id, (p.sessions j).key = some id → id ≠ plan.transferId →
    p'.sessions j = p.sessions j
  files : ∀ q, q ≠ plan.target.path → q ≠ plan.target.tempPath → p'.os.files q = p.os.files q
  writes : ∀ k q w, k < p.os.nextStream → p.os.Writes k q w → q ≠ plan.target.path →
    q ≠ plan.target.tempPath → p'.os.Writes k q w
  nextStream : p.os.nextStream ≤ p'.os.nextStream
  mountinfo : p'.os.mountinfo = p.os.mountinfo

/-- Two uploads with different ids, whose final and temporary paths are all different. That
an upload's own two paths differ holds anyway. -/
structure Apart (a b : UploadPlan) : Prop where
  id_ne : a.transferId ≠ b.transferId
  path_ne : a.target.path ≠ b.target.path
  path_ne_temp : a.target.path ≠ b.target.tempPath
  temp_ne_path : a.target.tempPath ≠ b.target.path

private theorem Apart.temp_ne {a b : UploadPlan} (h : a.Apart b) :
    a.target.tempPath ≠ b.target.tempPath :=
  fun heq => h.path_ne (List.append_cancel_right heq)

/-- The phase of an upload stays as it is while only another one is touched. -/
theorem Phase.of_onlyTouches {a b : UploadPlan} {fs₀ : Fs} {p p' : Proc Fs}
    {rest : List UploadCall} (h : a.Phase fs₀ p rest) (happart : a.Apart b)
    (htouch : b.OnlyTouches p p') : a.Phase fs₀ p' rest := by
  have hlive := htouch.live _ happart.id_ne
  have hpath := htouch.files _ happart.path_ne happart.path_ne_temp
  have htemp := htouch.files _ happart.temp_ne_path happart.temp_ne
  cases h with
  | waiting hrest hidle hfile => exact .waiting hrest (hlive.trans hidle) (hpath.trans hfile)
  | @sending slot fp sent pieces hrest hpieces hsent hopen hstream hfile =>
    have hkey := key_of_findSession hopen.find
    have hslot := htouch.slot slot _ hkey happart.id_ne
    have hopen' : UploadOpen p' slot a.transferId a.target fp sent :=
      { find := htouch.ok.unique.find_eq_some_iff.mpr (by rw [hslot, hkey])
        stream := by rw [hslot, hopen.stream]
        tempPath := by rw [hslot, hopen.tempPath]
        finalPath := by rw [hslot, hopen.finalPath]
        applyPerm := by rw [hslot, hopen.applyPerm]
        writes := htouch.writes _ _ _ hstream hopen.writes happart.temp_ne_path happart.temp_ne }
    exact .sending hrest hpieces hsent hopen' (hstream.trans_le htouch.nextStream)
      (hpath.trans hfile)
  | done hrest hidle hfinal hgone =>
    exact .done hrest (hlive.trans hidle) (hpath.trans hfinal) (htemp.trans hgone)

/-! ### What one call touches -/

section Calls

variable {plan : UploadPlan} {os : Os Fs} {f : Faults} {p : Proc Fs}
  {slot : Fin maxUploadSessions} {fp : ℕ} {sent : Bytes}

/-- A begin with a free slot opens the upload, and touches no other one. -/
theorem begin_onlyTouches (hok : SessionsOk p.sessions) (hf : f.AllOk)
    (hidle : transfers p.sessions plan.transferId = none)
    (halloc : SlotTable.alloc UploadSession.key p.sessions = some slot)
    (hchecks : UploadChecks (os.withFs f) plan.relativePath plan.desireStorage plan.perm p.os
      plan.target) :
    let r := (fileBeginUpload (os.withFs f) plan.transferId plan.relativePath plan.desireStorage
      plan.perm).run p
    r.1 = some () ∧ plan.OnlyTouches p r.2 ∧
      (∃ fp, UploadOpen r.2 slot plan.transferId plan.target fp [] ∧ fp < r.2.os.nextStream) ∧
      r.2.os.files plan.target.path = p.os.files plan.target.path := by
  intro r
  have hfind := transfers_eq_none_iff.mp hidle
  obtain ⟨fs', hrun, hwrites, hsame, hnext⟩ :=
    fileBeginUpload_withFs hfind halloc hchecks hf.fopen
  obtain ⟨hok', heffect⟩ := hok.begin (os.withFs f) plan.transferId plan.relativePath
    plan.desireStorage plan.perm
  rw [hrun] at hok' heffect
  obtain ⟨_, _, _, _, -, -, hmap⟩ := heffect
  have hother : ∀ j, (p.sessions j).key ≠ some plan.transferId :=
    SlotTable.find_eq_none_iff.mp hfind
  rw [show r = _ from hrun]
  refine ⟨rfl, ?_, ⟨_, .of_begin rfl (fun j _ => hother j) hwrites, hnext⟩,
    hsame.files _ plan.target.tempPath_ne.symm⟩
  refine ⟨hok', fun id hid => ?_, fun j id hj _ => ?_, fun q _ hq => hsame.files q hq,
    fun k q w hk hw _ hq => hw.of_sameElsewhere hsame hq hk.ne, hsame.nextStream, hsame.mountinfo⟩
  · rw [hmap, Function.update_of_ne hid]
  · have hne : j ≠ slot := by
      rintro rfl
      rw [SlotTable.key_of_alloc halloc] at hj
      simp at hj
    exact Function.update_of_ne hne _ _

/-- A piece of an open upload is added to what was sent. The uploads of other ids are not
touched. -/
theorem append_onlyTouches (hok : SessionsOk p.sessions) (hf : f.AllOk)
    (hopen : UploadOpen p slot plan.transferId plan.target fp sent) {piece : Bytes}
    (hpiece : piece ≠ []) :
    let r := (fileAppendUploadChunk (os.withFs f) plan.transferId piece).run p
    r.1 = some () ∧ plan.OnlyTouches p r.2 ∧
      UploadOpen r.2 slot plan.transferId plan.target fp (sent ++ piece) ∧
      r.2.os.files plan.target.path = p.os.files plan.target.path := by
  intro r
  obtain ⟨hopen', hres, hslots, hsame⟩ := hopen.append_of_allOk os hf piece
  obtain ⟨hok', heffect⟩ := hok.append (os.withFs f) plan.transferId piece
  have hr : r.1 = some () := hres.mpr hpiece
  rw [show ((fileAppendUploadChunk (os.withFs f) plan.transferId piece).run p).1 = some () from hr]
    at heffect
  obtain ⟨transfer, -, hmap⟩ := heffect
  refine ⟨hr, ?_, hopen', hsame.files _ plan.target.tempPath_ne.symm⟩
  refine ⟨hok', fun id hid => ?_, fun j id hj hid => hslots j ?_, fun q _ hq => hsame.files q hq,
    fun k q w _ hw _ hq => hw.of_sameElsewhere hsame hq (hw.stream_ne hopen.writes hq),
    hsame.nextStream, hsame.mountinfo⟩
  · rw [hmap, Function.update_of_ne hid]
  · rintro rfl
    exact hid (Option.some.inj (hj.symm.trans (key_of_findSession hopen.find)))

/-- The end of an open upload moves what was sent to the final path. -/
theorem finish_onlyTouches (hok : SessionsOk p.sessions) (hf : f.AllOk)
    (hopen : UploadOpen p slot plan.transferId plan.target fp sent) :
    let r := (fileFinishUpload (os.withFs f) plan.transferId).run p
    r.1 = some () ∧ plan.OnlyTouches p r.2 ∧
      transfers r.2.sessions plan.transferId = none ∧
      r.2.os.files plan.target.path = some sent ∧
      r.2.os.files plan.target.tempPath = none := by
  intro r
  obtain ⟨hres, hsessions, hdelivered⟩ := hopen.finish os f
  obtain ⟨hok', hmap⟩ := hok.finish (os.withFs f) plan.transferId
  have hr : r.1 = some () := hres.mpr ⟨hf.rename, fun _ => hf.chmod⟩
  have hd := hdelivered hr
  have hfinal := hd.final
  rw [Faults.lost_of_ok hf.fclose, Nat.sub_zero, List.take_length] at hfinal
  refine ⟨hr, ?_, by rw [hmap, Function.update_self], hfinal, hd.temp⟩
  refine ⟨hok', fun id hid => ?_, fun j id hj hid => ?_, fun q hq hqt => hd.files q hqt hq,
    fun k q w _ hw hq hqt => hd.writes k q w hw (hw.stream_ne hopen.writes hqt) hqt hq,
    hd.nextStream, hd.mountinfo⟩
  · rw [hmap, Function.update_of_ne hid]
  · have hne : j ≠ slot := by
      rintro rfl
      exact hid (Option.some.inj (hj.symm.trans (key_of_findSession hopen.find)))
    rw [hsessions, Function.update_of_ne hne]

end Calls

end UploadPlan

/-! ### Groups -/

section Group

variable {ι : Type} {os : Os Fs} {fs₀ : Fs} {plans : ι → UploadPlan}

/-- A group of uploads: at most as many as there are slots, with different ids, whose final
and temporary paths are all different, whose checks pass, and without empty pieces. -/
structure UploadGroup [Fintype ι] (os : Os Fs) (fs₀ : Fs) (plans : ι → UploadPlan) : Prop where
  count : Fintype.card ι ≤ maxUploadSessions
  ids : Function.Injective fun i => (plans i).transferId
  paths : ∀ {i j}, i ≠ j → (plans i).target.path ≠ (plans j).target.path ∧
    (plans i).target.tempPath ≠ (plans j).target.path
  checks : ∀ i, UploadChecks (os.withFs {}) (plans i).relativePath (plans i).desireStorage
    (plans i).perm fs₀ (plans i).target
  pieces : ∀ i, ∀ piece ∈ (plans i).pieces, piece ≠ []

/-- The state of a group, by the calls each upload has still to make. -/
structure Uploading (plans : ι → UploadPlan) (fs₀ : Fs) (p : Proc Fs)
    (rest : ι → List UploadCall) : Prop where
  ok : SessionsOk p.sessions
  phase : ∀ i, (plans i).Phase fs₀ p (rest i)
  live : ∀ id, transfers p.sessions id ≠ none → ∃ i, (plans i).transferId = id
  others : ∀ q, (∀ i, q ≠ (plans i).target.path ∧ q ≠ (plans i).target.tempPath) →
    p.os.files q = fs₀.files q
  mountinfo : p.os.mountinfo = fs₀.mountinfo

variable {f : Faults} {p p' : Proc Fs} {rest : ι → List UploadCall} {i : ι}

/-- An upload whose id is not live in a group of no more than sixteen finds a free slot: the
sixteen slots cannot all be taken by the others of the group. -/
private theorem Uploading.exists_alloc [Fintype ι] [DecidableEq ι] (h : Uploading plans fs₀ p rest)
    (hgroup : UploadGroup os fs₀ plans)
    (hlive : transfers p.sessions (plans i).transferId = none) :
    ∃ slot, SlotTable.alloc UploadSession.key p.sessions = some slot := by
  rw [← Option.ne_none_iff_exists']
  intro hfull
  obtain ⟨ids, hcard, hids⟩ := h.ok.unique.alloc_eq_none_iff.mp hfull
  -- sixteen live ids are ids of uploads, and the one of this upload is not among them
  have hsub : ids ⊆ (Finset.univ.erase i).image fun j => (plans j).transferId := by
    intro id hid
    have hsome : transfers p.sessions id ≠ none := by
      rw [transfers, ne_eq, Option.map_eq_none_iff]
      exact hids id hid
    obtain ⟨j, rfl⟩ := h.live id hsome
    have hji : j ≠ i := by
      rintro rfl
      exact hsome hlive
    exact Finset.mem_image.mpr ⟨j, Finset.mem_erase.mpr ⟨hji, Finset.mem_univ j⟩, rfl⟩
  have hle := (Finset.card_le_card hsub).trans Finset.card_image_le
  rw [hcard, Finset.card_erase_of_mem (Finset.mem_univ i), Finset.card_univ] at hle
  have hcount := hgroup.count
  have hpos : 0 < Fintype.card ι := Fintype.card_pos_iff.mpr ⟨i⟩
  omega

theorem UploadGroup.apart [Fintype ι] (hgroup : UploadGroup os fs₀ plans) {i j : ι}
    (hij : i ≠ j) : (plans i).Apart (plans j) where
  id_ne := fun h => hij (hgroup.ids h)
  path_ne := (hgroup.paths hij).1
  path_ne_temp := (hgroup.paths hij.symm).2.symm
  temp_ne_path := (hgroup.paths hij).2

section Step

variable [Fintype ι] [DecidableEq ι] (hgroup : UploadGroup os fs₀ plans)

include hgroup

/-- A call that only touches its own upload and takes it to its next phase. -/
theorem Uploading.of_onlyTouches (h : Uploading plans fs₀ p rest)
    (htouch : (plans i).OnlyTouches p p') {calls : List UploadCall}
    (hphase : (plans i).Phase fs₀ p' calls) :
    Uploading plans fs₀ p' (Function.update rest i calls) where
  ok := htouch.ok
  phase := by
    intro j
    by_cases hj : j = i
    · subst hj
      rw [Function.update_self]
      exact hphase
    · rw [Function.update_of_ne hj]
      exact (h.phase j).of_onlyTouches (hgroup.apart hj) htouch
  live := by
    intro id hid
    by_cases hi : id = (plans i).transferId
    · exact ⟨i, hi.symm⟩
    · rw [htouch.live id hi] at hid
      exact h.live id hid
  others := fun q hq => (htouch.files q (hq i).1 (hq i).2).trans (h.others q hq)
  mountinfo := htouch.mountinfo.trans h.mountinfo

/-- **One call of a schedule.** The next call of an upload succeeds, takes this upload to
its next phase and leaves the others where they are; a final path changes only when it is
the path of this upload and the call is its end. -/
theorem Uploading.step (h : Uploading plans fs₀ p rest) (hf : f.AllOk) {call : UploadCall}
    {calls : List UploadCall} (hrest : rest i = call :: calls) :
    let r := (call.op (os.withFs f)).run p
    r.1 = some () ∧ Uploading plans fs₀ r.2 (Function.update rest i calls) ∧
      ∀ j, r.2.os.files (plans j).target.path ≠ p.os.files (plans j).target.path →
        j = i ∧ call = .finish (plans i).transferId := by
  have hother : ∀ {p'}, (plans i).OnlyTouches p p' → ∀ {j}, j ≠ i →
      p'.os.files (plans j).target.path = p.os.files (plans j).target.path := by
    intro p' htouch j hj
    exact htouch.files _ (hgroup.apart hj).path_ne (hgroup.apart hj).path_ne_temp
  -- before the end the path of the upload itself stays as it is, too
  have hsame : ∀ {p'}, (plans i).OnlyTouches p p' →
      p'.os.files (plans i).target.path = p.os.files (plans i).target.path →
      ∀ j, p'.os.files (plans j).target.path = p.os.files (plans j).target.path := by
    intro p' htouch hpath j
    by_cases hj : j = i
    · rw [hj, hpath]
    · exact hother htouch hj
  cases h.phase i with
  | waiting hcalls hidle hfile =>
    rw [hrest, UploadPlan.calls] at hcalls
    obtain ⟨rfl, rfl⟩ := List.cons.inj hcalls
    obtain ⟨slot, halloc⟩ := h.exists_alloc hgroup hidle
    obtain ⟨hr, htouch, ⟨fp, hopen, hstream⟩, hpath⟩ := UploadPlan.begin_onlyTouches h.ok hf hidle
      halloc ((hgroup.checks i).of_mountinfo h.mountinfo)
    refine ⟨hr, h.of_onlyTouches hgroup htouch ?_, fun j hj => ?_⟩
    · exact .sending rfl List.suffix_rfl rfl hopen hstream (hpath.trans hfile)
    · exact absurd (hsame htouch hpath j) hj
  | @sending slot fp sent pieces hcalls hpieces hsent hopen hstream hfile =>
    rw [hrest] at hcalls
    cases pieces with
    | nil =>
      obtain ⟨rfl, rfl⟩ := List.cons.inj hcalls
      rw [List.flatten_nil, List.append_nil] at hsent
      obtain ⟨hr, htouch, hidle, hfinal, htemp⟩ := UploadPlan.finish_onlyTouches h.ok hf hopen
      refine ⟨hr, h.of_onlyTouches hgroup htouch ?_, fun j hj => ⟨?_, rfl⟩⟩
      · exact .done rfl hidle (hsent ▸ hfinal) htemp
      · by_contra hne
        exact hj (hother htouch hne)
    | cons piece pieces =>
      obtain ⟨rfl, rfl⟩ := List.cons.inj hcalls
      have hpiece : piece ≠ [] := hgroup.pieces i piece (hpieces.subset (by simp))
      obtain ⟨hr, htouch, hopen', hpath⟩ := UploadPlan.append_onlyTouches h.ok hf hopen hpiece
      refine ⟨hr, h.of_onlyTouches hgroup htouch ?_, fun j hj => ?_⟩
      · refine .sending rfl ((List.suffix_cons piece pieces).trans hpieces) ?_ hopen'
          (hstream.trans_le htouch.nextStream) (hpath.trans hfile)
        rw [List.append_assoc, ← List.flatten_cons, hsent]
      · exact absurd (hsame htouch hpath j) hj
  | done hcalls =>
    rw [hrest] at hcalls
    simp at hcalls

end Step

/-- Before the first call all uploads are waiting. -/
theorem Uploading.start (hempty : p.sessions = fileOpsInit) (hfs : p.os = fs₀) :
    Uploading plans fs₀ p fun i => (plans i).calls where
  ok := hempty ▸ .init
  phase := by
    intro i
    refine .waiting rfl (transfers_eq_none_iff.mpr ?_) (by rw [hfs])
    exact SlotTable.find_eq_none_iff.mpr (key_ne_of_eq_fileOpsInit hempty _)
  live := by
    intro id hid
    refine absurd (transfers_eq_none_iff.mpr ?_) hid
    exact SlotTable.find_eq_none_iff.mpr (key_ne_of_eq_fileOpsInit hempty _)
  others := fun q _ => by rw [hfs]
  mountinfo := by rw [hfs]

/-- **After the last call** every final path holds its data, no temporary path exists, and
the session table is empty. -/
theorem Uploading.finished (h : Uploading plans fs₀ p fun _ => []) :
    (∀ i, p.os.files (plans i).target.path = some (plans i).content ∧
      p.os.files (plans i).target.tempPath = none) ∧
    ∀ slot, (p.sessions slot).used = false := by
  have hdone : ∀ i, transfers p.sessions (plans i).transferId = none ∧
      p.os.files (plans i).target.path = some (plans i).content ∧
      p.os.files (plans i).target.tempPath = none := by
    intro i
    cases h.phase i with
    | waiting hrest => simp [UploadPlan.calls] at hrest
    | sending hrest => simp [UploadPlan.callsFrom] at hrest
    | done _ hlive hfinal htemp => exact ⟨hlive, hfinal, htemp⟩
  refine ⟨fun i => (hdone i).2, fun slot => ?_⟩
  by_contra hused
  have hkey : (p.sessions slot).key = some (p.sessions slot).transferId :=
    UploadSession.key_eq_some_iff.mpr ⟨Bool.not_eq_false _ ▸ hused, rfl⟩
  have hfind := h.ok.unique.find_eq_some_iff.mpr hkey
  obtain ⟨i, hi⟩ := h.live (p.sessions slot).transferId
    (by rw [transfers_of_findSession hfind]; simp)
  have hnone := transfers_eq_none_iff.mp (hdone i).1
  rw [hi, findSession, hfind] at hnone
  simp at hnone

end Group

end UsbResponder
