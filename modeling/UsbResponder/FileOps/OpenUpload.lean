import UsbResponder.FileOps.SessionTable
import UsbResponder.System.FileSystem

/-!
# An upload on the file system

What the session functions do to one upload when the outside world is the file system of
`UsbResponder.System.FileSystem`. `UploadOpen p i transferId target fp w` says that slot `i`
holds the upload of `target`, whose stream holds exactly the bytes `w`. A begin establishes
it with no bytes, a chunk adds the bytes `fwrite` accepted less those it made the stream
discard, and a finish turns it into a file at the final path. Each of the three leaves all
other slots, paths and streams alone.

The results are for any outcomes of the calls. What is lost on the way is computed from the
outcomes: `Faults.lostByAppend` for a chunk, which may lose bytes both in its `fwrite` and
in the flush that paces the write-back, and `Faults.lost` for the `fclose` of a finish.
Where all calls succeed nothing is lost, and the lemmas `_of_allOk` say what is left of the
statements.

Two uploads to one path at the same time are not described by this: they would write into
each other's file.
-/

namespace UsbResponder

open CString

variable {os : Os Fs} {f : Faults} {p p' : Proc Fs} {i : Fin maxUploadSessions}
  {transferId : UInt32} {target : UploadTarget} {fp : ℕ} {w w' : Bytes}

/-- Slot `i` holds the upload of `target` under the given transfer id, and its stream `fp`
holds the bytes `w`. What the byte counters of the session are is left open. -/
structure UploadOpen (p : Proc Fs) (i : Fin maxUploadSessions) (transferId : UInt32)
    (target : UploadTarget) (fp : ℕ) (w : Bytes) : Prop where
  find : findSession p.sessions transferId = some i
  stream : (p.sessions i).fp = some fp
  tempPath : (p.sessions i).tempPath = target.tempPath
  finalPath : (p.sessions i).finalPath = target.path
  applyPerm : (p.sessions i).applyPerm = target.applyPerm
  writes : p.os.Writes fp target.tempPath w

/-- An upload stays open while nothing of its record changes but the byte counters. This is
all a chunk changes in the table. -/
private theorem UploadOpen.of_counters (h : UploadOpen p i transferId target fp w)
    {written synced : UInt64} (hsessions : p'.sessions = Function.update p.sessions i
      { p.sessions i with bytesWritten := written, syncedBytes := synced })
    (hwrites : p'.os.Writes fp target.tempPath w') : UploadOpen p' i transferId target fp w' where
  find := by
    have hkeys : ∀ j, (p'.sessions j).key = (p.sessions j).key := by
      intro j
      rw [hsessions]
      by_cases hj : j = i
      · rw [hj, Function.update_self]
        rfl
      · rw [Function.update_of_ne hj]
    exact (SlotTable.find_congr hkeys transferId).trans h.find
  stream := by
    rw [hsessions, Function.update_self]
    exact h.stream
  tempPath := by
    rw [hsessions, Function.update_self]
    exact h.tempPath
  finalPath := by
    rw [hsessions, Function.update_self]
    exact h.finalPath
  applyPerm := by
    rw [hsessions, Function.update_self]
    exact h.applyPerm
  writes := hwrites

theorem UploadOpen.of_sessions (h : UploadOpen p i transferId target fp w)
    (hsessions : p'.sessions = p.sessions) (hwrites : p'.os.Writes fp target.tempPath w') :
    UploadOpen p' i transferId target fp w' :=
  h.of_counters (hsessions.trans (Function.update_eq_self i p.sessions).symm) hwrites

/-- The temporary path is not the final path, as it is longer. The rename so has two
different paths. -/
theorem UploadTarget.tempPath_ne (target : UploadTarget) : target.tempPath ≠ target.path := by
  intro h
  have hlen := congrArg List.length h
  have hpart : (utf8 ".part").length = 5 := by decide
  rw [UploadTarget.tempPath, List.length_append, hpart] at hlen
  omega

/-! ### Begin -/

/-- The mount check reads the mount table and changes nothing. -/
theorem Os.withFs_afterMountCheck (os : Os Fs) (f : Faults) (storage : Storage) (fs : Fs) :
    (os.withFs f).afterMountCheck storage fs = fs := by
  rcases storage with _ | _
  · rfl
  · rw [Os.afterMountCheck, Os.withFs_mountinfo]

/-- A begin of an id that is not live, with a free slot, stores a fresh session and opens
its temporary file exactly when its checks pass and `fopen` succeeds. -/
theorem fileBeginUpload_withFs {relativePath : Bytes} {desireStorage perm : Option Bytes}
    (hfind : findSession p.sessions transferId = none)
    (halloc : SlotTable.alloc UploadSession.key p.sessions = some i)
    (hchecks : UploadChecks (os.withFs f) relativePath desireStorage perm p.os target)
    (hopen : f.fopen = none) :
    ∃ fs', (fileBeginUpload (os.withFs f) transferId relativePath desireStorage perm).run p =
        (some (), { p with os := fs' }.setSession i
          (target.session transferId relativePath p.os.nextStream)) ∧
      fs'.Writes p.os.nextStream target.tempPath [] ∧
      p.os.SameElsewhere fs' target.tempPath p.os.nextStream ∧
      p.os.nextStream < fs'.nextStream := by
  obtain ⟨fs', hfopen, hwrites, hsame, hnext⟩ := Fs.fopenWb_of_ok hopen target.tempPath p.os
  refine ⟨fs', ?_, hwrites, hsame, hnext⟩
  have hbefore : beforeBegin (os.withFs f) transferId p = p := by
    rw [beforeBegin, hfind]
  have hcall : ∀ {t : UploadTarget}, (os.withFs f).fopenWb t.tempPath
      ((os.withFs f).afterMountCheck t.storage p.os) = Fs.fopenWb f t.tempPath p.os := by
    intro t
    rw [Os.withFs_afterMountCheck]
    rfl
  -- the checks determine the target
  have huniq : ∀ {t}, UploadChecks (os.withFs f) relativePath desireStorage perm p.os t →
      t = target := by
    intro t ht
    have hpath := ht.path.symm.trans hchecks.path
    have hperm := ht.perm.symm.trans hchecks.perm
    simp only [Prod.mk.injEq, Except.ok.injEq, Option.some.injEq] at hpath hperm
    cases t
    cases target
    simp_all
  have hcases := fileBeginUpload_cases (os.withFs f) transferId relativePath desireStorage perm p
  simp only [hbefore, halloc, reduceCtorEq, false_and, false_or, Option.some.injEq,
    exists_eq_left', hcall] at hcases
  obtain ⟨record, s, msg, -, -, hrefused, -⟩ | ⟨t, fp, s, ht, hopen', hrun⟩ := hcases
  · obtain ⟨hnot, -⟩ | ⟨t, e, ht, herror⟩ := hrefused
    · exact absurd hchecks (hnot target)
    · rw [huniq ht, hcall, hfopen] at herror
      simp at herror
  · rw [huniq ht, hfopen] at hopen'
    obtain ⟨hfp, rfl⟩ := Prod.mk.inj hopen'
    obtain rfl := Except.ok.inj hfp
    rw [hrun, huniq ht]

/-- A refused begin is one whose checks do not pass or whose `fopen` fails. There is no
third reason when there is a free slot. -/
theorem fileBeginUpload_withFs_eq_none (os : Os Fs) (f : Faults) {relativePath : Bytes}
    {desireStorage perm : Option Bytes}
    (hfind : findSession p.sessions transferId = none)
    (halloc : SlotTable.alloc UploadSession.key p.sessions = some i)
    (h : (∀ target, ¬UploadChecks (os.withFs f) relativePath desireStorage perm p.os target) ∨
      f.fopen ≠ none) :
    ∃ record fs' msg, record.used = false ∧
      (fileBeginUpload (os.withFs f) transferId relativePath desireStorage perm).run p =
        (none, ({ p with os := fs' }.setSession i record).setLastError msg) := by
  have hbefore : beforeBegin (os.withFs f) transferId p = p := by
    rw [beforeBegin, hfind]
  have hcases := fileBeginUpload_cases (os.withFs f) transferId relativePath desireStorage perm p
  simp only [hbefore, halloc, reduceCtorEq, false_and, false_or, Option.some.injEq,
    exists_eq_left'] at hcases
  obtain ⟨record, s, msg, hrecord, -, -, hrun⟩ | ⟨t, fp, s, ht, hopen, -⟩ := hcases
  · exact ⟨record, s, msg, hrecord, hrun⟩
  · obtain hnot | hfopen := h
    · exact absurd ht (hnot t)
    · obtain ⟨e, he⟩ := Option.ne_none_iff_exists'.mp hfopen
      have herror : (os.withFs f).fopenWb t.tempPath
          ((os.withFs f).afterMountCheck t.storage p.os) = (.error e, _) :=
        Fs.fopenWb_of_error he _ _
      rw [herror] at hopen
      simp at hopen

/-- A fresh session with a fresh stream is an open upload that holds nothing. -/
theorem UploadOpen.of_begin {relativePath : Bytes} {sessions : FileOps}
    (hp : p.sessions = Function.update sessions i (target.session transferId relativePath fp))
    (hother : ∀ j, j ≠ i → (sessions j).key ≠ some transferId)
    (hwrites : p.os.Writes fp target.tempPath []) :
    UploadOpen p i transferId target fp [] where
  find := by
    rw [hp]
    exact SlotTable.find_update_store rfl hother
  stream := by rw [hp, Function.update_self]; rfl
  tempPath := by rw [hp, Function.update_self]; rfl
  finalPath := by rw [hp, Function.update_self]; rfl
  applyPerm := by rw [hp, Function.update_self]; rfl
  writes := hwrites

/-! ### Chunks -/

/-- The number of bytes an append makes its stream discard: in a short `fwrite`, or in the
flush that paces the write-back, when one is due and fails. -/
def Faults.lostByAppend (f : Faults) (session : UploadSession) (data : Bytes) (buffered : ℕ) : ℕ :=
  if data = [] then 0
  else if f.accepted data ≠ data.length then f.lostByFwrite data buffered
  else if session.Due data then f.lostByFflush (f.leftByFwrite data buffered)
  else 0

/-- The number of bytes an append leaves in the buffer of its stream. A later failure can
lose these, but not more. -/
def Faults.leftByAppend (f : Faults) (session : UploadSession) (data : Bytes) (buffered : ℕ) : ℕ :=
  if data = [] then buffered
  else if f.accepted data ≠ data.length then f.leftByFwrite data buffered
  else if session.Due data then f.leftByFflush (f.leftByFwrite data buffered)
  else f.leftByFwrite data buffered

/-- Pacing the write-back only flushes. -/
private theorem uploadPaceWriteback_withFs (os : Os Fs) (f : Faults) (fp : ℕ) (p : Proc Fs) :
    (uploadPaceWriteback (os.withFs f) (some fp) p).os = (Fs.fflush f fp p.os).2 := by
  rw [uploadPaceWriteback]
  rcases hflush : Fs.fflush f fp p.os with ⟨_ | e, s⟩ <;> simp only [Os.withFs, hflush]

/-- What the stream holds after a chunk, and when the chunk is confirmed. -/
private theorem UploadOpen.append_os (h : UploadOpen p i transferId target fp w) (os : Os Fs)
    (f : Faults) (data : Bytes) :
    let r := (fileAppendUploadChunk (os.withFs f) transferId data).run p
    let lost := f.lostByAppend (p.sessions i) data (p.os.buffered fp)
    (r.1 = some () ↔ data ≠ [] ∧ f.accepted data = data.length) ∧
      r.2.os.Writes fp target.tempPath ((w ++ data.take (f.accepted data)).take
        ((w ++ data.take (f.accepted data)).length - lost)) ∧
      r.2.os.buffered fp = f.leftByAppend (p.sessions i) data (p.os.buffered fp) ∧
      p.os.SameElsewhere r.2.os target.tempPath fp := by
  intro r lost
  by_cases hdata : data = []
  · have hr : r = (none, p.setLastError (utf8 "invalid upload chunk")) := by
      simp only [r, fileAppendUploadChunk, if_pos hdata]
    simp only [hr, hdata, lost, Faults.lostByAppend, Faults.leftByAppend, if_true, List.take_nil,
      List.append_nil, Nat.sub_zero, List.take_length]
    exact ⟨by simp, h.writes, rfl, .refl ..⟩
  obtain ⟨hwrites, hbuffered, hsame⟩ := h.writes.fwrite f data
  obtain ⟨fs', hfs'⟩ : ∃ fs', fs' = (Fs.fwrite f fp data p.os).2 := ⟨_, rfl⟩
  have hfwrite : (os.withFs f).fwrite fp data p.os =
      ((f.accepted data, (f.fwrite.map Prod.snd).getD 0), fs') := by
    rw [hfs']
    rfl
  rw [← hfs'] at hwrites hbuffered hsame
  simp only [r, lost, fileAppendUploadChunk, Faults.lostByAppend, Faults.leftByAppend,
    if_neg hdata, h.find, h.stream, hfwrite]
  by_cases hall : f.accepted data = data.length
  · have hkept : f.lostByFwrite data (p.os.buffered fp) = 0 := if_pos hall
    rw [hkept, Nat.sub_zero, List.take_length] at hwrites
    rw [if_neg (not_not.mpr hall), if_neg (not_not.mpr hall), if_neg (not_not.mpr hall)]
    by_cases hdue : (p.sessions i).Due data
    · obtain ⟨hflushed, hleft, hsame'⟩ := hwrites.fflush f
      rw [hbuffered] at hflushed hleft
      have hsync := hdue
      rw [UploadSession.Due] at hsync
      rw [if_pos hsync, if_pos hdue, if_pos hdue, Proc.setSession_os, uploadPaceWriteback_withFs]
      exact ⟨iff_of_true rfl ⟨hdata, hall⟩, hflushed, hleft, hsame.trans hsame'⟩
    · have hsync := hdue
      rw [UploadSession.Due] at hsync
      rw [if_neg hsync, if_neg hdue, if_neg hdue, Nat.sub_zero, List.take_length]
      exact ⟨iff_of_true rfl ⟨hdata, hall⟩, hwrites, hbuffered, hsame⟩
  · rw [if_pos hall, if_pos hall, if_pos hall]
    exact ⟨iff_of_false (by simp) fun h => hall h.2, hwrites, hbuffered, hsame⟩

/-- **A chunk.** The stream takes the bytes `fwrite` accepts and loses those a failing call
discards. The chunk is confirmed exactly when `fwrite` accepts all its bytes and there are
any, whatever the flush behind it does. -/
theorem UploadOpen.append (h : UploadOpen p i transferId target fp w) (os : Os Fs) (f : Faults)
    (data : Bytes) :
    let r := (fileAppendUploadChunk (os.withFs f) transferId data).run p
    let lost := f.lostByAppend (p.sessions i) data (p.os.buffered fp)
    UploadOpen r.2 i transferId target fp ((w ++ data.take (f.accepted data)).take
        ((w ++ data.take (f.accepted data)).length - lost)) ∧
      (r.1 = some () ↔ data ≠ [] ∧ f.accepted data = data.length) ∧
      r.2.sessions = Function.update p.sessions i
        (if r.1 = some () then (p.sessions i).taking data else p.sessions i) ∧
      r.2.os.buffered fp = f.leftByAppend (p.sessions i) data (p.os.buffered fp) ∧
      p.os.SameElsewhere r.2.os target.tempPath fp := by
  intro r lost
  obtain ⟨hres, hwrites, hleft, hsame⟩ := h.append_os os f data
  obtain ⟨hr, hsessions⟩ | ⟨hr, i', hfind, hsessions⟩ :=
    fileAppendUploadChunk_sessions (os.withFs f) transferId data p
  · refine ⟨h.of_sessions hsessions hwrites, hres, ?_, hleft, hsame⟩
    rw [show r.1 = none from hr, if_neg (by simp), Function.update_eq_self]
    exact hsessions
  · obtain rfl : i = i' := Option.some.inj (h.find.symm.trans hfind)
    refine ⟨h.of_counters hsessions hwrites, hres, ?_, hleft, hsame⟩
    rw [show r.1 = some () from hr, if_pos rfl]
    exact hsessions

theorem Faults.AllOk.accepted (h : f.AllOk) (data : Bytes) : f.accepted data = data.length := by
  rw [Faults.accepted, h.fwrite]

theorem Faults.AllOk.lostByAppend (h : f.AllOk) (session : UploadSession) (data : Bytes)
    (buffered : ℕ) : f.lostByAppend session data buffered = 0 := by
  rw [Faults.lostByAppend, Faults.lostByFflush, h.fflush, if_neg (not_not.mpr (h.accepted data))]
  split_ifs <;> rfl

/-- When all calls succeed, a chunk that has any bytes is confirmed and added to what the
stream holds. -/
theorem UploadOpen.append_of_allOk (h : UploadOpen p i transferId target fp w) (os : Os Fs)
    (hf : f.AllOk) (data : Bytes) :
    let r := (fileAppendUploadChunk (os.withFs f) transferId data).run p
    UploadOpen r.2 i transferId target fp (w ++ data) ∧
      (r.1 = some () ↔ data ≠ []) ∧
      (∀ j, j ≠ i → r.2.sessions j = p.sessions j) ∧
      p.os.SameElsewhere r.2.os target.tempPath fp := by
  intro r
  obtain ⟨hopen, hres, hsessions, -, hsame⟩ := h.append os f data
  rw [hf.accepted, List.take_length, hf.lostByAppend, Nat.sub_zero, List.take_length] at hopen
  rw [hf.accepted, and_iff_left rfl] at hres
  exact ⟨hopen, hres, fun j hj => (congrFun hsessions j).trans (Function.update_of_ne hj ..), hsame⟩

/-! ### Finish -/

/-- From `fs` to `fs'` the file `dst` was replaced by one with the given content, the file
`src` went away with its stream `fp`, and all else stayed. -/
structure Fs.Delivered (fs fs' : Fs) (src dst : Bytes) (fp : ℕ) (content : Bytes) : Prop where
  final : fs'.files dst = some content
  temp : fs'.files src = none
  files : ∀ q, q ≠ src → q ≠ dst → fs'.files q = fs.files q
  writes : ∀ k q v, fs.Writes k q v → k ≠ fp → q ≠ src → q ≠ dst → fs'.Writes k q v
  nextStream : fs.nextStream ≤ fs'.nextStream
  mountinfo : fs'.mountinfo = fs.mountinfo

/-- Closing a stream and renaming its file delivers what the stream held, less what `fclose`
lost. The file that was at the target before is replaced. -/
theorem Fs.Writes.delivered {fs : Fs} {src dst : Bytes} (h : fs.Writes fp src w) (hne : src ≠ dst)
    (hrename : f.rename = none) :
    ∃ fs', Fs.rename f src dst (Fs.fclose f fp fs).2 = (none, fs') ∧
      fs.Delivered fs' src dst fp (w.take (w.length - f.lost (fs.buffered fp))) := by
  obtain ⟨hfile, -, hsame⟩ := h.fclose f
  obtain ⟨fs', hrun, hfiles, hwrites, hnext, hmount⟩ := Fs.rename_of_ok hrename dst hfile
  refine ⟨fs', hrun, ?_, ?_, fun q hqs hqd => ?_, fun k q v hv hk hqs hqd => ?_, ?_, ?_⟩
  · rw [hfiles, Function.update_self]
  · rw [hfiles, Function.update_of_ne hne, Function.update_self]
  · rw [hfiles, Function.update_of_ne hqd, Function.update_of_ne hqs, hsame.files q hqs]
  · exact hwrites k q v (hv.of_sameElsewhere hsame hqs hk) hqs hqd
  · rw [hnext]
    exact hsame.nextStream
  · rw [hmount, hsame.mountinfo]

/-- **A finish.** It succeeds exactly when `rename` does, and `chmod` where a permission was
asked for. Then the slot is free and the final path holds what the stream held, less what
`fclose` lost without being asked. -/
theorem UploadOpen.finish (h : UploadOpen p i transferId target fp w) (os : Os Fs) (f : Faults) :
    let r := (fileFinishUpload (os.withFs f) transferId).run p
    (r.1 = some () ↔ f.rename = none ∧ (target.applyPerm = true → f.chmod = none)) ∧
      r.2.sessions = Function.update p.sessions i {} ∧
      (r.1 = some () → p.os.Delivered r.2.os target.tempPath target.path fp
        (w.take (w.length - f.lost (p.os.buffered fp)))) := by
  intro r
  have hclose : closeStream (os.withFs f) (some fp) p =
      { p with os := (Fs.fclose f fp p.os).2 } := rfl
  cases hrename : f.rename with
  | some e =>
    have hcall : (os.withFs f).rename target.tempPath target.path (Fs.fclose f fp p.os).2 =
        (some e, (Fs.fclose f fp p.os).2) := by
      rw [show (os.withFs f).rename = Fs.rename f from rfl, Fs.rename, hrename]
    have hr : r.1 = none ∧ r.2.sessions = Function.update p.sessions i {} := by
      simp only [r, fileFinishUpload, h.find, h.stream, h.tempPath, h.finalPath, hclose, hcall,
        Proc.setSession_sessions, unlinkPath_sessions, Proc.setFileError_sessions, and_self]
    rw [hr.1, hr.2]
    simp
  | none =>
    obtain ⟨fs', hrun, hdelivered⟩ := h.writes.delivered target.tempPath_ne hrename
    have hcall : (os.withFs f).rename target.tempPath target.path (Fs.fclose f fp p.os).2 =
        (none, fs') := hrun
    have hchmod : ∀ mode, (os.withFs f).chmod target.path mode fs' = (f.chmod, fs') :=
      fun _ => rfl
    cases hperm : target.applyPerm with
    | false =>
      have hr : r = (some (), { p with os := fs' }.setSession i {}) := by
        simp only [r, fileFinishUpload, h.find, h.stream, h.tempPath, h.finalPath, h.applyPerm,
          hclose, hcall, hperm, Bool.false_eq_true, if_false]
      rw [hr]
      exact ⟨by simp, rfl, fun _ => hdelivered⟩
    | true =>
      cases hfault : f.chmod with
      | none =>
        have hr : r = (some (), { p with os := fs' }.setSession i {}) := by
          simp only [r, fileFinishUpload, h.find, h.stream, h.tempPath, h.finalPath, h.applyPerm,
            hclose, hcall, hperm, hchmod, hfault, if_true]
        rw [hr]
        exact ⟨by simp, rfl, fun _ => hdelivered⟩
      | some e =>
        have hr : r.1 = none ∧ r.2.sessions = Function.update p.sessions i {} := by
          simp only [r, fileFinishUpload, h.find, h.stream, h.tempPath, h.finalPath, h.applyPerm,
            hclose, hcall, hperm, hchmod, hfault, if_true, Proc.setSession_sessions,
            unlinkPath_sessions, Proc.setFileError_sessions, and_self]
        rw [hr.1, hr.2]
        simp

end UsbResponder
