import UsbResponder.FileOps.SdCard

/-!
# Uploads to the SD card

A begin asks for the mount of the card before it opens its file, and no other call of an
upload asks again. What a call does to the card while the card is not mounted is therefore
decided by the session it finds: `UploadCall.TouchesCard` says of a call that it goes on
with an upload to the card, finishes it, or aborts it because its id begins again.

`UploadCall.offSd_iff` is the result for one call, and `StreamsOk` the invariant it needs:
the stream of a session is one that was opened for its temporary path. The invariant is kept
by every call, whatever the calls underneath do, because the recorder never hands out a
number twice.

The result is an equivalence, so for a call that touches the card a recorded call on it has
to be exhibited (`UploadCall.exists_onSd`): a chunk writes, a finish closes the stream and
renames, and an abort removes the temporary file.
-/

namespace UsbResponder

open CString

variable {σ : Type}

/-! ### The streams of sessions -/

/-- A session in use has a stream that was opened for its temporary path. So what is written
to the stream is recorded for this path. -/
def StreamOk (r : Recorded σ) (session : UploadSession) : Prop :=
  session.used = true →
    ∃ fp, session.fp = some fp ∧ fp < r.streams.length ∧ r.target fp = some session.tempPath

/-- All sessions of the process have their streams. -/
def StreamsOk (p : Proc (Recorded σ)) : Prop := ∀ i, StreamOk p.os (p.sessions i)

theorem StreamOk.issued {Q : FileCall → Prop} {r r' : Recorded σ} {session : UploadSession}
    (h : StreamOk r session) (hissued : Recorded.Issued Q r r') : StreamOk r' session := by
  intro hused
  obtain ⟨fp, hfp, hlt, htarget⟩ := h hused
  exact ⟨fp, hfp, hlt.trans_le hissued.streams.length_le, (hissued.target hlt).trans htarget⟩

/-- Calls may follow, and one record may be replaced by one that has its stream. -/
theorem StreamsOk.update {Q : FileCall → Prop} {p p' : Proc (Recorded σ)} (h : StreamsOk p)
    (hissued : Recorded.Issued Q p.os p'.os) {i : Fin maxUploadSessions} {record : UploadSession}
    (hsessions : p'.sessions = Function.update p.sessions i record)
    (hrecord : StreamOk p'.os record) : StreamsOk p' := by
  intro j
  rw [hsessions]
  by_cases hji : j = i
  · rw [hji, Function.update_self]
    exact hrecord
  · rw [Function.update_of_ne hji]
    exact (h j).issued hissued

theorem StreamsOk.issued {Q : FileCall → Prop} {p p' : Proc (Recorded σ)} (h : StreamsOk p)
    (hissued : Recorded.Issued Q p.os p'.os) (hsessions : p'.sessions = p.sessions) :
    StreamsOk p' := by
  intro j
  rw [hsessions]
  exact (h j).issued hissued

theorem used_of_findSession {sessions : FileOps} {transferId : UInt32} {i : Fin maxUploadSessions}
    (h : findSession sessions transferId = some i) : (sessions i).used = true :=
  (UploadSession.key_eq_some_iff.mp (key_of_findSession h)).1

/-! ### What a call issues -/

section Calls

variable (os : Os σ) {Q : FileCall → Prop} {p : Proc (Recorded σ)} {transferId : UInt32}
  {i : Fin maxUploadSessions}

/-- A call on the stream of a session may write its temporary path. -/
theorem StreamOk.issueWrite {r : Recorded σ} {session : UploadSession} (h : StreamOk r session)
    (hused : session.used = true) (hwrite : Q (.write session.tempPath)) {fp : ℕ}
    (hfp : session.fp = some fp) : Recorded.Issued Q r (r.issueWrite fp) := by
  obtain ⟨fp', hfp', -, htarget⟩ := h hused
  obtain rfl : fp' = fp := Option.some.inj (hfp'.symm.trans hfp)
  refine .of_issueWrite r fun path hpath => ?_
  rw [htarget, Option.mem_some] at hpath
  rwa [← hpath]

theorem StreamOk.closeStream {session : UploadSession} (h : StreamOk p.os session)
    (hused : session.used = true) (hwrite : Q (.write session.tempPath)) :
    Recorded.Issued Q p.os (closeStream os.recording session.fp p).os := by
  rcases hfp : session.fp with _ | fp
  · exact .refl p.os
  · exact (h.issueWrite hused hwrite hfp).trans (.of_lift _ _)

theorem issued_unlinkPath {path : Bytes} (h : Q (.unlink path)) (p : Proc (Recorded σ)) :
    Recorded.Issued Q p.os (unlinkPath os.recording path p).os :=
  (Recorded.Issued.of_issue h p.os).trans (.of_lift _ _)

theorem fileAbortUpload_issued (h : StreamsOk p)
    (hfind : findSession p.sessions transferId = some i)
    (hwrite : Q (.write (p.sessions i).tempPath)) (hunlink : Q (.unlink (p.sessions i).tempPath)) :
    Recorded.Issued Q p.os ((fileAbortUpload os.recording transferId).run p).2.os := by
  rw [fileAbortUpload_of_some hfind]
  exact ((h i).closeStream os (used_of_findSession hfind) hwrite).trans
    (issued_unlinkPath os hunlink _)

private theorem uploadPaceWriteback_issued {session : UploadSession} (h : StreamOk p.os session)
    (hused : session.used = true) (hwrite : Q (.write session.tempPath)) :
    Recorded.Issued Q p.os (uploadPaceWriteback os.recording session.fp p).os := by
  rcases hfp : session.fp with _ | fp
  · exact .refl p.os
  · rw [uploadPaceWriteback]
    have hfflush : Recorded.Issued Q p.os (os.recording.fflush fp p.os).2 :=
      (h.issueWrite hused hwrite hfp).trans (.of_lift _ _)
    rcases hflush : os.recording.fflush fp p.os with ⟨_ | e, r⟩
    · rw [hflush] at hfflush
      exact hfflush.trans (((h.issued hfflush).issueWrite hused hwrite hfp).trans (.of_lift _ _))
    · rw [hflush] at hfflush
      exact hfflush

/-- What an append issues after its `fwrite`. -/
private theorem fileAppendUploadChunk_issued_of_fwrite (h : StreamsOk p) {data : Bytes}
    (hdata : data ≠ []) (hfind : findSession p.sessions transferId = some i)
    (hwrite : Q (.write (p.sessions i).tempPath)) {fp : ℕ} (hfp : (p.sessions i).fp = some fp) :
    Recorded.Issued Q p.os (os.recording.fwrite fp data p.os).2 ∧
      Recorded.Issued Q (os.recording.fwrite fp data p.os).2
        ((fileAppendUploadChunk os.recording transferId data).run p).2.os := by
  have hused := used_of_findSession hfind
  have hfwrite : Recorded.Issued Q p.os (os.recording.fwrite fp data p.os).2 :=
    ((h i).issueWrite hused hwrite hfp).trans (.of_lift _ _)
  refine ⟨hfwrite, ?_⟩
  rcases hrun : os.recording.fwrite fp data p.os with ⟨⟨written, e⟩, r⟩
  rw [hrun] at hfwrite
  simp only [fileAppendUploadChunk, if_neg hdata, hfind, hfp, hrun]
  split_ifs
  · exact .refl r
  · -- the stream is flushed and synced, which may write as well
    have hstream : StreamOk r (p.sessions i) := (h i).issued hfwrite
    have hpace := uploadPaceWriteback_issued os (p := { p with os := r }) hstream hused hwrite
    rwa [hfp] at hpace
  · exact .refl r

theorem fileAppendUploadChunk_issued (h : StreamsOk p) {data : Bytes}
    (hwrite : ∀ i, data ≠ [] → findSession p.sessions transferId = some i →
      Q (.write (p.sessions i).tempPath)) :
    Recorded.Issued Q p.os ((fileAppendUploadChunk os.recording transferId data).run p).2.os := by
  by_cases hdata : data = []
  · simp only [fileAppendUploadChunk, if_pos hdata]
    exact .refl p.os
  rcases hfind : findSession p.sessions transferId with _ | i
  · simp only [fileAppendUploadChunk, if_neg hdata, hfind]
    exact .refl p.os
  obtain ⟨fp, hfp, -, -⟩ := h i (used_of_findSession hfind)
  obtain ⟨hfwrite, hrest⟩ :=
    fileAppendUploadChunk_issued_of_fwrite os h hdata hfind (hwrite i hdata hfind) hfp
  exact hfwrite.trans hrest

/-- What a finish issues up to its `rename`, and after it. -/
private theorem fileFinishUpload_issued_of_rename (h : StreamsOk p)
    (hfind : findSession p.sessions transferId = some i)
    (htemp : ∀ call : FileCall, call.paths = [(p.sessions i).tempPath] → Q call)
    (hfinal : ∀ call : FileCall, call.paths = [(p.sessions i).finalPath] → Q call) :
    ∃ r, Recorded.Issued Q p.os r ∧
      Recorded.Issued Q (r.issue (.rename (p.sessions i).tempPath (p.sessions i).finalPath))
        ((fileFinishUpload os.recording transferId).run p).2.os := by
  -- `r` is the outside when the stream is closed
  obtain ⟨r, hr⟩ : ∃ r, r = (closeStream os.recording (p.sessions i).fp p).os := ⟨_, rfl⟩
  refine ⟨r, ?_, ?_⟩
  · rw [hr]
    exact (h i).closeStream os (used_of_findSession hfind) (htemp (.write _) rfl)
  have hrenamed : Recorded.Issued Q
      (r.issue (.rename (p.sessions i).tempPath (p.sessions i).finalPath))
      (os.recording.rename (p.sessions i).tempPath (p.sessions i).finalPath r).2 := .of_lift _ _
  simp only [fileFinishUpload, hfind]
  rw [← hr]
  rcases hmove : os.recording.rename (p.sessions i).tempPath (p.sessions i).finalPath r with
    ⟨_ | e, r'⟩
  · rw [hmove] at hrenamed
    refine hrenamed.trans ?_
    dsimp only
    split_ifs
    · have hchmod : Recorded.Issued Q r' (os.recording.chmod (p.sessions i).finalPath
          (p.sessions i).fileMode r').2 :=
        (Recorded.Issued.of_issue (hfinal (.chmod _) rfl) r').trans (.of_lift _ _)
      rcases hmode : os.recording.chmod (p.sessions i).finalPath (p.sessions i).fileMode r' with
        ⟨_ | e, r''⟩
      · rw [hmode] at hchmod
        exact hchmod
      · rw [hmode] at hchmod
        exact hchmod.trans (issued_unlinkPath os (hfinal (.unlink _) rfl) { p with os := r'' })
    · exact .refl r'
  · rw [hmove] at hrenamed
    exact hrenamed.trans (issued_unlinkPath os (htemp (.unlink _) rfl) { p with os := r' })

/-- What a begin issues once an old session of its id is aborted: at most the opening of its
file. -/
theorem fileBeginUpload_issued (p : Proc (Recorded σ)) (transferId : UInt32)
    {relativePath : Bytes} {desireStorage perm : Option Bytes}
    (hcreate : ∀ target, UploadChecks os.recording relativePath desireStorage perm
      (beforeBegin os.recording transferId p).os target → Q (.create target.tempPath)) :
    Recorded.Issued Q (beforeBegin os.recording transferId p).os
      ((fileBeginUpload os.recording transferId relativePath desireStorage perm).run p).2.os := by
  obtain ⟨b, hb⟩ : ∃ b, b = beforeBegin os.recording transferId p := ⟨_, rfl⟩
  rw [← hb] at hcreate ⊢
  have hmount : ∀ storage, Recorded.Issued Q b.os (os.recording.afterMountCheck storage b.os) := by
    rintro (_ | _)
    · exact .refl b.os
    · exact .of_mountinfo os b.os
  have hopened : ∀ target, UploadChecks os.recording relativePath desireStorage perm b.os target →
      Recorded.Issued Q b.os (os.recording.fopenWb target.tempPath
        (os.recording.afterMountCheck target.storage b.os)).2 := fun target hchecks =>
    (hmount target.storage).trans
      ((Recorded.Issued.of_issue (hcreate target hchecks) _).trans (.of_opening _ _ _))
  obtain ⟨-, hrun⟩ | ⟨i, -, ⟨record, s, msg, -, -, hrefused, hrun⟩ |
      ⟨target, fp, s, hchecks, hopen, hrun⟩⟩ :=
    fileBeginUpload_cases os.recording transferId relativePath desireStorage perm p
  · rw [hrun, ← hb]
    exact .refl b.os
  · rw [hrun, ← hb]
    show Recorded.Issued Q b.os s
    rw [← hb] at hrefused
    obtain ⟨-, rfl | rfl⟩ | ⟨target, e, hchecks, hopen⟩ := hrefused
    · exact .refl b.os
    · exact .of_mountinfo os b.os
    · have := hopened target hchecks
      rwa [hopen] at this
  · rw [hrun, ← hb]
    show Recorded.Issued Q b.os s
    rw [← hb] at hchecks hopen
    have := hopened target hchecks
    rwa [hopen] at this

/-! ### The invariant -/

/-- A record that is not in use needs no stream. -/
theorem StreamOk.of_free {r : Recorded σ} {session : UploadSession} (h : session.used = false) :
    StreamOk r session := fun hused => absurd hused (by rw [h]; decide)

theorem StreamsOk.abort (h : StreamsOk p) (transferId : UInt32) :
    StreamsOk ((fileAbortUpload os.recording transferId).run p).2 := by
  rcases hfind : findSession p.sessions transferId with _ | i
  · rwa [fileAbortUpload_of_none hfind]
  · have hissued := fileAbortUpload_issued (Q := fun _ => True) os h hfind trivial trivial
    have hsessions : ((fileAbortUpload os.recording transferId).run p).2.sessions =
        Function.update p.sessions i {} := by
      rw [fileAbortUpload_of_some hfind, Proc.setSession_sessions, unlinkPath_sessions,
        closeStream_sessions]
    exact h.update hissued hsessions (.of_free rfl)

theorem StreamsOk.beforeBegin (h : StreamsOk p) (transferId : UInt32) :
    StreamsOk (UsbResponder.beforeBegin os.recording transferId p) := by
  rw [UsbResponder.beforeBegin]
  rcases findSession p.sessions transferId with _ | i
  · exact h
  · exact h.abort os transferId

theorem StreamsOk.begin (h : StreamsOk p) (transferId : UInt32) (relativePath : Bytes)
    (desireStorage perm : Option Bytes) :
    StreamsOk
      ((fileBeginUpload os.recording transferId relativePath desireStorage perm).run p).2 := by
  have hb := h.beforeBegin os transferId
  have hissued : Recorded.Issued (fun _ => True) _
      ((fileBeginUpload os.recording transferId relativePath desireStorage perm).run p).2.os :=
    fileBeginUpload_issued os p transferId fun _ _ => trivial
  obtain ⟨-, hrun⟩ | ⟨i, -, ⟨record, s, msg, hfree, -, -, hrun⟩ |
      ⟨target, fp, s, -, hopen, hrun⟩⟩ :=
    fileBeginUpload_cases os.recording transferId relativePath desireStorage perm p
  · rw [hrun] at hissued ⊢
    exact hb.issued hissued rfl
  · rw [hrun] at hissued ⊢
    exact hb.update hissued rfl (.of_free hfree)
  · rw [hrun] at hissued ⊢
    refine hb.update hissued rfl fun _ => ⟨fp, rfl, ?_⟩
    exact Recorded.target_of_opening hopen

theorem StreamsOk.append (h : StreamsOk p) (transferId : UInt32) (data : Bytes) :
    StreamsOk ((fileAppendUploadChunk os.recording transferId data).run p).2 := by
  have hissued : Recorded.Issued (fun _ => True) p.os
      ((fileAppendUploadChunk os.recording transferId data).run p).2.os :=
    fileAppendUploadChunk_issued os h fun _ _ _ => trivial
  obtain ⟨-, hsessions⟩ | ⟨-, i, -, hsessions⟩ :=
    fileAppendUploadChunk_sessions os.recording transferId data p
  · exact h.issued hissued hsessions
  · exact h.update hissued hsessions ((h i).issued hissued)

theorem StreamsOk.finish (h : StreamsOk p) (transferId : UInt32) :
    StreamsOk ((fileFinishUpload os.recording transferId).run p).2 := by
  rcases hfind : findSession p.sessions transferId with _ | i
  · simp only [fileFinishUpload, hfind]
    exact h
  · obtain ⟨r, hclosed, hrest⟩ := fileFinishUpload_issued_of_rename (Q := fun _ => True) os h hfind
      (fun _ _ => trivial) fun _ _ => trivial
    have hissued := (hclosed.trans (.of_issue trivial r)).trans hrest
    exact h.update hissued (fileFinishUpload_sessions hfind) (.of_free rfl)

/-- Every call of a session function keeps the invariant. -/
theorem StreamsOk.call (h : StreamsOk p) (call : UploadCall) :
    StreamsOk ((call.op os.recording).run p).2 := by
  rcases call with ⟨transferId, path, desire, perm⟩ | ⟨transferId, data⟩ | transferId | transferId
  · exact h.begin os transferId path desire perm
  · exact h.append os transferId data
  · exact h.finish os transferId
  · exact h.abort os transferId

end Calls

/-! ### Calls without the card -/

/-- The call goes on with, finishes or aborts an upload to the card. It is read off the
sessions before the call. -/
def UploadCall.TouchesCard (sessions : FileOps) : UploadCall → Prop
  | .begin transferId _ _ _ =>
    ∃ i, findSession sessions transferId = some i ∧ OnSd (sessions i).tempPath
  | .append transferId data =>
    data ≠ [] ∧ ∃ i, findSession sessions transferId = some i ∧ OnSd (sessions i).tempPath
  | .finish transferId => ∃ i, findSession sessions transferId = some i ∧
    (OnSd (sessions i).tempPath ∨ OnSd (sessions i).finalPath)
  | .abort transferId =>
    ∃ i, findSession sessions transferId = some i ∧ OnSd (sessions i).tempPath

/-- The calls a begin makes before it looks at the mount table do not mount the card. They
close and remove the file of an old session of the same id. -/
structure Os.KeepsMount (os : Os σ) : Prop where
  fclose : ∀ fp s, os.SdMounted (os.fclose fp s).2 → os.SdMounted s
  unlink : ∀ path s, os.SdMounted (os.unlink path s).2 → os.SdMounted s

section OneCall

variable {os : Os σ} {p : Proc (Recorded σ)}

theorem Os.KeepsMount.beforeBegin (hmount : os.KeepsMount) (hno : ¬os.SdMounted p.os.inner)
    (transferId : UInt32) :
    ¬os.SdMounted (UsbResponder.beforeBegin os.recording transferId p).os.inner := by
  rw [UsbResponder.beforeBegin]
  rcases hfind : findSession p.sessions transferId with _ | i
  · exact hno
  · rw [fileAbortUpload_of_some hfind]
    refine fun hmounted => hno ?_
    have hclosed := hmount.unlink _ _ hmounted
    rcases hfp : (p.sessions i).fp with _ | fp
    · rwa [hfp] at hclosed
    · rw [hfp] at hclosed
      have hinner : (p.os.issueWrite fp).inner = p.os.inner := by
        rw [Recorded.issueWrite]
        rcases p.os.target fp with _ | path
        · rfl
        · rfl
      rw [← hinner]
      exact hmount.fclose _ _ hclosed

/-- A begin that passes its checks without the card opens a file that is not on it. -/
private theorem UploadChecks.offSd {relativePath : Bytes} {desireStorage perm : Option Bytes}
    {r : Recorded σ} {target : UploadTarget}
    (h : UploadChecks os.recording relativePath desireStorage perm r target)
    (hno : ¬os.SdMounted r.inner) : FileCall.OffSd (.create target.tempPath) := by
  obtain ⟨⟨t, ht, -⟩, hoff⟩ :=
    mounted_or_not_onSd h.path (storageWriteable_recording_iff.mp h.writeable)
  replace hoff := hoff.resolve_left hno
  intro path hpath
  rw [List.mem_singleton.mp hpath, UploadTarget.tempPath, ht]
  exact not_onSd_part (ht ▸ hoff)

/-- A call that does not touch the card issues nothing that does. -/
private theorem UploadCall.issued_offSd (hmount : os.KeepsMount) (hno : ¬os.SdMounted p.os.inner)
    (h : StreamsOk p) {call : UploadCall} (hcall : ¬call.TouchesCard p.sessions) :
    Recorded.Issued FileCall.OffSd p.os ((call.op os.recording).run p).2.os := by
  -- most calls are about one path only
  have hone : ∀ {path : Bytes}, ¬OnSd path → ∀ call : FileCall, call.paths = [path] →
      call.OffSd := by
    intro path hpath call hpaths path' hmem
    rw [hpaths, List.mem_singleton] at hmem
    rwa [hmem]
  rcases call with ⟨transferId, path, desire, perm⟩ | ⟨transferId, data⟩ | transferId | transferId
  · have hbefore : Recorded.Issued FileCall.OffSd p.os
        (UsbResponder.beforeBegin os.recording transferId p).os := by
      rw [UsbResponder.beforeBegin]
      rcases hfind : findSession p.sessions transferId with _ | i
      · exact .refl p.os
      · have hoff : ¬OnSd (p.sessions i).tempPath := fun hon => hcall ⟨i, hfind, hon⟩
        exact fileAbortUpload_issued os h hfind (hone hoff _ rfl) (hone hoff _ rfl)
    exact hbefore.trans (fileBeginUpload_issued os p transferId fun target hchecks =>
      hchecks.offSd (hmount.beforeBegin hno transferId))
  · refine fileAppendUploadChunk_issued os h fun i hdata hfind => ?_
    exact hone (fun hon => hcall ⟨hdata, i, hfind, hon⟩) _ rfl
  · rcases hfind : findSession p.sessions transferId with _ | i
    · simp only [UploadCall.op, fileFinishUpload, hfind]
      exact .refl p.os
    · have htemp : ¬OnSd (p.sessions i).tempPath := fun hon => hcall ⟨i, hfind, .inl hon⟩
      have hfinal : ¬OnSd (p.sessions i).finalPath := fun hon => hcall ⟨i, hfind, .inr hon⟩
      obtain ⟨r, hclosed, hrest⟩ :=
        fileFinishUpload_issued_of_rename os h hfind (hone htemp) (hone hfinal)
      refine (hclosed.trans (.of_issue ?_ r)).trans hrest
      intro path hpath
      obtain rfl | rfl : path = (p.sessions i).tempPath ∨ path = (p.sessions i).finalPath := by
        simpa [FileCall.paths] using hpath
      · exact htemp
      · exact hfinal
  · rcases hfind : findSession p.sessions transferId with _ | i
    · rw [UploadCall.op, fileAbortUpload_of_none hfind]
      exact .refl p.os
    · have hoff : ¬OnSd (p.sessions i).tempPath := fun hon => hcall ⟨i, hfind, hon⟩
      exact fileAbortUpload_issued os h hfind (hone hoff _ rfl) (hone hoff _ rfl)

/-- A call that touches the card issues a call that does. -/
private theorem UploadCall.exists_onSd (h : StreamsOk p) {call : UploadCall}
    (hcall : call.TouchesCard p.sessions) :
    ∃ fileCall ∈ ((call.op os.recording).run p).2.os.calls, ¬fileCall.OffSd := by
  have hon : ∀ {path : Bytes} {call : FileCall}, OnSd path → path ∈ call.paths → ¬call.OffSd :=
    fun hpath hmem hoff => hoff _ hmem hpath
  -- an abort unlinks the temporary file, and so does a begin of a live transfer
  have habort : ∀ {transferId : UInt32} {i : Fin maxUploadSessions},
      findSession p.sessions transferId = some i →
      FileCall.unlink (p.sessions i).tempPath ∈
        ((fileAbortUpload os.recording transferId).run p).2.os.calls := by
    intro transferId i hfind
    rw [fileAbortUpload_of_some hfind]
    exact List.mem_append_right _ (List.mem_singleton_self _)
  rcases call with ⟨transferId, path, desire, perm⟩ | ⟨transferId, data⟩ | transferId | transferId
  · obtain ⟨i, hfind, hpath⟩ := hcall
    refine ⟨.unlink (p.sessions i).tempPath, ?_, hon hpath (List.mem_singleton_self _)⟩
    have hissued : Recorded.Issued (fun _ => True)
        (UsbResponder.beforeBegin os.recording transferId p).os
        ((fileBeginUpload os.recording transferId path desire perm).run p).2.os :=
      fileBeginUpload_issued os p transferId fun _ _ => trivial
    refine hissued.mem ?_
    rw [UsbResponder.beforeBegin, hfind]
    exact habort hfind
  · obtain ⟨hdata, i, hfind, hpath⟩ := hcall
    obtain ⟨fp, hfp, -, htarget⟩ := h i (used_of_findSession hfind)
    refine ⟨.write (p.sessions i).tempPath, ?_, hon hpath (List.mem_singleton_self _)⟩
    have hissued := (fileAppendUploadChunk_issued_of_fwrite (Q := fun _ => True) os h hdata hfind
      trivial hfp).2
    refine hissued.mem ?_
    have hwrite : p.os.issueWrite fp = p.os.issue (.write (p.sessions i).tempPath) := by
      rw [Recorded.issueWrite, htarget]
    show _ ∈ (p.os.issueWrite fp).calls
    rw [hwrite]
    exact List.mem_append_right _ (List.mem_singleton_self _)
  · obtain ⟨i, hfind, hpath⟩ := hcall
    obtain ⟨r, -, hissued⟩ := fileFinishUpload_issued_of_rename (Q := fun _ => True) os h hfind
      (fun _ _ => trivial) fun _ _ => trivial
    refine ⟨.rename (p.sessions i).tempPath (p.sessions i).finalPath, hissued.mem ?_, ?_⟩
    · exact List.mem_append_right _ (List.mem_singleton_self _)
    · obtain hpath | hpath := hpath
      · exact hon hpath List.mem_cons_self
      · exact hon hpath (List.mem_cons_of_mem _ (List.mem_singleton_self _))
  · obtain ⟨i, hfind, hpath⟩ := hcall
    exact ⟨_, habort hfind, hon hpath (List.mem_singleton_self _)⟩

/-- **One call without the card.** All that is recorded is off the card exactly if the call
does not touch it. -/
theorem UploadCall.offSd_iff (hmount : os.KeepsMount) (hno : ¬os.SdMounted p.os.inner)
    (h : StreamsOk p) (hnil : p.os.calls = []) (call : UploadCall) :
    (∀ fileCall ∈ ((call.op os.recording).run p).2.os.calls, fileCall.OffSd) ↔
      ¬call.TouchesCard p.sessions := by
  constructor
  · intro hoff hcall
    obtain ⟨fileCall, hmem, hon⟩ := UploadCall.exists_onSd h hcall
    exact hon (hoff fileCall hmem)
  · intro hcall
    exact (UploadCall.issued_offSd hmount hno h hcall).of_nil hnil

end OneCall

end UsbResponder
