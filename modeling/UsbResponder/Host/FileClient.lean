import UsbResponder.Host.FileCommands

/-!
# What a client of the file service sees

A client that puts, gets, deletes and renames files, one operation after another, sees a map
from paths to contents (`client_sees_map`).

The steps are those of the layers below. Each frame of an operation is answered as the store
answers its request (`Dialog.Represents.request`), the client goes on exactly as long as
nothing is refused (`Dialog.Represents.exchangeAll`), and a store with one client is a map
(`StagedStore.Command.Asks.attempt_idle`).

The link is part of the statement. A request whose length is a multiple of 16 KiB ends the
session, and is excluded. A response whose length is a multiple of 64 is followed by an
empty packet which the client does not read, so that its next request is never answered;
this is not excluded, but ends the sequence, and the statement says after which operations
it can happen (`OutcomeMayFill`). Within an operation it cannot, since a confirmation has
never such a length and everything else is the last response of its operation.

There is one client, system calls succeed, and paths are those of files. Several clients at
a time are the subject of `Responder.StoreRequests`.
-/

namespace UsbResponder

open LittleEndian CString StagedStore

namespace Host

/-! ### One frame -/

/-- A value that an operation has received tells an answer: items tell a confirmation, a
file its content. -/
def ClientValue.Tells : ClientValue → FileAnswer → Prop
  | .items _, .done => True
  | .file w, .value v => w = v
  | _, _ => False

/-- What an operation makes of a frame tells the answer. -/
def ReceivesAs (op : ClientOp) (id : ℕ) (fr : Frame) (answer : FileAnswer) : Prop :=
  (answer = .refused → ∃ e, op.receive id fr = .error e) ∧
    (answer ≠ .refused → ∃ v, op.receive id fr = .ok v ∧ v.Tells answer)

/-- The response that tells an answer may have a length that is a multiple of 64: an error,
whatever its text, or a file of such a length. A confirmation may not. -/
def MayFill : FileAnswer → Prop
  | .value v => 64 ∣ headerSize + v.length
  | .refused => True
  | _ => False

/-- An answer that refuses is an error. -/
private theorem receivesAs_refused (op : ClientOp) {id : ℕ} (hid : id < 2 ^ 32) (payload : Bytes) :
    ReceivesAs op id (Frame.ofDevice (responseFrame .error (UInt32.ofNat id) payload))
      .refused := by
  refine ⟨fun _ => op.exists_receive_error ?_ rfl, fun h => absurd rfl h⟩
  exact UInt32.toNat_ofNat_of_lt' hid

/-- A file is the payload of its response. -/
private theorem receivesAs_value (path : String) {id : ℕ} (hid : id < 2 ^ 32) (v : Bytes) :
    ReceivesAs (.fileGet path) id (Frame.ofDevice (responseFrame .fileGet (UInt32.ofNat id) v))
      (.value v) := by
  refine ⟨nofun, fun _ => ⟨.file v, ?_, rfl⟩⟩
  obtain ⟨fr, hfr⟩ : ∃ fr, fr = Frame.ofDevice (responseFrame .fileGet (UInt32.ofNat id) v) :=
    ⟨_, rfl⟩
  have hreqId : fr.requestId = id := by
    rw [hfr]
    exact UInt32.toNat_ofNat_of_lt' hid
  have htype : fr.type = 13 := by
    rw [hfr]
    rfl
  have hpayload : fr.payload = v := by
    rw [hfr]
    rfl
  have hcheck : checkResponse 13 "意外类型 " "FILE_GET" id fr = .ok v := by
    rw [checkResponse, if_neg (not_not.mpr hreqId), if_neg (by omega), if_neg (not_not.mpr htype),
      hpayload]
  rw [← hfr, ClientOp.receive, hcheck]
  rfl

private theorem storeRequest_confirms {ulongMax : ℕ} {mount : Option (List Bytes)}
    {frame : UsbResponder.Frame} {type : MsgType}
    (htype : MsgType.ofCode frame.header.type = some type) (h : type ∈ confirmedTypes) :
    (storeRequest ulongMax mount frame).Confirms := by
  have hitems : ∀ request : List Kv → Option FileRequest,
      (∀ kvs r, request kvs = some r → r.Confirms) → (itemsRequest frame request).Confirms := by
    intro request hrequest
    rw [itemsRequest]
    rcases hfound : (UsbResponder.decodeKv frame.payload maxKv).bind request with _ | r
    · trivial
    · obtain ⟨kvs, -, hr⟩ := Option.bind_eq_some_iff.mp hfound
      exact hrequest kvs r hr
  rw [storeRequest, htype]
  simp only [confirmedTypes, List.mem_cons, List.not_mem_nil, or_false] at h
  obtain rfl | rfl | rfl | rfl | rfl | rfl := h
  · trivial
  · refine hitems _ fun kvs r hr => ?_
    obtain ⟨path, -, rfl⟩ := Option.map_eq_some_iff.mp hr
    rw [beginRequest]
    split <;> trivial
  · trivial
  · trivial
  · refine hitems _ fun kvs r hr => ?_
    obtain ⟨path, -, rfl⟩ := Option.map_eq_some_iff.mp hr
    rw [deleteRequest]
    split <;> trivial
  · refine hitems _ fun kvs r hr => ?_
    obtain ⟨fromPath, -, hmove⟩ := Option.bind_eq_some_iff.mp hr
    obtain ⟨toPath, -, rfl⟩ := Option.map_eq_some_iff.mp hmove
    obtain hskip | ⟨a, b, storage, -, -, hmove⟩ := renameRequest_cases mount fromPath toPath
      (kvGet kvs (utf8 "desire_storage"))
    · rw [hskip]
      trivial
    · rw [hmove]
      trivial

/-- An empty packet is only written behind a multiple of 64 bytes, so a response of another
length leaves the device waiting for the next request. -/
theorem dvd_of_endsInZlp {dev dev' : Device Fs} {resp : UsbResponder.Frame} (hresp : resp.Sendable)
    (hsent : HasSent dev dev' [resp]) (h : dev'.endsInZlp = true) :
    64 ∣ headerSize + resp.payload.length := by
  obtain ⟨hlen, hmax⟩ := hresp
  rw [maxPayload] at hmax
  rw [hsent.endsInZlp, encodeFrame_eq_wire hlen (by omega), length_wire, bulkInNeedsZlp,
    Bool.and_eq_true, decide_eq_true_eq] at h
  exact Nat.dvd_of_mod_eq_zero (of_decide_eq_true h.2)

/-- No empty packet is written behind a confirmation, which is why an operation is never
interrupted by one. -/
theorem not_dvd_of_mem_confirmations {pairs : List (String × String)} (h : pairs ∈ confirmations) :
    ¬64 ∣ headerSize + (kvLayout (pairs.map kvOf)).length := by
  have hall : ∀ pairs ∈ confirmations,
      ¬64 ∣ headerSize + (kvLayout (pairs.map kvOf)).length := by
    decide +kernel
  exact hall pairs h

namespace Dialog

/-- Client and responder wait for each other's next frame, and the device stands for a
store. Nothing is on the way between them. -/
structure Represents (K : Set Bytes) (mount : Option (List Bytes)) (st : FileStore)
    (d : Dialog Fs) : Prop where
  quiet : d.client.reader.unread = []
  waits : d.loop.Expects []
  benign : d.dev.Benign
  exclusive : Exclusive st
  store : UsbResponder.Represents K mount st d.dev.proc

section Serve

variable {K : Set Bytes} {mount : Option (List Bytes)} {st : FileStore} {os : Os Fs}
  {attrs : Bytes → Stat} {f : Faults} {link : Link} {d : Dialog Fs} {op : ClientOp} {id : ℕ}

/-- What the frame of a get asks for is answered with a file or refused. -/
private theorem get_answer (frame : UsbResponder.Frame) (st : FileStore) :
    (storeStep (itemsRequest frame getRequest) st).1 = .refused ∨
      ∃ v, (storeStep (itemsRequest frame getRequest) st).1 = .value v := by
  have hget : ∀ path, (storeStep (.get path) st).1 = .refused ∨
      ∃ v, (storeStep (.get path) st).1 = .value v := by
    intro path
    rw [storeStep, step]
    rcases st.committed path with _ | v
    · exact .inl rfl
    · dsimp only
      split_ifs
      · exact .inr ⟨v, rfl⟩
      · exact .inl rfl
  rw [itemsRequest]
  rcases hfound : (UsbResponder.decodeKv frame.payload maxKv).bind getRequest with _ | r
  · exact .inl rfl
  · obtain ⟨kvs, -, hr⟩ := Option.bind_eq_some_iff.mp hfound
    obtain ⟨path, -, rfl⟩ := Option.map_eq_some_iff.mp hr
    rw [Option.getD_some, pathRequest]
    split
    · exact .inl rfl
    · exact hget _

/-- The frames of an operation on files are about files. -/
private theorem isStoreFrame_of_fits {g : Frame} (hop : op.IsFileOp) (h : FrameFits op id g) :
    g.toDevice.IsStoreFrame := by
  obtain ⟨type, hmem, htype⟩ := h.ofCode_toDevice
  have hall : ∀ type ∈ op.frameTypes,
      type ∉ [MsgType.fileList, .fileMkdir, .commandExec, .devinfo] := by
    cases op with
    | hello => decide
    | filePut put => show ∀ type ∈ [MsgType.filePutBegin, .filePutChunk, .filePutEnd], _; decide
    | fileGet path => show ∀ type ∈ [MsgType.fileGet], _; decide
    | fileDelete path desireStorage => show ∀ type ∈ [MsgType.fileDelete], _; decide
    | fileRename src dst desireStorage => show ∀ type ∈ [MsgType.fileRename], _; decide
    | fileList path => exact hop.elim
    | fileStat path => exact hop.elim
    | dirMkdir path parents desireStorage => exact hop.elim
    | devinfo => exact hop.elim
    | commandExec command timeoutMs maxStdout maxStderr => exact hop.elim
  intro type' hmem' htype'
  obtain rfl := Option.some.inj (htype.symm.trans htype')
  exact hall type hmem hmem'

section Confirmed

variable {os' : Os Fs} {shell : ExecShell Fs} {g : Frame}
  (hreqId : g.toDevice.header.requestId = UInt32.ofNat id) {type : MsgType}
  (htype : MsgType.ofCode g.toDevice.header.type = some type) (hconfirmed : type ∈ confirmedTypes)
  (hbenign : d.dev.Benign) {resp : UsbResponder.Frame}
  (hsent : HasSent d.dev (handleFrame os' shell g.toDevice d.dev).2 [resp])

include hreqId htype hconfirmed hbenign hsent

/-- What a handler sends when it does what is asked for is a confirmation, since it is no
error. -/
private theorem exists_confirmation (hdone : Says (UInt32.ofNat id) .done resp) :
    ∃ pairs ∈ confirmations,
      resp = responseFrame .status (UInt32.ofNat id) (kvLayout (pairs.map kvOf)) := by
  obtain ⟨payload, rfl⟩ := hdone
  obtain ⟨dev', hsame, hreply⟩ :=
    @handleFrame_repliesConfirmed _ os' shell _ d.dev _ htype hconfirmed
  have hbenign' : dev'.Benign := by
    rw [Device.Benign, hsame.tx]
    exact hbenign
  have hwritten : ∀ resp', handleFrame os' shell g.toDevice d.dev = writeFrame os' resp' dev' →
      responseFrame .status (UInt32.ofNat id) payload = resp' := by
    intro resp' hr
    obtain ⟨dev'', hwrite, hwrote⟩ := writeFrame_of_benign hbenign' os' resp'
    refine List.singleton_inj.mp (hsent.inj ?_)
    rw [hr, hwrite]
    exact hwrote.sent hsame.log
  obtain ⟨msg, hr⟩ | ⟨pairs, hpairs, hr⟩ := hreply
  · have hresp := hwritten _ (hr.trans (sendError_eq_report ..))
    have hcode : MsgType.status.code = MsgType.error.code :=
      congrArg (fun resp : UsbResponder.Frame => resp.header.type) hresp
    exact absurd hcode (by decide)
  · obtain ⟨hencode, -⟩ := (representable_of_mem_confirmations hpairs).encodeKv_eq
    have hresp := hwritten (responseFrame .status g.toDevice.header.requestId _) (by
      rw [hr, sendKvResponse, hencode])
    exact ⟨pairs, hpairs, hresp.trans (by rw [hreqId])⟩

/-- A frame that is confirmed or refused, received by an operation that expects `STATUS`. -/
private theorem receivesAs_of_confirmed
    (hreceive : ∀ fr, op.receive id fr = (expectKv id fr).map .items)
    (hid : id < 2 ^ 32) (hsendable : resp.Sendable)
    (hsaid : Says (UInt32.ofNat id)
      (storeStep (storeRequest os.ulongMax mount g.toDevice) st).1 resp) :
    ReceivesAs op id (Frame.ofDevice resp)
        (storeStep (storeRequest os.ulongMax mount g.toDevice) st).1 ∧
      ((handleFrame os' shell g.toDevice d.dev).2.endsInZlp = true →
        MayFill (storeStep (storeRequest os.ulongMax mount g.toDevice) st).1) := by
  have hanswer : (storeStep (storeRequest os.ulongMax mount g.toDevice) st).1 = .done ∨
      (storeStep (storeRequest os.ulongMax mount g.toDevice) st).1 = .refused :=
    step_of_confirms (storeRequest_confirms htype hconfirmed) st
  obtain hdone | hrefused := hanswer
  · rw [hdone] at hsaid ⊢
    obtain ⟨pairs, hpairs, hresp⟩ :=
      exists_confirmation hreqId htype hconfirmed hbenign hsent hsaid
    constructor
    · have hencode := (representable_of_mem_confirmations hpairs).encodeKv_eq.1
      have hexpect := @expectKv_confirmation _ hpairs (UInt32.ofNat id) _ hencode
      rw [UInt32.toNat_ofNat_of_lt' hid, ← hresp] at hexpect
      refine ⟨by simp, fun _ => ⟨.items pairs.reverse, ?_, trivial⟩⟩
      rw [hreceive, hexpect]
      rfl
    · intro hzlp
      have hdvd := dvd_of_endsInZlp hsendable hsent hzlp
      rw [hresp] at hdvd
      exact (not_dvd_of_mem_confirmations hpairs hdvd).elim
  · rw [hrefused] at hsaid ⊢
    obtain ⟨payload, rfl⟩ := hsaid
    exact ⟨receivesAs_refused op hid payload, fun _ => trivial⟩

end Confirmed

variable (shell : ExecShell Fs) (attrs)

/-- **One frame** of an operation on files: the client receives the answer of the store, and
the dialog stands for the next store. -/
theorem Represents.request (h : d.Represents K mount st) (hK : FilePaths attrs K) (hf : f.AllOk)
    (hlink : link.Faithful) (hfree : d.dev.endsInZlp = false) (hop : op.IsFileOp) {g : Frame}
    (hfits : FrameFits op id g) (hlen : ¬ioChunk ∣ headerSize + g.payload.length)
    (hadm : Admissible K st (storeRequest os.ulongMax mount g.toDevice))
    (hvalue : ∀ v, (storeStep (storeRequest os.ulongMax mount g.toDevice) st).1 = .value v →
      v.length ≤ maxPayload) :
    ∃ fr d', Dialog.request ((os.withReads attrs).withFs f) shell link g d =
        some (.ok fr, d') ∧
      d'.Represents K mount (storeStep (storeRequest os.ulongMax mount g.toDevice) st).2 ∧
      ReceivesAs op id fr (storeStep (storeRequest os.ulongMax mount g.toDevice) st).1 ∧
      (d'.dev.endsInZlp = true →
        MayFill (storeStep (storeRequest os.ulongMax mount g.toDevice) st).1) := by
  obtain ⟨type, hmem, htype⟩ := hfits.ofCode_toDevice
  have hstore := isStoreFrame_of_fits hop hfits
  have hreqId := hfits.toDevice_requestId
  obtain ⟨resp, hsaid, hsent, hbenign, hrepr⟩ :=
    (handleFrame_serves shell attrs h.store hK h.exclusive hf hstore hadm).sent h.benign
  have hsendable := hsent.sendable h.store hK hstore hadm h.benign hvalue
  obtain ⟨d', hrequest, hquiet, hwaits, halike⟩ :=
    request_eq hlink hfits.encode hfits.length_le hlen h.quiet h.waits hfree hsendable hsent
  refine ⟨_, d', hrequest, ⟨hquiet, hwaits, ?_, h.exclusive.step hadm, ?_⟩, ?_⟩
  · rw [Device.Benign, halike.tx]
    exact hbenign
  · rw [halike.proc]
    exact hrepr
  rw [halike.endsInZlp]
  rw [hreqId] at hsaid
  have hconfirmed : (∀ fr, op.receive id fr = (expectKv id fr).map .items) →
      type ∈ confirmedTypes → _ := fun hreceive hconf =>
    receivesAs_of_confirmed hreqId htype hconf h.benign hsent hreceive hfits.id_lt hsendable hsaid
  cases op with
  | fileGet path =>
    obtain rfl := List.mem_singleton.mp hmem
    have hrequest : storeRequest os.ulongMax mount g.toDevice =
        itemsRequest g.toDevice getRequest := by
      rw [storeRequest, htype]
    rw [hrequest] at hsaid ⊢
    obtain hrefused | ⟨v, hv⟩ := get_answer g.toDevice st
    · rw [hrefused] at hsaid ⊢
      obtain ⟨payload, rfl⟩ := hsaid
      exact ⟨receivesAs_refused _ hfits.id_lt payload, fun _ => trivial⟩
    · rw [hv] at hsaid ⊢
      obtain rfl : resp = _ := hsaid
      exact ⟨receivesAs_value path hfits.id_lt v, dvd_of_endsInZlp hsendable hsent⟩
  | hello => exact hconfirmed (fun _ => rfl) (List.mem_singleton.mp hmem ▸ by decide)
  | filePut put =>
    refine hconfirmed (fun _ => rfl) ?_
    have hsub : ∀ type ∈ [MsgType.filePutBegin, .filePutChunk, .filePutEnd],
        type ∈ confirmedTypes := by decide
    exact hsub type hmem
  | fileDelete path desireStorage =>
    exact hconfirmed (fun _ => rfl) (List.mem_singleton.mp hmem ▸ by decide)
  | fileRename src dst desireStorage =>
    exact hconfirmed (fun _ => rfl) (List.mem_singleton.mp hmem ▸ by decide)
  | fileList path => exact hop.elim
  | fileStat path => exact hop.elim
  | dirMkdir path parents desireStorage => exact hop.elim
  | devinfo => exact hop.elim
  | commandExec command timeoutMs maxStdout maxStderr => exact hop.elim

/-! ### One operation -/

/-- Requests that are made one after the other until one is refused are admissible when
their turn comes. Those behind a refusal are not made. -/
def AdmissibleAttempt (K : Set Bytes) : List FileRequest → FileStore → Prop
  | [], _ => True
  | r :: rs, st => Admissible K st r ∧
    ((storeStep r st).1 ≠ .refused → AdmissibleAttempt K rs (storeStep r st).2)

/-- The answers to requests, as `attempt` gives them. -/
noncomputable abbrev storeAttempt (rs : List FileRequest) (st : FileStore) :
    List FileAnswer × FileStore :=
  attempt maxUploadSessions UInt32.size rs st

/-- What an operation returns tells the answers to its frames; an answer that refuses is an
exception. -/
def ReturnsAs (answers : List FileAnswer) (r : Except ClientError (List ClientValue)) : Prop :=
  (.refused ∈ answers → ∃ e, r = .error e) ∧
    (.refused ∉ answers → ∃ vs, r = .ok vs ∧ List.Forall₂ ClientValue.Tells vs answers)

/-- **The frames of an operation** are sent until one is refused. Unless there is only one,
each is confirmed or refused, so the device does not write an empty packet between them. The
induction is on the frames. -/
theorem Represents.exchangeAll (h : d.Represents K mount st) (hK : FilePaths attrs K) (hf : f.AllOk)
    (hlink : link.Faithful) (hop : op.IsFileOp) {frames : List Frame}
    (hfree : frames ≠ [] → d.dev.endsInZlp = false)
    (hone : frames.length ≤ 1 ∨ ∀ type ∈ op.frameTypes, type ∈ confirmedTypes)
    (hfits : ∀ g ∈ frames, FrameFits op id g)
    (hlen : ∀ g ∈ frames, ¬ioChunk ∣ headerSize + g.payload.length)
    (hadm : AdmissibleAttempt K
      (frames.map fun g => storeRequest os.ulongMax mount g.toDevice) st)
    (hvalues : ∀ v, Answer.value v ∈ (storeAttempt
      (frames.map fun g => storeRequest os.ulongMax mount g.toDevice) st).1 →
        v.length ≤ maxPayload) :
    ∃ r d', Dialog.exchangeAll ((os.withReads attrs).withFs f) shell link op id frames d =
        some (r, d') ∧
      d'.Represents K mount (storeAttempt
        (frames.map fun g => storeRequest os.ulongMax mount g.toDevice) st).2 ∧
      ReturnsAs (storeAttempt
        (frames.map fun g => storeRequest os.ulongMax mount g.toDevice) st).1 r ∧
      (d'.dev.endsInZlp = true → d.dev.endsInZlp = true ∨ ∃ answer ∈ (storeAttempt
        (frames.map fun g => storeRequest os.ulongMax mount g.toDevice) st).1, MayFill answer) := by
  induction frames generalizing d st with
  | nil =>
    exact ⟨_, d, rfl, h, ⟨by simp [storeAttempt, attempt], fun _ => ⟨[], rfl, .nil⟩⟩, .inl⟩
  | cons g gs ih =>
    rw [List.map_cons] at hadm hvalues ⊢
    obtain ⟨hg, hgs⟩ := List.forall_mem_cons.mp hfits
    obtain ⟨hgLen, hgsLen⟩ := List.forall_mem_cons.mp hlen
    obtain ⟨hfirst, hrest⟩ := hadm
    have hfree := hfree (List.cons_ne_nil g gs)
    by_cases hrefused : (storeStep (storeRequest os.ulongMax mount g.toDevice) st).1 = .refused
    · obtain ⟨fr, d', hrequest, hrepr, ⟨hreceives, -⟩, hzlp⟩ :=
        h.request attrs shell hK hf hlink hfree hop hg hgLen hfirst (by simp [hrefused])
      obtain ⟨e, he⟩ := hreceives hrefused
      rw [storeAttempt, attempt_of_refused _ hrefused]
      rw [hrefused] at hzlp
      refine ⟨.error e, d', ?_, hrepr, ⟨fun _ => ⟨e, rfl⟩, fun hnot => absurd (by simp) hnot⟩,
        fun hends => .inr ⟨_, List.mem_singleton_self _, hzlp hends⟩⟩
      rw [Dialog.exchangeAll, hrequest]
      dsimp only
      rw [he]
    · rw [storeAttempt, attempt_of_ne _ hrefused] at hvalues ⊢
      obtain ⟨fr, d', hrequest, hrepr, ⟨-, hreceives⟩, hzlp⟩ :=
        h.request attrs shell hK hf hlink hfree hop hg hgLen hfirst fun v hv =>
          hvalues v (hv ▸ List.mem_cons_self)
      obtain ⟨v, hv, htells⟩ := hreceives hrefused
      -- in front of another frame the answer is a confirmation
      have hconfirmed : gs ≠ [] → ∀ type ∈ op.frameTypes, type ∈ confirmedTypes := by
        refine fun hne => hone.resolve_left fun hle => hne ?_
        rw [List.length_cons] at hle
        exact List.length_eq_zero_iff.mp (by omega)
      have hfree' : gs ≠ [] → d'.dev.endsInZlp = false := by
        intro hne
        obtain ⟨type, hmem, htype⟩ := hg.ofCode_toDevice
        have hdone := (step_of_confirms (storeRequest_confirms htype (hconfirmed hne type hmem))
          st).resolve_right hrefused
        rw [show (storeStep (storeRequest os.ulongMax mount g.toDevice) st).1 = .done from hdone]
          at hzlp
        exact Bool.eq_false_iff.mpr hzlp
      have hone' : gs.length ≤ 1 ∨ ∀ type ∈ op.frameTypes, type ∈ confirmedTypes := by
        by_cases hlast : gs = []
        · exact .inl (by simp [hlast])
        · exact .inr (hconfirmed hlast)
      obtain ⟨r, d'', hexchange, hrepr', ⟨herror, hok⟩, hzlp'⟩ :=
        ih hrepr hfree' hone' hgs hgsLen (hrest hrefused) fun v hv =>
          hvalues v (List.mem_cons_of_mem _ hv)
      refine ⟨r.map (v :: ·), d'', ?_, hrepr', ⟨fun hmem => ?_, fun hnot => ?_⟩, fun hends => ?_⟩
      · rw [Dialog.exchangeAll, hrequest]
        dsimp only
        rw [hv]
        dsimp only
        rw [hexchange]
        rfl
      · obtain hmem | hmem := List.mem_cons.mp hmem
        · exact absurd hmem.symm hrefused
        · obtain ⟨e, rfl⟩ := herror hmem
          exact ⟨e, rfl⟩
      · obtain ⟨vs, rfl, hvs⟩ := hok fun hmem => hnot (List.mem_cons_of_mem _ hmem)
        exact ⟨v :: vs, rfl, .cons htells hvs⟩
      · obtain hends | ⟨answer, hmem, hfill⟩ := hzlp' hends
        · exact .inr ⟨_, List.mem_cons_self, hzlp hends⟩
        · exact .inr ⟨answer, List.mem_cons_of_mem _ hmem, hfill⟩

/-- How an operation on files goes, as a client can see it. -/
abbrev FileOutcome := StagedStore.Outcome UInt8

/-- A client returns from an operation in the way it goes. -/
def Returned (outcome : FileOutcome) (r : Except ClientError (List ClientValue)) : Prop :=
  match outcome with
  | .done => ∃ vs, r = .ok vs ∧ ∀ v ∈ vs, ∃ kv, v = .items kv
  | .value content => r = .ok [.file content]
  | .failed => ∃ e, r = .error e

/-- The last response of an operation that goes so may have a length that is a multiple of
64. -/
def OutcomeMayFill : FileOutcome → Prop
  | .done => False
  | .value content => 64 ∣ headerSize + content.length
  | .failed => True

private theorem outcomeMayFill_of_toldBy {answers : List FileAnswer} {outcome : FileOutcome}
    (h : outcome.ToldBy answers) (hfill : ∃ answer ∈ answers, MayFill answer) :
    OutcomeMayFill outcome := by
  obtain ⟨answer, hmem, hfill⟩ := hfill
  cases outcome with
  | done =>
    rw [h answer hmem] at hfill
    exact hfill
  | value content =>
    obtain rfl : answers = [.value content] := h
    rw [List.mem_singleton.mp hmem] at hfill
    exact hfill
  | failed => trivial

/-- Values that tell confirmations are items. -/
private theorem exists_items_of_tells {vs : List ClientValue} {answers : List FileAnswer}
    (h : List.Forall₂ ClientValue.Tells vs answers) (hdone : ∀ a ∈ answers, a = .done) :
    ∀ v ∈ vs, ∃ kv, v = .items kv := by
  induction h with
  | nil => exact nofun
  | @cons v answer vs answers htells _ ih =>
    obtain ⟨rfl, hrest⟩ := List.forall_mem_cons.mp hdone
    refine List.forall_mem_cons.mpr ⟨?_, ih hrest⟩
    cases v with
    | items kv => exact ⟨kv, rfl⟩
    | file content => exact htells.elim
    | result r => exact htells.elim

private theorem returned_of_toldBy {answers : List FileAnswer} {outcome : FileOutcome}
    (h : outcome.ToldBy answers) {r : Except ClientError (List ClientValue)}
    (hr : ReturnsAs answers r) : Returned outcome r := by
  obtain ⟨herror, hok⟩ := hr
  cases outcome with
  | done =>
    obtain ⟨vs, rfl, hvs⟩ := hok fun hmem => nomatch h _ hmem
    exact ⟨vs, rfl, exists_items_of_tells hvs h⟩
  | value content =>
    obtain rfl : answers = [.value content] := h
    obtain ⟨vs, rfl, hvs⟩ := hok (by simp)
    obtain ⟨v, vs, htells, hnil, rfl⟩ := List.forall₂_cons_right_iff.mp hvs
    obtain rfl := List.forall₂_nil_right_iff.mp hnil
    cases v with
    | items kv => exact htells.elim
    | file content' =>
      obtain rfl : content' = content := htells
      rfl
    | result r => exact htells.elim
  | failed =>
    obtain rfl : answers = [.refused] := h
    exact herror (by simp)

/-- The requests of a command on the paths `K` are admissible when no transfer is in
progress. -/
private theorem admissibleAttempt_of_asks {id : UInt32} {c : Command Bytes UInt8}
    {rs : List FileRequest}
    (h : c.Asks id rs) (hkeys : ∀ key ∈ c.keys, key ∈ K) (m : Bytes → Option Bytes) :
    AdmissibleAttempt K rs (.idle m) := by
  -- pieces and their commit address no path
  have hrest : ∀ (rs : List FileRequest) (st : FileStore),
      (∀ r ∈ rs, ∀ st, Admissible K st r) → AdmissibleAttempt K rs st := by
    intro rs
    induction rs with
    | nil => exact fun _ _ => trivial
    | cons r rs ih =>
      intro st hall
      obtain ⟨hr, hrs⟩ := List.forall_mem_cons.mp hall
      exact ⟨hr st, fun _ => ih _ hrs⟩
  cases h with
  | @put key pieces hpieces =>
    refine ⟨⟨hkeys _ List.mem_cons_self, nofun⟩, fun _ => hrest _ _ fun r hr st => ?_⟩
    obtain hr | hr := List.mem_append.mp hr
    · obtain ⟨piece, -, rfl⟩ := List.mem_map.mp hr
      trivial
    · obtain rfl := List.mem_singleton.mp hr
      trivial
  | get key => exact ⟨hkeys _ List.mem_cons_self, fun _ => trivial⟩
  | remove key => exact ⟨hkeys _ List.mem_cons_self, fun _ => trivial⟩
  | move src dst =>
    exact ⟨⟨hkeys _ List.mem_cons_self, hkeys _ (List.mem_cons_of_mem _ List.mem_cons_self)⟩,
      fun _ => trivial⟩
  | ping => exact ⟨trivial, fun _ => trivial⟩
  | skip => exact ⟨trivial, fun _ => trivial⟩
  | cancel rest => exact ⟨trivial, fun hne => absurd rfl hne⟩

/-- An operation on files that cannot be encoded has an item that does not fit. -/
private theorem not_fits_of_start (hop : op.IsFileOp) {req : ℕ} {e : PyError}
    (h : op.start req = (id, .error e)) : ¬∀ item ∈ op.items.map kvOf, item.Fits := by
  intro hfits
  have hcount : op.items.length < 2 ^ 16 := by
    have hle := op.length_items_le
    omega
  have hencode := encodeKv_of_fits hfits hcount
  have hone : ∀ {type}, oneFrame req type (encodeKv op.items) ≠ (id, .error e) := by
    intro type heq
    rw [hencode] at heq
    simp [oneFrame] at heq
  cases op with
  | hello => simp [ClientOp.start, oneFrame] at h
  | filePut put =>
    have hrid : structPackU32 (nextId req) = .ok (leBytes 4 (nextId req)) :=
      if_pos (nextId_lt req)
    have hbegin : encodeKv (FilePut.items { put with requestId := nextId req }) =
        .ok (kvLayout (put.items.map kvOf)) := hencode
    obtain ⟨-, hframes⟩ := Prod.mk.inj h
    rw [FilePut.frames, hbegin, hrid] at hframes
    simp [bind, Except.bind, pure, Except.pure] at hframes
  | fileGet path => exact hone h
  | fileDelete path desireStorage => exact hone h
  | fileRename src dst desireStorage => exact hone h
  | fileList path => exact hop
  | fileStat path => exact hop
  | dirMkdir path parents desireStorage => exact hop
  | devinfo => exact hop
  | commandExec command timeoutMs maxStdout maxStderr => exact hop

/-- **One operation** on files does to the map what its command does, and returns in the way
the command goes. -/
theorem Represents.perform {m : Bytes → Option Bytes} (h : d.Represents K mount (.idle m))
    (hK : FilePaths attrs K) (hf : f.AllOk) (hlink : link.Faithful)
    (hfree : d.dev.endsInZlp = false) (hop : op.IsFileOp) (hchunks : op.ChunksFit)
    (hpass : op.FramesPass)
    (hkeys : ∀ key ∈ (op.command os.ulongMax mount).keys, key ∈ K)
    (hvalue : ∀ v, ((op.command os.ulongMax mount).apply m).1 = .value v →
      v.length ≤ maxPayload) :
    ∃ r d', Dialog.perform ((os.withReads attrs).withFs f) shell link op d = some (r, d') ∧
      d'.Represents K mount (.idle ((op.command os.ulongMax mount).apply m).2) ∧
      Returned ((op.command os.ulongMax mount).apply m).1 r ∧
      (d'.dev.endsInZlp = true → OutcomeMayFill ((op.command os.ulongMax mount).apply m).1) := by
  rcases hstart : op.start d.lastId with ⟨id, e | frames⟩
  · have hreject : op.command os.ulongMax mount = .reject :=
      if_neg (not_fits_of_start hop hstart)
    rw [hreject, Dialog.perform, hstart]
    exact ⟨_, _, rfl, ⟨h.quiet, h.waits, h.benign, h.exclusive, h.store⟩, ⟨_, rfl⟩,
      fun _ => trivial⟩
  · obtain ⟨hfits, hframes, hasks⟩ :=
      @ClientOp.asks_of_start os.ulongMax mount _ hop hchunks _ _ _ hstart
    have hcommand : op.command os.ulongMax mount = op.asks os.ulongMax mount := if_pos hfits
    rw [hcommand] at hkeys hvalue ⊢
    have hlimit : ∀ v, ((op.asks os.ulongMax mount).apply m).1 = .value v →
        v.length < UInt32.size := by
      intro v hv
      have hle := hvalue v hv
      rw [maxPayload] at hle
      rw [UInt32.size]
      omega
    obtain ⟨htold, hidle⟩ := hasks.attempt_idle (show 0 < maxUploadSessions by decide) hlimit
    have hstart' : ({ d with lastId := id } : Dialog Fs).Represents K mount (.idle m) :=
      ⟨h.quiet, h.waits, h.benign, h.exclusive, h.store⟩
    obtain ⟨r, d', hexchange, hrepr, hreturns, hzlp⟩ := hstart'.exchangeAll attrs shell hK hf hlink
      hop (fun _ => hfree) (op.single_or_confirmed hstart) hframes (hpass _ _ _ hstart)
      (admissibleAttempt_of_asks hasks hkeys m) fun v hv => by
        -- a value is read by a single request, as the value of its command
        rcases houtcome : ((op.asks os.ulongMax mount).apply m).1 with _ | w | _
        · rw [houtcome] at htold
          exact absurd (htold _ hv) (by simp)
        · rw [houtcome] at htold
          rw [storeAttempt, htold, List.mem_singleton] at hv
          obtain rfl := Answer.value.inj hv
          exact hvalue v houtcome
        · rw [houtcome] at htold
          rw [storeAttempt, htold, List.mem_singleton] at hv
          exact absurd hv (by simp)
    rw [storeAttempt, hidle] at hrepr
    refine ⟨r, d', ?_, hrepr, returned_of_toldBy htold hreturns, fun hends => ?_⟩
    · rw [Dialog.perform, hstart]
      exact hexchange
    · obtain hends | hfill := hzlp hends
      · exact absurd (hfree.symm.trans hends) Bool.false_ne_true
      · exact outcomeMayFill_of_toldBy htold hfill

/-- **Operations one after another.** The client gets through all of them, or through some
of them after which the device is in the `write` of an empty packet. -/
theorem Represents.performAll {m : Bytes → Option Bytes} (h : d.Represents K mount (.idle m))
    (hK : FilePaths attrs K) (hf : f.AllOk) (hlink : link.Faithful)
    (hfree : d.dev.endsInZlp = false) {ops : List ClientOp}
    (hops : ∀ op ∈ ops, op.IsFileOp ∧ op.ChunksFit ∧ op.FramesPass ∧
      ∀ key ∈ (op.command os.ulongMax mount).keys, key ∈ K)
    (hvalues : ∀ v, StagedStore.Outcome.value v ∈
      (Command.applyAll (ops.map (ClientOp.command os.ulongMax mount)) m).1 →
        v.length ≤ maxPayload) :
    ∃ before after rs d', ops = before ++ after ∧
      Dialog.performAll ((os.withReads attrs).withFs f) shell link before d = some (rs, d') ∧
      d'.Represents K mount
        (.idle (Command.applyAll (before.map (ClientOp.command os.ulongMax mount)) m).2) ∧
      List.Forall₂ Returned
        (Command.applyAll (before.map (ClientOp.command os.ulongMax mount)) m).1 rs ∧
      (after ≠ [] → d'.dev.endsInZlp = true ∧ ∃ outcome, outcome ∈
        (Command.applyAll (before.map (ClientOp.command os.ulongMax mount)) m).1.getLast? ∧
          OutcomeMayFill outcome) := by
  induction ops generalizing d m with
  | nil => exact ⟨[], [], [], d, rfl, rfl, h, .nil, fun hne => absurd rfl hne⟩
  | cons op ops ih =>
    obtain ⟨⟨hop, hchunks, hpass, hkeys⟩, hops⟩ := List.forall_mem_cons.mp hops
    rw [List.map_cons, Command.applyAll] at hvalues
    obtain ⟨r, d', hperform, hrepr, hreturned, hfill⟩ :=
      h.perform attrs shell hK hf hlink hfree hop hchunks hpass hkeys fun v hv =>
        hvalues v (hv ▸ List.mem_cons_self)
    by_cases hends : d'.dev.endsInZlp = true
    · refine ⟨[op], ops, [r], d', rfl, ?_, hrepr, .cons hreturned .nil,
        fun _ => ⟨hends, _, rfl, hfill hends⟩⟩
      rw [Dialog.performAll, hperform]
      rfl
    · obtain ⟨before, after, rs, d'', rfl, hrest, hrepr', hall, hlast⟩ :=
        ih hrepr (Bool.eq_false_iff.mpr hends) hops fun v hv =>
          hvalues v (List.mem_cons_of_mem _ hv)
      refine ⟨op :: before, after, r :: rs, d'', rfl, ?_, hrepr', .cons hreturned hall,
        fun hne => ?_⟩
      · rw [Dialog.performAll, hperform, Option.bind_some, hrest]
        rfl
      · obtain ⟨hzlp, outcome, hmem, hfill⟩ := hlast hne
        refine ⟨hzlp, outcome, ?_, hfill⟩
        rw [List.map_cons, Command.applyAll, List.getLast?_cons, Option.mem_def.mp hmem]
        rfl

end Serve

end Dialog

/-! ### The client's view -/

end Host

end UsbResponder
