import UsbResponder.Base.SequentialStore
import UsbResponder.Host.Dialog

/-!
# What operations on files ask for

`ClientOp.command` is what an operation of the client does to a map from paths to contents:
the path of its arguments as the device builds it, or nothing, where the device refuses the
path or the client cannot encode its arguments. The frames of an operation ask for the
requests of its command (`ClientOp.asks_of_start`), the begin, the pieces and the end of an
upload among them.

The other direction is what the client takes for an answer: an error is an exception,
whichever the operation (`ClientOp.exists_receive_error`), and a confirmation is read as its
items (`expectKv_confirmation`). Listings, directories, device information and commands are
not requests to a store of files and are left out.

For the first direction the items of an operation are followed through both codecs: the
client encodes them, the device decodes the same list, and `kv_get` finds in it what the
client has put there, since the keys of an operation are different. The responses that
confirm are few, and what holds of all of them is decided (`confirmations`).
-/

namespace UsbResponder

open LittleEndian CString StagedStore

variable {σ : Type}

/-! ### Confirmations -/

/-- The types of the frames that are answered with a confirmation or an error, and with
nothing else. -/
def confirmedTypes : List MsgType :=
  [.hello, .filePutBegin, .filePutChunk, .filePutEnd, .fileDelete, .fileRename]

/-- The items of the responses that confirm an operation. -/
def confirmations : List (List (String × String)) :=
  [[("status", "ok")], [("status", "ok"), ("transfer_id", "request_id")],
    [("service", "usb_responder"), ("version", "1")]]

theorem representable_of_mem_confirmations {pairs : List (String × String)}
    (h : pairs ∈ confirmations) : Representable pairs := by
  have hall : ∀ pairs ∈ confirmations, pairs.length ≤ maxKv ∧
      (∀ pair ∈ pairs, 0 ∉ utf8 pair.1 ∧ 0 ∉ utf8 pair.2) ∧
      ∀ pair ∈ pairs, (utf8 pair.1).length ≤ 65535 ∧ (utf8 pair.2).length ≤ 65535 := by
    decide
  obtain ⟨hcount, hnul, hlen⟩ := hall pairs h
  exact ⟨hcount, hnul, hlen⟩

/-- Pairs that the format can hold are encoded as their layout, which the host reads back. -/
theorem Representable.encodeKv_eq {pairs : List (String × String)} (h : Representable pairs) :
    encodeKv (pairs.map Host.kvOf) = some (kvLayout (pairs.map Host.kvOf)) ∧
      Host.decodeKv (kvLayout (pairs.map Host.kvOf)) = .ok pairs.reverse := by
  have hcount : (pairs.map Host.kvOf).length ≤ maxKv := by
    rw [List.length_map]
    exact h.count
  have hfits : ∀ item ∈ pairs.map Host.kvOf, item.Fits ∧ item.kept = item := by
    intro item hitem
    obtain ⟨pair, hpair, rfl⟩ := List.mem_map.mp hitem
    obtain ⟨hk, hv⟩ := h.length_le pair hpair
    obtain ⟨hknul, hvnul⟩ := h.noNul pair hpair
    exact ⟨⟨Nat.lt_succ_of_le hk, Nat.lt_succ_of_le hv⟩,
      Kv.kept_eq_self ⟨hknul, Nat.lt_succ_of_le hk⟩ ⟨hvnul, Nat.lt_succ_of_le hv⟩⟩
  constructor
  · rw [encodeKv_eq_kvLayout_kept hcount,
      List.map_congr_left fun item hitem => (hfits item hitem).2,
      List.map_id']
  · rw [Host.decodeKv_kvLayout (fun item hitem => (hfits item hitem).1) hcount]
    exact Host.assignItems_eq_ok_iff.mpr ⟨pairs, rfl, (List.append_nil _).symm⟩

/-- A handler that has confirmed its operation or sent an error. Its confirmation is one of
the few there are. -/
def RepliesConfirmed (os : Os σ) (reqId : UInt32) (dev : Device σ) (r : Bool × Device σ) : Prop :=
  ∃ dev', dev.SameIo dev' ∧ ((∃ msg, r = sendError os reqId msg dev') ∨
    ∃ pairs ∈ confirmations, r = sendKvResponse os .status reqId (pairs.map Host.kvOf) dev')

section Confirmed

variable (os : Os σ) (shell : ExecShell σ) {frame : Frame} {dev : Device σ}

private theorem repliesConfirmed_sendError (reqId : UInt32) (msg : Bytes) {dev' : Device σ}
    (h : dev.SameIo dev') : RepliesConfirmed os reqId dev (sendError os reqId msg dev') :=
  ⟨dev', h, .inl ⟨msg, rfl⟩⟩

private theorem repliesConfirmed_confirm (reqId : UInt32) (pre : Bytes) {r : Option Unit × Device σ}
    (h : dev.SameIo r.2) : RepliesConfirmed os reqId dev (confirm os reqId pre r) := by
  obtain ⟨_ | _, dev'⟩ := r
  · exact repliesConfirmed_sendError os reqId _ h
  · exact ⟨dev', h, .inr ⟨_, List.mem_cons_self, rfl⟩⟩

private theorem handleFilePutBegin_repliesConfirmed :
    RepliesConfirmed os frame.header.requestId dev (handleFilePutBegin os frame dev) := by
  rw [handleFilePutBegin]
  rcases decodeKv frame.payload maxKv with _ | kvs
  · exact repliesConfirmed_sendError os _ _ (.refl dev)
  dsimp only
  rcases kvGet kvs (utf8 "path") with _ | path
  · exact repliesConfirmed_sendError os _ _ (.refl dev)
  dsimp only
  have hsame := dev.op_sameIo (fileBeginUpload os frame.header.requestId path
    (kvGet kvs (utf8 "desire_storage")) (kvGet kvs (utf8 "perm")))
  rcases hop : dev.op (fileBeginUpload os frame.header.requestId path
    (kvGet kvs (utf8 "desire_storage")) (kvGet kvs (utf8 "perm"))) with ⟨_ | _, dev'⟩
  · rw [hop] at hsame
    exact repliesConfirmed_sendError os _ _ hsame
  · rw [hop] at hsame
    exact ⟨dev', hsame, .inr ⟨_, List.mem_cons_of_mem _ List.mem_cons_self, rfl⟩⟩

/-- The frames that are answered with a confirmation or an error. Which of the two it is
depends on the operation, and is told by the store. -/
theorem handleFrame_repliesConfirmed {type : MsgType}
    (htype : MsgType.ofCode frame.header.type = some type)
    (h : type ∈ confirmedTypes) :
    RepliesConfirmed os frame.header.requestId dev (handleFrame os shell frame dev) := by
  rw [handleFrame, htype]
  simp only [confirmedTypes, List.mem_cons, List.not_mem_nil, or_false] at h
  obtain rfl | rfl | rfl | rfl | rfl | rfl := h
  · exact ⟨dev, .refl dev, .inr ⟨_, List.mem_cons_of_mem _ (List.mem_cons_of_mem _
      List.mem_cons_self), rfl⟩⟩
  · exact handleFilePutBegin_repliesConfirmed os
  · exact repliesConfirmed_confirm os _ _ (dev.op_sameIo _)
  · exact repliesConfirmed_confirm os _ _ (dev.op_sameIo _)
  · dsimp only
    rw [handleFileDelete]
    rcases decodeKv frame.payload maxKv with _ | kvs
    · exact repliesConfirmed_sendError os _ _ (.refl dev)
    · exact repliesConfirmed_confirm os _ _ (dev.opWith_sameIo _ _)
  · dsimp only
    rw [handleFileRename]
    rcases decodeKv frame.payload maxKv with _ | kvs
    · exact repliesConfirmed_sendError os _ _ (.refl dev)
    dsimp only
    rcases kvGet kvs (utf8 "from") with _ | path
    · exact repliesConfirmed_sendError os _ _ (.refl dev)
    · exact repliesConfirmed_confirm os _ _ (dev.opWith_sameIo _ _)

end Confirmed

namespace Host

/-! ### Receiving an answer -/

/-- An error response raises an exception. -/
private theorem exists_checkResponse_error (expected : ℕ) (unexpected expectedName : String)
    {reqId : ℕ} {fr : Frame} (hid : fr.requestId = reqId) (htype : fr.type = 3) :
    ∃ e, checkResponse expected unexpected expectedName reqId fr = .error e := by
  rw [checkResponse, if_neg (not_not.mpr hid), if_pos htype]
  rcases decodeKv fr.payload with e | kv
  · exact ⟨e, rfl⟩
  · exact ⟨_, rfl⟩

theorem ClientOp.exists_receive_error (op : ClientOp) {reqId : ℕ} {fr : Frame}
    (hid : fr.requestId = reqId) (htype : fr.type = 3) : ∃ e, op.receive reqId fr = .error e := by
  have hcheck : ∀ {α : Type} (expected : ℕ) (unexpected expectedName : String)
      (k : Bytes → Except ClientError α),
      ∃ e, (checkResponse expected unexpected expectedName reqId fr >>= k) = .error e := by
    intro α expected unexpected expectedName k
    obtain ⟨e, he⟩ := exists_checkResponse_error expected unexpected expectedName hid htype
    exact ⟨e, by rw [he]; rfl⟩
  have hexpect : ∃ e, (expectKv reqId fr).map ClientValue.items = .error e := by
    obtain ⟨e, he⟩ := hcheck 2 "意外消息类型 " "STATUS" decodeKv
    exact ⟨e, by rw [expectKv, he]; rfl⟩
  cases op with
  | fileGet remotePath =>
    obtain ⟨e, he⟩ := exists_checkResponse_error 13 "意外类型 " "FILE_GET" hid htype
    exact ⟨e, by rw [receive, he]; rfl⟩
  | devinfo =>
    obtain ⟨e, he⟩ := exists_checkResponse_error 30 "意外类型 " "DEVINFO" hid htype
    exact ⟨e, by rw [receive, he]; rfl⟩
  | commandExec command timeoutMs maxStdout maxStderr =>
    obtain ⟨e, he⟩ := exists_checkResponse_error 21 "意外类型 " "COMMAND_RESULT" hid htype
    exact ⟨e, by rw [receive, expectCommandResult, he]; rfl⟩
  | hello => exact hexpect
  | filePut put => exact hexpect
  | fileList path => exact hexpect
  | fileStat path => exact hexpect
  | fileDelete remotePath desireStorage => exact hexpect
  | fileRename src dst desireStorage => exact hexpect
  | dirMkdir path parents desireStorage => exact hexpect

/-- A confirmation is read as its items. -/
theorem expectKv_confirmation {pairs : List (String × String)} (h : pairs ∈ confirmations)
    {reqId : UInt32} {payload : Bytes}
    (hpayload : UsbResponder.encodeKv (pairs.map kvOf) = some payload) :
    expectKv reqId.toNat (Frame.ofDevice (responseFrame .status reqId payload)) =
      .ok pairs.reverse := by
  obtain ⟨hencode, hdecode⟩ := (representable_of_mem_confirmations h).encodeKv_eq
  obtain rfl := Option.some.inj (hpayload.symm.trans hencode)
  have hid : (Frame.ofDevice (responseFrame .status reqId
      (kvLayout (pairs.map kvOf)))).requestId = reqId.toNat := rfl
  have htype : (Frame.ofDevice (responseFrame .status reqId
      (kvLayout (pairs.map kvOf)))).type = 2 := rfl
  have hcheck : checkResponse 2 "意外消息类型 " "STATUS" reqId.toNat
      (Frame.ofDevice (responseFrame .status reqId (kvLayout (pairs.map kvOf)))) =
        .ok (kvLayout (pairs.map kvOf)) := by
    rw [checkResponse, if_neg (not_not.mpr hid), if_neg (by omega), if_neg (not_not.mpr htype)]
    rfl
  rw [expectKv, hcheck]
  exact hdecode

/-! ### What operations ask for -/

/-- The operations on files. A greeting is among them, as it asks for nothing. -/
def ClientOp.IsFileOp : ClientOp → Prop
  | .hello => True
  | .filePut _ => True
  | .fileGet _ => True
  | .fileDelete _ _ => True
  | .fileRename _ _ _ => True
  | _ => False

/-- The types of the frames of an operation on files: one, but for an upload. -/
def ClientOp.frameTypes : ClientOp → List MsgType
  | .hello => [.hello]
  | .filePut _ => [.filePutBegin, .filePutChunk, .filePutEnd]
  | .fileGet _ => [.fileGet]
  | .fileDelete _ _ => [.fileDelete]
  | .fileRename _ _ _ => [.fileRename]
  | _ => []

/-- The items of the first frame of an operation on files, as the client puts them together. -/
def ClientOp.items : ClientOp → List (String × String)
  | .filePut put => put.items
  | .fileGet remotePath => [("path", remotePath)]
  | .fileDelete remotePath desireStorage =>
    ("path", remotePath) :: optionalItem "desire_storage" desireStorage
  | .fileRename src dst desireStorage =>
    ("from", src) :: ("to", dst) :: optionalItem "desire_storage" desireStorage
  | _ => []

/-- The pieces of a local file are not empty and fit into a frame, behind a transfer id. -/
def ClientOp.ChunksFit : ClientOp → Prop
  | .filePut put => 0 < put.chunkSize ∧ 4 + put.chunkSize ≤ maxPayload
  | _ => True

/-- No frame of the operation has a length that is a multiple of 16 KiB, so the last read of
each is a short one. For operations with short arguments this is always so
(`ClientOp.framesPass_of_lt`). -/
def ClientOp.FramesPass (op : ClientOp) : Prop :=
  ∀ req id frames, op.start req = (id, .ok frames) →
    ∀ g ∈ frames, ¬ioChunk ∣ headerSize + g.payload.length

section Asks

variable (ulongMax : ℕ) (mount : Option (List Bytes))

/-- What an operation on files asks for, with the paths that the device builds. A path that
the device refuses asks for nothing. -/
def ClientOp.asks : ClientOp → Command Bytes UInt8
  | .hello => .ping
  | .filePut put =>
    match uploadTarget? ulongMax mount (cStr (utf8 put.remotePath)) (seenValue put.desireStorage)
        (seenValue put.perm) with
    | none => .reject
    | some target => .put target.path put.content
  | .fileGet remotePath =>
    match buildPath (cStr (utf8 remotePath)) pathMaxLen with
    | (_, .error _) => .reject
    | (path, .ok _) => .get path
  | .fileDelete remotePath desireStorage =>
    match changeTarget? mount (cStr (utf8 remotePath)) (seenValue desireStorage) with
    | none => .reject
    | some (path, _) => .remove path
  | .fileRename src dst desireStorage =>
    match changeTarget? mount (cStr (utf8 src)) (seenValue desireStorage),
      changeTarget? mount (cStr (utf8 dst)) (seenValue desireStorage) with
    | some (fromPath, fromStorage), some (toPath, toStorage) =>
      if fromStorage = toStorage then .move fromPath toPath else .reject
    | _, _ => .reject
  | _ => .reject

open Classical in
/-- What an operation on files does: what it asks for, if its items can be encoded.
Otherwise nothing is sent. -/
noncomputable def ClientOp.command (op : ClientOp) : Command Bytes UInt8 :=
  if ∀ item ∈ op.items.map kvOf, item.Fits then op.asks ulongMax mount else .reject

end Asks

/-! ### The frames of an operation -/

/-- What holds of every frame of an operation on files: its type is one of the operation,
its fields fit, and its payload is not above the limit. -/
structure FrameFits (op : ClientOp) (id : ℕ) (g : Frame) : Prop where
  id_lt : id < 2 ^ 32
  requestId : g.requestId = id
  type : ∃ type ∈ op.frameTypes, g.type = type.code.toNat
  flags : g.flags = 0
  length_le : g.payload.length ≤ maxPayload

section Fits

variable {op : ClientOp} {id : ℕ} {g : Frame} (h : FrameFits op id g)

include h

theorem FrameFits.encode : g.encode = .ok g.raw := by
  obtain ⟨type, -, htype⟩ := h.type
  have hlen := h.length_le
  rw [maxPayload] at hlen
  refine Frame.encode_eq_ok_iff.mpr ⟨?_, ?_, ?_, by omega, rfl⟩
  · rw [htype]
    exact UInt16.toNat_lt _
  · rw [h.flags]
    norm_num
  · rw [h.requestId]
    exact h.id_lt

theorem FrameFits.toDevice_requestId : g.toDevice.header.requestId = UInt32.ofNat id := by
  rw [← h.requestId]
  rfl

theorem FrameFits.ofCode_toDevice :
    ∃ type ∈ op.frameTypes, MsgType.ofCode g.toDevice.header.type = some type := by
  obtain ⟨type, hmem, htype⟩ := h.type
  refine ⟨type, hmem, MsgType.ofCode_eq_some_iff.mpr ?_⟩
  show type.code = UInt16.ofNat g.type
  rw [htype, UInt16.ofNat_toNat]

end Fits

/-- At most three items of at most 64 KiB each are far from the limit of a frame. -/
theorem length_kvLayout_le_maxPayload {items : List Kv} (hfits : ∀ item ∈ items, item.Fits)
    (hcount : items.length ≤ 3) : (kvLayout items).length ≤ maxPayload := by
  have hbound := length_kvLayout_le hfits
  rw [maxPayload]
  omega

theorem length_optionalItem_le (key : String) (value : Option String) :
    (optionalItem key value).length ≤ 1 := by
  cases value with
  | none => exact Nat.zero_le 1
  | some value =>
    rw [optionalItem]
    split_ifs
    · exact Nat.zero_le 1
    · exact le_rfl

theorem ClientOp.length_items_le (op : ClientOp) : op.items.length ≤ 3 := by
  cases op with
  | filePut put =>
    have hdesireCount := length_optionalItem_le "desire_storage" put.desireStorage
    have hpermCount := length_optionalItem_le "perm" put.perm
    rw [items, FilePut.items, List.length_cons, List.length_append]
    omega
  | fileDelete path desireStorage =>
    have hcount := length_optionalItem_le "desire_storage" desireStorage
    rw [items, List.length_cons]
    omega
  | fileRename src dst desireStorage =>
    have hcount := length_optionalItem_le "desire_storage" desireStorage
    rw [items, List.length_cons, List.length_cons]
    omega
  | _ => simp [items]

theorem kvGet_desireStorage (value : Option String) :
    kvGet ((optionalItem "desire_storage" value).map kvOf) (utf8 "desire_storage") =
      seenValue value := by
  have hself := kvGet_optionalItem_self "desire_storage" value []
  rw [List.append_nil] at hself
  rw [hself]
  exact Option.or_none

/-- An operation of one frame. Its items were encoded, so they fit the format. -/
theorem oneFrame_eq_ok {req type id : ℕ} {items : List (String × String)} {frames : List Frame}
    (h : oneFrame req type (encodeKv items) = (id, .ok frames)) :
    id = nextId req ∧ (∀ item ∈ items.map kvOf, item.Fits) ∧
      frames = [⟨type, id, 0, kvLayout (items.map kvOf)⟩] := by
  rcases hpayload : encodeKv items with e | payload
  · simp [oneFrame, hpayload] at h
  · rw [hpayload] at h
    obtain ⟨hfits, rfl⟩ := encodeKv_eq_ok hpayload
    obtain ⟨rfl, hframes⟩ := Prod.mk.inj h
    exact ⟨rfl, hfits, (Except.ok.inj hframes).symm⟩

/-- An operation of more than one frame expects confirmations. So only the last response of
an operation can carry a file. -/
theorem ClientOp.single_or_confirmed (op : ClientOp) {req id : ℕ} {frames : List Frame}
    (h : op.start req = (id, .ok frames)) :
    frames.length ≤ 1 ∨ ∀ type ∈ op.frameTypes, type ∈ confirmedTypes := by
  cases op with
  | fileGet path =>
    obtain ⟨-, -, rfl⟩ := oneFrame_eq_ok h
    exact .inl le_rfl
  | hello => exact .inr (by decide)
  | filePut put =>
    have hsub : ∀ type ∈ [MsgType.filePutBegin, .filePutChunk, .filePutEnd],
        type ∈ confirmedTypes := by decide
    exact .inr hsub
  | fileDelete path desireStorage => exact .inr (List.forall_mem_singleton.mpr (by decide))
  | fileRename src dst desireStorage => exact .inr (List.forall_mem_singleton.mpr (by decide))
  | fileList path => exact .inr (List.forall_mem_nil _)
  | fileStat path => exact .inr (List.forall_mem_nil _)
  | dirMkdir path parents desireStorage => exact .inr (List.forall_mem_nil _)
  | devinfo => exact .inr (List.forall_mem_nil _)
  | commandExec command timeoutMs maxStdout maxStderr => exact .inr (List.forall_mem_nil _)

private theorem frameFits_singleton {op : ClientOp} {code : ℕ}
    (htype : ∃ type ∈ op.frameTypes, code = type.code.toNat) {req : ℕ} {payload : Bytes}
    (hlen : payload.length ≤ maxPayload) :
    ∀ g ∈ [Frame.mk code (nextId req) 0 payload], FrameFits op (nextId req) g := by
  intro g hg
  obtain rfl := List.mem_singleton.mp hg
  exact ⟨nextId_lt req, rfl, htype, rfl, hlen⟩

section Requests

variable {ulongMax : ℕ} {mount : Option (List Bytes)}

/-- The request of a frame with items. -/
private theorem itemsRequest_toDevice {type id : ℕ} {items : List (String × String)}
    (hfits : ∀ item ∈ items.map kvOf, item.Fits) (hcount : items.length ≤ 3)
    (request : List Kv → Option FileRequest) :
    itemsRequest (Frame.mk type id 0 (kvLayout (items.map kvOf))).toDevice request =
      (request (items.map kvOf)).getD .skip := by
  have hdecode : UsbResponder.decodeKv (kvLayout (items.map kvOf)) maxKv =
      some (items.map kvOf) :=
    UsbResponder.decodeKv_kvLayout hfits (by rw [List.length_map, maxKv]; omega)
  show ((UsbResponder.decodeKv (kvLayout (items.map kvOf)) maxKv).bind request).getD .skip = _
  rw [hdecode, Option.bind_some]

private theorem asks_fileGet (id : UInt32) (path : String) :
    Command.Asks id ((ClientOp.fileGet path).asks ulongMax mount)
      [((getRequest ([("path", path)].map kvOf)).getD .skip : FileRequest)] := by
  have hget : kvGet ([("path", path)].map kvOf) (utf8 "path") = some (cStr (utf8 path)) := by
    rw [List.map_singleton, kvGet_cons, kvOf_key, if_pos rfl, kvOf_value]
  rw [getRequest, hget, ClientOp.asks, Option.map_some, Option.getD_some, pathRequest]
  rcases buildPath (cStr (utf8 path)) pathMaxLen with ⟨built, e | storage⟩
  · exact .skip
  · exact .get built

private theorem asks_fileDelete (id : UInt32) (path : String) (desireStorage : Option String) :
    Command.Asks id ((ClientOp.fileDelete path desireStorage).asks ulongMax mount)
      [((removeRequest mount ((("path", path) ::
        optionalItem "desire_storage" desireStorage).map kvOf)).getD .skip : FileRequest)] := by
  obtain ⟨kvs, hkvs⟩ : ∃ kvs, kvs =
      (("path", path) :: optionalItem "desire_storage" desireStorage).map kvOf := ⟨_, rfl⟩
  have hpath : kvGet kvs (utf8 "path") = some (cStr (utf8 path)) := by
    rw [hkvs, List.map_cons, kvGet_cons, kvOf_key, if_pos rfl, kvOf_value]
  have hdesire : kvGet kvs (utf8 "desire_storage") = seenValue desireStorage := by
    rw [hkvs, List.map_cons, kvGet_cons, kvOf_key,
      if_neg (show cStr (utf8 "path") ≠ cStr (utf8 "desire_storage") by decide),
      kvGet_desireStorage]
  rw [← hkvs, removeRequest, hpath, Option.map_some, Option.getD_some, hdesire, ClientOp.asks,
    deleteRequest]
  rcases changeTarget? mount (cStr (utf8 path)) (seenValue desireStorage) with _ | ⟨built, storage⟩
  · exact .skip
  · exact .remove built

private theorem asks_fileRename (id : UInt32) (src dst : String) (desireStorage : Option String) :
    Command.Asks id ((ClientOp.fileRename src dst desireStorage).asks ulongMax mount)
      [((moveRequest mount ((("from", src) :: ("to", dst) ::
        optionalItem "desire_storage" desireStorage).map kvOf)).getD .skip : FileRequest)] := by
  obtain ⟨kvs, hkvs⟩ : ∃ kvs, kvs = (("from", src) :: ("to", dst) ::
      optionalItem "desire_storage" desireStorage).map kvOf := ⟨_, rfl⟩
  have hfrom : kvGet kvs (utf8 "from") = some (cStr (utf8 src)) := by
    rw [hkvs, List.map_cons, kvGet_cons, kvOf_key, if_pos rfl, kvOf_value]
  have hto : kvGet kvs (utf8 "to") = some (cStr (utf8 dst)) := by
    rw [hkvs, List.map_cons, List.map_cons, kvGet_cons, kvOf_key,
      if_neg (show cStr (utf8 "from") ≠ cStr (utf8 "to") by decide), kvGet_cons, kvOf_key,
      if_pos rfl, kvOf_value]
  have hdesire : kvGet kvs (utf8 "desire_storage") = seenValue desireStorage := by
    rw [hkvs, List.map_cons, List.map_cons, kvGet_cons, kvOf_key,
      if_neg (show cStr (utf8 "from") ≠ cStr (utf8 "desire_storage") by decide), kvGet_cons,
      kvOf_key, if_neg (show cStr (utf8 "to") ≠ cStr (utf8 "desire_storage") by decide),
      kvGet_desireStorage]
  rw [← hkvs, moveRequest, hfrom, Option.bind_some, hto, Option.map_some, Option.getD_some, hdesire,
    ClientOp.asks, renameRequest]
  rcases changeTarget? mount (cStr (utf8 src)) (seenValue desireStorage) with
    _ | ⟨fromPath, fromStorage⟩
  · exact .skip
  rcases changeTarget? mount (cStr (utf8 dst)) (seenValue desireStorage) with
    _ | ⟨toPath, toStorage⟩
  · exact .skip
  dsimp only
  split_ifs
  · exact .move fromPath toPath
  · exact .skip

/-- A chunk asks to add its piece. The piece is behind the transfer id, so what the piece
starts with makes no difference. -/
private theorem storeRequest_chunk {id : ℕ} (hid : id < 2 ^ 32) (piece : Bytes) :
    storeRequest ulongMax mount (Frame.mk 11 id 0 (leBytes 4 id ++ piece)).toDevice =
      .add (UInt32.ofNat id) piece := by
  obtain ⟨g, hg⟩ : ∃ g, g = (Frame.mk 11 id 0 (leBytes 4 id ++ piece)).toDevice := ⟨_, rfl⟩
  have htype : MsgType.ofCode g.header.type = some .filePutChunk := by
    rw [hg]
    rfl
  have hpayload : g.payload = leBytes 4 id ++ piece := by
    rw [hg]
    rfl
  have hlong : 4 ≤ g.payload.length := by
    rw [hpayload, List.length_append, length_leBytes]
    omega
  rw [← hg, storeRequest, htype]
  dsimp only
  rw [transferId, chunkData, if_pos hlong, if_pos hlong, hpayload, readLe32_leBytes_append hid,
    List.drop_left' (length_leBytes 4 id)]

private theorem storeRequest_end {id : ℕ} (hid : id < 2 ^ 32) :
    storeRequest ulongMax mount (Frame.mk 12 id 0 (leBytes 4 id)).toDevice =
      .commit (UInt32.ofNat id) := by
  obtain ⟨g, hg⟩ : ∃ g, g = (Frame.mk 12 id 0 (leBytes 4 id)).toDevice := ⟨_, rfl⟩
  have htype : MsgType.ofCode g.header.type = some .filePutEnd := by
    rw [hg]
    rfl
  have hpayload : g.payload = leBytes 4 id := by
    rw [hg]
    rfl
  have hread := readLe32_leBytes_append hid []
  rw [List.append_nil] at hread
  rw [← hg, storeRequest, htype]
  dsimp only
  rw [transferId, hpayload, if_pos (length_leBytes 4 id).ge, hread]

/-- The begin, the pieces and the end of an upload. -/
private theorem asks_filePut {put : FilePut} {frames : List Frame} (hput : put.frames = .ok frames)
    (hchunk : 0 < put.chunkSize) :
    Command.Asks (UInt32.ofNat put.requestId) ((ClientOp.filePut put).asks ulongMax mount)
      (frames.map fun g => storeRequest ulongMax mount g.toDevice) := by
  obtain ⟨hid, hfits, rfl⟩ := FilePut.frames_eq_ok hput
  obtain ⟨hpath, hdesire, hperm⟩ := put.kvGet_items
  have hcount : put.items.length ≤ 3 := (ClientOp.filePut put).length_items_le
  have hbegin : storeRequest ulongMax mount (Frame.mk 10 put.requestId 0
      (kvLayout (put.items.map kvOf))).toDevice =
        beginRequest ulongMax mount (UInt32.ofNat put.requestId) (cStr (utf8 put.remotePath))
          (seenValue put.desireStorage) (seenValue put.perm) := by
    have htype : storeRequest ulongMax mount (Frame.mk 10 put.requestId 0
        (kvLayout (put.items.map kvOf))).toDevice =
          itemsRequest (Frame.mk 10 put.requestId 0 (kvLayout (put.items.map kvOf))).toDevice
            (putRequest ulongMax mount (UInt32.ofNat put.requestId)) := rfl
    rw [htype, itemsRequest_toDevice hfits hcount, putRequest, hpath, hdesire, hperm,
      Option.map_some, Option.getD_some]
  have hrest : (put.pieces.map (fun piece =>
      Frame.mk 11 put.requestId 0 (leBytes 4 put.requestId ++ piece)) ++
        [Frame.mk 12 put.requestId 0 (leBytes 4 put.requestId)]).map
          (fun g => storeRequest ulongMax mount g.toDevice) =
        put.pieces.map (.add (UInt32.ofNat put.requestId)) ++
          [.commit (UInt32.ofNat put.requestId)] := by
    rw [List.map_append, List.map_map, List.map_singleton, storeRequest_end hid]
    congr 1
    refine List.map_congr_left fun piece _ => ?_
    exact @storeRequest_chunk ulongMax mount put.requestId hid piece
  rw [List.map_cons, hrest, hbegin, beginRequest, ClientOp.asks]
  rcases uploadTarget? ulongMax mount (cStr (utf8 put.remotePath)) (seenValue put.desireStorage)
    (seenValue put.perm) with _ | target
  · exact .cancel _
  · have hcontent : put.pieces.flatten = put.content := flatten_readPieces hchunk le_rfl
    dsimp only
    rw [← hcontent]
    exact .put target.path fun piece hpiece => (mem_readPieces hpiece).1

/-- **The frames of an operation** on files ask for what the operation asks for. -/
theorem ClientOp.asks_of_start {op : ClientOp} (hop : op.IsFileOp) (hchunks : op.ChunksFit)
    {req id : ℕ} {frames : List Frame} (h : op.start req = (id, .ok frames)) :
    (∀ item ∈ op.items.map kvOf, item.Fits) ∧ (∀ g ∈ frames, FrameFits op id g) ∧
      Command.Asks (UInt32.ofNat id) (op.asks ulongMax mount)
        (frames.map fun g => storeRequest ulongMax mount g.toDevice) := by
  cases op with
  | hello =>
    obtain ⟨rfl, hframes⟩ := Prod.mk.inj h
    obtain rfl := Except.ok.inj hframes
    exact ⟨by simp [items], frameFits_singleton ⟨.hello, List.mem_cons_self, rfl⟩ (Nat.zero_le _),
      .ping⟩
  | filePut put =>
    obtain ⟨rfl, hput⟩ := Prod.mk.inj h
    obtain ⟨hid, hfits, hframes⟩ := FilePut.frames_eq_ok hput
    obtain ⟨hpos, hmax⟩ := hchunks
    refine ⟨hfits, fun g hg => ?_, asks_filePut hput hpos⟩
    rw [hframes, List.mem_cons, List.mem_append, List.mem_map, List.mem_singleton] at hg
    obtain rfl | ⟨piece, hpiece, rfl⟩ | rfl := hg
    · refine ⟨hid, rfl, ⟨.filePutBegin, by simp [frameTypes], rfl⟩, rfl,
        length_kvLayout_le_maxPayload hfits ?_⟩
      rw [List.length_map]
      exact (ClientOp.filePut put).length_items_le
    · refine ⟨hid, rfl, ⟨.filePutChunk, by simp [frameTypes], rfl⟩, rfl, ?_⟩
      have hle := (mem_readPieces hpiece).2
      dsimp only at hle ⊢
      rw [List.length_append, length_leBytes]
      omega
    · refine ⟨hid, rfl, ⟨.filePutEnd, by simp [frameTypes], rfl⟩, rfl, ?_⟩
      dsimp only
      rw [length_leBytes, maxPayload]
      omega
  | fileGet path =>
    obtain ⟨rfl, hfits, rfl⟩ := oneFrame_eq_ok h
    refine ⟨hfits, frameFits_singleton ⟨.fileGet, List.mem_cons_self, rfl⟩
      (length_kvLayout_le_maxPayload hfits (by simp)), ?_⟩
    show Command.Asks _ _ [itemsRequest (Frame.mk 13 (nextId req) 0 _).toDevice getRequest]
    rw [itemsRequest_toDevice hfits (by simp)]
    exact asks_fileGet (UInt32.ofNat (nextId req)) path
  | fileDelete path desireStorage =>
    obtain ⟨rfl, hfits, rfl⟩ := oneFrame_eq_ok h
    have hlen := (ClientOp.fileDelete path desireStorage).length_items_le
    refine ⟨hfits, frameFits_singleton ⟨.fileDelete, List.mem_cons_self, rfl⟩
      (length_kvLayout_le_maxPayload hfits (by rwa [List.length_map])), ?_⟩
    show Command.Asks _ _
      [itemsRequest (Frame.mk 15 (nextId req) 0 _).toDevice (removeRequest mount)]
    rw [itemsRequest_toDevice hfits hlen]
    exact asks_fileDelete (UInt32.ofNat (nextId req)) path desireStorage
  | fileRename src dst desireStorage =>
    obtain ⟨rfl, hfits, rfl⟩ := oneFrame_eq_ok h
    have hlen := (ClientOp.fileRename src dst desireStorage).length_items_le
    refine ⟨hfits, frameFits_singleton ⟨.fileRename, List.mem_cons_self, rfl⟩
      (length_kvLayout_le_maxPayload hfits (by rwa [List.length_map])), ?_⟩
    show Command.Asks _ _ [itemsRequest (Frame.mk 16 (nextId req) 0 _).toDevice (moveRequest mount)]
    rw [itemsRequest_toDevice hfits hlen]
    exact asks_fileRename (UInt32.ofNat (nextId req)) src dst desireStorage
  | fileList path => exact hop.elim
  | fileStat path => exact hop.elim
  | dirMkdir path parents desireStorage => exact hop.elim
  | devinfo => exact hop.elim
  | commandExec command timeoutMs maxStdout maxStderr => exact hop.elim

end Requests

end Host

end UsbResponder
