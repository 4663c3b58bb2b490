import UsbResponder.Host.Codec

/-!
# The client's upload

`file_put` of `client.py`: a begin with the items of the upload, one chunk for each piece
read from the local file, and an end. Each chunk and the end start with the request id in
four bytes. The client sends each frame when the one before has been answered with `STATUS`.

The frames are computed here, and what the device reads of their items; what it does with
them is in `Responder.InterleavedPuts` and `Host.FileCommands`. The local file is its
content, read in pieces of the chunk size, the last of which may be shorter. Both facts
about the pieces that later modules need, that together they are the file and that none is
empty or too long, are by induction on what is left to read. A local file that changes while
it is read is not modelled, nor is the progress report.
-/

namespace UsbResponder.Host

open LittleEndian CString

/-- `struct_pack_u32`, by which the transfer id gets in front of a chunk. -/
def structPackU32 (v : ℕ) : Except PyError Bytes :=
  if v < 2 ^ 32 then .ok (leBytes 4 v) else .error .overflowError

/-- The pieces the loop of `file_put` reads from a file. Every round that goes on reads a
byte, so `fuel` from the length on is never used up. An empty file has no pieces. -/
def readPieces (chunkSize : ℕ) : ℕ → Bytes → List Bytes
  | 0, _ => []
  | fuel + 1, data =>
    let piece := data.take chunkSize
    if piece = [] then [] else piece :: readPieces chunkSize fuel (data.drop chunkSize)

/-- A call of `file_put`: its arguments, its request id and the contents of the local file. -/
structure FilePut where
  requestId : ℕ
  remotePath : String
  chunkSize : ℕ
  desireStorage : Option String
  perm : Option String
  content : Bytes

/-- An item that is sent when its value is neither `None` nor empty, so an empty value is as
good as none. -/
def optionalItem (key : String) : Option String → List (String × String)
  | none => []
  | some value => if value = "" then [] else [(key, value)]

/-- The items of the begin. The path comes first, and the other two only when they are
given. -/
def FilePut.items (put : FilePut) : List (String × String) :=
  ("path", put.remotePath) ::
    (optionalItem "desire_storage" put.desireStorage ++ optionalItem "perm" put.perm)

/-- The pieces of the local file, each as long as the chunk size but for the last. -/
def FilePut.pieces (put : FilePut) : List Bytes :=
  readPieces put.chunkSize put.content.length put.content

/-- The frames `file_put` sends: a begin, a chunk for every piece, and an end. All have one
request id. -/
def FilePut.frames (put : FilePut) : Except PyError (List Frame) := do
  let payload ← encodeKv put.items
  let rid ← structPackU32 put.requestId
  return { type := 10, requestId := put.requestId, payload := payload } ::
    (put.pieces.map (fun piece =>
        { type := 11, requestId := put.requestId, payload := rid ++ piece }) ++
      [{ type := 12, requestId := put.requestId, payload := rid }])

/-! ### The pieces -/

variable {chunkSize fuel : ℕ} {data : Bytes}

/-- Together the pieces are the file. This is what a device that joins them ends up with. -/
theorem flatten_readPieces (hpos : 0 < chunkSize) (hfuel : data.length ≤ fuel) :
    (readPieces chunkSize fuel data).flatten = data := by
  induction fuel generalizing data with
  | zero =>
    obtain rfl := List.length_eq_zero_iff.mp (Nat.le_zero.mp hfuel)
    rfl
  | succ fuel ih =>
    rw [readPieces]
    split_ifs with hempty
    · obtain hzero | rfl := List.take_eq_nil_iff.mp hempty
      · omega
      · rfl
    · rw [List.flatten_cons, ih (by rw [List.length_drop]; omega), List.take_append_drop]

/-- No piece is empty, and none is longer than the chunk size. -/
theorem mem_readPieces {piece : Bytes} (h : piece ∈ readPieces chunkSize fuel data) :
    piece ≠ [] ∧ piece.length ≤ chunkSize := by
  induction fuel generalizing data with
  | zero => simp [readPieces] at h
  | succ fuel ih =>
    rw [readPieces] at h
    split_ifs at h with hempty
    · simp at h
    · obtain rfl | h := List.mem_cons.mp h
      · exact ⟨hempty, by rw [List.length_take]; exact min_le_left _ _⟩
      · exact ih h

/-- The frames of an upload that raises no exception. -/
theorem FilePut.frames_eq_ok {put : FilePut} {frames : List Frame} (h : put.frames = .ok frames) :
    put.requestId < 2 ^ 32 ∧ (∀ item ∈ put.items.map kvOf, item.Fits) ∧
      frames = { type := 10, requestId := put.requestId
                 payload := kvLayout (put.items.map kvOf) } ::
        (put.pieces.map (fun piece =>
            { type := 11, requestId := put.requestId
              payload := leBytes 4 put.requestId ++ piece }) ++
          [{ type := 12, requestId := put.requestId, payload := leBytes 4 put.requestId }]) := by
  rw [FilePut.frames] at h
  simp only [bind_eq_ok_iff] at h
  obtain ⟨payload, hpayload, rid, hrid, hframes⟩ := h
  obtain ⟨hfits, rfl⟩ := encodeKv_eq_ok hpayload
  rw [structPackU32] at hrid
  split_ifs at hrid with hlt
  obtain rfl := Except.ok.inj hrid
  exact ⟨hlt, hfits, (Except.ok.inj hframes).symm⟩

/-! ### The items, as the device reads them -/

/-- What the device reads of a value that may be left out. A NUL in the value ends what it
reads. -/
def seenValue (value : Option String) : Option Bytes :=
  value.bind fun v => if v = "" then none else some (cStr (utf8 v))

theorem kvGet_optionalItem_self (key : String) (value : Option String) (rest : List Kv) :
    kvGet ((optionalItem key value).map kvOf ++ rest) (utf8 key) =
      (seenValue value).or (kvGet rest (utf8 key)) := by
  cases value with
  | none => rfl
  | some value =>
    rw [optionalItem, seenValue, Option.bind_some]
    split_ifs
    · rfl
    · rw [List.map_singleton, List.singleton_append, kvGet_cons, kvOf_key, if_pos rfl, kvOf_value,
        Option.some_or]

private theorem kvGet_optionalItem_of_ne (key : String) (key' : Bytes)
    (h : cStr (utf8 key) ≠ cStr key') (value : Option String) (rest : List Kv) :
    kvGet ((optionalItem key value).map kvOf ++ rest) key' = kvGet rest key' := by
  cases value with
  | none => rfl
  | some value =>
    rw [optionalItem]
    split_ifs
    · rfl
    · rw [List.map_singleton, List.singleton_append, kvGet_cons, kvOf_key, if_neg h]

/-- The device reads the three items of a begin as the client has written them, up to a NUL. -/
theorem FilePut.kvGet_items (put : FilePut) :
    kvGet (put.items.map kvOf) (utf8 "path") = some (cStr (utf8 put.remotePath)) ∧
      kvGet (put.items.map kvOf) (utf8 "desire_storage") = seenValue put.desireStorage ∧
      kvGet (put.items.map kvOf) (utf8 "perm") = seenValue put.perm := by
  have hnil : ∀ key, kvGet [] key = none := fun _ => rfl
  rw [FilePut.items, List.map_cons, List.map_append]
  refine ⟨?_, ?_, ?_⟩
  · rw [kvGet_cons, kvOf_key, if_pos rfl, kvOf_value]
  · have hskip := kvGet_optionalItem_of_ne "perm" (utf8 "desire_storage")
      (by decide) put.perm []
    rw [List.append_nil] at hskip
    rw [kvGet_cons, kvOf_key,
      if_neg (show cStr (utf8 "path") ≠ cStr (utf8 "desire_storage") by decide),
      kvGet_optionalItem_self, hskip, hnil, Option.or_none]
  · have hself := kvGet_optionalItem_self "perm" put.perm []
    rw [List.append_nil] at hself
    rw [kvGet_cons, kvOf_key, if_neg (show cStr (utf8 "path") ≠ cStr (utf8 "perm") by decide),
      kvGet_optionalItem_of_ne _ _ (by decide), hself, hnil, Option.or_none]

end UsbResponder.Host
