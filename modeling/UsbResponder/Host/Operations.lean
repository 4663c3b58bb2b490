import UsbResponder.Base.TextLines
import UsbResponder.Host.Client
import UsbResponder.Host.FilePut

/-!
# The operations of the host's client

The operations of `client.py`: the frames each one sends, and what it does with a response,
which are the checks of its request id and type, the same in all operations but for the type
that is expected, and the decoding of key-value payloads. A dictionary is the list of its
assignments, the last one first.

`decodeKv_of_device` is the host's side of the payload layout: items that the device decodes
are read as texts.

An operation is a value of `ClientOp`, with its arguments, and what it sends is a function
of that and of the last request id. So runs of a client are lists of operations. An upload
takes its request id before it encodes anything, and the other operations after their
payload is encoded, so an exception of the encoder uses up an id only there;
`ClientOp.start` keeps the difference. Printing, and the parsing of the command line of the
client, are left out.
-/

namespace UsbResponder.Host

open LittleEndian TextLines

/-- The exceptions an operation raises: those of the codec, `UnicodeDecodeError`, and
`RuntimeError` with its message. Time-outs of the transport are not among them. -/
inductive ClientError
  | codec (e : PyError)
  | unicodeDecodeError
  | runtimeError (msg : String)
  deriving DecidableEq, Repr

/-- `Dict[str, str]`, as pairs. What counts for a key is the first pair with it. -/
abbrev Dict := List (String × String)

/-- `d.get(key, default)`. -/
def Dict.get (d : Dict) (key default : String) : String := (d.lookup key).getD default

/-! ### `decode_kv` -/

/-- `bytes.decode("utf-8")`, which raises an exception for bytes that are no text. -/
def decodeText (bs : Bytes) : Except ClientError String :=
  match decodeUtf8 bs with
  | none => .error .unicodeDecodeError
  | some s => .ok s

/-- The loop of `decode_kv`: `count` more items from offset `off`. An item that reaches
behind the payload raises an exception, like one that is no text. -/
def decodeKvItems (data : Bytes) : ℕ → ℕ → Dict → Except ClientError (Dict × ℕ)
  | 0, off, d => .ok (d, off)
  | count + 1, off, d =>
    if data.length < off + 4 then .error (.codec (.valueError "kv truncated"))
    else
      let kl := leNat ((data.drop off).take 2)
      let vl := leNat ((data.drop (off + 2)).take 2)
      let off := off + 4
      if data.length < off + kl + vl then .error (.codec (.valueError "kv truncated"))
      else do
        let k ← decodeText ((data.drop off).take kl)
        let v ← decodeText ((data.drop (off + kl)).take vl)
        decodeKvItems data count (off + kl + vl) ((k, v) :: d)

/-- `decode_kv`. -/
def decodeKv (data : Bytes) : Except ClientError Dict :=
  if data.length < 2 then .error (.codec (.valueError "kv too short"))
  else do
    let (d, off) ← decodeKvItems data (leNat (data.take 2)) 2 []
    if off ≠ data.length then .error (.codec (.valueError "kv junk tail")) else return d

/-- Items as texts, assigned one after another. A later value for a key replaces an earlier
one. -/
def assignItems : List Kv → Dict → Except ClientError Dict
  | [], d => .ok d
  | item :: items, d => do
    let k ← decodeText item.key
    let v ← decodeText item.value
    assignItems items ((k, v) :: d)

/-- Where the loop of the device reads items, the loop of the host assigns them. -/
private theorem decodeKvItems_of_device {data : Bytes} {count off off' : ℕ} {items : List Kv}
    (h : UsbResponder.decodeKvItems data count off = some (items, off')) (d : Dict) :
    decodeKvItems data count off d = (assignItems items d).map fun d => (d, off') := by
  induction count generalizing off items d with
  | zero =>
    obtain ⟨rfl, rfl⟩ : [] = items ∧ off = off' := by
      simpa [UsbResponder.decodeKvItems] using h
    rfl
  | succ count ih =>
    rw [UsbResponder.decodeKvItems] at h
    rw [decodeKvItems]
    split_ifs at h ⊢ with hshort
    have hk : leNat ((data.drop off).take 2) = (readLe16 (data.drop off)).toNat :=
      (toNat_readLe16 (by rw [List.length_drop]; omega)).symm
    have hv : leNat ((data.drop (off + 2)).take 2) = (readLe16 (data.drop (off + 2))).toNat :=
      (toNat_readLe16 (by rw [List.length_drop]; omega)).symm
    dsimp only at h ⊢
    rw [hk, hv]
    split_ifs at h ⊢ with hlong
    rcases hrest : UsbResponder.decodeKvItems data count _ with _ | ⟨rest, off''⟩
    · rw [hrest] at h
      simp at h
    · rw [hrest] at h
      simp only [Option.some.injEq, Prod.mk.injEq] at h
      obtain ⟨rfl, rfl⟩ := h
      rw [assignItems]
      rcases decodeText _ with e | k
      · rfl
      rcases decodeText _ with e | v
      · rfl
      exact ih hrest ((k, v) :: d)

/-- **One format.** What the device decodes, the host decodes to the assignment of its
items. -/
theorem decodeKv_of_device {data : Bytes} {items : List Kv}
    (h : UsbResponder.decodeKv data maxKv = some items) : decodeKv data = assignItems items [] := by
  rw [UsbResponder.decodeKv] at h
  split_ifs at h with hshort
  dsimp only at h
  rcases hitems : UsbResponder.decodeKvItems data (readLe16 data).toNat 2 with _ | ⟨items', off⟩
  · simp [hitems] at h
  simp only [hitems] at h
  split_ifs at h with hcount hoff
  obtain rfl := Option.some.inj h
  have hfield : leNat (data.take 2) = (readLe16 data).toNat :=
    (toNat_readLe16 (not_lt.mp hshort)).symm
  rw [decodeKv, if_neg hshort, hfield, decodeKvItems_of_device hitems]
  rcases assignItems items' [] with e | d
  · rfl
  · exact if_neg (not_not.mpr hoff)

/-- The host reads a layout of items that fit as texts. -/
theorem decodeKv_kvLayout {items : List Kv} (h : ∀ item ∈ items, item.Fits)
    (hcount : items.length ≤ maxKv) : decodeKv (kvLayout items) = assignItems items [] :=
  decodeKv_of_device (UsbResponder.decodeKv_kvLayout h hcount)

/-! ### Requests and responses -/

/-- `_next_id`: the id after `req`, in 32 bits. Zero is left out, so the ids start again at
1. -/
def nextId (req : ℕ) : ℕ :=
  let req := (req + 1) % 2 ^ 32
  if req = 0 then 1 else req

theorem nextId_lt (req : ℕ) : nextId req < 2 ^ 32 := by
  rw [nextId]
  split_ifs
  · norm_num
  · exact Nat.mod_lt _ (by norm_num)

/-- The checks an operation makes of the response to its request: the id, and then the type,
which must be `expected`. An error is raised with its message. The payload is what is used
of a response that is accepted; `unexpected` starts the message for one of another type. -/
def checkResponse (expected : ℕ) (unexpected expectedName : String) (reqId : ℕ) (fr : Frame) :
    Except ClientError Bytes :=
  if fr.requestId ≠ reqId then
    .error (.runtimeError
      ("request_id 不匹配: 期望 " ++ toString reqId ++ " 收到 " ++ toString fr.requestId))
  else if fr.type = 3 then do
    let kv ← decodeKv fr.payload
    .error (.runtimeError (kv.get "message" "ERROR"))
  else if fr.type ≠ expected then
    .error (.runtimeError (unexpected ++ toString fr.type ++ "，期望 " ++ expectedName))
  else .ok fr.payload

/-- What `_expect_kv` does with the frame it has received. -/
def expectKv (reqId : ℕ) (fr : Frame) : Except ClientError Dict := do
  decodeKv (← checkResponse 2 "意外消息类型 " "STATUS" reqId fr)

/-- `encode_command_exec`. Python does not keep its three numbers non-negative. -/
def encodeCommandExec (command : String) (timeoutMs maxStdout maxStderr : ℤ) :
    Except PyError Bytes :=
  let cb := utf8 command
  if (0 ≤ timeoutMs ∧ timeoutMs < 2 ^ 32) ∧ (0 ≤ maxStdout ∧ maxStdout < 2 ^ 32) ∧
      (0 ≤ maxStderr ∧ maxStderr < 2 ^ 32) ∧ cb.length < 2 ^ 32 then
    .ok (leBytes 4 timeoutMs.toNat ++ leBytes 4 maxStdout.toNat ++ leBytes 4 maxStderr.toNat ++
      leBytes 4 cb.length ++ cb)
  else .error .structError

/-- The operations of a client, with their arguments. An upload is given with the contents
of its local file; the request id in it is not used. -/
inductive ClientOp
  | hello
  | filePut (put : FilePut)
  | fileGet (remotePath : String)
  | fileList (path : String)
  | fileStat (path : String)
  | fileDelete (remotePath : String) (desireStorage : Option String)
  | fileRename (src dst : String) (desireStorage : Option String)
  | dirMkdir (path : String) (parents : Bool) (desireStorage : Option String)
  | devinfo
  | commandExec (command : String) (timeoutMs maxStdout maxStderr : ℤ)

/-- `_send_frame` without a request id: the id it takes, and its frame. The payload is
encoded before, so an exception of the encoder takes no id. -/
def oneFrame (req type : ℕ) (payload : Except PyError Bytes) : ℕ × Except PyError (List Frame) :=
  match payload with
  | .error e => (req, .error e)
  | .ok payload =>
    (nextId req, .ok [{ type := type, requestId := nextId req, payload := payload }])

/-- What an operation sends when `req` is the last request id in use: the id that is in use
from then on, and the frames, or an exception raised before the first one. -/
def ClientOp.start (req : ℕ) : ClientOp → ℕ × Except PyError (List Frame)
  | .hello => oneFrame req 1 (.ok [])
  | .filePut put => (nextId req, FilePut.frames { put with requestId := nextId req })
  | .fileGet remotePath => oneFrame req 13 (encodeKv [("path", remotePath)])
  | .fileList path => oneFrame req 14 (encodeKv [("path", path)])
  | .fileStat path => oneFrame req 18 (encodeKv [("path", path)])
  | .fileDelete remotePath desireStorage =>
    oneFrame req 15 (encodeKv (("path", remotePath) ::
      optionalItem "desire_storage" desireStorage))
  | .fileRename src dst desireStorage =>
    oneFrame req 16 (encodeKv (("from", src) :: ("to", dst) ::
      optionalItem "desire_storage" desireStorage))
  | .dirMkdir path parents desireStorage =>
    oneFrame req 17 (encodeKv (("path", path) :: ((if parents then [("parents", "1")] else []) ++
      optionalItem "desire_storage" desireStorage)))
  | .devinfo => oneFrame req 30 (.ok [])
  | .commandExec command timeoutMs maxStdout maxStderr =>
    oneFrame req 20 (encodeCommandExec command timeoutMs maxStdout maxStderr)

/-- The checks an operation makes of each response it receives. -/
def ClientOp.check (reqId : ℕ) (fr : Frame) : ClientOp → Except ClientError Bytes
  | .fileGet _ => checkResponse 13 "意外类型 " "FILE_GET" reqId fr
  | .devinfo => checkResponse 30 "意外类型 " "DEVINFO" reqId fr
  | .commandExec _ _ _ _ => checkResponse 21 "意外类型 " "COMMAND_RESULT" reqId fr
  | _ => checkResponse 2 "意外消息类型 " "STATUS" reqId fr

/-- All frames of an operation have the request id it has taken. -/
theorem ClientOp.requestId_of_start {req req' : ℕ} {frames : List Frame} {op : ClientOp}
    (h : op.start req = (req', .ok frames)) :
    req' = nextId req ∧ ∀ f ∈ frames, f.requestId = nextId req := by
  have hone : ∀ {type payload}, oneFrame req type payload = (req', .ok frames) →
      req' = nextId req ∧ ∀ f ∈ frames, f.requestId = nextId req := by
    intro type payload hsent
    rcases payload with e | payload
    · simp [oneFrame] at hsent
    · obtain ⟨rfl, hframes⟩ := Prod.mk.inj hsent
      obtain rfl := Except.ok.inj hframes
      exact ⟨rfl, by simp⟩
  rcases op with _ | put | _ | _ | _ | _ | _ | _ | _ | _
  case filePut =>
    obtain ⟨rfl, hframes⟩ := Prod.mk.inj h
    obtain ⟨-, -, rfl⟩ := FilePut.frames_eq_ok hframes
    refine ⟨rfl, fun f hf => ?_⟩
    simp only [List.mem_cons, List.mem_append, List.mem_map, List.not_mem_nil, or_false] at hf
    obtain rfl | ⟨piece, -, rfl⟩ | rfl := hf <;> rfl
  all_goals
    rw [ClientOp.start] at h
    exact hone h

/-- The last id in use stays or becomes the next one. No operation takes two. -/
theorem ClientOp.start_fst (req : ℕ) (op : ClientOp) :
    (op.start req).1 = req ∨ (op.start req).1 = nextId req := by
  have hone : ∀ type payload, (oneFrame req type payload).1 = req ∨
      (oneFrame req type payload).1 = nextId req := by
    rintro type (e | payload)
    · exact .inl rfl
    · exact .inr rfl
  rcases op with _ | put | _ | _ | _ | _ | _ | _ | _ | _
  case filePut => exact .inr rfl
  all_goals exact hone _ _

/-- An accepted response has the request id of the operation. -/
theorem ClientOp.requestId_of_check {reqId : ℕ} {fr : Frame} {op : ClientOp} {payload : Bytes}
    (h : op.check reqId fr = .ok payload) : fr.requestId = reqId := by
  have hcheck : ∀ {expected unexpected expectedName},
      checkResponse expected unexpected expectedName reqId fr = .ok payload →
        fr.requestId = reqId := by
    intro expected unexpected expectedName hok
    by_contra hne
    rw [checkResponse, if_pos hne] at hok
    simp at hok
  rcases op with _ | _ | _ | _ | _ | _ | _ | _ | _ | _ <;> exact hcheck h

end UsbResponder.Host
