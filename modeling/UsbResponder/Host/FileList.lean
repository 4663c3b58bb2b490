import UsbResponder.FileOps.Listing
import UsbResponder.Host.Exchange
import UsbResponder.Host.Operations
import UsbResponder.Responder.Responses

/-!
# Listing a directory from the host

`file_list` of the client, from the request to the names it returns. The request is decoded
and handled by the device, and what the device writes comes back in chunks of any size.

The two lists of names travel as the values of two items, and the encoder of the device
keeps only as much of a value as its length modulo `2 ^ 16`. `hostFileList_of_readsDir` says
what the client makes of any directory, and `file_list_lossless_iff` that the names arrive
exactly if both lists are shorter.

A list that is cut short still has lines in it, but fewer bytes, so the names cannot all be
there (`keptLines_eq_iff`); when a character is cut, the client raises an exception. The
path is the third text that may be too long, and then the client refuses to encode the
request.

There is one request and its response, handed over by `exchange`: the receive loop makes no
difference to a single request. Names with line breaks, and names that are not UTF-8, are
left out, because the format of the response has no place for them.
-/

namespace UsbResponder

open LittleEndian CString TextLines Framing

variable {σ : Type}

/-! ### The client -/

namespace Host

/-- The request of `file_list`, encoded. The path is its only item, also when it is empty. -/
def fileListRequest (reqId : ℕ) (path : String) : Except PyError Bytes := do
  let payload ← encodeKv [("path", path)]
  Frame.encode { type := 14, requestId := reqId, payload := payload }

/-- The lines of a value that are not empty, as `splitlines` finds them. A key that is
missing has none. -/
def Dict.lines (d : Dict) (key : String) : List String :=
  (splitlines (d.get key "")).filter (· ≠ "")

/-- What `file_list` returns once its request is sent: the files and the directories, or an
exception. -/
def Client.fileListReply (reqId : ℕ) (c : Client) :
    Option (Except ClientError (List String × List String)) :=
  match c.recvFrame with
  | none => none
  | some (.error e, _) => some (.error (.codec e))
  | some (.ok fr, _) => some (do
    let kv ← expectKv reqId fr
    return (kv.lines "files", kv.lines "dirs"))

end Host

/-- `file_list` of a client whose last request id was `req`, with the device at the other
end of the link. -/
def hostFileList (os : Os σ) (shell : ExecShell σ) (deliver : Bytes → List Bytes)
    (dev : Device σ) (req : ℕ) (path : String) :
    Option (Except Host.ClientError (List String × List String)) :=
  match Host.fileListRequest (Host.nextId req) path with
  | .error e => some (.error (.codec e))
  | .ok raw => (exchange os shell deliver raw dev).bind
    (Host.Client.fileListReply (Host.nextId req))

/-! ### The request and the handler -/

/-- The request, as the device decodes it when its path fits the length field. -/
def fileListFrame (reqId : UInt32) (path : Bytes) : Frame :=
  frameOf MsgType.fileList.code 0 reqId (kvLayout [⟨utf8 "path", path⟩])

/-- A path that does not fit its length field is refused; otherwise the device decodes the
request as a list of one item. -/
private theorem fileListRequest_cases {reqId : ℕ} (hid : reqId < 2 ^ 32) (path : String) :
    (2 ^ 16 ≤ (utf8 path).length ∧ Host.fileListRequest reqId path = .error .structError) ∨
    ((utf8 path).length < 2 ^ 16 ∧ ∃ raw, Host.fileListRequest reqId path = .ok raw ∧
      decodeFrame raw = some (fileListFrame (UInt32.ofNat reqId) (utf8 path))) := by
  have hcount : Host.packU16 1 = .ok (leBytes 2 1) := if_pos (by norm_num)
  have hkey : Host.packU16 (utf8 "path").length = .ok (leBytes 2 (utf8 "path").length) :=
    if_pos (by decide)
  obtain hlong | hfits := le_or_gt (2 ^ 16) (utf8 path).length
  · refine .inl ⟨hlong, ?_⟩
    have hvalue : Host.packU16 (utf8 path).length = .error .structError :=
      if_neg (not_lt.mpr hlong)
    simp only [Host.fileListRequest, Host.encodeKv, Host.encodeKvItems, List.length_singleton,
      hcount, hkey, hvalue, bind, Except.bind]
  · right
    obtain ⟨payload, hpayload⟩ : ∃ payload, payload = kvLayout [⟨utf8 "path", utf8 path⟩] :=
      ⟨_, rfl⟩
    have hvalue : Host.packU16 (utf8 path).length = .ok (leBytes 2 (utf8 path).length) :=
      if_pos hfits
    have hencode : Host.encodeKv [("path", path)] = .ok payload := by
      simp [Host.encodeKv, Host.encodeKvItems, hcount, hkey, hvalue, bind, Except.bind, pure,
        Except.pure, hpayload, kvLayout, kvLayoutRecord]
    -- one short item is far from the limits of a frame
    have hlen : payload.length ≤ 2 ^ 32 - 25 := by
      have hlayout : payload.length = 2 + (4 + (utf8 "path").length + (utf8 path).length) := by
        simp [hpayload, kvLayout, length_kvLayoutRecord, length_leBytes]
      have hkeyLen : (utf8 "path").length = 4 := by decide
      omega
    have hwire := Host.Frame.encode_eq_wire (f := ⟨14, reqId, 0, payload⟩) (by norm_num)
      (by norm_num) hid (show payload.length < 2 ^ 32 by omega)
    refine ⟨hfits, wire 14 0 reqId payload, ?_, ?_⟩
    · rw [Host.fileListRequest, hencode]
      exact hwire
    · have hofNat : (UInt32.ofNat reqId).toNat = reqId := by
        rw [UInt32.toNat_ofNat', Nat.mod_eq_of_lt hid]
      have hdecode : decodeFrame (wire MsgType.fileList.code.toNat (0 : UInt32).toNat
          (UInt32.ofNat reqId).toNat payload) =
          some (frameOf MsgType.fileList.code 0 (UInt32.ofNat reqId) payload) :=
        decodeFrame_wire hlen
      rw [hofNat] at hdecode
      rw [fileListFrame, ← hpayload]
      exact hdecode

/-- The listing the host reads of the names of a list: only the first bytes of the text
arrive, as many as its length modulo `2 ^ 16`. It is none when these end within a character. -/
def keptLines (names : List String) : Option (List String) :=
  readLines ((joinLines names).take ((joinLines names).length % 2 ^ 16))

/-- Names arrive exactly if their text is shorter than `2 ^ 16` bytes. -/
private theorem keptLines_eq_iff {names : List String} (h : ∀ name ∈ names, IsLine name) :
    keptLines names = some names ↔ (joinLines names).length < 2 ^ 16 := by
  rw [keptLines]
  constructor
  · intro hkept
    have hlost := length_joinLines_le_of_readLines_take hkept
    omega
  · intro hfits
    rw [Nat.mod_eq_of_lt hfits, List.take_length, readLines_joinLines h]

/-- The texts of a listing as the values of the response. Nothing else is in it. -/
private theorem handleFileList_of_readsDir {os : Os σ} (shell : ExecShell σ)
    {entries : List DirEntry}
    {path : Bytes} (hpath : path.length < 2 ^ 16) (reqId : UInt32) {dev : Device σ}
    (hdir : os.ReadsDir (cStr path) entries dev.proc.os) :
    ∃ p', handleFrame os shell (fileListFrame reqId path) dev =
      sendKvResponse os .status reqId [⟨utf8 "files", joinLines (fileNames entries)⟩,
        ⟨utf8 "dirs", joinLines (dirNames entries)⟩] { dev with proc := p' } := by
  obtain ⟨p', hrun⟩ := fileList_of_readsDir hdir
  refine ⟨p', ?_⟩
  have hkey : (utf8 "path").length < 2 ^ 16 := by decide
  have hkvs : decodeKv (kvLayout [⟨utf8 "path", path⟩]) maxKv = some [⟨utf8 "path", path⟩] := by
    refine decodeKv_kvLayout (fun item hitem => ?_) (by simp [maxKv])
    rw [List.mem_singleton.mp hitem]
    exact ⟨hkey, hpath⟩
  have hget : kvGet [⟨utf8 "path", path⟩] (utf8 "path") = some (cStr path) := by
    rw [kvGet_cons, if_pos rfl]
  have hpayload : (fileListFrame reqId path).payload = kvLayout [⟨utf8 "path", path⟩] := rfl
  have hhandle : handleFrame os shell (fileListFrame reqId path) dev =
      handleFileList os (fileListFrame reqId path) dev := rfl
  rw [hhandle, handleFileList, hpayload, hkvs]
  dsimp only
  rw [hget, Option.getD_some, Device.op, hrun]
  rfl

/-! ### What the client makes of a listing -/

/-- A text of names is a C string. -/
private theorem strlen_joinLines {names : List String} (h : ∀ name ∈ names, 0 ∉ utf8 name) :
    strlen (joinLines names) = (joinLines names).length := by
  have hnul : 0 ∉ joinLines names := by
    intro hzero
    obtain ⟨name, hname, hzero⟩ := List.mem_flatMap.mp hzero
    have hnewline : (0 : UInt8) ∉ utf8 "\n" := by decide
    exact (List.mem_append.mp hzero).elim (h name hname) hnewline
  rw [strlen, cStr_eq_self hnul]

/-- The items of a listing, assigned one after another. -/
private theorem expectKv_listing {reqId : ℕ} {files dirs : Bytes} {fr : Host.Frame}
    (hid : fr.requestId = reqId) (htype : fr.type = 2)
    (hpayload : Host.decodeKv fr.payload =
      Host.assignItems [⟨utf8 "files", files⟩, ⟨utf8 "dirs", dirs⟩] []) :
    (do
      let kv ← Host.expectKv reqId fr
      return (kv.lines "files", kv.lines "dirs") : Except Host.ClientError _) =
      match readLines files, readLines dirs with
      | some files, some dirs => .ok (files, dirs)
      | _, _ => .error .unicodeDecodeError := by
  have hcheck : Host.checkResponse 2 "意外消息类型 " "STATUS" reqId fr = .ok fr.payload := by
    rw [Host.checkResponse, if_neg (not_not.mpr hid), if_neg (by omega), if_neg (not_not.mpr htype)]
  have hexpect : Host.expectKv reqId fr =
      Host.assignItems [⟨utf8 "files", files⟩, ⟨utf8 "dirs", dirs⟩] [] := by
    rw [Host.expectKv, hcheck]
    exact hpayload
  -- the two keys are texts, so only the values can fail to be
  have htext : ∀ s : String, Host.decodeText (utf8 s) = .ok s := by
    intro s
    rw [Host.decodeText, decodeUtf8_utf8]
  rw [hexpect, Host.assignItems, htext, readLines, readLines]
  rcases hfiles : decodeUtf8 files with _ | f
  · have hraise : Host.decodeText files = .error .unicodeDecodeError := by
      rw [Host.decodeText, hfiles]
    rw [hraise]
    rfl
  · have hread : Host.decodeText files = .ok f := by rw [Host.decodeText, hfiles]
    rw [hread]
    rcases hdirs : decodeUtf8 dirs with _ | d
    · have hraise : Host.decodeText dirs = .error .unicodeDecodeError := by
        rw [Host.decodeText, hdirs]
      simp only [Host.assignItems, htext, hraise, bind, Except.bind]
      rfl
    · have hread : Host.decodeText dirs = .ok d := by rw [Host.decodeText, hdirs]
      simp only [Host.assignItems, htext, hread, bind, Except.bind, pure, Except.pure]
      rfl

/-- What the encoder keeps of the items of a listing: of each of the two texts a part, which
for a short text is all of it. -/
def keptListing (entries : List DirEntry) : List Kv :=
  [⟨utf8 "files", (joinLines (fileNames entries)).take
      ((joinLines (fileNames entries)).length % 2 ^ 16)⟩,
    ⟨utf8 "dirs", (joinLines (dirNames entries)).take
      ((joinLines (dirNames entries)).length % 2 ^ 16)⟩]

private theorem map_kept_listing {entries : List DirEntry}
    (hnul : ∀ entry ∈ entries, 0 ∉ utf8 entry.name) :
    [⟨utf8 "files", joinLines (fileNames entries)⟩,
      ⟨utf8 "dirs", joinLines (dirNames entries)⟩].map Kv.kept = keptListing entries := by
  have hfiles : (utf8 "files").take (strlen (utf8 "files") % 2 ^ 16) = utf8 "files" := by decide
  have hdirs : (utf8 "dirs").take (strlen (utf8 "dirs") % 2 ^ 16) = utf8 "dirs" := by decide
  rw [keptListing, List.map_cons, List.map_cons, List.map_nil, Kv.kept, Kv.kept, hfiles, hdirs,
    strlen_joinLines, strlen_joinLines]
  · intro name hname
    obtain ⟨entry, hentry, rfl⟩ := exists_of_mem_dirNames hname
    exact hnul entry hentry
  · intro name hname
    obtain ⟨entry, hentry, rfl⟩ := exists_of_mem_fileNames hname
    exact hnul entry hentry

private theorem keptListing_fits {entries : List DirEntry}
    (hnul : ∀ entry ∈ entries, 0 ∉ utf8 entry.name) : ∀ item ∈ keptListing entries, item.Fits := by
  intro item hitem
  rw [← map_kept_listing hnul, List.mem_map] at hitem
  obtain ⟨item', -, rfl⟩ := hitem
  exact item'.kept_fits

/-- Two items of at most 64 KiB each are sent in a frame that the client takes. -/
private theorem keptListing_sendable {entries : List DirEntry}
    (hnul : ∀ entry ∈ entries, 0 ∉ utf8 entry.name) (reqId : UInt32) :
    (responseFrame .status reqId (kvLayout (keptListing entries))).Sendable := by
  have hcount : (keptListing entries).length = 2 := rfl
  have hbound := length_kvLayout_le (keptListing_fits hnul)
  rw [hcount] at hbound
  constructor
  · show (UInt32.ofNat (kvLayout (keptListing entries)).length).toNat =
      (kvLayout (keptListing entries)).length
    rw [UInt32.toNat_ofNat', Nat.mod_eq_of_lt (by omega)]
  · show (kvLayout (keptListing entries)).length ≤ 8 * 1024 * 1024
    omega

section Listing

variable (os : Os σ) (shell : ExecShell σ) {deliver : Bytes → List Bytes} {dev : Device σ}
  (req : ℕ) {path : String} {entries : List DirEntry}

/-- The client returns what was kept of the two lists, unless a character was cut. -/
private theorem hostFileList_of_readsDir (hdeliver : ∀ bs, (deliver bs).flatten = bs)
    (hwrites : dev.Benign) (hpath : (utf8 path).length < 2 ^ 16)
    (hdir : os.ReadsDir (cStr (utf8 path)) entries dev.proc.os)
    (hnul : ∀ entry ∈ entries, 0 ∉ utf8 entry.name) :
    hostFileList os shell deliver dev req path = some (
      match keptLines (fileNames entries), keptLines (dirNames entries) with
      | some files, some dirs => .ok (files, dirs)
      | _, _ => .error .unicodeDecodeError) := by
  obtain ⟨hlong, -⟩ | ⟨-, raw, hraw, hdecode⟩ :=
    fileListRequest_cases (Host.nextId_lt req) path
  · omega
  have hofNat : (UInt32.ofNat (Host.nextId req)).toNat = Host.nextId req := by
    rw [UInt32.toNat_ofNat', Nat.mod_eq_of_lt (Host.nextId_lt req)]
  obtain ⟨p', hhandle⟩ := handleFileList_of_readsDir shell hpath
    (UInt32.ofNat (Host.nextId req)) hdir
  -- the payload is the layout of what the encoder keeps
  obtain ⟨resp, hresp⟩ : ∃ resp, resp = responseFrame .status (UInt32.ofNat (Host.nextId req))
      (kvLayout (keptListing entries)) := ⟨_, rfl⟩
  have hsendable : resp.Sendable := hresp ▸ keptListing_sendable hnul _
  obtain ⟨c, hrecv⟩ := recvFrame_of_writeFrame os hdeliver dev
    (show ({ dev with proc := p' } : Device σ).Benign from hwrites) rfl hsendable
  have hsend : handleFrame os shell (fileListFrame (UInt32.ofNat (Host.nextId req)) (utf8 path))
      dev = writeFrame os resp { dev with proc := p' } := by
    rw [hhandle, sendKvResponse, encodeKv_eq_kvLayout_kept (by simp [maxKv]),
      map_kept_listing hnul, hresp]
  have hdecoded : Host.decodeKv (Host.Frame.ofDevice resp).payload =
      Host.assignItems (keptListing entries) [] := by
    have hcount : (keptListing entries).length = 2 := rfl
    rw [hresp]
    exact Host.decodeKv_kvLayout (keptListing_fits hnul) (by rw [hcount, maxKv]; norm_num)
  have hid : (Host.Frame.ofDevice resp).requestId = Host.nextId req := by
    rw [hresp]
    exact hofNat
  have htype : (Host.Frame.ofDevice resp).type = 2 := by
    rw [hresp]
    rfl
  have hlisting := expectKv_listing hid htype hdecoded
  rw [hostFileList, hraw]
  dsimp only
  rw [exchange, hdecode, Option.map_some, Option.bind_some]
  dsimp only
  rw [hsend, Host.Client.fileListReply, hrecv]
  dsimp only
  rw [hlisting]
  rfl

/-- **Listing from the host.** Take a directory that can be read, with names that are single
lines, and `write` calls that do not fail. Then `file_list` returns the names of the files
and those of the directories exactly if its path, the text of the first list and that of the
second list are all shorter than `2 ^ 16` bytes. -/
theorem file_list_lossless_iff (hdeliver : ∀ bs, (deliver bs).flatten = bs)
    (hwrites : dev.Benign) (hdir : os.ReadsDir (cStr (utf8 path)) entries dev.proc.os)
    (hnames : ∀ entry ∈ entries, IsLine entry.name)
    (hnul : ∀ entry ∈ entries, 0 ∉ utf8 entry.name) :
    hostFileList os shell deliver dev req path =
        some (.ok (fileNames entries, dirNames entries)) ↔
      (utf8 path).length < 2 ^ 16 ∧ (joinLines (fileNames entries)).length < 2 ^ 16 ∧
        (joinLines (dirNames entries)).length < 2 ^ 16 := by
  obtain hlong | hpath := le_or_gt (2 ^ 16) (utf8 path).length
  · refine iff_of_false ?_ (fun h => by omega)
    obtain ⟨-, hrequest⟩ | ⟨hfits, -⟩ := fileListRequest_cases (Host.nextId_lt req) path
    · rw [hostFileList, hrequest]
      simp
    · omega
  · have hfiles : ∀ name ∈ fileNames entries, IsLine name := by
      intro name hname
      obtain ⟨entry, hentry, rfl⟩ := exists_of_mem_fileNames hname
      exact hnames entry hentry
    have hdirs : ∀ name ∈ dirNames entries, IsLine name := by
      intro name hname
      obtain ⟨entry, hentry, rfl⟩ := exists_of_mem_dirNames hname
      exact hnames entry hentry
    rw [hostFileList_of_readsDir os shell req hdeliver hwrites hpath hdir hnul, and_iff_right hpath,
      ← keptLines_eq_iff hfiles, ← keptLines_eq_iff hdirs]
    rcases keptLines (fileNames entries) with _ | files
    · simp
    · rcases keptLines (dirNames entries) with _ | dirs
      · simp
      · simp

end Listing

/-! ### A large directory -/

/-- System calls that list a directory whose entries are all regular files. -/
def Os.listing (entries : List DirEntry) : Os Unit :=
  { Os.failing Unit with
    opendir := fun _ s => (.ok (entries.map fun entry => utf8 entry.name), s)
    lstat := fun _ s => (.ok ⟨.regular, 0, 0, 0, 0⟩, s) }

private theorem Os.listing_readsDir {entries : List DirEntry}
    (hlen : ∀ entry ∈ entries, (utf8 entry.name).length < 256)
    (hkind : ∀ entry ∈ entries, entry.kind = .regular) (s : Unit) :
    (Os.listing entries).ReadsDir (cStr (utf8 ".")) entries s := by
  refine ⟨utf8 "/", .nand, (), by decide, rfl, ?_⟩
  obtain ⟨os, hos⟩ : ∃ os, os = Os.listing entries := ⟨_, rfl⟩
  have hlstat : ∀ path s, os.lstat path s = (.ok ⟨.regular, 0, 0, 0, 0⟩, s) := by
    rw [hos]
    exact fun _ _ => rfl
  rw [← hos]
  clear hos
  induction entries with
  | nil => trivial
  | cons entry entries ih =>
    have hrest := ih (fun e he => hlen e (List.mem_cons_of_mem _ he))
      fun e he => hkind e (List.mem_cons_of_mem _ he)
    rw [Os.Inspects]
    split_ifs
    · exact hrest
    · refine ⟨?_, _, _, hlstat _ _, (hkind entry List.mem_cons_self).symm, hrest⟩
      have hname := hlen entry List.mem_cons_self
      have hroot : (utf8 "/").length = 1 := by decide
      simp only [childPath, List.length_append, List.length_singleton, pathMaxLen, hroot]
      omega

/-- A name of 255 bytes. -/
def longName (i : ℕ) : String :=
  String.ofList (List.replicate i 'a' ++ List.replicate (255 - i) 'b')

/-- A directory of 256 files with such names. -/
def longEntries : List DirEntry := (List.range 256).map fun i => ⟨longName i, .regular⟩

private theorem utf8_longName (i : ℕ) :
    utf8 (longName i) = List.replicate i 97 ++ List.replicate (255 - i) 98 := by
  have ha : String.utf8EncodeChar 'a' = [97] := by decide
  have hb : String.utf8EncodeChar 'b' = [98] := by decide
  rw [utf8, longName, String.toList_ofList, List.flatMap_append, List.flatMap_replicate,
    List.flatMap_replicate, ha, hb, List.flatten_replicate_singleton,
    List.flatten_replicate_singleton]

private theorem mem_longEntries {entry : DirEntry} (h : entry ∈ longEntries) :
    ∃ i < 256, entry = ⟨longName i, .regular⟩ := by
  obtain ⟨i, hi, rfl⟩ := List.mem_map.mp h
  exact ⟨i, List.mem_range.mp hi, rfl⟩

private theorem length_utf8_longName {i : ℕ} (h : i < 256) : (utf8 (longName i)).length = 255 := by
  rw [utf8_longName, List.length_append, List.length_replicate, List.length_replicate]
  omega

private theorem nodup_longEntries : (longEntries.map DirEntry.name).Nodup := by
  rw [longEntries, List.map_map]
  refine List.Nodup.map (fun i j hij => ?_) List.nodup_range
  have hcount := congrArg (List.count 97) (congrArg utf8 hij)
  simpa [utf8_longName, List.count_append, List.count_replicate] using hcount

/-- With their newlines the names take exactly `2 ^ 16` bytes. -/
private theorem length_joinLines_longEntries : (joinLines (fileNames longEntries)).length =
    2 ^ 16 := by
  have hall : longEntries.filter (fun entry => ¬entry.IsDot ∧ entry.kind ≠ .directory) =
      longEntries := by
    rw [List.filter_eq_self]
    intro entry hentry
    obtain ⟨i, hi, rfl⟩ := mem_longEntries hentry
    refine decide_eq_true ⟨fun hdot => ?_, by simp⟩
    have hlen := length_utf8_longName hi
    obtain hdot | hdot := hdot
    · rw [show longName i = "." from hdot] at hlen
      exact absurd hlen (by decide)
    · rw [show longName i = ".." from hdot] at hlen
      exact absurd hlen (by decide)
  have hnewline : (utf8 "\n").length = 1 := by decide
  have hsize : ∀ i ∈ List.range 256, (utf8 (longName i) ++ utf8 "\n").length = 256 := by
    intro i hi
    rw [List.length_append, length_utf8_longName (List.mem_range.mp hi), hnewline]
  have hnames : fileNames longEntries = (List.range 256).map longName := by
    rw [fileNames, hall, longEntries, List.map_map]
    rfl
  rw [joinLines, hnames, List.flatMap_map, List.length_flatMap, List.map_congr_left hsize,
    List.map_const', List.length_range, List.sum_replicate]
  norm_num

/-- The names of a large directory are lost: of exactly `2 ^ 16` bytes nothing is kept. -/
theorem not_file_list_lossless :
    ¬∀ (os : Os Unit) (deliver : Bytes → List Bytes) (dev : Device Unit) (req : ℕ) (path : String)
      (entries : List DirEntry), (∀ bs, (deliver bs).flatten = bs) → dev.Benign →
      os.ReadsDir (cStr (utf8 path)) entries dev.proc.os →
      (∀ entry ∈ entries, IsLine entry.name) → (∀ entry ∈ entries, 0 ∉ utf8 entry.name) →
      (entries.map DirEntry.name).Nodup →
      hostFileList os noShell deliver dev req path =
        some (.ok (fileNames entries, dirNames entries)) := by
  intro h
  have hdir : (Os.listing longEntries).ReadsDir (cStr (utf8 ".")) longEntries () := by
    refine Os.listing_readsDir (fun entry hentry => ?_) (fun entry hentry => ?_) ()
    · obtain ⟨i, hi, rfl⟩ := mem_longEntries hentry
      rw [length_utf8_longName hi]
      norm_num
    · obtain ⟨i, -, rfl⟩ := mem_longEntries hentry
      rfl
  have hdeliver : ∀ bs : Bytes, [bs].flatten = bs := by simp
  have hwrites : bootDevice.Benign := by simp [Device.Benign, bootDevice]
  have hnul : ∀ entry ∈ longEntries, 0 ∉ utf8 entry.name := by
    intro entry hentry
    obtain ⟨i, -, rfl⟩ := mem_longEntries hentry
    rw [utf8_longName]
    simp
  have hlines : ∀ entry ∈ longEntries, IsLine entry.name := by
    intro entry hentry
    obtain ⟨i, hi, rfl⟩ := mem_longEntries hentry
    refine ⟨fun hempty => ?_, fun c hc => ?_⟩
    · have hlen := length_utf8_longName hi
      rw [show longName i = "" from hempty] at hlen
      exact absurd hlen (by decide)
    · rw [longName, String.toList_ofList, List.mem_append, List.mem_replicate,
        List.mem_replicate] at hc
      obtain ⟨-, rfl⟩ | ⟨-, rfl⟩ := hc
      · decide
      · decide
  have hlossless := h (Os.listing longEntries) (fun bs => [bs]) bootDevice 0 "." longEntries
    hdeliver hwrites hdir hlines hnul nodup_longEntries
  rw [hostFileList_of_readsDir _ noShell 0 hdeliver hwrites (by decide) hdir hnul] at hlossless
  -- what arrives is the text cut off to a response field, so nothing has been cut off
  have hkept : keptLines (fileNames longEntries) = some (fileNames longEntries) := by
    rcases hfiles : keptLines (fileNames longEntries) with _ | files
    · simp [hfiles] at hlossless
    · rcases hdirs : keptLines (dirNames longEntries) with _ | dirs
      · simp [hfiles, hdirs] at hlossless
      · simp only [hfiles, hdirs, Option.some.injEq, Except.ok.injEq, Prod.mk.injEq] at hlossless
        rw [hlossless.1]
  rw [keptLines_eq_iff, length_joinLines_longEntries] at hkept
  · exact lt_irrefl _ hkept
  · intro name hname
    obtain ⟨entry, hentry, rfl⟩ := exists_of_mem_fileNames hname
    exact hlines entry hentry

/-- `file_list_lossless_iff` for a directory with one file. -/
theorem file_list_lossless_iff_one :
    hostFileList (Os.listing [⟨"a", .regular⟩]) noShell (fun bs => [bs]) bootDevice 0 "." =
        some (.ok (fileNames [⟨"a", .regular⟩], dirNames [⟨"a", .regular⟩])) ↔
      (utf8 ".").length < 2 ^ 16 ∧ (joinLines (fileNames [⟨"a", .regular⟩])).length < 2 ^ 16 ∧
        (joinLines (dirNames [⟨"a", .regular⟩])).length < 2 ^ 16 :=
  file_list_lossless_iff (Os.listing [⟨"a", .regular⟩]) noShell 0 (by simp)
    (by simp [Device.Benign, bootDevice]) (Os.listing_readsDir (by decide) (by decide) ())
    (by
      intro entry hentry
      rw [List.mem_singleton.mp hentry]
      refine ⟨by decide, fun c hc => ?_⟩
      obtain rfl : c = 'a' := by simpa using hc
      rfl)
    (by decide)

end UsbResponder
