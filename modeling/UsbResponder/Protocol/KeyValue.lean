import UsbResponder.Base.CString
import UsbResponder.Base.GrowBuffer

/-!
# Key-value payloads

The KV codec of `protocol.c` and `kv_get` of `responder.c`. A payload is a 16-bit count
followed by that many records: two 16-bit lengths, the key bytes and the value bytes.

The encoder takes C strings and truncates their lengths to 16 bits. The decoder works on an
offset into the payload and stores every key and value with a NUL behind it, so an item
keeps all its bytes while `kvGet`, which compares and returns C strings, sees them up to the
first NUL.

`kvLayout` is the layout of PROTOCOL.md §4 with unbounded lengths. The two functions are
described by it: the decoder accepts exactly the layouts of items that fit
(`decodeKv_eq_some_iff`), and the encoder writes the layout of what it keeps
(`encodeKv_eq_kvLayout_kept`). The proofs about the decoder carry the bytes in front of the
offset along, so that one record can be read wherever the loop stands; the induction is on
the number of records left.

The last section runs the encoder on the buffer that `append_bytes` enlarges and shows that
its contents are what `encodeKv` writes. The array of the decoder and its allocations are in
`Protocol.KeyValueMemory`.
-/

namespace UsbResponder

open LittleEndian CString

/-- `USB_RESPONDER_MAX_KV`. -/
def maxKv : ℕ := 32

/-- `usb_responder_kv_t`. What was decoded may hold a NUL, and is a shorter C string then. -/
structure Kv where
  key : Bytes
  value : Bytes
  deriving DecidableEq, Repr

/-! ### The codec of the source -/

/-- One round of the loop of `usb_responder_protocol_encode_kv`. A string of 65536 bytes or
more is cut to its length modulo `2 ^ 16`, and only the kept part is copied. -/
def encodeKvRecord (item : Kv) : Bytes :=
  let klen := UInt16.ofNat (strlen item.key)
  let vlen := UInt16.ofNat (strlen item.value)
  writeLe16 klen ++ (writeLe16 vlen ++ (item.key.take klen.toNat ++ item.value.take vlen.toNat))

/-- `usb_responder_protocol_encode_kv`; `none` is the result `false`, which more than 32
items have. -/
def encodeKv (items : List Kv) : Option Bytes :=
  if maxKv < items.length then none
  else some (writeLe16 (UInt16.ofNat items.length) ++ items.flatMap encodeKvRecord)

/-- The loop of `usb_responder_protocol_decode_kv`: `count` more items from offset `off`.
Returns the items and the offset behind them. -/
def decodeKvItems (data : Bytes) : ℕ → ℕ → Option (List Kv × ℕ)
  | 0, off => some ([], off)
  | count + 1, off =>
    if data.length < off + 4 then none
    else
      let klen := (readLe16 (data.drop off)).toNat
      let vlen := (readLe16 (data.drop (off + 2))).toNat
      let off := off + 4
      if data.length < off + klen + vlen then none
      else
        let item : Kv := ⟨(data.drop off).take klen, (data.drop (off + klen)).take vlen⟩
        match decodeKvItems data count (off + klen + vlen) with
        | none => none
        | some (items, off) => some (item :: items, off)

/-- `usb_responder_protocol_decode_kv`; `none` is the result `false`. That bytes are left
over is noticed only at the end, when all items have been decoded. -/
def decodeKv (data : Bytes) (maxItems : ℕ) : Option (List Kv) :=
  if data.length < 2 then none
  else
    let count := (readLe16 data).toNat
    if maxItems < count ∨ maxKv < count then none
    else
      match decodeKvItems data count 2 with
      | none => none
      | some (items, off) => if off = data.length then some items else none

/-- `kv_get`: the C string stored as the value of the first item whose key is `key`. -/
def kvGet (items : List Kv) (key : Bytes) : Option Bytes :=
  (items.find? fun item => cStr item.key = cStr key).map fun item => cStr item.value

theorem kvGet_cons (item : Kv) (items : List Kv) (key : Bytes) :
    kvGet (item :: items) key =
      if cStr item.key = cStr key then some (cStr item.value) else kvGet items key := by
  rw [kvGet, List.find?_cons]
  split_ifs with hkey
  · simp [hkey]
  · simp [hkey, kvGet]

/-! ### The layout -/

/-- The layout of one record: the two lengths, and behind them the key and the value. -/
def kvLayoutRecord (item : Kv) : Bytes :=
  leBytes 2 item.key.length ++ (leBytes 2 item.value.length ++ (item.key ++ item.value))

/-- The layout of a KV payload, PROTOCOL.md §4: the number of items, and the records. -/
def kvLayout (items : List Kv) : Bytes :=
  leBytes 2 items.length ++ items.flatMap kvLayoutRecord

/-- An item whose lengths fit their 16-bit fields. These are the items that the format can
tell. -/
def Kv.Fits (item : Kv) : Prop := item.key.length < 2 ^ 16 ∧ item.value.length < 2 ^ 16

theorem length_kvLayoutRecord (item : Kv) :
    (kvLayoutRecord item).length = 4 + item.key.length + item.value.length := by
  simp only [kvLayoutRecord, List.length_append, length_leBytes]
  omega

/-- A payload of items that fit has at most 128 KiB for each item. -/
theorem length_kvLayout_le {items : List Kv} (h : ∀ item ∈ items, item.Fits) :
    (kvLayout items).length ≤ 2 + items.length * (2 ^ 17 + 2) := by
  have hrecords : (items.flatMap kvLayoutRecord).length ≤ items.length * (2 ^ 17 + 2) := by
    induction items with
    | nil => simp
    | cons item items ih =>
      obtain ⟨hk, hv⟩ := h item (by simp)
      have hrest := ih fun i hi => h i (by simp [hi])
      rw [List.flatMap_cons, List.length_append, length_kvLayoutRecord, List.length_cons]
      omega
  rw [kvLayout, List.length_append, length_leBytes]
  omega

/-- Where the decoder stands at a record, it reads the record's lengths and contents and
goes on behind it. What is in front of the record and behind it does not matter. -/
private theorem decodeKvItems_record {pre post : Bytes} {item : Kv} (h : item.Fits) (count : ℕ) :
    decodeKvItems (pre ++ (kvLayoutRecord item ++ post)) (count + 1) pre.length =
      match decodeKvItems (pre ++ (kvLayoutRecord item ++ post)) count
        (pre.length + (kvLayoutRecord item).length) with
      | none => none
      | some (items, off) => some (item :: items, off) := by
  obtain ⟨hk, hv⟩ := h
  -- every read at an offset behind `pre` is a read of what follows `pre`
  have hdrop : ∀ n, (pre ++ (kvLayoutRecord item ++ post)).drop (pre.length + n) =
      (kvLayoutRecord item ++ post).drop n := fun n => by
    rw [← List.drop_drop, List.drop_left]
  have hklen : (readLe16 ((pre ++ (kvLayoutRecord item ++ post)).drop pre.length)).toNat =
      item.key.length := by
    have hpos := hdrop 0
    rw [add_zero, List.drop_zero] at hpos
    rw [hpos, toNat_readLe16 (by rw [List.length_append, length_kvLayoutRecord]; omega),
      kvLayoutRecord, List.append_assoc, List.take_left' (length_leBytes 2 _),
      leNat_leBytes_of_lt hk]
  have hvlen : (readLe16 ((pre ++ (kvLayoutRecord item ++ post)).drop (pre.length + 2))).toNat =
      item.value.length := by
    rw [hdrop, kvLayoutRecord, List.append_assoc, List.drop_left' (length_leBytes 2 _),
      toNat_readLe16 (by simp [length_leBytes]), List.append_assoc,
      List.take_left' (length_leBytes 2 _), leNat_leBytes_of_lt hv]
  have hbody : (pre ++ (kvLayoutRecord item ++ post)).drop (pre.length + 4) =
      item.key ++ (item.value ++ post) := by
    rw [hdrop, kvLayoutRecord, ← List.append_assoc (leBytes 2 _), List.append_assoc _ _ post,
      List.drop_left' (by simp [length_leBytes]), List.append_assoc]
  have hvalue : (pre ++ (kvLayoutRecord item ++ post)).drop (pre.length + 4 + item.key.length) =
      item.value ++ post := by
    rw [← List.drop_drop, hbody, List.drop_left]
  have hlen : (pre ++ (kvLayoutRecord item ++ post)).length =
      pre.length + (4 + item.key.length + item.value.length) + post.length := by
    simp only [List.length_append, length_kvLayoutRecord]
    omega
  rw [decodeKvItems, if_neg (by omega)]
  simp only [hklen, hvlen, hbody, hvalue, List.take_left]
  rw [if_neg (by omega), length_kvLayoutRecord, show pre.length + (4 + item.key.length +
    item.value.length) = pre.length + 4 + item.key.length + item.value.length by omega]

/-- The decoder's loop reads the records back, whatever is behind them. -/
theorem decodeKvItems_flatMap {items : List Kv} (h : ∀ item ∈ items, item.Fits) (pre post : Bytes) :
    decodeKvItems (pre ++ (items.flatMap kvLayoutRecord ++ post)) items.length pre.length =
      some (items, pre.length + (items.flatMap kvLayoutRecord).length) := by
  induction items generalizing pre with
  | nil => simp [decodeKvItems]
  | cons item items ih =>
    have hrest := ih (fun i hi => h i (by simp [hi])) (pre ++ kvLayoutRecord item)
    rw [List.append_assoc, List.length_append] at hrest
    rw [List.flatMap_cons, List.append_assoc, List.length_cons,
      decodeKvItems_record (h item (by simp)), hrest, List.length_append, Nat.add_assoc]

/-- What the decoder's loop reads is the layout of the items it returns. This is the
direction that rules out a payload with two readings. -/
theorem exists_of_decodeKvItems {data : Bytes} {count off off' : ℕ} {items : List Kv}
    (hoff : off ≤ data.length) (h : decodeKvItems data count off = some (items, off')) :
    items.length = count ∧ (∀ item ∈ items, item.Fits) ∧ off' ≤ data.length ∧
      data.drop off = items.flatMap kvLayoutRecord ++ data.drop off' := by
  induction count generalizing off items with
  | zero =>
    obtain ⟨rfl, rfl⟩ := Prod.mk.inj (Option.some.inj h)
    exact ⟨rfl, List.forall_mem_nil _, hoff, rfl⟩
  | succ count ih =>
    rw [decodeKvItems] at h
    dsimp only at h
    split_ifs at h with hlens hbody
    obtain ⟨klen, hklen⟩ : ∃ klen, klen = (readLe16 (data.drop off)).toNat := ⟨_, rfl⟩
    obtain ⟨vlen, hvlen⟩ : ∃ vlen, vlen = (readLe16 (data.drop (off + 2))).toNat := ⟨_, rfl⟩
    rw [← hklen, ← hvlen] at h hbody
    rcases hrest : decodeKvItems data count (off + 4 + klen + vlen) with _ | ⟨rest, off''⟩
    · simp [hrest] at h
    rw [hrest] at h
    obtain ⟨rfl, rfl⟩ := Prod.mk.inj (Option.some.inj h)
    obtain ⟨hcount, hfits, hend, hdrop⟩ := ih (not_lt.mp hbody) hrest
    -- the two lengths, the key, the value, and what follows
    have hfield : ∀ n, n + 2 ≤ data.length →
        leBytes 2 (readLe16 (data.drop n)).toNat = (data.drop n).take 2 := by
      intro n hn
      have htwo : ((data.drop n).take 2).length = 2 := by
        rw [List.length_take, List.length_drop]
        omega
      rw [toNat_readLe16 (by rw [List.length_drop]; omega)]
      have hback := leBytes_leNat ((data.drop n).take 2)
      rwa [htwo] at hback
    have hkey : ((data.drop (off + 4)).take klen).length = klen := by
      rw [List.length_take, List.length_drop]
      omega
    have hvalue : ((data.drop (off + 4 + klen)).take vlen).length = vlen := by
      rw [List.length_take, List.length_drop]
      omega
    have hsplit : ∀ n m, data.drop n = (data.drop n).take m ++ data.drop (n + m) := by
      intro n m
      rw [← List.drop_drop, List.take_append_drop]
    refine ⟨by rw [List.length_cons, hcount], ?_, hend, ?_⟩
    · rintro item (_ | ⟨_, hitem⟩)
      · exact ⟨by rw [hkey, hklen]; exact UInt16.toNat_lt _,
          by rw [hvalue, hvlen]; exact UInt16.toNat_lt _⟩
      · exact hfits item hitem
    · rw [List.flatMap_cons, List.append_assoc, ← hdrop, kvLayoutRecord, hkey, hvalue, hklen,
        hfield off (by omega), hvlen, hfield (off + 2) (by omega), ← hklen, ← hvlen,
        List.append_assoc, List.append_assoc, List.append_assoc, ← hsplit (off + 4 + klen) vlen,
        ← hsplit (off + 4) klen, ← hsplit (off + 2) 2, ← hsplit off 2]

/-- A payload of items: they are at most `maxItems` and at most 32, their lengths fit, and
the payload is their layout. -/
structure IsKvPayload (maxItems : ℕ) (data : Bytes) (items : List Kv) : Prop where
  count : items.length ≤ min maxItems maxKv
  fits : ∀ item ∈ items, item.Fits
  layout : data = kvLayout items

/-- The count of a payload, and what is behind it. -/
theorem readLe16_kvLayout {items : List Kv} (hcount : items.length ≤ maxKv) (post : Bytes) :
    (readLe16 (kvLayout items ++ post)).toNat = items.length := by
  rw [kvLayout, List.append_assoc, toNat_readLe16 (by simp [length_leBytes]),
    List.take_left' (length_leBytes 2 _), leNat_leBytes_of_lt (by rw [maxKv] at hcount; omega)]

/-- **The decoder** accepts exactly the payloads of items, and returns the items. -/
theorem decodeKv_eq_some_iff {data : Bytes} {maxItems : ℕ} {items : List Kv} :
    decodeKv data maxItems = some items ↔ IsKvPayload maxItems data items := by
  constructor
  · intro h
    rw [decodeKv] at h
    dsimp only at h
    split_ifs at h with hshort hmany
    rcases hitems : decodeKvItems data (readLe16 data).toNat 2 with _ | ⟨items', off⟩
    · simp [hitems] at h
    rw [hitems] at h
    dsimp only at h
    split_ifs at h with hend
    obtain rfl := Option.some.inj h
    obtain ⟨hcount, hfits, -, hdrop⟩ := exists_of_decodeKvItems (not_lt.mp hshort) hitems
    rw [hend, List.drop_length, List.append_nil] at hdrop
    refine ⟨by rw [hcount]; omega, hfits, ?_⟩
    have htwo : (data.take 2).length = 2 := List.length_take_of_le (not_lt.mp hshort)
    have hback := leBytes_leNat (data.take 2)
    rw [htwo, ← toNat_readLe16 (not_lt.mp hshort), ← hcount] at hback
    rw [kvLayout, hback, ← hdrop, List.take_append_drop]
  · rintro ⟨hcount, hfits, rfl⟩
    have hcount' := readLe16_kvLayout (hcount.trans (min_le_right _ _)) []
    rw [List.append_nil] at hcount'
    have hitems := decodeKvItems_flatMap hfits (leBytes 2 items.length) []
    rw [length_leBytes, List.append_nil] at hitems
    have htwo : 2 ≤ (kvLayout items).length := by
      rw [kvLayout, List.length_append, length_leBytes]
      omega
    rw [decodeKv, if_neg (by omega), hcount', if_neg (by omega),
      show kvLayout items = leBytes 2 items.length ++ items.flatMap kvLayoutRecord from rfl, hitems,
      List.length_append, length_leBytes]
    exact if_pos rfl

/-- **Round trip.** The decoder reads back the layout of at most `maxKv` items that fit. -/
theorem decodeKv_kvLayout {items : List Kv} (h : ∀ item ∈ items, item.Fits)
    (hcount : items.length ≤ maxKv) : decodeKv (kvLayout items) maxKv = some items :=
  decodeKv_eq_some_iff.mpr ⟨by rwa [min_self], h, rfl⟩

/-- What the encoder keeps of an item: the first bytes of its strings, as many as their
lengths modulo `2 ^ 16`. Items whose strings are shorter than that are kept whole. -/
def Kv.kept (item : Kv) : Kv where
  key := item.key.take (strlen item.key % 2 ^ 16)
  value := item.value.take (strlen item.value % 2 ^ 16)

theorem Kv.kept_fits (item : Kv) : item.kept.Fits := by
  have hfits : ∀ text : Bytes, (text.take (strlen text % 2 ^ 16)).length < 2 ^ 16 := fun text =>
    (List.length_take_le _ _).trans_lt (Nat.mod_lt _ (by norm_num))
  exact ⟨hfits item.key, hfits item.value⟩

/-- **The encoder.** It writes the layout of what it keeps. -/
theorem encodeKv_eq_kvLayout_kept {items : List Kv} (hcount : items.length ≤ maxKv) :
    encodeKv items = some (kvLayout (items.map Kv.kept)) := by
  have hrecord : ∀ item : Kv, encodeKvRecord item = kvLayoutRecord item.kept := by
    intro item
    have hlen : ∀ text : Bytes, (text.take (strlen text % 2 ^ 16)).length =
        strlen text % 2 ^ 16 := fun text =>
      List.length_take_of_le ((Nat.mod_le _ _).trans (length_cStr_le text))
    simp only [encodeKvRecord, kvLayoutRecord, Kv.kept, hlen, writeLe16_eq, UInt16.toNat_ofNat']
  have hlen : (UInt16.ofNat items.length).toNat = items.length :=
    UInt16.toNat_ofNat_of_lt' (by rw [maxKv] at hcount; rw [UInt16.size]; omega)
  rw [encodeKv, if_neg (by omega), kvLayout, writeLe16_eq, hlen, List.length_map, List.flatMap_map,
    List.flatMap_congr fun item _ => hrecord item]

/-! ### The encoder's buffer -/

/-- One round of the loop of `usb_responder_protocol_encode_kv`, with the calls of
`append_bytes` it makes. The source skips the call for an empty string, and so does this. -/
def appendKv (fresh : UInt8) (buf : GrowBuffer UInt8) (item : Kv) : GrowBuffer UInt8 :=
  let klen := UInt16.ofNat (strlen item.key)
  let vlen := UInt16.ofNat (strlen item.value)
  let buf := buf.append fresh (writeLe16 klen ++ writeLe16 vlen)
  let buf := if 0 < klen.toNat then buf.append fresh (item.key.take klen.toNat) else buf
  if 0 < vlen.toNat then buf.append fresh (item.value.take vlen.toNat) else buf

/-- `usb_responder_protocol_encode_kv` with its buffer, which `append_bytes` enlarges. -/
def encodeKvBuffer (fresh : UInt8) (items : List Kv) : Option (GrowBuffer UInt8) :=
  if maxKv < items.length then none
  else
    let buf := GrowBuffer.empty.append fresh (writeLe16 (UInt16.ofNat items.length))
    some (items.foldl (appendKv fresh) buf)

/-- A round adds its record to the contents. -/
private theorem contents_appendKv (fresh : UInt8) (buf : GrowBuffer UInt8) (item : Kv) :
    (appendKv fresh buf item).contents = buf.contents ++ encodeKvRecord item := by
  have hpart : ∀ (b : GrowBuffer UInt8) (text : Bytes) (n : ℕ),
      (if 0 < n then b.append fresh (text.take n) else b).contents =
        b.contents ++ text.take n := by
    intro b text n
    split_ifs with hpos
    · exact b.contents_append fresh _
    · rw [Nat.eq_zero_of_not_pos hpos, List.take_zero, List.append_nil]
  rw [appendKv, encodeKvRecord]
  simp only [hpart, GrowBuffer.contents_append, List.append_assoc]

/-- The buffer holds what is encoded. So the doubling of its capacity cannot be seen in the
result. -/
theorem contents_encodeKvBuffer (fresh : UInt8) (items : List Kv) :
    (encodeKvBuffer fresh items).map GrowBuffer.contents = encodeKv items := by
  have hloop : ∀ (items : List Kv) (buf : GrowBuffer UInt8),
      (items.foldl (appendKv fresh) buf).contents =
        buf.contents ++ items.flatMap encodeKvRecord := by
    intro items
    induction items with
    | nil => exact fun buf => (List.append_nil _).symm
    | cons item items ih =>
      intro buf
      rw [List.foldl_cons, ih, contents_appendKv, List.flatMap_cons, List.append_assoc]
  rw [encodeKvBuffer, encodeKv]
  split_ifs
  · rfl
  · rw [Option.map_some, hloop, GrowBuffer.contents_append, GrowBuffer.contents_empty,
      List.nil_append]

end UsbResponder
