import Mathlib.Logic.Function.Basic
import UsbResponder.Protocol.KeyValue

/-!
# Key-value payloads in memory

`usb_responder_protocol_decode_kv` with the array it fills. A slot of the array holds two
pointers, null or to a block of its own; which calls of `malloc` succeed is an input, and
every byte is read and written with a check of its index, so that an access out of bounds
has no result.

There is always one, and the decoder accepts exactly the payloads of items
(`decodeKvInto_exact`), those that `decodeKv` accepts (`decodeKv_eq_some_iff`). A refusal
leaves the array empty unless the payload of some items is followed by more bytes, which is
found only when everything is decoded (`decodeKvInto_refusal_clean_iff`).

The loop is described once, by what any number of its rounds leaves: the slots it has
filled, or null slots up to the one at which it gave up. The results above are read off this
description at the end of the loop. That blocks do not overlap is part of what `malloc`
documents and is built into the slots; addresses, alignment and the heap around the blocks
are not modelled.
-/

namespace UsbResponder

open LittleEndian CString

/-! ### The source -/

/-- `memcpy` from `data + off`, byte by byte; it has no result where a byte is outside the
data. -/
def copyFrom (data : Bytes) : ℕ → ℕ → Option Bytes
  | _, 0 => some []
  | off, n + 1 => do
    let b ← data[off]?
    let bs ← copyFrom data (off + 1) n
    some (b :: bs)

/-- `read_le16(data + off)`. -/
def readLe16At (data : Bytes) (off : ℕ) : Option UInt16 := (copyFrom data off 2).map readLe16

/-- `usb_responder_kv_t`, with the blocks its pointers point to, `none` for null. -/
structure KvSlot where
  key : Option Bytes
  value : Option Bytes
  deriving DecidableEq, Repr

/-- A slot of an array that has been cleared. -/
def KvSlot.null : KvSlot := ⟨none, none⟩

/-- `malloc`, which succeeds if `ok` says so. What the block holds is left open by `fresh`,
so nothing can be proved about a byte that has not been written. -/
def malloc (fresh : UInt8) (ok : Bool) (size : ℕ) : Option Bytes :=
  if ok then some (List.replicate size fresh) else none

/-- Copy `len` bytes from `data + off` to a block and put a NUL behind them. -/
def copyString (block data : Bytes) (off len : ℕ) : Option Bytes := do
  let bytes ← copyFrom data off len
  let block ← store block 0 bytes
  store block len [0]

section Decode

variable (fresh : UInt8) (alloc : ℕ → Bool) (data : Bytes) {maxItems : ℕ}

/-- Set `out_items[i]`; there is no result where the index is not below the size of the
array. -/
def storeSlot (outItems : Fin maxItems → KvSlot) (i : ℕ) (slot : KvSlot) :
    Option (Fin maxItems → KvSlot) :=
  if h : i < maxItems then some (Function.update outItems ⟨i, h⟩ slot) else none

/-- `usb_responder_protocol_kv_free`. The slots it frees are cleared, so that freeing them
again does nothing; the others stay as they are. -/
def kvFree (items : Fin maxItems → KvSlot) (count : ℕ) : Fin maxItems → KvSlot := fun i =>
  if (i : ℕ) < count then .null else items i

/-- The loop of `usb_responder_protocol_decode_kv`: `n` more rounds from round `i` at offset
`off`. Returns the offset behind the last record, or `none` where the function returns
`false`, and the array. A round calls `malloc` twice, so its calls have the numbers `2 * i`
and `2 * i + 1`; both are made before either result is looked at. -/
def decodeKvRounds :
    ℕ → ℕ → ℕ → (Fin maxItems → KvSlot) → Option (Option ℕ × (Fin maxItems → KvSlot))
  | 0, _, off, outItems => some (some off, outItems)
  | n + 1, i, off, outItems =>
    if data.length < off + 4 then some (none, kvFree outItems i)
    else do
      let klen := (← readLe16At data off).toNat
      let vlen := (← readLe16At data (off + 2)).toNat
      let off := off + 4
      if data.length < off + klen + vlen then some (none, kvFree outItems i)
      else
        let slot : KvSlot :=
          ⟨malloc fresh (alloc (2 * i)) (klen + 1), malloc fresh (alloc (2 * i + 1)) (vlen + 1)⟩
        let outItems ← storeSlot outItems i slot
        match slot.key, slot.value with
        | some key, some value =>
          let key ← copyString key data off klen
          let value ← copyString value data (off + klen) vlen
          let outItems ← storeSlot outItems i ⟨some key, some value⟩
          decodeKvRounds n (i + 1) (off + klen + vlen) outItems
        | _, _ => some (none, kvFree outItems (i + 1))

/-- What `usb_responder_protocol_decode_kv` leaves: its result, the array, and what it has
set `*out_count` to. -/
structure KvDecoded (maxItems : ℕ) where
  ok : Bool
  outItems : Fin maxItems → KvSlot
  outCount : Option ℕ

/-- `usb_responder_protocol_decode_kv` on an array of `max_items` slots. -/
def decodeKvInto (outItems : Fin maxItems → KvSlot) : Option (KvDecoded maxItems) :=
  if data.length < 2 then some ⟨false, outItems, none⟩
  else do
    let count := (← readLe16At data 0).toNat
    if maxItems < count ∨ maxKv < count then some ⟨false, outItems, none⟩
    else
      match ← decodeKvRounds fresh alloc data count 0 2 outItems with
      | (none, outItems) => some ⟨false, outItems, none⟩
      | (some off, outItems) => some ⟨decide (off = data.length), outItems, some count⟩

end Decode

/-! ### Reads and writes in bounds -/

theorem copyFrom_eq {data : Bytes} {off n : ℕ} (h : off + n ≤ data.length) :
    copyFrom data off n = some ((data.drop off).take n) := by
  induction n generalizing off with
  | zero => rfl
  | succ n ih =>
    have hoff : off < data.length := by omega
    rw [copyFrom, List.getElem?_eq_getElem hoff, ih (by omega), List.drop_eq_getElem_cons hoff]
    rfl

/-- Two bytes inside the data are read without leaving it, and as the byte-string decoder
reads them. -/
private theorem readLe16At_eq {data : Bytes} {off : ℕ} (h : off + 2 ≤ data.length) :
    readLe16At data off = some (readLe16 (data.drop off)) := by
  have hlen : 2 ≤ (data.drop off).length := by
    rw [List.length_drop]
    omega
  rw [readLe16At, copyFrom_eq h, Option.map_some]
  congr 1
  apply UInt16.toNat_inj.mp
  rw [toNat_readLe16 hlen, toNat_readLe16 (by rw [List.length_take_of_le hlen]), List.take_take,
    min_self]

/-- A block with room for the NUL holds the string, whatever was in it. -/
private theorem copyString_eq {data : Bytes} {off len : ℕ} (fresh : UInt8)
    (h : off + len ≤ data.length) :
    copyString (List.replicate (len + 1) fresh) data off len =
      some ((data.drop off).take len ++ [0]) := by
  have hlen : ((data.drop off).take len).length = len := by
    rw [List.length_take, List.length_drop]
    omega
  obtain ⟨bytes, hbytes⟩ : ∃ bytes, bytes = (data.drop off).take len := ⟨_, rfl⟩
  rw [← hbytes] at hlen ⊢
  rw [copyString, copyFrom_eq h, ← hbytes]
  simp [store, hlen]

/-! ### The loop -/

/-- The slot of an item: its strings in blocks of their own, each with a NUL behind it. -/
def Kv.stored (item : Kv) : KvSlot := ⟨some (item.key ++ [0]), some (item.value ++ [0])⟩

/-- The array with `items` stored from slot `i` on. What the slots behind the items held is
still there. -/
def storedFrom {maxItems : ℕ} (outItems : Fin maxItems → KvSlot) (i : ℕ) (items : List Kv) :
    Fin maxItems → KvSlot := fun j =>
  if (j : ℕ) < i then outItems j else (items[(j : ℕ) - i]?.map Kv.stored).getD (outItems j)

/-- The calls of `malloc` in `n` rounds from round `i` on succeed. -/
def Allocates (alloc : ℕ → Bool) (i n : ℕ) : Prop :=
  ∀ k, 2 * i ≤ k → k < 2 * (i + n) → alloc k = true

private theorem allocates_succ {alloc : ℕ → Bool} {i n : ℕ} :
    Allocates alloc i (n + 1) ↔
      (alloc (2 * i) = true ∧ alloc (2 * i + 1) = true) ∧ Allocates alloc (i + 1) n := by
  constructor
  · intro h
    exact ⟨⟨h _ le_rfl (by omega), h _ (by omega) (by omega)⟩,
      fun k hk hk' => h k (by omega) (by omega)⟩
  · rintro ⟨⟨hkey, hvalue⟩, hrest⟩ k hk hk'
    obtain rfl | rfl | hk'' : k = 2 * i ∨ k = 2 * i + 1 ∨ 2 * (i + 1) ≤ k := by omega
    · exact hkey
    · exact hvalue
    · exact hrest k hk'' (by omega)

section Rounds

variable {fresh : UInt8} {alloc : ℕ → Bool} {data : Bytes} {maxItems : ℕ}
  {outItems : Fin maxItems → KvSlot} {n i off : ℕ}

/-- Storing nothing changes nothing. -/
private theorem storedFrom_nil (outItems : Fin maxItems → KvSlot) (i : ℕ) :
    storedFrom outItems i [] = outItems := by
  funext j
  rw [storedFrom]
  split_ifs <;> rfl

/-- Storing an item and then the others is storing them all. This is what a successful round
adds to the description of the loop. -/
private theorem storedFrom_update (hi : i < maxItems) (item : Kv) (items : List Kv) :
    storedFrom (Function.update outItems ⟨i, hi⟩ item.stored) (i + 1) items =
      storedFrom outItems i (item :: items) := by
  funext j
  obtain hj | hj | hj : (j : ℕ) < i ∨ (j : ℕ) = i ∨ i < j := by omega
  · rw [storedFrom, storedFrom, if_pos (by omega), if_pos hj,
      Function.update_of_ne (by rintro rfl; exact absurd hj (by simp))]
  · obtain rfl : j = ⟨i, hi⟩ := Fin.ext hj
    rw [storedFrom, storedFrom, if_pos (Nat.lt_succ_self i), if_neg (lt_irrefl i),
      Function.update_self]
    simp
  · rw [storedFrom, storedFrom, if_neg (by omega), if_neg (by omega),
      show (j : ℕ) - i = (j : ℕ) - (i + 1) + 1 by omega, List.getElem?_cons_succ,
      Function.update_of_ne (by rintro rfl; exact absurd hj (by simp))]

/-- A slot that is cleared with those in front of it may have been written before. So a
round that gives up leaves the same array, whichever of its blocks it had got. -/
private theorem kvFree_update (hi : i < maxItems) (slot : KvSlot) {m : ℕ} (hm : i < m) :
    kvFree (Function.update outItems ⟨i, hi⟩ slot) m = kvFree outItems m := by
  funext j
  rw [kvFree, kvFree]
  split_ifs with hj
  · rfl
  · rw [Function.update_of_ne (by rintro rfl; exact hj hm)]

/-- **One round.** A round that finds a whole record stores it, or gives up when a `malloc`
fails; one that finds none gives up. Giving up clears the slots written so far. All accesses
of a round are in bounds. -/
theorem decodeKvRounds_succ (hi : i < maxItems) :
    let klen := (readLe16 (data.drop off)).toNat
    let vlen := (readLe16 (data.drop (off + 2))).toNat
    decodeKvRounds fresh alloc data (n + 1) i off outItems =
      if data.length < off + 4 ∨ data.length < off + 4 + klen + vlen then
        some (none, kvFree outItems i)
      else if alloc (2 * i) = true ∧ alloc (2 * i + 1) = true then
        decodeKvRounds fresh alloc data n (i + 1) (off + 4 + klen + vlen)
          (Function.update outItems ⟨i, hi⟩ (Kv.stored
            ⟨(data.drop (off + 4)).take klen, (data.drop (off + 4 + klen)).take vlen⟩))
      else some (none, kvFree outItems (i + 1)) := by
  intro klen vlen
  rw [decodeKvRounds]
  by_cases hlens : data.length < off + 4
  · rw [if_pos hlens, if_pos (.inl hlens)]
  rw [if_neg hlens, readLe16At_eq (by omega), readLe16At_eq (by omega)]
  simp only [Option.bind_eq_bind, Option.bind_some]
  by_cases hbody : data.length < off + 4 + klen + vlen
  · rw [if_pos hbody, if_pos (.inr hbody)]
  rw [if_neg hbody, if_neg (not_or.mpr ⟨hlens, hbody⟩), storeSlot, dif_pos hi, Option.bind_some]
  by_cases halloc : alloc (2 * i) = true ∧ alloc (2 * i + 1) = true
  · rw [if_pos halloc]
    simp only [malloc, halloc.1, halloc.2, if_true]
    rw [copyString_eq fresh (by omega), Option.bind_some, copyString_eq fresh (by omega),
      Option.bind_some, storeSlot, dif_pos hi, Option.bind_some, Function.update_idem]
    rfl
  · rw [if_neg halloc]
    rcases hkey : alloc (2 * i) with _ | _
    · simp only [malloc, kvFree_update hi _ (Nat.lt_succ_self i)]
      rfl
    rcases hvalue : alloc (2 * i + 1) with _ | _
    · simp only [malloc, kvFree_update hi _ (Nat.lt_succ_self i)]
      rfl
    · exact absurd ⟨hkey, hvalue⟩ halloc

/-- The loop stores what the loop on byte strings returns, when the calls of `malloc`
succeed. Stated from any round on, so that the induction on the rounds left goes through. -/
private theorem decodeKvRounds_of_some (fresh : UInt8) (outItems : Fin maxItems → KvSlot)
    {items : List Kv} {off' : ℕ} (hn : i + n ≤ maxItems)
    (h : decodeKvItems data n off = some (items, off')) (halloc : Allocates alloc i n) :
    decodeKvRounds fresh alloc data n i off outItems =
      some (some off', storedFrom outItems i items) := by
  induction n generalizing i off outItems items with
  | zero =>
    obtain ⟨rfl, rfl⟩ := Prod.mk.inj (Option.some.inj h)
    rw [storedFrom_nil, decodeKvRounds]
  | succ n ih =>
    rw [allocates_succ] at halloc
    rw [decodeKvItems] at h
    dsimp only at h
    split_ifs at h with hlens hbody
    rcases hrest : decodeKvItems data n (off + 4 + (readLe16 (data.drop off)).toNat +
      (readLe16 (data.drop (off + 2))).toNat) with _ | ⟨rest, off''⟩
    · simp [hrest] at h
    rw [hrest] at h
    obtain ⟨rfl, rfl⟩ := Prod.mk.inj (Option.some.inj h)
    rw [decodeKvRounds_succ (by omega), if_neg (not_or.mpr ⟨hlens, hbody⟩), if_pos halloc.1,
      ih _ (by omega) hrest halloc.2, storedFrom_update]

/-- The loop gives up where the loop on byte strings does, or when a call of `malloc` fails,
and then the slots it has written are cleared. -/
private theorem decodeKvRounds_of_none (fresh : UInt8) (outItems : Fin maxItems → KvSlot)
    (hn : i + n ≤ maxItems) (h : decodeKvItems data n off = none ∨ ¬Allocates alloc i n) :
    ∃ m, i ≤ m ∧
      decodeKvRounds fresh alloc data n i off outItems = some (none, kvFree outItems m) := by
  induction n generalizing i off outItems with
  | zero =>
    obtain h | h := h
    · exact absurd h (Option.some_ne_none _)
    · exact absurd (fun k hk hk' => absurd hk' (by omega)) h
  | succ n ih =>
    rw [decodeKvRounds_succ (by omega)]
    split_ifs with hshort halloc
    · exact ⟨i, le_rfl, rfl⟩
    · obtain ⟨hlens, hbody⟩ := not_or.mp hshort
      have hrest : decodeKvItems data n (off + 4 + (readLe16 (data.drop off)).toNat +
          (readLe16 (data.drop (off + 2))).toNat) = none ∨ ¬Allocates alloc (i + 1) n := by
        refine h.imp (fun hnone => ?_) fun hfails hrest =>
          hfails (allocates_succ.mpr ⟨halloc, hrest⟩)
        rw [decodeKvItems, if_neg hlens] at hnone
        dsimp only at hnone
        rw [if_neg hbody] at hnone
        cases hitems : decodeKvItems data n (off + 4 + (readLe16 (data.drop off)).toNat +
          (readLe16 (data.drop (off + 2))).toNat) with
        | none => rfl
        | some r =>
          rw [hitems] at hnone
          exact absurd hnone (Option.some_ne_none _)
      obtain ⟨m, hm, hrun⟩ := ih _ (by omega) hrest
      exact ⟨m, by omega, by rw [hrun, kvFree_update _ _ (by omega)]⟩
    · exact ⟨i + 1, by omega, rfl⟩

end Rounds

/-! ### The function -/

/-- `data` starts with a payload of `items`, and `extra` is what follows it. With no `extra`
this is a payload; with some, the decoder has stored the items before it sees that it must
refuse. -/
structure StartsWithKv (maxItems : ℕ) (data : Bytes) (items : List Kv) (extra : Bytes) : Prop where
  count : items.length ≤ min maxItems maxKv
  fits : ∀ item ∈ items, item.Fits
  layout : data = kvLayout items ++ extra

private theorem startsWithKv_nil_iff {maxItems : ℕ} {data : Bytes} {items : List Kv} :
    StartsWithKv maxItems data items [] ↔ IsKvPayload maxItems data items := by
  constructor
  · rintro ⟨hcount, hfits, hlayout⟩
    exact ⟨hcount, hfits, by rwa [List.append_nil] at hlayout⟩
  · rintro ⟨hcount, hfits, hlayout⟩
    exact ⟨hcount, hfits, by rwa [List.append_nil]⟩

section Into

variable {fresh : UInt8} {alloc : ℕ → Bool} {data : Bytes} {maxItems : ℕ} {items : List Kv}
  {extra : Bytes}

theorem StartsWithKv.readLe16 (h : StartsWithKv maxItems data items extra) :
    (readLe16 data).toNat = items.length := by
  rw [h.layout]
  exact readLe16_kvLayout (h.count.trans (min_le_right _ _)) extra

/-- What the loop on byte strings returns for the payload. -/
theorem StartsWithKv.decodeKvItems (h : StartsWithKv maxItems data items extra) :
    UsbResponder.decodeKvItems data items.length 2 = some (items, (kvLayout items).length) := by
  have hitems := decodeKvItems_flatMap h.fits (leBytes 2 items.length) extra
  rw [← List.append_assoc, length_leBytes] at hitems
  rw [h.layout, kvLayout, hitems, List.length_append, length_leBytes]

/-- Only one list of items is in front of the bytes that follow. -/
theorem StartsWithKv.unique {items' : List Kv} {extra' : Bytes}
    (h : StartsWithKv maxItems data items extra) (h' : StartsWithKv maxItems data items' extra') :
    items = items' ∧ extra = extra' := by
  have hcount : items.length = items'.length := h.readLe16.symm.trans h'.readLe16
  have hitems := h.decodeKvItems
  rw [hcount, h'.decodeKvItems] at hitems
  obtain rfl := (Prod.mk.inj (Option.some.inj hitems)).1
  exact ⟨rfl, List.append_cancel_left (h.layout.symm.trans h'.layout)⟩

/-- What the loop on byte strings returns is in front of what is behind it. -/
private theorem startsWithKv_of_decodeKvItems {off : ℕ} (hlong : 2 ≤ data.length)
    (hcount : (LittleEndian.readLe16 data).toNat ≤ min maxItems maxKv)
    (h : UsbResponder.decodeKvItems data (LittleEndian.readLe16 data).toNat 2 = some (items, off)) :
    StartsWithKv maxItems data items (data.drop off) ∧ off = (kvLayout items).length ∧
      off ≤ data.length := by
  obtain ⟨hlength, hfits, hoff, hdrop⟩ := exists_of_decodeKvItems hlong h
  have hlayout : data = kvLayout items ++ data.drop off := by
    have htwo : (data.take 2).length = 2 := List.length_take_of_le hlong
    have hback := leBytes_leNat (data.take 2)
    rw [htwo, ← toNat_readLe16 hlong, ← hlength] at hback
    rw [kvLayout, hback, List.append_assoc, ← hdrop, List.take_append_drop]
  have hstarts : StartsWithKv maxItems data items (data.drop off) :=
    ⟨by rwa [hlength], hfits, hlayout⟩
  have hitems := hstarts.decodeKvItems
  rw [hlength, h] at hitems
  exact ⟨hstarts, (Prod.mk.inj (Option.some.inj hitems)).2, hoff⟩

private theorem kvFree_zero (outItems : Fin maxItems → KvSlot) : kvFree outItems 0 = outItems := rfl

/-- **What the decoder does.** It stores the items of the payload that the data starts with,
and succeeds if nothing follows; or there is no such payload, or a call of `malloc` fails,
and it fails with the slots cleared that it has written. -/
theorem decodeKvInto_cases (fresh : UInt8) (alloc : ℕ → Bool) (data : Bytes)
    (outItems : Fin maxItems → KvSlot) :
    (∃ items extra, StartsWithKv maxItems data items extra ∧ Allocates alloc 0 items.length ∧
        decodeKvInto fresh alloc data outItems =
          some ⟨decide (extra = []), storedFrom outItems 0 items, some items.length⟩) ∨
      (∀ items extra, StartsWithKv maxItems data items extra → ¬Allocates alloc 0 items.length) ∧
        ∃ m, decodeKvInto fresh alloc data outItems = some ⟨false, kvFree outItems m, none⟩ := by
  rw [decodeKvInto]
  by_cases hshort : data.length < 2
  · refine .inr ⟨fun items extra h => ?_, 0, by rw [if_pos hshort, kvFree_zero]⟩
    rw [h.layout, kvLayout, List.length_append, List.length_append, length_leBytes] at hshort
    omega
  rw [if_neg hshort, readLe16At_eq (by omega), List.drop_zero, Option.bind_eq_bind,
    Option.bind_some]
  dsimp only
  -- a count that is too large belongs to no payload of items that fit
  by_cases hmany : maxItems < (LittleEndian.readLe16 data).toNat ∨
      maxKv < (LittleEndian.readLe16 data).toNat
  · refine .inr ⟨fun items extra h => ?_, 0, by rw [if_pos hmany, kvFree_zero]⟩
    have hcount := h.count
    rw [h.readLe16] at hmany
    omega
  rw [if_neg hmany]
  obtain ⟨hfew, hfew'⟩ := not_or.mp hmany
  rcases hitems : UsbResponder.decodeKvItems data (LittleEndian.readLe16 data).toNat 2 with
    _ | ⟨items, off⟩
  · -- the items do not parse, so there is no payload in front
    obtain ⟨m, -, hrun⟩ := @decodeKvRounds_of_none alloc data maxItems _ 0 2 fresh outItems
      (by omega) (.inl hitems)
    rw [hrun]
    refine .inr ⟨fun items extra h => ?_, m, rfl⟩
    rw [h.readLe16, h.decodeKvItems] at hitems
    exact absurd hitems (Option.some_ne_none _)
  obtain ⟨hstarts, hoff, hend⟩ := startsWithKv_of_decodeKvItems (by omega)
    (show _ ≤ min maxItems maxKv by omega) hitems
  have hcount := hstarts.readLe16
  -- they do, and only the allocations of this one payload decide
  by_cases halloc : Allocates alloc 0 items.length
  · rw [decodeKvRounds_of_some fresh outItems (by omega) hitems (by rwa [hcount])]
    refine .inl ⟨items, data.drop off, hstarts, halloc, ?_⟩
    have hdone : off = data.length ↔ data.drop off = [] := by
      rw [List.drop_eq_nil_iff]
      omega
    simp only [Option.bind_eq_bind, Option.bind_some, hdone, hcount]
  · obtain ⟨m, -, hrun⟩ := @decodeKvRounds_of_none alloc data maxItems
      (LittleEndian.readLe16 data).toNat 0 2 fresh outItems (by omega) (.inr (by rwa [hcount]))
    rw [hrun]
    refine .inr ⟨fun items' extra h => ?_, m, rfl⟩
    rwa [(h.unique hstarts).1]

/-- **The decoder accepts exactly the payloads.** On any data, and whatever the array holds,
it stays in bounds. It succeeds exactly if the data is a payload of at most `max_items`
items and at most 32, and the calls of `malloc` for them succeed; then it sets the count and
stores exactly these items, in their order, in the first slots of the array. -/
theorem decodeKvInto_exact (fresh : UInt8) (alloc : ℕ → Bool) (data : Bytes)
    (outItems : Fin maxItems → KvSlot) :
    ∃ r, decodeKvInto fresh alloc data outItems = some r ∧
      (r.ok = true ↔ ∃ items, IsKvPayload maxItems data items ∧ Allocates alloc 0 items.length) ∧
      ∀ items, r.ok = true → IsKvPayload maxItems data items →
        r.outCount = some items.length ∧
          ∀ j : Fin maxItems, r.outItems j = (items[j]?.map Kv.stored).getD (outItems j) := by
  obtain ⟨items, extra, hstarts, halloc, hrun⟩ | ⟨hnone, m, hrun⟩ :=
    decodeKvInto_cases fresh alloc data outItems
  · refine ⟨_, hrun, ?_, fun items' hok hitems' => ?_⟩
    · rw [decide_eq_true_iff]
      constructor
      · rintro rfl
        exact ⟨items, startsWithKv_nil_iff.mp hstarts, halloc⟩
      · rintro ⟨items', hitems', -⟩
        exact (hstarts.unique (startsWithKv_nil_iff.mpr hitems')).2
    · obtain ⟨rfl, -⟩ := hstarts.unique (startsWithKv_nil_iff.mpr hitems')
      exact ⟨rfl, fun j => rfl⟩
  · refine ⟨_, hrun, iff_of_false Bool.false_ne_true ?_, fun _ hok => absurd hok Bool.false_ne_true⟩
    rintro ⟨items, hitems, halloc⟩
    exact hnone items [] (startsWithKv_nil_iff.mpr hitems) halloc

/-- **What a refusal leaves allocated.** When the decoder refuses data, starting from an
empty array, the array is empty again, unless the data is a payload of some items with
further bytes behind it, and the calls of `malloc` for these items succeed. -/
theorem decodeKvInto_refusal_clean_iff (fresh : UInt8) (alloc : ℕ → Bool) (maxItems : ℕ)
    (data : Bytes) :
    ∃ r, decodeKvInto fresh alloc data (fun _ : Fin maxItems => KvSlot.null) = some r ∧
      ((r.ok = false → ∀ j, r.outItems j = .null) ↔
        ¬∃ items extra, StartsWithKv maxItems data items extra ∧ items ≠ [] ∧ extra ≠ [] ∧
          Allocates alloc 0 items.length) := by
  obtain ⟨items, extra, hstarts, halloc, hrun⟩ | ⟨hnone, m, hrun⟩ :=
    decodeKvInto_cases fresh alloc data fun _ : Fin maxItems => KvSlot.null
  · refine ⟨_, hrun, ?_⟩
    dsimp only
    rw [decide_eq_false_iff_not]
    constructor
    · rintro hclean ⟨items', extra', hstarts', hitems', hextra', -⟩
      obtain ⟨rfl, rfl⟩ := hstarts.unique hstarts'
      -- the first item is still in its slot
      have hpos := List.length_pos_iff.mpr hitems'
      have hslot : 0 < maxItems := hpos.trans_le (hstarts.count.trans (min_le_left _ _))
      have hnull := hclean hextra' ⟨0, hslot⟩
      rw [storedFrom, if_neg (lt_irrefl 0), Nat.sub_self, List.getElem?_eq_getElem hpos] at hnull
      exact absurd (congrArg KvSlot.key hnull) (Option.some_ne_none _)
    · intro hno hextra j
      by_cases hitems : items = []
      · rw [hitems, storedFrom_nil]
      · exact absurd ⟨items, extra, hstarts, hitems, hextra, halloc⟩ hno
  · refine ⟨_, hrun, iff_of_true (fun _ j => ?_) ?_⟩
    · dsimp only
      rw [kvFree]
      split_ifs <;> rfl
    · rintro ⟨items, extra, hstarts, -, -, halloc⟩
      exact hnone items extra hstarts halloc

/-- **A refusal can leave blocks behind.** The payload of one item with a byte behind it is
refused, and the key and the value of the item stay allocated. -/
theorem not_decodeKvInto_refusal_clean :
    ¬∀ (fresh : UInt8) (alloc : ℕ → Bool) (maxItems : ℕ) (data : Bytes) (r : KvDecoded maxItems),
      decodeKvInto fresh alloc data (fun _ : Fin maxItems => KvSlot.null) = some r → r.ok = false →
        ∀ j, r.outItems j = .null := by
  intro h
  have hrun := h 0 (fun _ => true) 32 (kvLayout [⟨utf8 "path", utf8 "a"⟩] ++ [0]) _ rfl rfl 0
  exact absurd hrun (by decide)

end Into

end UsbResponder
