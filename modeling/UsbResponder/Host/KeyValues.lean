import UsbResponder.Host.Operations

/-!
# Key-value payloads on both sides

The two codecs for key-value payloads together. Pairs of texts that the format can hold are
written as the same bytes by both encoders and read back by both decoders (`kv_round_trip`):
the device has the list of pairs, the host the dictionary that results from assigning them
in order.

What both decoders accept may still hold repeated keys, or NULs inside its strings. Then the
device looks at the first item whose key is the one asked for, up to its first NUL, and the
host at the last one whose key is exactly that; `kvGet_eq_lookup_iff` says when they see the
same value.

Each lookup is described by the item it finds, `FirstItem` and `LastItem`, and the
comparison is one of these two items. No function of the source is unfolded for it. The
round trip is reached over the layout of `Protocol.KeyValue`. Payloads that only one side
accepts, because a text in them is not UTF-8, are outside of the comparison.
-/

namespace UsbResponder

open LittleEndian CString TextLines

namespace Host

/-! ### Dictionaries -/

/-- `v` is the value of the last pair with the key `k`, which is what remains in a
dictionary. -/
def LastValue (pairs : List (String × String)) (k v : String) : Prop :=
  ∃ before after, pairs = before ++ (k, v) :: after ∧ ∀ pair ∈ after, pair.1 ≠ k

/-- A dictionary to which pairs have been assigned in order has the last value of each key. -/
private theorem lookup_reverse_eq_some_iff {pairs : List (String × String)} {k v : String} :
    pairs.reverse.lookup k = some v ↔ LastValue pairs k v := by
  rw [List.lookup_eq_some_iff]
  constructor
  · rintro ⟨l₁, l₂, hpairs, hne⟩
    refine ⟨l₂.reverse, l₁.reverse, ?_, fun pair hpair heq => ?_⟩
    · rw [← List.reverse_reverse pairs, hpairs, List.reverse_append, List.reverse_cons,
        List.append_assoc, List.singleton_append]
    · exact bne_iff_ne.mp (hne pair (List.mem_reverse.mp hpair)) heq.symm
  · rintro ⟨before, after, rfl, hne⟩
    refine ⟨after.reverse, before.reverse, ?_, fun pair hpair => ?_⟩
    · rw [List.reverse_append, List.reverse_cons, List.append_assoc, List.singleton_append]
    · exact bne_iff_ne.mpr (hne pair (List.mem_reverse.mp hpair)).symm

private theorem decodeText_eq_ok_iff {bs : Bytes} {s : String} : decodeText bs = .ok s ↔ bs =
    utf8 s := by
  constructor
  · intro h
    rw [decodeText] at h
    rcases hs : decodeUtf8 bs with _ | s'
    · simp [hs] at h
    · rw [hs] at h
      obtain rfl := Except.ok.inj h
      exact (utf8_of_decodeUtf8 hs).symm
  · rintro rfl
    rw [decodeText, decodeUtf8_utf8]

/-- Items are assigned exactly if they are texts; the dictionary then has the pairs in
reverse order, the last one first. -/
theorem assignItems_eq_ok_iff {items : List Kv} {d₀ d : Dict} :
    assignItems items d₀ = .ok d ↔
      ∃ pairs : List (String × String), items = pairs.map kvOf ∧ d = pairs.reverse ++ d₀ := by
  induction items generalizing d₀ with
  | nil =>
    rw [assignItems, Except.ok.injEq]
    constructor
    · rintro rfl
      exact ⟨[], rfl, rfl⟩
    · rintro ⟨pairs, hpairs, rfl⟩
      rw [eq_comm, List.map_eq_nil_iff] at hpairs
      rw [hpairs]
      rfl
  | cons item items ih =>
    rw [assignItems]
    constructor
    · intro h
      -- a key or a value that is no text raises an exception
      rcases hk : decodeText item.key with e | k
      · simp [hk, bind, Except.bind] at h
      rcases hv : decodeText item.value with e | v
      · simp [hk, hv, bind, Except.bind] at h
      rw [hk, hv] at h
      obtain ⟨pairs, rfl, rfl⟩ := ih.mp h
      refine ⟨(k, v) :: pairs, ?_, ?_⟩
      · rw [List.map_cons, kvOf, ← decodeText_eq_ok_iff.mp hk, ← decodeText_eq_ok_iff.mp hv]
      · rw [List.reverse_cons, List.append_assoc, List.singleton_append]
    · rintro ⟨pairs, hpairs, rfl⟩
      rcases pairs with _ | ⟨⟨k, v⟩, pairs⟩
      · simp at hpairs
      obtain ⟨rfl, rfl⟩ := List.cons.inj hpairs
      rw [kvOf_key, kvOf_value, decodeText_eq_ok_iff.mpr rfl, decodeText_eq_ok_iff.mpr rfl]
      refine ih.mpr ⟨pairs, rfl, ?_⟩
      rw [List.reverse_cons, List.append_assoc, List.singleton_append]

/-- What both decoders accept are pairs of texts. -/
private theorem exists_pairs_of_decodeKv {data : Bytes} {items : List Kv} {d : Dict}
    (hdevice : UsbResponder.decodeKv data maxKv = some items) (hhost : decodeKv data = .ok d) :
    ∃ pairs : List (String × String), items = pairs.map kvOf ∧ d = pairs.reverse := by
  rw [decodeKv_of_device hdevice] at hhost
  obtain ⟨pairs, hitems, hd⟩ := assignItems_eq_ok_iff.mp hhost
  exact ⟨pairs, hitems, by rw [hd, List.append_nil]⟩

end Host

/-! ### The round trip -/

/-- Pairs the format can hold: at most 32, of texts without NUL that have at most 65535
bytes. Keys may be repeated. -/
structure Representable (pairs : List (String × String)) : Prop where
  count : pairs.length ≤ maxKv
  noNul : ∀ pair ∈ pairs, 0 ∉ utf8 pair.1 ∧ 0 ∉ utf8 pair.2
  length_le : ∀ pair ∈ pairs, (utf8 pair.1).length ≤ 65535 ∧ (utf8 pair.2).length ≤ 65535

/-- The host's encoder writes pairs that fit. -/
theorem Host.encodeKv_of_fits {pairs : List (String × String)}
    (h : ∀ item ∈ pairs.map kvOf, item.Fits) (hcount : pairs.length < 2 ^ 16) :
    Host.encodeKv pairs = .ok (kvLayout (pairs.map kvOf)) := by
  have hitems : ∀ pairs : List (String × String), (∀ item ∈ pairs.map kvOf, item.Fits) →
      Host.encodeKvItems pairs = .ok ((pairs.map kvOf).flatMap kvLayoutRecord) := by
    intro pairs
    induction pairs with
    | nil => exact fun _ => rfl
    | cons pair pairs ih =>
      intro h
      have hk : (utf8 pair.1).length < 2 ^ 16 := (h (kvOf pair) (by simp)).1
      have hv : (utf8 pair.2).length < 2 ^ 16 := (h (kvOf pair) (by simp)).2
      rw [Host.encodeKvItems, Host.packU16_eq_ok_iff.mpr ⟨hk, rfl⟩,
        Host.packU16_eq_ok_iff.mpr ⟨hv, rfl⟩, ih fun item hitem => h item (by simp [hitem])]
      simp only [bind, Except.bind, pure, Except.pure, List.map_cons, List.flatMap_cons,
        kvLayoutRecord, kvOf, List.append_assoc]
  rw [Host.encodeKv, Host.packU16_eq_ok_iff.mpr ⟨hcount, rfl⟩, hitems pairs h, kvLayout,
    List.length_map]
  rfl

/-- The device's encoder keeps strings without NUL that fit. -/
theorem Kv.kept_eq_self {item : Kv} (hk : 0 ∉ item.key ∧ item.key.length < 2 ^ 16)
    (hv : 0 ∉ item.value ∧ item.value.length < 2 ^ 16) : item.kept = item := by
  rw [Kv.kept, strlen, strlen, cStr_eq_self hk.1, cStr_eq_self hv.1, Nat.mod_eq_of_lt hk.2,
    Nat.mod_eq_of_lt hv.2, List.take_length, List.take_length]

/-- **Round trip.** The two encoders write the same bytes for pairs the format can hold.
From these bytes the device reads the pairs in order, and the host the dictionary with the
last value of each key. -/
theorem kv_round_trip {pairs : List (String × String)} (h : Representable pairs) (fresh : UInt8) :
    ∃ raw, (encodeKvBuffer fresh (pairs.map Host.kvOf)).map GrowBuffer.contents = some raw ∧
      Host.encodeKv pairs = .ok raw ∧
      decodeKv raw maxKv = some (pairs.map Host.kvOf) ∧
      ∃ d, Host.decodeKv raw = .ok d ∧ ∀ k v, d.lookup k = some v ↔ Host.LastValue pairs k v := by
  have hcount : (pairs.map Host.kvOf).length ≤ maxKv := by
    rw [List.length_map]
    exact h.count
  have hfits : ∀ item ∈ pairs.map Host.kvOf, item.Fits := by
    intro item hitem
    obtain ⟨pair, hpair, rfl⟩ := List.mem_map.mp hitem
    obtain ⟨hk, hv⟩ := h.length_le pair hpair
    exact ⟨Nat.lt_succ_of_le hk, Nat.lt_succ_of_le hv⟩
  have hkept : (pairs.map Host.kvOf).map Kv.kept = pairs.map Host.kvOf := by
    refine (List.map_congr_left fun item hitem => ?_).trans (List.map_id _)
    obtain ⟨hk, hv⟩ := hfits item hitem
    obtain ⟨pair, hpair, rfl⟩ := List.mem_map.mp hitem
    obtain ⟨hknul, hvnul⟩ := h.noNul pair hpair
    exact Kv.kept_eq_self ⟨hknul, hk⟩ ⟨hvnul, hv⟩
  refine ⟨kvLayout (pairs.map Host.kvOf), ?_, ?_, decodeKv_kvLayout hfits hcount, pairs.reverse, ?_,
    fun k v => Host.lookup_reverse_eq_some_iff⟩
  · rw [contents_encodeKvBuffer, encodeKv_eq_kvLayout_kept hcount, hkept]
  · refine Host.encodeKv_of_fits hfits ?_
    have hmax := h.count
    rw [maxKv] at hmax
    omega
  · rw [Host.decodeKv_kvLayout hfits hcount]
    exact Host.assignItems_eq_ok_iff.mpr ⟨pairs, rfl, (List.append_nil _).symm⟩

/-- `kv_round_trip` for two values of one key. -/
theorem kv_round_trip_two : ∃ raw,
    (encodeKvBuffer 0 ([("path", "a"), ("path", "b")].map Host.kvOf)).map GrowBuffer.contents =
        some raw ∧
      Host.encodeKv [("path", "a"), ("path", "b")] = .ok raw ∧
      decodeKv raw maxKv = some ([("path", "a"), ("path", "b")].map Host.kvOf) ∧
      ∃ d, Host.decodeKv raw = .ok d ∧
        ∀ k v, d.lookup k = some v ↔ Host.LastValue [("path", "a"), ("path", "b")] k v :=
  kv_round_trip ⟨by decide, by decide +kernel, by decide +kernel⟩ 0

/-! ### Lookups -/

section Lookup

variable {items : List Kv} {key : Bytes}

/-- The first item whose key is the one asked for, as a C string. Items before it have
another key up to their first NUL. -/
def FirstItem (items : List Kv) (key : Bytes) (item : Kv) : Prop :=
  ∃ before after, items = before ++ item :: after ∧ cStr item.key = key ∧
    ∀ other ∈ before, cStr other.key ≠ key

/-- The last item with exactly the key asked for. Keys that only start with it are others. -/
def LastItem (items : List Kv) (key : Bytes) (item : Kv) : Prop :=
  ∃ before after, items = before ++ item :: after ∧ item.key = key ∧
    ∀ other ∈ after, other.key ≠ key

/-- `kv_get` returns the value of the first item. -/
private theorem kvGet_eq_some_iff (hkey : 0 ∉ key) {value : Bytes} :
    kvGet items key = some value ↔ ∃ item, FirstItem items key item ∧ cStr item.value = value := by
  rw [kvGet, Option.map_eq_some_iff]
  refine exists_congr fun item => and_congr_left fun _ => ?_
  rw [List.find?_eq_some_iff_append, cStr_eq_self hkey]
  constructor
  · rintro ⟨hitem, before, after, hitems, hne⟩
    exact ⟨before, after, hitems, by simpa using hitem, fun other hother => by
      simpa using hne other hother⟩
  · rintro ⟨before, after, hitems, hitem, hne⟩
    exact ⟨by simpa using hitem, before, after, hitems, fun other hother => by
      simpa using hne other hother⟩

private theorem kvGet_eq_none_iff (hkey : 0 ∉ key) :
    kvGet items key = none ↔ ∀ item ∈ items, cStr item.key ≠ key := by
  rw [kvGet, Option.map_eq_none_iff, List.find?_eq_none, cStr_eq_self hkey]
  simp

/-- The dictionary of the host has the value of the last item. -/
private theorem lookup_map_eq_some_iff {pairs : List (String × String)} {k : String}
    {value : Bytes} : (pairs.reverse.lookup k).map utf8 = some value ↔
      ∃ item, LastItem (pairs.map Host.kvOf) (utf8 k) item ∧ item.value = value := by
  rw [Option.map_eq_some_iff]
  constructor
  · rintro ⟨v, hv, rfl⟩
    obtain ⟨before, after, rfl, hne⟩ := Host.lookup_reverse_eq_some_iff.mp hv
    refine ⟨Host.kvOf (k, v), ⟨before.map Host.kvOf, after.map Host.kvOf, ?_, rfl, ?_⟩, rfl⟩
    · rw [List.map_append, List.map_cons]
    · intro other hother heq
      obtain ⟨pair, hpair, rfl⟩ := List.mem_map.mp hother
      exact hne pair hpair (utf8_injective heq)
  · rintro ⟨item, ⟨before, after, hitems, hkey, hne⟩, rfl⟩
    obtain ⟨before', rest, rfl, rfl, hrest⟩ := List.map_eq_append_iff.mp hitems
    obtain ⟨pair, after', rfl, rfl, rfl⟩ := List.map_eq_cons_iff.mp hrest
    obtain rfl : pair.1 = k := utf8_injective hkey
    refine ⟨pair.2, Host.lookup_reverse_eq_some_iff.mpr ⟨before', after', rfl, ?_⟩, rfl⟩
    intro other hother heq
    exact hne (Host.kvOf other) (List.mem_map_of_mem hother) (congrArg utf8 heq)

/-- Items without NULs of which two with the same key have the same value. All payloads that
the two programs themselves build are of this kind. -/
def Unambiguous (items : List Kv) : Prop :=
  ∀ item ∈ items, (0 ∉ item.key ∧ 0 ∉ item.value) ∧
    ∀ other ∈ items, other.key = item.key → other.value = item.value

/-- The first and the last item with a key of unambiguous items have the same value. -/
private theorem Unambiguous.exists_lastItem (h : Unambiguous items) {first : Kv}
    (hfirst : FirstItem items key first) :
    ∃ last, LastItem items key last ∧ last.value = cStr first.value := by
  obtain ⟨before, after, rfl, hkey, -⟩ := hfirst
  have hmem : first ∈ before ++ first :: after := by simp
  obtain ⟨⟨hknul, hvnul⟩, hsame⟩ := h first hmem
  rw [cStr_eq_self hknul] at hkey
  rw [cStr_eq_self hvnul]
  -- the last item with the key is looked for from the end
  have hsome : ((before ++ first :: after).reverse.find? fun item => item.key = key).isSome := by
    rw [List.find?_isSome]
    exact ⟨first, List.mem_reverse.mpr hmem, by simpa using hkey⟩
  obtain ⟨last, hlast⟩ := Option.isSome_iff_exists.mp hsome
  obtain ⟨hlastkey, l₁, l₂, hitems, hne⟩ := List.find?_eq_some_iff_append.mp hlast
  have hsplit : before ++ first :: after = l₂.reverse ++ last :: l₁.reverse := by
    rw [← List.reverse_reverse (before ++ first :: after), hitems, List.reverse_append,
      List.reverse_cons, List.append_assoc, List.singleton_append]
  have hlastkey' : last.key = key := by simpa using hlastkey
  refine ⟨last, ⟨l₂.reverse, l₁.reverse, hsplit, hlastkey', fun other hother => ?_⟩, ?_⟩
  · simpa using hne other (List.mem_reverse.mp hother)
  · exact hsame last (by rw [hsplit]; simp) (hlastkey'.trans hkey.symm)

/-- **One lookup on both sides.** For a payload both decoders accept and a key without NUL,
`kv_get` and the dictionary of the host agree exactly if no item has the key up to its first
NUL, or if there is an item with exactly the key, and the last such has the value that the
first item with the key up to its first NUL has up to its own. So they agree on every key
when there are no NULs in the items and equal keys have equal values. -/
theorem kvGet_eq_lookup_iff {data : Bytes} {d : Host.Dict}
    (hdevice : decodeKv data maxKv = some items) (hhost : Host.decodeKv data = .ok d) {k : String}
    (hk : 0 ∉ utf8 k) :
    (kvGet items (utf8 k) = (d.lookup k).map utf8 ↔
      (∀ item ∈ items, cStr item.key ≠ utf8 k) ∨
        ∃ first last, FirstItem items (utf8 k) first ∧ LastItem items (utf8 k) last ∧
          last.value = cStr first.value) ∧
    (Unambiguous items → kvGet items (utf8 k) = (d.lookup k).map utf8) := by
  obtain ⟨pairs, rfl, rfl⟩ := Host.exists_pairs_of_decodeKv hdevice hhost
  -- the device returns the first value, the dictionary the last
  have hagree : kvGet (pairs.map Host.kvOf) (utf8 k) = (pairs.reverse.lookup k).map utf8 ↔
      (∀ item ∈ pairs.map Host.kvOf, cStr item.key ≠ utf8 k) ∨
        ∃ first last, FirstItem (pairs.map Host.kvOf) (utf8 k) first ∧
          LastItem (pairs.map Host.kvOf) (utf8 k) last ∧ last.value = cStr first.value := by
    constructor
    · intro heq
      rcases hget : kvGet (pairs.map Host.kvOf) (utf8 k) with _ | value
      · exact .inl ((kvGet_eq_none_iff hk).mp hget)
      · obtain ⟨first, hfirst, hvalue⟩ := (kvGet_eq_some_iff hk).mp hget
        obtain ⟨last, hlast, hvalue'⟩ := lookup_map_eq_some_iff.mp (heq.symm.trans hget)
        exact .inr ⟨first, last, hfirst, hlast, hvalue'.trans hvalue.symm⟩
    · rintro (hnone | ⟨first, last, hfirst, hlast, hvalue⟩)
      · rw [(kvGet_eq_none_iff hk).mpr hnone, eq_comm, Option.eq_none_iff_forall_ne_some]
        intro value hsome
        obtain ⟨item, ⟨before, after, hitems, hkey, -⟩, -⟩ := lookup_map_eq_some_iff.mp hsome
        refine hnone item (by rw [hitems]; simp) ?_
        rw [hkey, cStr_eq_self hk]
      · rw [(kvGet_eq_some_iff hk).mpr ⟨first, hfirst, rfl⟩,
          lookup_map_eq_some_iff.mpr ⟨last, hlast, hvalue⟩]
  refine ⟨hagree, fun hplain => hagree.mpr ?_⟩
  rcases hget : kvGet (pairs.map Host.kvOf) (utf8 k) with _ | value
  · exact .inl ((kvGet_eq_none_iff hk).mp hget)
  · obtain ⟨first, hfirst, -⟩ := (kvGet_eq_some_iff hk).mp hget
    obtain ⟨last, hlast, hvalue⟩ := hplain.exists_lastItem hfirst
    exact .inr ⟨first, last, hfirst, hlast, hvalue⟩

/-- A payload with two values of one key. -/
def twoPaths : List (String × String) := [("path", "a"), ("path", "b")]

/-- `kvGet_eq_lookup_iff` for a payload with two values of one key. -/
theorem kvGet_eq_lookup_iff_two :
    (kvGet (twoPaths.map Host.kvOf) (utf8 "path") = (twoPaths.reverse.lookup "path").map utf8 ↔
      (∀ item ∈ twoPaths.map Host.kvOf, cStr item.key ≠ utf8 "path") ∨
        ∃ first last, FirstItem (twoPaths.map Host.kvOf) (utf8 "path") first ∧
          LastItem (twoPaths.map Host.kvOf) (utf8 "path") last ∧
          last.value = cStr first.value) ∧
    (Unambiguous (twoPaths.map Host.kvOf) →
      kvGet (twoPaths.map Host.kvOf) (utf8 "path") =
        (twoPaths.reverse.lookup "path").map utf8) :=
  kvGet_eq_lookup_iff
    (show decodeKv (kvLayout (twoPaths.map Host.kvOf)) maxKv = _ from by decide +kernel)
    (by decide +kernel) (by decide +kernel)

/-- The device takes the first value of a repeated key and the host the last one. -/
theorem not_kvGet_eq_lookup :
    ¬∀ (data : Bytes) (items : List Kv) (d : Host.Dict) (k : String),
      decodeKv data maxKv = some items → Host.decodeKv data = .ok d → 0 ∉ utf8 k →
        kvGet items (utf8 k) = (d.lookup k).map utf8 := by
  intro h
  have hpath := h (kvLayout (twoPaths.map Host.kvOf)) (twoPaths.map Host.kvOf) twoPaths.reverse
    "path" (by decide +kernel) (by decide +kernel) (by decide +kernel)
  revert hpath
  decide +kernel

end Lookup

end UsbResponder
