import UsbResponder.FileOps.ListBuffers

/-!
# The descriptors written to `ep0`

`functionfs_descriptors.c`. The descriptors are appended piece by piece to a buffer that
grows by doubling, and the length of the whole goes into the head when everything is there.
Which calls of the allocator succeed is an input, and a write outside a buffer has no
result.

Whatever the allocator does, nothing is written outside the buffers, and what is built is
the one blob (`buildDescriptorsBlob_cases`, `buildStringsBlob_cases`).
`Descriptors.Describes` is the format of the first one: a head with the length of the whole
and counts of what follows, then as many descriptors for each speed, each of which starts
with its own length, and as many extended descriptors for the operating system.

The structures of the kernel headers are those of the interface with their fields in order,
and `bytes` is how they lie in memory, packed and little-endian. The blob has no input, so
that it has the format is decided by evaluation; what is proved in general is the building
of it. The buffer is the one of the listings, which `append` enlarges in the same way. What
the kernel makes of the descriptors is not part of the program.
-/

namespace UsbResponder

open CString LittleEndian

/-! ### Structures of the kernel headers -/

/-- `struct usb_functionfs_descs_head_v2`. The three counts that its flags announce come
behind it, as words of their own. -/
structure DescsHead where
  magic : UInt32 := 0
  length : UInt32 := 0
  flags : UInt32 := 0
  deriving DecidableEq, Repr

/-- `struct usb_interface_descriptor`. -/
structure UsbInterfaceDescriptor where
  bLength : UInt8 := 0
  bDescriptorType : UInt8 := 0
  bInterfaceNumber : UInt8 := 0
  bAlternateSetting : UInt8 := 0
  bNumEndpoints : UInt8 := 0
  bInterfaceClass : UInt8 := 0
  bInterfaceSubClass : UInt8 := 0
  bInterfaceProtocol : UInt8 := 0
  iInterface : UInt8 := 0
  deriving DecidableEq, Repr

/-- `struct usb_endpoint_descriptor_no_audio`. -/
structure UsbEndpointDescriptor where
  bLength : UInt8 := 0
  bDescriptorType : UInt8 := 0
  bEndpointAddress : UInt8 := 0
  bmAttributes : UInt8 := 0
  wMaxPacketSize : UInt16 := 0
  bInterval : UInt8 := 0
  deriving DecidableEq, Repr

/-- `struct usb_os_desc_header`; `bCount` and the byte after it are `wCount`. In memory the
two are one word. -/
structure UsbOsDescHeader where
  interface : UInt8 := 0
  dwLength : UInt32 := 0
  bcdVersion : UInt16 := 0
  wIndex : UInt16 := 0
  wCount : UInt16 := 0
  deriving DecidableEq, Repr

/-- `struct usb_ext_compat_desc`. -/
structure UsbExtCompatDesc where
  bFirstInterfaceNumber : UInt8 := 0
  reserved1 : UInt8 := 0
  compatibleId : Bytes := List.replicate 8 0
  subCompatibleId : Bytes := List.replicate 8 0
  reserved2 : Bytes := List.replicate 6 0
  deriving DecidableEq, Repr

/-- `struct usb_ext_prop_desc`. -/
structure UsbExtPropDesc where
  dwSize : UInt32 := 0
  dwPropertyDataType : UInt32 := 0
  wPropertyNameLength : UInt16 := 0
  deriving DecidableEq, Repr

/-- `struct usb_functionfs_strings_head`. -/
structure StringsHead where
  magic : UInt32 := 0
  length : UInt32 := 0
  strCount : UInt32 := 0
  langCount : UInt32 := 0
  deriving DecidableEq, Repr

/-- The structure in memory. -/
def DescsHead.bytes (h : DescsHead) : Bytes :=
  writeLe32 h.magic ++ writeLe32 h.length ++ writeLe32 h.flags

/-- The structure in memory. -/
def UsbInterfaceDescriptor.bytes (d : UsbInterfaceDescriptor) : Bytes :=
  [d.bLength, d.bDescriptorType, d.bInterfaceNumber, d.bAlternateSetting, d.bNumEndpoints,
    d.bInterfaceClass, d.bInterfaceSubClass, d.bInterfaceProtocol, d.iInterface]

/-- The structure in memory. -/
def UsbEndpointDescriptor.bytes (d : UsbEndpointDescriptor) : Bytes :=
  [d.bLength, d.bDescriptorType, d.bEndpointAddress, d.bmAttributes] ++
    writeLe16 d.wMaxPacketSize ++ [d.bInterval]

/-- The structure in memory. -/
def UsbOsDescHeader.bytes (h : UsbOsDescHeader) : Bytes :=
  h.interface :: (writeLe32 h.dwLength ++ writeLe16 h.bcdVersion ++ writeLe16 h.wIndex ++
    writeLe16 h.wCount)

/-- The structure in memory. -/
def UsbExtCompatDesc.bytes (d : UsbExtCompatDesc) : Bytes :=
  [d.bFirstInterfaceNumber, d.reserved1] ++ d.compatibleId ++ d.subCompatibleId ++ d.reserved2

/-- The structure in memory. -/
def UsbExtPropDesc.bytes (d : UsbExtPropDesc) : Bytes :=
  writeLe32 d.dwSize ++ writeLe32 d.dwPropertyDataType ++ writeLe16 d.wPropertyNameLength

/-- The structure in memory. -/
def StringsHead.bytes (h : StringsHead) : Bytes :=
  writeLe32 h.magic ++ writeLe32 h.length ++ writeLe32 h.strCount ++ writeLe32 h.langCount

namespace Descriptors

/-! ### The source -/

/-- `append`; `some none` is the result `false`. The buffer is that of a list, with room
made in the same way, and keeps a byte to spare that is not used here. -/
def append (fresh : UInt8) (ok : Bool) (buffer : ListBuffer) (src : Bytes) :
    Option (Option ListBuffer) :=
  match listReserve fresh ok buffer (buffer.used + src.length) with
  | none => some none
  | some buffer => do
    let text ← store (← buffer.text) buffer.used src
    some (some { buffer with text := some text, used := buffer.used + src.length })

/-- Calls of `append` joined by `&&`; `alloc i` says whether the allocator succeeds in the
`i`-th one. The first failure ends them. -/
def appendAll (fresh : UInt8) (alloc : ℕ → Bool) :
    ℕ → List Bytes → ListBuffer → Option (Option ListBuffer)
  | _, [], buffer => some (some buffer)
  | i, src :: srcs, buffer =>
    match append fresh (alloc i) buffer src with
    | none => none
    | some none => some none
    | some (some buffer) => appendAll fresh alloc (i + 1) srcs buffer

/-- What `append_usb_interface_desc` appends: one interface of a vendor class, with two
endpoints and a name. -/
def usbInterfaceDesc : List Bytes :=
  [{ bLength := 9, bDescriptorType := 4, bNumEndpoints := 2, bInterfaceClass := 0xff
     iInterface := 1 : UsbInterfaceDescriptor }.bytes]

/-- What `append_usb_bulk_ep_desc` appends. The two speeds differ in the size of a packet
only. -/
def usbBulkEpDesc (addr : UInt8) (maxPacket : UInt16) : List Bytes :=
  [{ bLength := 7, bDescriptorType := 5, bEndpointAddress := addr, bmAttributes := 2
     wMaxPacketSize := maxPacket : UsbEndpointDescriptor }.bytes]

/-- What `append_os_desc_ext_compat` appends: the compatible id, by which a host finds the
driver. -/
def osDescExtCompat : List Bytes :=
  [{ interface := 0, dwLength := 11 + 24, bcdVersion := 1, wIndex := 4, wCount := 1 :
      UsbOsDescHeader }.bytes,
    { bFirstInterfaceNumber := 0, reserved1 := 1, compatibleId := utf8 "WINUSB" ++ [0, 0] :
      UsbExtCompatDesc }.bytes]

/-- Bytes as UTF-16, each followed by a zero. All texts of the descriptors are ASCII. -/
def widen (s : Bytes) : Bytes := s.flatMap fun b => [b, 0]

/-- What `append_os_desc_ext_prop` appends: a property with its name and its value, each
behind its length. -/
def osDescExtProp : List Bytes :=
  let name := widen (utf8 "DeviceInterfaceGUIDs" ++ [0])
  let data := widen (utf8 "\x7b0D8E9A49-5DB7-4D38-88A0-5A8C5A9A6401\x7d" ++ [0, 0])
  let descSize := 10 + name.length + 4 + data.length
  [{ interface := 0, dwLength := UInt32.ofNat (11 + descSize), bcdVersion := 1, wIndex := 5
     wCount := 1 : UsbOsDescHeader }.bytes,
    { dwSize := UInt32.ofNat descSize, dwPropertyDataType := 7
      wPropertyNameLength := UInt16.ofNat name.length : UsbExtPropDesc }.bytes,
    name, writeLe32 (UInt32.ofNat data.length), data]

/-- The calls of `append` in `usb_responder_build_descriptors_blob`, in their order. The
length of the whole is left zero here, and set when all is appended. -/
def pieces : List Bytes :=
  [{ magic := 3, flags := 1 ||| 2 ||| 8 : DescsHead }.bytes,
    writeLe32 3 ++ writeLe32 3 ++ writeLe32 2] ++
  usbInterfaceDesc ++ usbBulkEpDesc (1 ||| 0x80) 64 ++ usbBulkEpDesc 2 64 ++
  usbInterfaceDesc ++ usbBulkEpDesc (1 ||| 0x80) 512 ++ usbBulkEpDesc 2 512 ++
  osDescExtCompat ++ osDescExtProp

end Descriptors

open Descriptors

/-- `usb_responder_build_descriptors_blob`: the bytes `out_data[0 .. out_size)`. -/
def buildDescriptorsBlob (fresh : UInt8) (alloc : ℕ → Bool) : Option (Option Bytes) :=
  match appendAll fresh alloc 0 Descriptors.pieces {} with
  | none => none
  | some none => some none
  | some (some buffer) => do
    let text ← store (← buffer.text) 4 (writeLe32 (UInt32.ofNat buffer.used))
    some (some (text.take buffer.used))

/-- `usb_responder_build_strings_blob`; `calloc` succeeds if `ok` says so. The three writes
are stores into the block, which have no result outside it. -/
def buildStringsBlob (ok : Bool) : Option (Option Bytes) :=
  let str := utf8 "ePass USB Responder" ++ [0]
  let total := 16 + 2 + str.length
  if ok then do
    let header : StringsHead :=
      { magic := 2, length := UInt32.ofNat total, strCount := 1, langCount := 1 }
    let buf ← store (List.replicate total 0) 0 header.bytes
    let buf ← store buf 16 (writeLe16 0x0409)
    let buf ← store buf (16 + 2) str
    some (some buf)
  else some none

/-! ### The buffer -/

/-- The block of a buffer starts with the bytes that were appended, and is as long as the
capacity says. -/
structure ListBuffer.StartsWith (buffer : ListBuffer) (bytes : Bytes) : Prop where
  used : buffer.used = bytes.length
  text : bytes <+: buffer.text.getD []
  cap : (buffer.text.getD []).length = buffer.cap

section Append

variable (fresh : UInt8) {buffer : ListBuffer} {bytes : Bytes}

theorem ListBuffer.StartsWith.empty : ({} : ListBuffer).StartsWith [] where
  used := rfl
  text := List.prefix_rfl
  cap := rfl

/-- Room is made, or the allocator has failed. -/
theorem ListBuffer.StartsWith.reserve (h : buffer.StartsWith bytes) (ok : Bool) {needed : ℕ}
    (hneeded : 0 < needed) :
    (listReserve fresh ok buffer needed = none ∧ ok = false) ∨
    ∃ text, listReserve fresh ok buffer needed =
        some { buffer with text := some text, cap := text.length } ∧
      needed ≤ text.length ∧ bytes <+: text := by
  rw [listReserve]
  by_cases hfull : buffer.cap < needed
  · rw [if_pos hfull]
    cases ok with
    | false => exact .inl ⟨rfl, rfl⟩
    | true =>
      obtain ⟨start, hstart, hpos, hle⟩ : ∃ start,
          start = (if buffer.cap = 0 then 256 else buffer.cap) ∧ 0 < start ∧
            buffer.cap ≤ start := by
        refine ⟨_, rfl, ?_, ?_⟩ <;> split_ifs <;> omega
      rw [← hstart, listGrow_eq_enlarge]
      obtain ⟨hroom, hmore⟩ := GrowBuffer.le_enlarge hpos (Nat.le_add_left needed start)
      obtain ⟨hlength, hkeep⟩ := resize_of_le fresh (h.cap.trans_le (hle.trans hmore))
      refine .inr ⟨resize fresh (buffer.text.getD []) (GrowBuffer.enlarge needed needed start),
        ?_, by rwa [hlength], h.text.trans hkeep⟩
      rw [hlength]
      rfl
  · rw [if_neg hfull]
    right
    cases htext : buffer.text with
    | none =>
      have hcap := h.cap
      rw [htext] at hcap
      have hzero : 0 = buffer.cap := hcap
      omega
    | some text =>
      have hcap := h.cap
      have hpre := h.text
      rw [htext, Option.getD_some] at hcap hpre
      refine ⟨text, ?_, by omega, hpre⟩
      rw [hcap, ← htext]

/-- **One append** stays inside the buffer, or the allocator has failed. -/
theorem ListBuffer.StartsWith.append (h : buffer.StartsWith bytes) (ok : Bool) {src : Bytes}
    (hsrc : src ≠ []) :
    (Descriptors.append fresh ok buffer src = some none ∧ ok = false) ∨
    ∃ buffer', Descriptors.append fresh ok buffer src = some (some buffer') ∧
      buffer'.StartsWith (bytes ++ src) := by
  have hpos := List.length_pos_iff.mpr hsrc
  rw [Descriptors.append]
  obtain ⟨hreserve, hfail⟩ | ⟨text, hreserve, hroom, hpre⟩ :=
    h.reserve fresh ok (show 0 < buffer.used + src.length by omega)
  · rw [hreserve]
    exact .inl ⟨rfl, hfail⟩
  · rw [h.used] at hroom
    obtain ⟨text', hstore, hlength, hpre'⟩ := exists_store_append hpre src (by
      rwa [List.length_append])
    rw [hreserve]
    refine .inr ⟨⟨some text', bytes.length + src.length, text.length⟩, ?_, ?_, hpre', hlength⟩
    · show (store text buffer.used src).bind _ = _
      rw [h.used, hstore]
      rfl
    · exact List.length_append.symm

/-- The calls of `append` joined by `&&` append all of their pieces, or the allocator has
failed in one of them. -/
private theorem ListBuffer.StartsWith.appendAll (h : buffer.StartsWith bytes) (alloc : ℕ → Bool)
    (i : ℕ) {srcs : List Bytes} (hsrcs : ∀ src ∈ srcs, src ≠ []) :
    (Descriptors.appendAll fresh alloc i srcs buffer = some none ∧ ∃ j, alloc j = false) ∨
    ∃ buffer', Descriptors.appendAll fresh alloc i srcs buffer = some (some buffer') ∧
      buffer'.StartsWith (bytes ++ srcs.flatten) := by
  induction srcs generalizing buffer bytes i with
  | nil =>
    rw [List.flatten_nil, List.append_nil]
    exact .inr ⟨buffer, rfl, h⟩
  | cons src srcs ih =>
    obtain ⟨hsrc, hrest⟩ := List.forall_mem_cons.mp hsrcs
    rw [Descriptors.appendAll]
    obtain ⟨happend, hfail⟩ | ⟨buffer', happend, h'⟩ := h.append fresh (alloc i) hsrc
    · rw [happend]
      exact .inl ⟨rfl, i, hfail⟩
    · rw [happend, List.flatten_cons, ← List.append_assoc]
      exact ih h' (i + 1) hrest

end Append

/-! ### The blobs -/

/-- `n` descriptors, each of which starts with its length, and what follows them. -/
def Descriptors.skip : ℕ → Bytes → Option Bytes
  | 0, s => some s
  | _ + 1, [] => none
  | n + 1, l :: s =>
    if 2 ≤ l.toNat ∧ l.toNat ≤ s.length + 1 then skip n ((l :: s).drop l.toNat) else none

/-- `n` extended descriptors, each of which has its length behind the number of the
interface, and what follows them. -/
def Descriptors.skipOs : ℕ → Bytes → Option Bytes
  | 0, s => some s
  | n + 1, s =>
    let length := (readLe32 (s.drop 1)).toNat
    if 11 ≤ length ∧ length ≤ s.length then skipOs n (s.drop length) else none

/-- The format that is written to `ep0` first: the length of the whole and the numbers of
descriptors for full speed, for high speed and for the operating system are those of what
follows. -/
structure Descriptors.Describes (blob : Bytes) : Prop where
  magic : readLe32 blob = 3
  length : (readLe32 (blob.drop 4)).toNat = blob.length
  flags : readLe32 (blob.drop 8) = 11
  counts : ((skip (readLe32 (blob.drop 12)).toNat (blob.drop 24)).bind
    (skip (readLe32 (blob.drop 16)).toNat)).bind (skipOs (readLe32 (blob.drop 20)).toNat) = some []

/-- The format that is written to `ep0` next: the length of the whole, one language, and one
string that ends with a NUL. -/
structure Descriptors.Names (blob : Bytes) : Prop where
  magic : readLe32 blob = 2
  length : (readLe32 (blob.drop 4)).toNat = blob.length
  strCount : readLe32 (blob.drop 8) = 1
  langCount : readLe32 (blob.drop 12) = 1
  string : strlen (blob.drop 18) + 1 = (blob.drop 18).length

/-- The descriptors with their length in the head. -/
def descriptorsBlob : Bytes :=
  let all := Descriptors.pieces.flatten
  all.take 4 ++ writeLe32 (UInt32.ofNat all.length) ++ all.drop 8

/-- What is built has the format. Skipping the announced numbers of descriptors is
evaluated. -/
theorem descriptorsBlob_describes : Descriptors.Describes descriptorsBlob where
  magic := by decide +kernel
  length := by decide +kernel
  flags := by decide +kernel
  counts := by decide +kernel

/-- The one string with its head. -/
def stringsBlob : Bytes :=
  { magic := 2, length := 38, strCount := 1, langCount := 1 : StringsHead }.bytes ++
    writeLe16 0x0409 ++ utf8 "ePass USB Responder" ++ [0]

/-- What is built has the format. -/
theorem stringsBlob_names : Descriptors.Names stringsBlob where
  magic := by decide +kernel
  length := by decide +kernel
  strCount := by decide +kernel
  langCount := by decide +kernel
  string := by decide +kernel

/-- A word written at offset 4 of a longer block. It is how the length of the whole gets
into the head. -/
private theorem take_patched {all word : Bytes} (rest : Bytes) (hall : 8 ≤ all.length)
    (hword : word.length = 4) :
    ((all ++ rest).take 4 ++ word ++ (all ++ rest).drop 8).take all.length =
      all.take 4 ++ word ++ all.drop 8 := by
  rw [show (all ++ rest).take 4 = all.take 4 from List.take_append_of_le_length (by omega),
    List.drop_append_of_le_length hall, ← List.append_assoc]
  refine List.take_left' ?_
  rw [List.length_append, List.length_append, List.length_take, List.length_drop, hword]
  omega

/-- **The descriptors are built** as one blob, or the allocator has failed; nothing is
written outside the buffer. -/
theorem buildDescriptorsBlob_cases (fresh : UInt8) (alloc : ℕ → Bool) :
    (buildDescriptorsBlob fresh alloc = some none ∧ ∃ i, alloc i = false) ∨
      buildDescriptorsBlob fresh alloc = some (some descriptorsBlob) := by
  rw [buildDescriptorsBlob]
  obtain ⟨happend, hfail⟩ | ⟨buffer, happend, h⟩ :=
    ListBuffer.StartsWith.empty.appendAll fresh alloc 0
      (show ∀ src ∈ Descriptors.pieces, src ≠ [] by decide)
  · rw [happend]
    exact .inl ⟨rfl, hfail⟩
  · rw [List.nil_append] at h
    rw [happend]
    have hall : 8 ≤ Descriptors.pieces.flatten.length := by decide +kernel
    cases htext : buffer.text with
    | none =>
      have hpre := h.text
      rw [htext, Option.getD_none] at hpre
      have hle := hpre.length_le
      rw [List.length_nil] at hle
      omega
    | some text =>
      obtain ⟨rest, hrest⟩ : Descriptors.pieces.flatten <+: text := by
        have hpre := h.text
        rwa [htext] at hpre
      have hfits : 4 + (writeLe32 (UInt32.ofNat buffer.used)).length ≤ text.length := by
        rw [← hrest, List.length_append]
        show 4 + 4 ≤ _
        omega
      right
      dsimp only
      rw [htext]
      show (store text 4 _).bind _ = _
      rw [store, if_pos hfits, Option.bind_some]
      refine congrArg (fun bytes => some (some bytes)) ?_
      show List.take buffer.used (text.take 4 ++ _ ++ text.drop 8) = _
      rw [← hrest, h.used]
      exact take_patched rest hall rfl

/-- **The strings are built**, or the allocator has failed. No store is outside the block. -/
theorem buildStringsBlob_cases (ok : Bool) :
    (buildStringsBlob ok = some none ∧ ok = false) ∨
      buildStringsBlob ok = some (some stringsBlob) := by
  cases ok with
  | false => exact .inl ⟨rfl, rfl⟩
  | true => exact .inr (by decide)

end UsbResponder
