import UsbResponder.Base.Fields
import UsbResponder.FileOps.Path

/-!
# The mount table and the SD card

`/proc/self/mountinfo` is a list of lines, one for each mount in the order in which they
were made, so the last line for a mount point is the mount that is seen there.
`read_mountinfo_sd` stops at the first line for `/sd` whose source is on an mmc device. It
is settled when that is the source of the last line for `/sd` too
(`readMountinfoSd_eq_iff`), and `coveredTable` is a table where something else covers the
card.

The scans see the source of a line as it is unless its file system type is longer than the
conversion `%127s` takes; then they see the rest of the type. This is part of the condition
(`SdUncovered`), and drops out of it for types that fit (`sdUncovered_iff_of_short`).

A line is built from its fields, none of which has a blank in it, so the proofs run `sscanf`
along the fields: `mountinfoLineSource_text` says what one line yields, and the rest is
about the first and the last line of a list that have a property. Mount points below `/sd`,
and other mount namespaces, play no role.
-/

namespace UsbResponder

open CString Fields

/-! ### Tables -/

/-- The separator between the optional fields and the file system type. No optional field is
a single dash. -/
def dash : Field := ⟨utf8 "-", by decide⟩

/-- The mount point of the SD card. -/
def sdMountPoint : Field := ⟨utf8 "/sd", by decide⟩

/-- A line of `/proc/self/mountinfo`, by its fields. The optional fields are in front of the
separator and may be none. -/
structure MountLine where
  mountId : Field
  parentId : Field
  device : Field
  root : Field
  mountPoint : Field
  options : Field
  optionalFields : List Field
  fsType : Field
  source : Field
  superOptions : Field
  /-- The separator is the first field that is a dash. -/
  separated : ∀ field ∈ [mountId, parentId, device, root, mountPoint, options] ++ optionalFields,
    field ≠ dash
  /-- The line fits into the buffer of `fgets`. -/
  short : ([32].intercalate (([mountId, parentId, device, root, mountPoint, options] ++
    optionalFields ++ [dash, fsType, source, superOptions]).map Subtype.val)).length < 2047

namespace MountLine

/-- The bytes of a line without its newline: the fields with a blank between each two. -/
def text (line : MountLine) : Bytes :=
  [32].intercalate (([line.mountId, line.parentId, line.device, line.root, line.mountPoint,
    line.options] ++ line.optionalFields ++ [dash, line.fsType, line.source,
    line.superOptions]).map Subtype.val)

/-- The source that the two conversions behind the separator see. The first of them stores
at most 127 bytes of the file system type, and the second goes on where it stopped. -/
def seenSource (line : MountLine) : Bytes :=
  if line.fsType.1.length ≤ 127 then line.source.1 else line.fsType.1.drop 127

end MountLine

/-- The content of `/proc/self/mountinfo`, one line for each mount, in the order of the
table. -/
def mountinfoText (table : List MountLine) : Bytes :=
  (table.map MountLine.text).flatMap (· ++ [10])

/-- The source is on an mmc device. The test of the code looks for this text anywhere in the
source. -/
def IsMmc (source : Bytes) : Prop := utf8 "/dev/mmcblk" <:+: source

instance (source : Bytes) : Decidable (IsMmc source) :=
  inferInstanceAs (Decidable (utf8 "/dev/mmcblk" <:+: source))

/-- The lines for `/sd`, in the order of the table. The last of them is the mount that is
seen. -/
def sdLines (table : List MountLine) : List MountLine :=
  table.filter fun line => line.mountPoint = sdMountPoint

/-- The source of the mount that is seen at `/sd`, if it is on an mmc device: that of the
last line for `/sd`. -/
def sdSource (table : List MountLine) : Option Bytes :=
  (((sdLines table).getLast?).map fun line => line.source.1).filter fun source => IsMmc source

/-- `fgets`, with its buffer of 2048 bytes, yields the lines of the table. -/
def Os.ShowsMounts {σ : Type} (os : Os σ) (table : List MountLine) (s : σ) : Prop :=
  (os.mountinfo s).1 = some (fgetsLines 2048 (mountinfoText table))

/-! ### One line -/

namespace MountLine

/-- The fields behind the first one and in front of the separator. -/
def middle (line : MountLine) : List Field :=
  [line.parentId, line.device, line.root, line.mountPoint, line.options] ++ line.optionalFields

/-- A line, taken apart at the separator. -/
private theorem text_eq (line : MountLine) :
    line.text = line.mountId.1 ++ following line.middle ++ (32 :: (dash.1 ++
      32 :: (line.fsType.1 ++ 32 :: (line.source.1 ++ 32 :: line.superOptions.1)))) := by
  have hfields : [line.mountId, line.parentId, line.device, line.root, line.mountPoint,
      line.options] ++ line.optionalFields ++ [dash, line.fsType, line.source,
        line.superOptions] =
      line.mountId :: (line.middle ++ [dash, line.fsType, line.source, line.superOptions]) := rfl
  rw [text, hfields, intercalate_fields, following_append, List.append_assoc]
  simp [following]

private theorem length_source_lt (line : MountLine) : line.source.1.length < 2047 := by
  have hshort : line.text.length < 2047 := line.short
  rw [text_eq] at hshort
  simp only [List.length_append, List.length_cons] at hshort
  omega

private theorem length_seenSource_lt (line : MountLine) : line.seenSource.length < 2047 := by
  have hshort : line.text.length < 2047 := line.short
  rw [text_eq] at hshort
  simp only [List.length_append, List.length_cons] at hshort
  rw [seenSource]
  split_ifs with htype
  · omega
  · rw [List.length_drop]
    omega

/-- Fields are separated by blanks only. -/
private theorem newline_notMem (line : MountLine) : 10 ∉ line.text := by
  have hfield : ∀ field : Field, 10 ∉ field.1 := fun field h10 =>
    absurd (field.2.2 10 h10).1 (by decide)
  have hfollowing : ∀ fields : List Field, 10 ∉ following fields := by
    intro fields h10
    obtain ⟨field, -, hmem⟩ := List.mem_flatMap.mp h10
    rcases List.mem_cons.mp hmem with hblank | hmem
    · exact absurd hblank (by decide)
    · exact hfield field hmem
  rw [text_eq]
  simp [hfield, hfollowing]

/-- The first five conversions reach the mount point. -/
private theorem scan_mountPoint (line : MountLine) {width : ℕ} (hwidth : line.text.length ≤ width) :
    ∃ r₁ r₂ r₃ r₄ r₅ first second third fourth,
      scanToken width (line.text ++ [10]) = some (first, r₁) ∧
      scanToken width r₁ = some (second, r₂) ∧ scanToken width r₂ = some (third, r₃) ∧
      scanToken width r₃ = some (fourth, r₄) ∧
      scanToken 4095 r₄ = some (line.mountPoint.1, r₅) := by
  have hshort : line.text.length < 2047 := line.short
  have hlengths := congrArg List.length line.text_eq
  simp only [middle, following, List.cons_append, List.nil_append, List.flatMap_cons,
    List.length_append, List.length_cons] at hlengths
  obtain ⟨r, hr⟩ : ∃ r, line.text ++ [10] = line.mountId.1 ++ 32 :: (line.parentId.1 ++
      32 :: (line.device.1 ++ 32 :: (line.root.1 ++ 32 :: (line.mountPoint.1 ++ 32 :: r)))) := by
    refine ⟨line.options.1 ++ following line.optionalFields ++ (32 :: (dash.1 ++
      32 :: (line.fsType.1 ++ 32 :: (line.source.1 ++ 32 :: line.superOptions.1)))) ++ [10], ?_⟩
    rw [text_eq]
    simp [middle, following]
  rw [hr]
  exact ⟨_, _, _, _, _, _, _, _, _, scanToken_first line.mountId (by omega) _,
    scanToken_next line.parentId (by omega) _, scanToken_next line.device (by omega) _,
    scanToken_next line.root (by omega) _, scanToken_next line.mountPoint (by omega) _⟩

/-- The search finds the separator and not something in front of it, since no field but the
separator is a single dash. -/
private theorem strstr_text (line : MountLine) :
    strstr (line.text ++ [10]) (utf8 " - ") = some (32 :: (dash.1 ++ 32 :: (line.fsType.1 ++
      32 :: (line.source.1 ++ 32 :: (line.superOptions.1 ++ [10]))))) := by
  have hpat : utf8 " - " = 32 :: (dash.1 ++ [32]) := by decide
  have hmiddle : ∀ field ∈ line.middle, field ≠ dash := fun field hfield =>
    line.separated field (List.mem_cons_of_mem _ hfield)
  have hfound := strstr_separator line.mountId hmiddle
    (line.fsType.1 ++ 32 :: (line.source.1 ++ 32 :: (line.superOptions.1 ++ [10])))
  rw [← hpat] at hfound
  rw [← hfound, text_eq]
  simp only [List.append_assoc, List.cons_append]

/-- The two conversions behind the separator see a source. -/
private theorem scan_source (line : MountLine) :
    ∃ type r₁ r₂, scanToken 127 (line.fsType.1 ++ 32 :: (line.source.1 ++
        32 :: (line.superOptions.1 ++ [10]))) = some (type, r₁) ∧
      scanToken 4095 r₁ = some (line.seenSource, r₂) := by
  rw [seenSource]
  split_ifs with hlen
  · exact ⟨_, _, _, scanToken_first line.fsType hlen _,
      scanToken_next line.source (line.length_source_lt.le.trans (by decide)) _⟩
  · have htype := scanToken_field line.fsType (show 0 < 127 by decide) (List.forall_mem_nil _)
      (isSpace_head?_blank (line.source.1 ++ 32 :: (line.superOptions.1 ++ [10])))
    -- what is left of the type is a field too
    have hrest : line.fsType.1.drop 127 ≠ [] := by
      rw [ne_eq, List.drop_eq_nil_iff]
      exact hlen
    have hseen := line.length_seenSource_lt
    rw [seenSource, if_neg hlen] at hseen
    exact ⟨_, _, _, htype, scanToken_first
      ⟨line.fsType.1.drop 127, hrest, fun b hb => line.fsType.2.2 b (List.mem_of_mem_drop hb)⟩
      (hseen.le.trans (by decide)) _⟩

/-- **One line.** A line for `/sd` counts if its source is seen to be on an mmc device. -/
theorem mountinfoLineSource_text (line : MountLine) :
    mountinfoLineSource (line.text ++ [10]) =
      if line.mountPoint = sdMountPoint ∧ IsMmc line.seenSource then some line.seenSource
      else none := by
  have hwidth : line.text.length ≤ (line.text ++ [10]).length := by
    rw [List.length_append]
    omega
  obtain ⟨r₁, r₂, r₃, r₄, r₅, first, second, third, fourth, h₁, h₂, h₃, h₄, h₅⟩ :=
    line.scan_mountPoint hwidth
  obtain ⟨type, r₆, r₇, htype, hsource⟩ := line.scan_source
  have hdash : dash.1 = [45] := by decide
  have hpoint : line.mountPoint.1 = utf8 "/sd" ↔ line.mountPoint = sdMountPoint :=
    ⟨fun h => Subtype.ext h, fun h => congrArg Subtype.val h⟩
  rw [mountinfoLineSource]
  simp only [h₁, h₂, h₃, h₄, h₅, strstr_text, hdash, Option.bind_eq_bind, Option.bind_some,
    ne_eq, hpoint, ite_not, List.singleton_append, List.drop_succ_cons, List.drop_zero, htype,
    hsource, strstr_isSome_iff]
  rw [ite_and]
  rfl

end MountLine

/-! ### The whole table -/

/-- The condition under which the first mount of the card decides: it has the source of the
mount that is seen, and a mount of the card that is seen is recognised. It speaks of the
table only. -/
structure SdUncovered (table : List MountLine) : Prop where
  /-- The first line for `/sd` that is seen to be on mmc has the source of the last one. -/
  first_eq_last : ∀ before line after, sdLines table = before ++ line :: after →
    (∀ l ∈ before, ¬IsMmc l.seenSource) → IsMmc line.seenSource →
    ∀ last ∈ (sdLines table).getLast?, last.source.1 = line.seenSource
  /-- If the last line for `/sd` is on mmc, some line for `/sd` is seen to be. -/
  last_seen : ∀ last ∈ (sdLines table).getLast?, IsMmc last.source.1 →
    ∃ line ∈ sdLines table, IsMmc line.seenSource

/-- The loop finds the first line for `/sd` that is seen to be on mmc. -/
private theorem findSome?_mountinfoLineSource (table : List MountLine) :
    (table.map fun line => line.text ++ [10]).findSome? mountinfoLineSource =
      ((sdLines table).find? fun line => IsMmc line.seenSource).map MountLine.seenSource := by
  rw [List.findSome?_map]
  induction table with
  | nil => rfl
  | cons line table ih =>
    rw [List.findSome?_cons, ih, Function.comp_apply, line.mountinfoLineSource_text]
    by_cases hpoint : line.mountPoint = sdMountPoint
    · have hlines : sdLines (line :: table) = line :: sdLines table :=
        List.filter_cons_of_pos (decide_eq_true hpoint)
      rw [hlines, List.find?_cons]
      by_cases hmmc : IsMmc line.seenSource
      · rw [if_pos ⟨hpoint, hmmc⟩, decide_eq_true hmmc]
        rfl
      · rw [if_neg fun h => hmmc h.2, decide_eq_false hmmc]
    · have hlines : sdLines (line :: table) = sdLines table :=
        List.filter_cons_of_neg (by simpa using hpoint)
      rw [if_neg fun h => hpoint h.1, hlines]

/-- The test finds no card: that is right if the last line for `/sd` is not on mmc. -/
private theorem none_eq_sdSource_iff {table : List MountLine}
    (hnone : ∀ line ∈ sdLines table, ¬IsMmc line.seenSource) :
    none = sdSource table ↔ SdUncovered table := by
  rw [sdSource]
  constructor
  · intro heq
    refine ⟨fun before line after hlines _ hmmc => ?_, fun last hlast hmmc => ?_⟩
    · have hline : line ∈ sdLines table := by
        rw [hlines]
        exact List.mem_append_right _ List.mem_cons_self
      exact absurd hmmc (hnone line hline)
    · rw [Option.mem_def.mp hlast, Option.map_some, Option.filter_some,
        if_pos (decide_eq_true hmmc)] at heq
      exact absurd heq.symm (Option.some_ne_none _)
  · intro h
    cases hlast : (sdLines table).getLast? with
    | none => rfl
    | some last =>
      have hmmc : ¬IsMmc last.source.1 := fun hmmc => by
        obtain ⟨line, hline, hseen⟩ := h.last_seen last hlast hmmc
        exact hnone line hline hseen
      rw [Option.map_some, Option.filter_some, if_neg (by simpa using hmmc)]

/-- The test finds a line: that is right if the last line for `/sd` has the same source. -/
private theorem some_eq_sdSource_iff {table : List MountLine} {line : MountLine}
    (hfind : (sdLines table).find? (fun line => IsMmc line.seenSource) = some line) :
    some line.seenSource = sdSource table ↔ SdUncovered table := by
  obtain ⟨hmmc, before, after, hlines, hbefore⟩ := List.find?_eq_some_iff_append.mp hfind
  rw [decide_eq_true_iff] at hmmc
  have hbefore' : ∀ l ∈ before, ¬IsMmc l.seenSource := fun l hl => by
    simpa using hbefore l hl
  obtain ⟨last, hlast⟩ : ∃ last, (sdLines table).getLast? = some last :=
    Option.ne_none_iff_exists'.mp (by simp [hlines])
  rw [sdSource, hlast, Option.map_some, Option.filter_some]
  constructor
  · intro heq
    have hsource : last.source.1 = line.seenSource := by
      split_ifs at heq
      exact (Option.some.inj heq).symm
    refine ⟨fun before' line' after' hlines' hnone' hmmc' last' hlast' => ?_,
      fun _ _ _ => ⟨line, List.mem_of_find?_eq_some hfind, hmmc⟩⟩
    -- the first such line is the one the loop stops at
    have hfind' : (sdLines table).find? (fun line => IsMmc line.seenSource) = some line' := by
      refine List.find?_eq_some_iff_append.mpr
        ⟨decide_eq_true hmmc', before', after', hlines', fun l hl => ?_⟩
      simpa using hnone' l hl
    obtain rfl := Option.some.inj (hfind.symm.trans hfind')
    obtain rfl := Option.some.inj (hlast.symm.trans hlast')
    exact hsource
  · intro h
    have hsource := h.first_eq_last before line after hlines hbefore' hmmc last hlast
    rw [hsource, if_pos (decide_eq_true hmmc)]

/-- The first line that is seen to be on mmc tells the mount that is seen, or there is
neither. -/
private theorem find?_map_eq_sdSource_iff (table : List MountLine) :
    ((sdLines table).find? fun line => IsMmc line.seenSource).map MountLine.seenSource =
      sdSource table ↔ SdUncovered table := by
  cases hfind : (sdLines table).find? fun line => IsMmc line.seenSource with
  | none =>
    refine none_eq_sdSource_iff fun line hline => ?_
    simpa using List.find?_eq_none.mp hfind line hline
  | some line => exact some_eq_sdSource_iff hfind

/-- Of file system types that the conversion takes whole, the sources are seen as they are. -/
theorem sdUncovered_iff_of_short {table : List MountLine}
    (hshort : ∀ line ∈ sdLines table, line.fsType.1.length ≤ 127) :
    SdUncovered table ↔ ∀ before line after, sdLines table = before ++ line :: after →
      (∀ l ∈ before, ¬IsMmc l.source.1) → IsMmc line.source.1 →
      ∀ last ∈ (sdLines table).getLast?, last.source = line.source := by
  have hseen : ∀ line ∈ sdLines table, line.seenSource = line.source.1 := fun line hline =>
    if_pos (hshort line hline)
  have hsplit : ∀ {before line after}, sdLines table = before ++ line :: after →
      (∀ l ∈ before, l.seenSource = l.source.1) ∧ line.seenSource = line.source.1 := by
    intro before line after hlines
    rw [hlines] at hseen
    exact ⟨fun l hl => hseen l (List.mem_append_left _ hl),
      hseen line (List.mem_append_right _ List.mem_cons_self)⟩
  constructor
  · intro h before line after hlines hbefore hmmc last hlast
    obtain ⟨hbefore', hline⟩ := hsplit hlines
    rw [← hline] at hmmc
    have hsource := h.first_eq_last before line after hlines
      (fun l hl => (hbefore' l hl).symm ▸ hbefore l hl) hmmc last hlast
    exact Subtype.ext (hsource.trans hline)
  · intro h
    refine ⟨fun before line after hlines hbefore hmmc last hlast => ?_, fun last hlast hmmc => ?_⟩
    · obtain ⟨hbefore', hline⟩ := hsplit hlines
      rw [hline] at hmmc ⊢
      have hsource := h before line after hlines (fun l hl => hbefore' l hl ▸ hbefore l hl) hmmc
        last hlast
      exact congrArg Subtype.val hsource
    · have hmem := List.mem_of_mem_getLast? hlast
      exact ⟨last, hmem, by rwa [hseen last hmem]⟩

section Read

variable {σ : Type} {os : Os σ} {table : List MountLine} {p : Proc σ}

/-- What `read_mountinfo_sd` reports of a table. -/
private theorem readMountinfoSd_of_showsMounts (h : os.ShowsMounts table p.os) :
    ((readMountinfoSd os pathMaxLen).run p).1 =
      ((sdLines table).find? fun line => IsMmc line.seenSource).map MountLine.seenSource := by
  have hlines : (os.mountinfo p.os).1 = some (table.map fun line => line.text ++ [10]) := by
    rw [h, mountinfoText, fgetsLines_flatMap, List.map_map]
    · rfl
    · intro line hline
      obtain ⟨line, -, rfl⟩ := List.mem_map.mp hline
      exact line.newline_notMem
    · intro line hline
      obtain ⟨line, -, rfl⟩ := List.mem_map.mp hline
      have hshort : line.text.length < 2047 := line.short
      omega
  rw [readMountinfoSd_run, hlines, Option.bind_some, findSome?_mountinfoLineSource]
  cases (sdLines table).find? fun line => IsMmc line.seenSource with
  | none => rfl
  | some line =>
    have hfits : line.seenSource.length < pathMaxLen :=
      line.length_seenSource_lt.trans (by decide)
    change some (snprintf pathMaxLen line.seenSource) = _
    rw [snprintf_eq_self hfits]
    rfl

/-- **The SD card is mounted** as the test says exactly if the first mount of the card is
not covered by another one. -/
theorem readMountinfoSd_eq_iff (h : os.ShowsMounts table p.os) :
    ((readMountinfoSd os pathMaxLen).run p).1 = sdSource table ↔ SdUncovered table := by
  rw [readMountinfoSd_of_showsMounts h]
  exact find?_map_eq_sdSource_iff table

end Read

/-- The card at `/sd`. -/
def cardLine : MountLine where
  mountId := ⟨utf8 "30", by decide⟩
  parentId := ⟨utf8 "1", by decide⟩
  device := ⟨utf8 "179:1", by decide⟩
  root := ⟨utf8 "/", by decide⟩
  mountPoint := sdMountPoint
  options := ⟨utf8 "rw", by decide⟩
  optionalFields := []
  fsType := ⟨utf8 "vfat", by decide⟩
  source := ⟨utf8 "/dev/mmcblk0p1", by decide⟩
  superOptions := ⟨utf8 "rw", by decide⟩
  separated := by decide
  short := by decide

/-- A file system in memory at `/sd`. Its source is the name of its type. -/
def coverLine : MountLine where
  mountId := ⟨utf8 "31", by decide⟩
  parentId := ⟨utf8 "30", by decide⟩
  device := ⟨utf8 "0:20", by decide⟩
  root := ⟨utf8 "/", by decide⟩
  mountPoint := sdMountPoint
  options := ⟨utf8 "rw", by decide⟩
  optionalFields := []
  fsType := ⟨utf8 "tmpfs", by decide⟩
  source := ⟨utf8 "tmpfs", by decide⟩
  superOptions := ⟨utf8 "rw", by decide⟩
  separated := by decide
  short := by decide

/-- The card is covered: what is seen at `/sd` is not on the card. -/
def coveredTable : List MountLine := [cardLine, coverLine]

/-- A process whose mount table is the given one. -/
def showingOs (table : List MountLine) : Os Unit :=
  (Os.failing Unit).withMountinfo fun _ => some (fgetsLines 2048 (mountinfoText table))

/-- A file system in memory that was mounted at `/sd` before the card, and the card mounted
over it. -/
theorem readMountinfoSd_eq_iff_card :
    ((readMountinfoSd (showingOs [coverLine, cardLine]) pathMaxLen).run ⟨fun _ => {}, [], ()⟩).1 =
      sdSource [coverLine, cardLine] ↔ SdUncovered [coverLine, cardLine] :=
  readMountinfoSd_eq_iff (p := ⟨fun _ => {}, [], ()⟩) rfl

/-- Of the covered card, the test says that it is mounted. So the condition cannot be left
out. -/
theorem readMountinfoSd_ne_of_covered :
    ((readMountinfoSd (showingOs coveredTable) pathMaxLen).run ⟨fun _ => {}, [], ()⟩).1 =
        some (utf8 "/dev/mmcblk0p1") ∧
      sdSource coveredTable = none ∧
      ¬((readMountinfoSd (showingOs coveredTable) pathMaxLen).run ⟨fun _ => {}, [], ()⟩).1 =
        sdSource coveredTable := by
  have hshows : (showingOs coveredTable).ShowsMounts coveredTable () := rfl
  have hread : ((readMountinfoSd (showingOs coveredTable) pathMaxLen).run
      ⟨fun _ => {}, [], ()⟩).1 = some (utf8 "/dev/mmcblk0p1") := by
    rw [readMountinfoSd_of_showsMounts hshows]
    decide
  have hnone : sdSource coveredTable = none := by decide
  refine ⟨hread, hnone, ?_⟩
  rw [hread, hnone]
  exact Option.some_ne_none _

end UsbResponder
