import UsbResponder.Base.GrowBuffer
import UsbResponder.FileOps.Listing

/-!
# The buffers of a listing

`usb_responder_file_list` with the two buffers it fills, each of which grows by doubling
when a name and a newline do not fit with one byte to spare. Which calls of the allocator
succeed is an input, and a write outside a buffer has no result.

The buffers hold the lists of `fileListLoop` after every entry (`fileListLoopIn_refines`),
and the byte to spare is where the NUL goes in the end. With `fileListLoop_of_inspectsNamed`
this makes a listing complete (`fileListIn_complete`).

The invariant of a buffer is `ListBuffer.Roomy`: the used part is smaller than the capacity,
so there is always room for the NUL, and beyond its first 256 bytes the capacity is at most
twice what that takes, so that no size wraps around before the list itself is that long. One
append keeps it, whether it has to grow or not (`ListBuffer.Holds.append`). An empty list is
a null pointer until the end, where `list_finalize` makes a block of one byte for it.

The results are for allocations that succeed; how a listing fails without memory is only in
the definitions.
-/

namespace UsbResponder

open CString

variable {σ : Type}

/-! ### The source -/

/-- `realloc`, which succeeds if `ok` says so. The cells behind the old contents hold
`fresh`, about which nothing is known. -/
def realloc (fresh : UInt8) (ok : Bool) (block : Option Bytes) (size : ℕ) : Option Bytes :=
  if ok then some (resize fresh (block.getD []) size) else none

/-- `text`, `used` and `cap` of a list; `text` is `none` when it is null. -/
structure ListBuffer where
  text : Option Bytes := none
  used : ℕ := 0
  cap : ℕ := 0
  deriving DecidableEq, Repr

/-- The first half of `list_append_line`: a buffer with room for `needed` bytes, or `none`
when `realloc` fails. -/
def listReserve (fresh : UInt8) (ok : Bool) (list : ListBuffer) (needed : ℕ) :
    Option ListBuffer :=
  if list.cap < needed then
    let newCap := listGrow needed (if list.cap = 0 then 256 else list.cap) needed
    (realloc fresh ok list.text newCap).map fun next =>
      { list with text := some next, cap := newCap }
  else some list

/-- `list_append_line`; `some none` is the result `false`. -/
def listAppendLineIn (fresh : UInt8) (ok : Bool) (list : ListBuffer) (name : Bytes) :
    Option (Option ListBuffer) :=
  let n := strlen name + 1
  match listReserve fresh ok list (list.used + n + 1) with
  | none => some none
  | some list => do
    let text ← store (← list.text) list.used (name.take (n - 1))
    let text ← store text (list.used + n - 1) (utf8 "\n")
    some (some { list with text := some text, used := list.used + n })

/-- `list_finalize`; `some none` is a null pointer. An empty list gets a block of one byte
for its NUL. -/
def listFinalize (ok : Bool) (list : ListBuffer) : Option (Option Bytes) :=
  match list.text with
  | none => some (if ok then some [0] else none)
  | some text => (store text list.used [0]).map some

section FileList

variable (fresh : UInt8) (os : Os σ) (alloc : ℕ → Bool)

/-- The loop of `usb_responder_file_list` from entry `i` on. An entry calls the allocator
once at most, and `alloc i` says whether it succeeds. The value is `none` when a write was
out of bounds. -/
def fileListLoopIn (dirpath : Bytes) :
    ℕ → List Bytes → ListBuffer → ListBuffer → Op σ (Option (ListBuffer × ListBuffer))
  | _, [], files, dirs => return some (files, dirs)
  | i, name :: names, files, dirs =>
    if isDotName name then fileListLoopIn dirpath (i + 1) names files dirs
    else
      let child := childPath dirpath name
      if pathMaxLen ≤ child.length then Op.failWith (utf8 "path too long")
      else do
        match ← Op.sys (os.lstat child) with
        | .error e => Op.failFile os (utf8 "lstat") child e
        | .ok st =>
          if st.kind = .directory then
            match listAppendLineIn fresh (alloc i) dirs name with
            | none => return none
            | some none => Op.failWith (utf8 "oom")
            | some (some dirs) => fileListLoopIn dirpath (i + 1) names files dirs
          else
            match listAppendLineIn fresh (alloc i) files name with
            | none => return none
            | some none => Op.failWith (utf8 "oom")
            | some (some files) => fileListLoopIn dirpath (i + 1) names files dirs

/-- `usb_responder_file_list`: the blocks that `*out_files` and `*out_dirs` point to. -/
def fileListIn (relativePath : Bytes) : Op σ (Option (Bytes × Bytes)) := do
  let (dirpath, _) ← buildPathOp relativePath
  match ← Op.sys (os.opendir dirpath) with
  | .error _ => Op.fail
  | .ok names =>
    match ← fileListLoopIn fresh os alloc dirpath 0 names {} {} with
    | none => return none
    | some (files, dirs) =>
      match listFinalize (alloc names.length) files,
        listFinalize (alloc (names.length + 1)) dirs with
      | some (some files), some (some dirs) => return some (files, dirs)
      | some _, some _ => Op.failWith (utf8 "oom")
      | _, _ => return none

end FileList

/-! ### One buffer -/

/-- What holds of a buffer after every append: there is room for one more byte, and the
capacity is not more than twice what that takes. -/
structure ListBuffer.Roomy (buffer : ListBuffer) : Prop where
  /-- Nothing has been appended yet. -/
  null : buffer.text = none → buffer.used = 0 ∧ buffer.cap = 0
  /-- Something has been appended. -/
  room : ∀ text ∈ buffer.text, text.length = buffer.cap ∧ buffer.used + 1 ≤ buffer.cap
  /-- No size gets out of the range of `size_t` before the list itself does. -/
  bounded : buffer.cap ≤ max 256 (2 * buffer.used + 1)

/-- The buffer holds the list: the same used length, the same capacity, and the text in its
first cells. -/
structure ListBuffer.Holds (buffer : ListBuffer) (list : ListText) : Prop where
  roomy : buffer.Roomy
  used : buffer.used = list.text.length
  cap : buffer.cap = list.cap
  text : list.text <+: buffer.text.getD []

theorem ListBuffer.Holds.empty : ({} : ListBuffer).Holds {} where
  roomy := ⟨fun _ => ⟨rfl, rfl⟩, fun _ h => (Option.not_mem_none _ h).elim, Nat.zero_le _⟩
  used := rfl
  cap := rfl
  text := List.prefix_rfl

/-- The doubling loop reaches what is needed. It is the loop of `append_bytes`, for which
this is known. -/
theorem listGrow_eq_enlarge (fuel cap needed : ℕ) :
    listGrow fuel cap needed = GrowBuffer.enlarge needed fuel cap := by
  induction fuel generalizing cap with
  | zero => rfl
  | succ fuel ih => rw [listGrow, GrowBuffer.enlarge, ih]

/-- The doubling loop stops as soon as what is needed fits. -/
private theorem listGrow_le (fuel cap needed : ℕ) :
    listGrow fuel cap needed ≤ max cap (2 * needed - 1) := by
  induction fuel generalizing cap with
  | zero => exact Nat.le_max_left ..
  | succ fuel ih =>
    rw [listGrow]
    split_ifs with hlt
    · have hcap : listGrow fuel (cap * 2) needed ≤ max (cap * 2) (2 * needed - 1) := ih _
      omega
    · exact Nat.le_max_left ..

section Append

variable (fresh : UInt8) {buffer : ListBuffer} {list : ListText} {name : Bytes}

/-- The block has as many bytes as the capacity says. -/
private theorem ListBuffer.Roomy.length_block (h : buffer.Roomy) :
    (buffer.text.getD []).length = buffer.cap := by
  cases htext : buffer.text with
  | none => exact (h.null htext).2.symm
  | some text => exact (h.room text htext).1

/-- Room for a name, its newline and a NUL is there, or is made. -/
theorem ListBuffer.Holds.reserve (h : buffer.Holds list) {needed : ℕ} (hneeded : 0 < needed) :
    ∃ text cap, listReserve fresh true buffer needed = some ⟨some text, buffer.used, cap⟩ ∧
      text.length = cap ∧ needed ≤ cap ∧ list.text <+: text ∧
      cap =
        if list.cap < needed then listGrow needed (if list.cap = 0 then 256 else list.cap) needed
        else list.cap := by
  rw [listReserve, h.cap]
  by_cases hfull : list.cap < needed
  · rw [if_pos hfull, if_pos hfull]
    obtain ⟨start, hstart, hpos, hle⟩ : ∃ start, (if list.cap = 0 then 256 else list.cap) = start ∧
        0 < start ∧ list.cap ≤ start := by
      refine ⟨_, rfl, ?_, ?_⟩ <;> split_ifs <;> omega
    rw [hstart]
    obtain ⟨hroom, hmore⟩ : needed ≤ listGrow needed start needed ∧
        start ≤ listGrow needed start needed := by
      rw [listGrow_eq_enlarge]
      exact GrowBuffer.le_enlarge hpos (Nat.le_add_left needed start)
    have hold : (buffer.text.getD []).length ≤ listGrow needed start needed := by
      rw [h.roomy.length_block, h.cap]
      exact hle.trans hmore
    obtain ⟨hlength, hkeep⟩ := resize_of_le fresh hold
    have hnext : realloc fresh true buffer.text (listGrow needed start needed) =
        some (resize fresh (buffer.text.getD []) (listGrow needed start needed)) := if_pos rfl
    dsimp only
    rw [hnext]
    exact ⟨_, _, rfl, hlength, hroom, h.text.trans hkeep, rfl⟩
  · rw [if_neg hfull, if_neg hfull]
    cases htext : buffer.text with
    | none =>
      -- A null pointer has no capacity.
      have hzero := (h.roomy.null htext).2
      rw [h.cap] at hzero
      omega
    | some text =>
      have hbuffer : buffer = ⟨some text, buffer.used, list.cap⟩ := by
        rw [← h.cap, ← htext]
      have hpre : list.text <+: text := by
        have hpre := h.text
        rwa [htext] at hpre
      refine ⟨text, list.cap, congrArg some hbuffer, ?_, not_lt.mp hfull, hpre, rfl⟩
      rw [← h.cap]
      exact (h.roomy.room text htext).1

/-- **One append** writes the name and a newline inside the buffer. -/
theorem ListBuffer.Holds.append (h : buffer.Holds list) (hnul : 0 ∉ name) :
    ∃ buffer', listAppendLineIn fresh true buffer name = some (some buffer') ∧
      buffer'.Holds (listAppendLine list name) := by
  have hstrlen : strlen name = name.length := by rw [strlen, cStr_eq_self hnul]
  have hnewline : (utf8 "\n").length = 1 := by decide
  obtain ⟨text, cap, hreserve, hlength, hroom, hpre, hcap⟩ :=
    h.reserve fresh (show 0 < buffer.used + (name.length + 1) + 1 by omega)
  rw [h.used] at hreserve hroom hcap
  obtain ⟨text₁, hstore₁, hlength₁, hpre₁⟩ := exists_store_append hpre name (by
    rw [List.length_append]
    omega)
  obtain ⟨text₂, hstore₂, hlength₂, hpre₂⟩ := exists_store_append hpre₁ (utf8 "\n") (by
    rw [List.length_append, List.length_append, hnewline]
    omega)
  rw [List.length_append] at hstore₂
  refine ⟨⟨some text₂, list.text.length + (name.length + 1), cap⟩, ?_, ?_⟩
  · rw [listAppendLineIn, hstrlen, h.used, hreserve, Nat.add_sub_cancel, List.take_length]
    change (store text list.text.length name).bind _ = _
    rw [hstore₁, Option.bind_some]
    change (store text₁ (list.text.length + name.length) (utf8 "\n")).bind _ = _
    rw [hstore₂, Option.bind_some]
  · refine ⟨⟨fun hnull => (Option.some_ne_none _ hnull).elim, fun block hblock => ?_, ?_⟩, ?_, ?_,
      hpre₂⟩
    · obtain rfl := Option.mem_some_iff.mp hblock
      dsimp only
      omega
    · change cap ≤ max 256 (2 * (list.text.length + (name.length + 1)) + 1)
      have hbounded := h.roomy.bounded
      rw [h.used, h.cap] at hbounded
      rw [hcap]
      split_ifs with hfull hzero
      · have hgrow := listGrow_le (list.text.length + (name.length + 1) + 1) 256
          (list.text.length + (name.length + 1) + 1)
        omega
      · have hgrow := listGrow_le (list.text.length + (name.length + 1) + 1) list.cap
          (list.text.length + (name.length + 1) + 1)
        omega
      · omega
    · change _ = (list.text ++ name ++ utf8 "\n").length
      rw [List.length_append, List.length_append, hnewline, Nat.add_assoc]
    · exact hcap

/-- The NUL of the finished list goes into the byte to spare, or into a block of its own
when nothing was listed. -/
private theorem ListBuffer.Holds.finalize (h : buffer.Holds list) (hnul : 0 ∉ list.text) :
    ∃ block, listFinalize true buffer = some (some block) ∧ cStr block = list.text := by
  rw [listFinalize]
  cases htext : buffer.text with
  | none =>
    have hempty : list.text = [] := List.length_eq_zero_iff.mp (by
      rw [← h.used]
      exact (h.roomy.null htext).1)
    refine ⟨[0], rfl, ?_⟩
    rw [hempty]
    decide
  | some text =>
    obtain ⟨hlength, hroom⟩ := h.roomy.room text htext
    have hpre : list.text <+: text := by
      have hpre := h.text
      rwa [htext] at hpre
    obtain ⟨block, hstore, -, hblock⟩ := exists_store_append hpre [0] (by
      rw [List.length_append, List.length_singleton, ← h.used, hlength]
      exact hroom)
    refine ⟨block, ?_, cStr_eq_of_prefix hnul hblock⟩
    dsimp only
    rw [h.used, hstore]
    rfl

end Append

/-! ### The listing -/

/-- The buffers that hold two texts. -/
def HoldsLists (texts : Bytes × Bytes) (buffers : Option (ListBuffer × ListBuffer)) : Prop :=
  ∃ files dirs filesText dirsText, buffers = some (files, dirs) ∧
    files.Holds filesText ∧ dirs.Holds dirsText ∧ (filesText.text, dirsText.text) = texts

section FileList

variable (os : Os σ) (fresh : UInt8) {alloc : ℕ → Bool} {dirpath : Bytes}

/-- The loop with its buffers does what the loop over the two lists does: it makes the same
system calls, fails with the same message, and its buffers hold the lists. In particular no
write of it is out of bounds. -/
theorem fileListLoopIn_refines (halloc : ∀ i, alloc i = true) {names : List Bytes}
    (hnul : ∀ name ∈ names, 0 ∉ name) (i : ℕ) {files dirs : ListBuffer}
    {filesText dirsText : ListText} (hfiles : files.Holds filesText) (hdirs : dirs.Holds dirsText)
    (p : Proc σ) :
    Option.Rel HoldsLists ((fileListLoop os dirpath names filesText dirsText).run p).1
        ((fileListLoopIn fresh os alloc dirpath i names files dirs).run p).1 ∧
      ((fileListLoopIn fresh os alloc dirpath i names files dirs).run p).2 =
        ((fileListLoop os dirpath names filesText dirsText).run p).2 := by
  induction names generalizing i files dirs filesText dirsText p with
  | nil => exact ⟨.some ⟨files, dirs, filesText, dirsText, rfl, hfiles, hdirs, rfl⟩, rfl⟩
  | cons name names ih =>
    obtain ⟨hname, hnames⟩ := List.forall_mem_cons.mp hnul
    rw [fileListLoop, fileListLoopIn]
    by_cases hdot : isDotName name = true
    · rw [if_pos hdot, if_pos hdot]
      exact ih hnames (i + 1) hfiles hdirs p
    · rw [if_neg hdot, if_neg hdot]
      dsimp only
      by_cases hlen : pathMaxLen ≤ (childPath dirpath name).length
      · rw [if_pos hlen, if_pos hlen]
        exact ⟨.none, rfl⟩
      · rw [if_neg hlen, if_neg hlen, Op.run_bind_of_some (Op.run_sys ..),
          Op.run_bind_of_some (Op.run_sys ..)]
        cases (os.lstat (childPath dirpath name) p.os).1 with
        | error e => exact ⟨.none, rfl⟩
        | ok st =>
          dsimp only
          by_cases hdir : st.kind = .directory
          · obtain ⟨dirs', happend, hdirs'⟩ := hdirs.append fresh hname
            rw [if_pos hdir, if_pos hdir, halloc, happend]
            exact ih hnames (i + 1) hfiles hdirs' _
          · obtain ⟨files', happend, hfiles'⟩ := hfiles.append fresh hname
            rw [if_neg hdir, if_neg hdir, halloc, happend]
            exact ih hnames (i + 1) hfiles' hdirs _

/-- Names without NUL give a list without NUL. -/
private theorem zero_notMem_nameLines {entries : List NamedEntry}
    (hnul : ∀ entry ∈ entries, 0 ∉ entry.name) : 0 ∉ nameLines entries := by
  rw [nameLines, List.mem_flatMap]
  rintro ⟨entry, hentry, h0⟩
  rcases List.mem_append.mp h0 with hname | hnewline
  · exact hnul entry hentry hname
  · exact absurd hnewline (by decide)

/-- After any of the entries, the buffers hold what has been listed so far. -/
private theorem fileListLoopIn_of_inspectsNamed (halloc : ∀ i, alloc i = true)
    {entries : List NamedEntry} (hnul : ∀ entry ∈ entries, 0 ∉ entry.name) {p : Proc σ}
    (h : os.InspectsNamed dirpath entries p.os) :
    ∃ files dirs p',
      (fileListLoopIn fresh os alloc dirpath 0 (entries.map NamedEntry.name) {} {}).run p =
        (some (some (files, dirs)), p') ∧
      ∃ filesText dirsText, files.Holds filesText ∧ dirs.Holds dirsText ∧
        filesText.text = nameLines (fileEntries entries) ∧
        dirsText.text = nameLines (dirEntries entries) := by
  obtain ⟨p', hrun⟩ := fileListLoop_of_inspectsNamed h {} {}
  have hnames : ∀ name ∈ entries.map NamedEntry.name, 0 ∉ name := List.forall_mem_map.mpr hnul
  obtain ⟨hrel, hstate⟩ := fileListLoopIn_refines os fresh halloc hnames 0 .empty .empty p
  rw [hrun] at hrel hstate
  generalize hout :
    (fileListLoopIn fresh os alloc dirpath 0 (entries.map NamedEntry.name) {} {}).run p = out
    at hrel hstate ⊢
  obtain ⟨buffers, p''⟩ := out
  cases hrel with
  | some hholds =>
    obtain ⟨files, dirs, filesText, dirsText, rfl, hfiles, hdirs, htexts⟩ := hholds
    obtain ⟨hfilesText, hdirsText⟩ := Prod.mk.injEq .. ▸ htexts
    exact ⟨files, dirs, p'', rfl, filesText, dirsText, hfiles, hdirs, hfilesText, hdirsText⟩

/-- A directory whose entries can be inspected can be inspected up to any of them. -/
private theorem Os.InspectsNamed.of_isPrefix {os : Os σ} {entries entries' : List NamedEntry}
    {s : σ} (h : os.InspectsNamed dirpath entries s) (hpre : entries' <+: entries) :
    os.InspectsNamed dirpath entries' s := by
  induction entries generalizing entries' s with
  | nil =>
    rw [List.prefix_nil.mp hpre]
    trivial
  | cons entry entries ih =>
    cases entries' with
    | nil => trivial
    | cons entry' entries' =>
      obtain ⟨rfl, hrest⟩ := List.cons_prefix_cons.mp hpre
      rw [Os.InspectsNamed] at h ⊢
      split_ifs at h ⊢ with hdot
      · exact ih h hrest
      · obtain ⟨hlen, st, s', hlstat, hkind, hinspects⟩ := h
        exact ⟨hlen, st, s', hlstat, hkind, ih hinspects hrest⟩

/-- **A listing is complete**, and its buffers hold: the two blocks are the names of the
files and those of the directories, and every entry that is not skipped is in one of them.
After any of the entries there is room for the NUL in each buffer. -/
theorem fileListIn_complete {relativePath : Bytes} {storage : Storage} {entries : List NamedEntry}
    {p : Proc σ} {s : σ} (halloc : ∀ i, alloc i = true)
    (hpath : buildPath relativePath pathMaxLen = (dirpath, .ok storage))
    (hopen : os.opendir dirpath p.os = (.ok (entries.map NamedEntry.name), s))
    (hnul : ∀ entry ∈ entries, 0 ∉ entry.name) (h : os.InspectsNamed dirpath entries s) :
    (∃ files dirs p', (fileListIn fresh os alloc relativePath).run p =
        (some (some (files, dirs)), p') ∧
      cStr files = nameLines (fileEntries entries) ∧ cStr dirs = nameLines (dirEntries entries)) ∧
    (fileEntries entries ++ dirEntries entries).Perm
      (entries.filter fun entry => !isDotName entry.name) ∧
    List.Disjoint (fileEntries entries) (dirEntries entries) ∧
    ∀ entries', entries' <+: entries → ∃ files dirs p',
      (fileListLoopIn fresh os alloc dirpath 0 (entries'.map NamedEntry.name) {} {}).run
        { p with os := s } = (some (some (files, dirs)), p') ∧
      files.Roomy ∧ files.used = (nameLines (fileEntries entries')).length ∧
      dirs.Roomy ∧ dirs.used = (nameLines (dirEntries entries')).length := by
  refine ⟨?_, perm_fileEntries_dirEntries entries, disjoint_fileEntries_dirEntries entries, ?_⟩
  · obtain ⟨files, dirs, p', hrun, filesText, dirsText, hfiles, hdirs, hfilesText, hdirsText⟩ :=
      fileListLoopIn_of_inspectsNamed os fresh halloc hnul (p := { p with os := s }) h
    obtain ⟨filesBlock, hfilesBlock, hfilesStr⟩ := hfiles.finalize (by
      rw [hfilesText]
      exact zero_notMem_nameLines fun entry hentry => hnul entry (List.mem_of_mem_filter hentry))
    obtain ⟨dirsBlock, hdirsBlock, hdirsStr⟩ := hdirs.finalize (by
      rw [hdirsText]
      exact zero_notMem_nameLines fun entry hentry => hnul entry (List.mem_of_mem_filter hentry))
    refine ⟨filesBlock, dirsBlock, p', ?_, hfilesStr.trans hfilesText, hdirsStr.trans hdirsText⟩
    rw [fileListIn, Op.run_bind_of_some (buildPathOp_run hpath p),
      Op.run_bind_of_some (Op.run_sys ..), hopen]
    dsimp only
    rw [Op.run_bind_of_some hrun]
    dsimp only
    rw [halloc, halloc, hfilesBlock, hdirsBlock]
    rfl
  · intro entries' hpre
    obtain ⟨files, dirs, p', hrun, filesText, dirsText, hfiles, hdirs, hfilesText, hdirsText⟩ :=
      fileListLoopIn_of_inspectsNamed os fresh halloc
        (fun entry hentry => hnul entry (hpre.subset hentry)) (p := { p with os := s })
        (h.of_isPrefix hpre)
    exact ⟨files, dirs, p', hrun, hfiles.roomy, hfilesText ▸ hfiles.used, hdirs.roomy,
      hdirsText ▸ hdirs.used⟩

end FileList

/-- `/x` with a file, itself and a directory in it. -/
theorem fileListIn_complete_three :
    let os : Os Unit := { Os.failing Unit with
      opendir := fun _ s => (.ok [utf8 "a", utf8 ".", utf8 "d"], s)
      lstat := fun path s =>
        (.ok ⟨if path = utf8 "/x/d" then .directory else .regular, 0o755, 0, 0, 0⟩, s) }
    ∃ files dirs p', (fileListIn 0 os (fun _ => true) (utf8 "x")).run ⟨fun _ => {}, [], ()⟩ =
      (some (some (files, dirs)), p') ∧ cStr files = utf8 "a\n" ∧ cStr dirs = utf8 "d\n" := by
  intro os
  have halloc : ∀ i : ℕ, (fun _ => true) i = true := fun _ => rfl
  have hpath : buildPath (utf8 "x") pathMaxLen = (utf8 "/x", .ok .nand) := by decide +kernel
  have hnul : ∀ entry ∈ [(⟨utf8 "a", .regular⟩ : NamedEntry), ⟨utf8 ".", .directory⟩,
      ⟨utf8 "d", .directory⟩], 0 ∉ entry.name := by decide
  obtain ⟨files, dirs, p', hrun, hfiles, hdirs⟩ :=
    (fileListIn_complete os 0 (p := ⟨fun _ => {}, [], ()⟩) (s := ()) halloc hpath rfl hnul
      ⟨by decide, _, (), rfl, by decide, by decide, _, (), rfl, by decide, trivial⟩).1
  exact ⟨files, dirs, p', hrun, hfiles.trans (by decide), hdirs.trans (by decide)⟩

end UsbResponder
