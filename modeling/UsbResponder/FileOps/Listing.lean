import UsbResponder.Base.TextLines
import UsbResponder.FileOps.Tree

/-!
# What a listing contains

A directory is the list of its entries, each with its name and the kind `lstat` tells;
`ReadsDir` says that the path of a request is that of a directory with the given entries,
which can be read, and whose entries can be inspected one after another.
`fileList_of_readsDir` is the specification of `usb_responder_file_list`: the names of the
files and those of the directories, in the order of `readdir`, each with a newline behind
it. The growing buffers take part in nothing.

Names are bytes for the device and texts for the host. The first half of the module is about
names in bytes, as the file system has them, and what the two lists contain of them; the
second is about entries whose names are UTF-8, which is what the client decodes. The second
is reduced to the first by encoding the names.

An entry that cannot be inspected, or whose path is too long, makes a listing fail; that is
part of the program and is treated in `FileOps.ErrorTexts`.
-/

namespace UsbResponder

open CString TextLines

variable {σ : Type}

/-! ### Names in bytes -/

/-- An entry of a directory, with the bytes of its name. Names of the file system need not
be text. -/
structure NamedEntry where
  name : Bytes
  kind : FileKind
  deriving DecidableEq, Repr

/-- The entries that are not directories, in the order of the directory. Links are among
them. -/
def fileEntries (entries : List NamedEntry) : List NamedEntry :=
  entries.filter fun entry => !isDotName entry.name && entry.kind ≠ .directory

/-- The subdirectories, in the order of the directory, without `.` and `..`. -/
def dirEntries (entries : List NamedEntry) : List NamedEntry :=
  entries.filter fun entry => !isDotName entry.name && entry.kind = .directory

/-- The names of entries, each with a newline behind it. -/
def nameLines (entries : List NamedEntry) : Bytes :=
  entries.flatMap fun entry => entry.name ++ utf8 "\n"

/-- One after another, the entries of a directory can be inspected and are of their kinds.
Those that are skipped are not inspected. An `lstat` may change the outside, so each entry
is inspected in the state that the ones before it have left. -/
def Os.InspectsNamed (os : Os σ) (dirpath : Bytes) : List NamedEntry → σ → Prop
  | [], _ => True
  | entry :: entries, s =>
    if isDotName entry.name then os.InspectsNamed dirpath entries s
    else
      (childPath dirpath entry.name).length < pathMaxLen ∧
        ∃ st s', os.lstat (childPath dirpath entry.name) s = (.ok st, s') ∧
          st.kind = entry.kind ∧ os.InspectsNamed dirpath entries s'

/-- Every entry that is not skipped is in one of the two lists, as often as it is an entry. -/
theorem perm_fileEntries_dirEntries (entries : List NamedEntry) :
    (fileEntries entries ++ dirEntries entries).Perm
      (entries.filter fun entry => !isDotName entry.name) := by
  have hsplit := List.filter_append_perm (fun entry : NamedEntry => entry.kind ≠ .directory)
    (entries.filter fun entry => !isDotName entry.name)
  rw [List.filter_filter, List.filter_filter] at hsplit
  have hfiles : fileEntries entries = entries.filter fun entry =>
      decide (entry.kind ≠ .directory) && !isDotName entry.name := by
    simp only [fileEntries, Bool.and_comm]
  have hdirs : dirEntries entries = entries.filter fun entry =>
      (!decide (entry.kind ≠ .directory)) && !isDotName entry.name := by
    simp only [dirEntries, Bool.and_comm, decide_not, Bool.not_not]
  rwa [hfiles, hdirs]

/-- No entry is in both lists. It is the kind that decides, and it is one or the other. -/
theorem disjoint_fileEntries_dirEntries (entries : List NamedEntry) :
    List.Disjoint (fileEntries entries) (dirEntries entries) := by
  intro entry hfile hdir
  have hfile' := List.of_mem_filter hfile
  have hdir' := List.of_mem_filter hdir
  simp only [Bool.and_eq_true, decide_eq_true_eq] at hfile' hdir'
  exact hfile'.2 hdir'.2

/-- The loop adds the names of the entries to come to those it has. The capacities of the
lists are whatever the appends make them. -/
theorem fileListLoop_of_inspectsNamed {os : Os σ} {dirpath : Bytes} {entries : List NamedEntry}
    {p : Proc σ} (h : os.InspectsNamed dirpath entries p.os) (files dirs : ListText) :
    ∃ p', (fileListLoop os dirpath (entries.map NamedEntry.name) files dirs).run p =
      (some (files.text ++ nameLines (fileEntries entries),
        dirs.text ++ nameLines (dirEntries entries)), p') := by
  induction entries generalizing p files dirs with
  | nil =>
    refine ⟨p, ?_⟩
    simp [fileListLoop, fileEntries, dirEntries, nameLines]
  | cons entry entries ih =>
    rw [Os.InspectsNamed] at h
    rw [List.map_cons, fileListLoop]
    split_ifs at h with hdot
    · have hfiles : fileEntries (entry :: entries) = fileEntries entries := by
        simp [fileEntries, hdot]
      have hdirs : dirEntries (entry :: entries) = dirEntries entries := by
        simp [dirEntries, hdot]
      rw [if_pos hdot, hfiles, hdirs]
      exact ih h files dirs
    · obtain ⟨hlen, st, s', hlstat, hkind, hrest⟩ := h
      rw [if_neg hdot]
      dsimp only
      rw [if_neg (not_le.mpr hlen), Op.run_bind_of_some (Op.run_sys ..), hlstat]
      dsimp only
      rw [hkind]
      by_cases hdir : entry.kind = .directory
      · have hfiles : fileEntries (entry :: entries) = fileEntries entries := by
          simp [fileEntries, hdir]
        have hdirs : dirEntries (entry :: entries) = entry :: dirEntries entries := by
          simp [dirEntries, hdot, hdir]
        obtain ⟨p', hrun⟩ := ih (p := { p with os := s' }) hrest files
          (listAppendLine dirs entry.name)
        refine ⟨p', ?_⟩
        rw [if_pos hdir, hrun, hfiles, hdirs]
        simp [listAppendLine, nameLines]
      · have hfiles : fileEntries (entry :: entries) = entry :: fileEntries entries := by
          simp [fileEntries, hdot, hdir]
        have hdirs : dirEntries (entry :: entries) = dirEntries entries := by
          simp [dirEntries, hdir]
        obtain ⟨p', hrun⟩ := ih (p := { p with os := s' }) hrest
          (listAppendLine files entry.name) dirs
        refine ⟨p', ?_⟩
        rw [if_neg hdir, hrun, hfiles, hdirs]
        simp [listAppendLine, nameLines]

/-! ### Names in UTF-8 -/

/-- An entry of a directory whose name is text, as the host reads it. -/
structure DirEntry where
  name : String
  kind : FileKind
  deriving DecidableEq, Repr

/-- The entry is `.` or `..`. -/
def DirEntry.IsDot (entry : DirEntry) : Prop := entry.name = "." ∨ entry.name = ".."

instance (entry : DirEntry) : Decidable entry.IsDot := by
  unfold DirEntry.IsDot
  infer_instance

/-- The names of the entries that are not directories. -/
def fileNames (entries : List DirEntry) : List String :=
  (entries.filter fun entry => ¬entry.IsDot ∧ entry.kind ≠ .directory).map DirEntry.name

/-- The names of the subdirectories, in the order of the directory. -/
def dirNames (entries : List DirEntry) : List String :=
  (entries.filter fun entry => ¬entry.IsDot ∧ entry.kind = .directory).map DirEntry.name

/-- The names of a listing are names of entries. A listing invents none. -/
theorem exists_of_mem_fileNames {entries : List DirEntry} {name : String}
    (h : name ∈ fileNames entries) : ∃ entry ∈ entries, entry.name = name := by
  obtain ⟨entry, hentry, rfl⟩ := List.mem_map.mp h
  exact ⟨entry, List.mem_of_mem_filter hentry, rfl⟩

theorem exists_of_mem_dirNames {entries : List DirEntry} {name : String}
    (h : name ∈ dirNames entries) : ∃ entry ∈ entries, entry.name = name := by
  obtain ⟨entry, hentry, rfl⟩ := List.mem_map.mp h
  exact ⟨entry, List.mem_of_mem_filter hentry, rfl⟩

/-- One after another, the entries of a directory can be inspected and are of their kinds.
Those that are skipped are not inspected. -/
def Os.Inspects (os : Os σ) (dirpath : Bytes) : List DirEntry → σ → Prop
  | [], _ => True
  | entry :: entries, s =>
    if entry.IsDot then os.Inspects dirpath entries s
    else
      (childPath dirpath (utf8 entry.name)).length < pathMaxLen ∧
        ∃ st s', os.lstat (childPath dirpath (utf8 entry.name)) s = (.ok st, s') ∧
          st.kind = entry.kind ∧ os.Inspects dirpath entries s'

/-- The path of a request is that of a directory with the given entries, and these are what
`opendir` and `readdir` yield, `.` and `..` among them. -/
def Os.ReadsDir (os : Os σ) (relativePath : Bytes) (entries : List DirEntry) (s : σ) : Prop :=
  ∃ dirpath storage s', buildPath relativePath pathMaxLen = (dirpath, .ok storage) ∧
    os.opendir dirpath s = (.ok (entries.map fun entry => utf8 entry.name), s') ∧
    os.Inspects dirpath entries s'

private theorem isDotName_utf8 (entry : DirEntry) :
    isDotName (utf8 entry.name) = true ↔ entry.IsDot := by
  rw [isDotName, Bool.or_eq_true, decide_eq_true_iff, decide_eq_true_iff,
    utf8_injective.eq_iff, utf8_injective.eq_iff]
  exact Iff.rfl

/-- The entry with the bytes of its name. -/
def DirEntry.named (entry : DirEntry) : NamedEntry := ⟨utf8 entry.name, entry.kind⟩

private theorem inspectsNamed_map {os : Os σ} {dirpath : Bytes} {entries : List DirEntry} {s : σ}
    (h : os.Inspects dirpath entries s) :
    os.InspectsNamed dirpath (entries.map DirEntry.named) s := by
  induction entries generalizing s with
  | nil => trivial
  | cons entry entries ih =>
    rw [Os.Inspects] at h
    rw [List.map_cons, Os.InspectsNamed]
    split_ifs at h with hdot
    · have hdot' : isDotName entry.named.name = true := (isDotName_utf8 entry).mpr hdot
      rw [if_pos hdot']
      exact ih h
    · obtain ⟨hlen, st, s', hlstat, hkind, hrest⟩ := h
      have hdot' : ¬isDotName entry.named.name = true := mt (isDotName_utf8 entry).mp hdot
      rw [if_neg hdot']
      exact ⟨hlen, st, s', hlstat, hkind, ih hrest⟩

private theorem nameLines_fileEntries_map (entries : List DirEntry) :
    nameLines (fileEntries (entries.map DirEntry.named)) = joinLines (fileNames entries) := by
  have hfilter : fileEntries (entries.map DirEntry.named) =
      (entries.filter fun entry => ¬entry.IsDot ∧ entry.kind ≠ .directory).map DirEntry.named := by
    rw [fileEntries, List.filter_map]
    congr 1
    refine List.filter_congr fun entry _ => Bool.eq_iff_iff.mpr ?_
    change (!isDotName (utf8 entry.name) && decide (entry.kind ≠ .directory)) = true ↔ _
    simp [← isDotName_utf8]
  rw [hfilter, nameLines, joinLines, fileNames, List.flatMap_map, List.flatMap_map]
  rfl

private theorem nameLines_dirEntries_map (entries : List DirEntry) :
    nameLines (dirEntries (entries.map DirEntry.named)) = joinLines (dirNames entries) := by
  have hfilter : dirEntries (entries.map DirEntry.named) =
      (entries.filter fun entry => ¬entry.IsDot ∧ entry.kind = .directory).map DirEntry.named := by
    rw [dirEntries, List.filter_map]
    congr 1
    refine List.filter_congr fun entry _ => Bool.eq_iff_iff.mpr ?_
    change (!isDotName (utf8 entry.name) && decide (entry.kind = .directory)) = true ↔ _
    simp [← isDotName_utf8]
  rw [hfilter, nameLines, joinLines, dirNames, List.flatMap_map, List.flatMap_map]
  rfl

/-- The loop adds the names of the entries to come to those it has. -/
private theorem fileListLoop_of_inspects {os : Os σ} {dirpath : Bytes} {entries : List DirEntry}
    {p : Proc σ} (h : os.Inspects dirpath entries p.os) (files dirs : ListText) :
    ∃ p', (fileListLoop os dirpath (entries.map fun entry => utf8 entry.name) files dirs).run p =
      (some (files.text ++ joinLines (fileNames entries),
        dirs.text ++ joinLines (dirNames entries)), p') := by
  obtain ⟨p', hrun⟩ := fileListLoop_of_inspectsNamed (inspectsNamed_map h) files dirs
  rw [nameLines_fileEntries_map, nameLines_dirEntries_map, List.map_map] at hrun
  exact ⟨p', hrun⟩

/-- **A listing.** A directory that can be read is listed with all its entries. -/
theorem fileList_of_readsDir {os : Os σ} {relativePath : Bytes} {entries : List DirEntry}
    {p : Proc σ} (h : os.ReadsDir relativePath entries p.os) :
    ∃ p', (fileList os relativePath).run p =
      (some (joinLines (fileNames entries), joinLines (dirNames entries)), p') := by
  obtain ⟨dirpath, storage, s', hpath, hopendir, hinspects⟩ := h
  obtain ⟨p', hrun⟩ := fileListLoop_of_inspects (p := { p with os := s' }) hinspects {} {}
  refine ⟨p', ?_⟩
  rw [fileList_of_opened hpath hopendir, hrun]
  rfl

end UsbResponder
