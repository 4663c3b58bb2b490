import UsbResponder.Host.CopyTree
import UsbResponder.Host.RemoteDirectories

/-!
# A copy mirrors a directory

The copy of a local directory on a device that stands for a store of files. When the device
accepts what the copy asks for (`CopyFits`), each step does to the map of the files what a
step of a copy does (`Represents.copyStep`), and so do all of them (`Represents.copySteps`).
Afterwards each file is on the device, and the others are as before (`cpDir_mirrors`).

What the steps of a copy do to a map of files is a fact about directories and is proved in
the library, where it is also said that every file of the directory is reached by one step.
Here the steps are carried out: a file by `FileCommands`, whose operation is an upload, and
a directory by `RemoteDirectories`, whose operation leaves the files alone.

A copy that fails half-way leaves what its steps have done until then, and is not described;
nor is a local directory that changes while it is walked. Modes of remote directories, and
links, are left out. The conditions on the link are those of all operations: no frame has a
length that is a multiple of 16 KiB, which would end the session.
-/

namespace UsbResponder

open CString Components StagedStore

namespace Host

/-! ### What a copy needs -/

/-- A directory that a copy needs: on the way to the remote root, or for a local directory.
The device is asked for all of them before a file is put there. -/
def NeedsDirectory (src : Directory String LocalFile) (remoteRoot : String) (q : List Bytes) :
    Prop :=
  q <+: pathComponents (utf8 remoteRoot) ∨
    ∃ names, src.At names none ∧ q = remoteComponents remoteRoot names

/-- The copy of `src` to `remoteRoot` is one that the device accepts. The paths of its files
are among `K`, and directories can be where it needs them. Each condition is about the
arguments and the device, not about what happens during the copy. -/
structure CopyFits (ulongMax : ℕ) (mount : Option (List Bytes)) (attrs : Bytes → Stat)
    (K : Set Bytes) (args : CpArgs) (src : Directory String LocalFile)
    (remoteRoot : String) : Prop where
  /-- Pieces of files are not empty, and fit into a frame. -/
  chunk : 0 < args.chunk ∧ 4 + args.chunk ≤ maxPayload
  /-- `unsigned long` of the device holds any permission. -/
  permMax : 0o7777 ≤ ulongMax
  /-- Local names are different in each directory, and can be names on the device. -/
  names : src.Proper IsLocalName
  noNul : 0 ∉ utf8 remoteRoot
  noUp : utf8 ".." ∉ pathComponents (utf8 remoteRoot)
  /-- A permission that is given is one. -/
  perm : ∀ perm, args.perm = some perm → perm ≠ "" → (utf8 perm).length < 2 ^ 16 ∧
    uploadPerm ulongMax (some (cStr (utf8 perm))) ≠ none
  desire : ∀ desire, args.desireStorage = some desire → (utf8 desire).length < 2 ^ 16
  /-- The remote paths fit into the buffers of the device. -/
  short : ∀ names, (names = [] ∨ ∃ x, src.At names x) →
    (utf8 (remoteDir remoteRoot names)).length < pathMaxLen ∧
      (remoteKey remoteRoot names ++ utf8 ".part").length < pathMaxLen
  /-- They are on the desired storage, which can be written. -/
  storage : ∀ names, (names = [] ∨ ∃ x, src.At names x) →
    StorageMatches (storageOf (remoteComponents remoteRoot names))
        (seenValue args.desireStorage) ∧
      Writeable mount (storageOf (remoteComponents remoteRoot names))
  dirs : ∀ q, q ≠ [] → NeedsDirectory src remoteRoot q → IsDir attrs (normalPath q)
  keys : ∀ names file, src.At names (some file) → remoteKey remoteRoot names ∈ K
  /-- No frame has a length that is a multiple of 16 KiB. -/
  pass : ∀ step ∈ src.copySteps, (stepOp args remoteRoot step).FramesPass

section Needs

variable {src : Directory String LocalFile} {remoteRoot : String} {names : List String}
  {q : List Bytes}

/-- What is on the way to a directory that a copy makes is needed too. -/
private theorem needsDirectory_of_isPrefix (h : names = [] ∨ src.At names none)
    (hpre : q <+: remoteComponents remoteRoot names) : NeedsDirectory src remoteRoot q := by
  obtain hroot | ⟨t, rfl⟩ := List.prefix_or_prefix_of_prefix hpre (List.prefix_append _ _)
  · exact .inl hroot
  rw [remoteComponents, List.prefix_append_right_inj] at hpre
  obtain ⟨n, hn⟩ : ∃ n, n = t.length := ⟨_, rfl⟩
  have ht : t = (names.take n).map utf8 := by
    rw [List.map_take, hn]
    exact List.prefix_iff_eq_take.mp hpre
  by_cases hnil : names.take n = []
  · rw [ht, hnil, List.map_nil, List.append_nil]
    exact .inl List.prefix_rfl
  refine .inr ⟨names.take n, ?_, by rw [ht, remoteComponents]⟩
  obtain rfl | hat := h
  · simp at hnil
  · by_cases hall : names.take n = names
    · rwa [hall]
    · exact hat.of_prefix (List.take_prefix _ _) hnil hall

end Needs

/-! ### The steps on the device -/

private theorem pathItem_fits {path : String} (h : (utf8 path).length < pathMaxLen) :
    (kvOf ("path", path)).Fits := by
  have hkey : (utf8 "path").length < 2 ^ 16 := by decide
  constructor
  · rw [kvOf_key]
    exact hkey
  · rw [kvOf_value]
    exact h.trans (by decide)

private theorem optionalItem_fits {key : String} (hkey : (utf8 key).length < 2 ^ 16)
    {value : Option String} (hvalue : ∀ v, value = some v → (utf8 v).length < 2 ^ 16) :
    ∀ item ∈ (optionalItem key value).map kvOf, item.Fits := by
  cases value with
  | none => exact List.forall_mem_nil _
  | some value =>
    rw [optionalItem]
    split_ifs
    · exact List.forall_mem_nil _
    · exact List.forall_mem_singleton.mpr ⟨hkey, hvalue value rfl⟩

section Steps

variable {ulongMax : ℕ} {mount : Option (List Bytes)} {attrs : Bytes → Stat} {K : Set Bytes}
  {args : CpArgs} {src : Directory String LocalFile} {remoteRoot : String}
  (h : CopyFits ulongMax mount attrs K args src remoteRoot) {names : List String}

include h

/-- The device accepts the permission that is passed on. -/
private theorem CopyFits.cpPerm_ok (mode : ℕ) :
    (∀ perm, cpPerm args mode = some perm → (utf8 perm).length < 2 ^ 16) ∧
      ∃ applyPerm fileMode,
        uploadPerm ulongMax (seenValue (cpPerm args mode)) = some (applyPerm, fileMode) := by
  have hlocal : (utf8 (localPerm mode)).length < 2 ^ 16 := by
    have hle := length_localPerm_le mode
    omega
  have hperm := uploadPerm_localPerm h.permMax mode
  rw [cpPerm]
  split_ifs with hno
  · exact ⟨by simp, false, 0o644, rfl⟩
  rcases hgiven : args.perm with _ | perm
  · exact ⟨fun perm hp => Option.some.inj hp ▸ hlocal, _, _, hperm⟩
  dsimp only
  split_ifs with hempty
  · exact ⟨fun perm hp => Option.some.inj hp ▸ hlocal, _, _, hperm⟩
  · obtain ⟨hlen, hok⟩ := h.perm perm hgiven hempty
    obtain ⟨⟨applyPerm, fileMode⟩, hsome⟩ := Option.ne_none_iff_exists'.mp hok
    refine ⟨fun perm' hp => Option.some.inj hp ▸ hlen, applyPerm, fileMode, ?_⟩
    rw [seenValue, Option.bind_some, if_neg hempty, hsome]

/-- The remote paths are accepted: the device builds the key of each, and its checks pass. -/
theorem CopyFits.accepted (hvisited : names = [] ∨ ∃ x, src.At names x) :
    (∀ name ∈ names, IsLocalName name) ∧ utf8 ".." ∉ remoteComponents remoteRoot names ∧
      (remoteKey remoteRoot names).length < pathMaxLen := by
  have hnames : ∀ name ∈ names, IsLocalName name := by
    obtain rfl | ⟨x, hx⟩ := hvisited
    · exact List.forall_mem_nil _
    · exact hx.forall_good h.names
  refine ⟨hnames, ?_, ?_⟩
  · rw [remoteComponents, List.mem_append, not_or]
    refine ⟨h.noUp, fun hmem => ?_⟩
    obtain ⟨name, hname, heq⟩ := List.mem_map.mp hmem
    exact (hnames name hname).2.2.1 heq
  · have hlen := (h.short names hvisited).2
    rw [List.length_append] at hlen
    omega

/-- **A file** is put at its path: the operation is an upload that the device accepts, of
the content of the file. -/
theorem CopyFits.command_put {file : LocalFile} (hfile : src.At names (some file)) :
    (cpOne args file (remoteDir remoteRoot names)).command ulongMax mount =
      .put (remoteKey remoteRoot names) file.content := by
  obtain ⟨hnames, hup, hlen⟩ := h.accepted (.inr ⟨_, hfile⟩)
  obtain ⟨hraw, htemp⟩ := h.short names (.inr ⟨_, hfile⟩)
  obtain ⟨hdesired, hwriteable⟩ := h.storage names (.inr ⟨_, hfile⟩)
  obtain ⟨hpermLen, applyPerm, fileMode, hperm⟩ := h.cpPerm_ok file.mode
  have hbuilt : buildPath (utf8 (remoteDir remoteRoot names)) pathMaxLen =
      (remoteKey remoteRoot names, .ok (storageOf (remoteComponents remoteRoot names))) := by
    rw [buildPath_eq_ok_iff (by decide), pathComponents_remoteDir hnames]
    exact ⟨hup, hlen, rfl, rfl⟩
  have htarget : uploadTarget? ulongMax mount (cStr (utf8 (remoteDir remoteRoot names)))
      (seenValue args.desireStorage) (seenValue (cpPerm args file.mode)) =
        some ⟨remoteKey remoteRoot names, storageOf (remoteComponents remoteRoot names), applyPerm,
          fileMode⟩ := by
    rw [uploadTarget?, cStr_remoteDir hnames h.noNul, hperm, hbuilt]
    exact if_pos ⟨hdesired, hwriteable, hraw, htemp⟩
  have hfits : ∀ item ∈ (cpOne args file (remoteDir remoteRoot names)).items.map kvOf,
      item.Fits := by
    have hdesireFits := @optionalItem_fits "desire_storage" (by decide) _ h.desire
    have hpermFits := @optionalItem_fits "perm" (by decide) _ hpermLen
    rw [cpOne, ClientOp.items, FilePut.items, List.map_cons, List.map_append]
    exact List.forall_mem_cons.mpr ⟨pathItem_fits hraw,
      List.forall_mem_append.mpr ⟨hdesireFits, hpermFits⟩⟩
  rw [ClientOp.command, if_pos hfits, cpOne, ClientOp.asks, htarget]

/-- **A directory** can be asked for. -/
theorem CopyFits.mkdirItems_fit (hvisited : names = [] ∨ ∃ x, src.At names x) :
    ∀ item ∈ (mkdirItems (remoteDir remoteRoot names) args.desireStorage).map kvOf,
      item.Fits := by
  have hraw := (h.short names hvisited).1
  rw [mkdirItems, List.map_cons, List.map_append, List.map_singleton, List.singleton_append]
  exact List.forall_mem_cons.mpr ⟨pathItem_fits hraw,
    List.forall_mem_cons.mpr ⟨⟨by decide, by decide⟩, optionalItem_fits (by decide) h.desire⟩⟩

end Steps

/-! ### The copy on the device -/

namespace Dialog

section Copy

variable {K : Set Bytes} {mount : Option (List Bytes)} {os : Os Fs} {attrs : Bytes → Stat}
  {f : Faults} {link : Link} {d : Dialog Fs} {m : Bytes → Option Bytes}
  {args : CpArgs} {src : Directory String LocalFile} {remoteRoot : String} (shell : ExecShell Fs)

/-- What a step of the copy does to the map of the files. -/
abbrev copyApply (remoteRoot : String) (m : Bytes → Option Bytes)
    (step : Directory.CopyStep String LocalFile) : Bytes → Option Bytes :=
  step.apply (remoteKey remoteRoot) LocalFile.content m

/-- **One step** of a copy does to the map of the files what it stands for, and raises no
exception. -/
theorem Represents.copyStep (h : d.Represents K mount (.idle m)) (hK : FilePaths attrs K)
    (hf : f.AllOk) (hlink : link.Faithful) (hfree : d.dev.endsInZlp = false)
    (hdirs : KeepsDirectories os attrs)
    (hfits : CopyFits os.ulongMax mount attrs K args src remoteRoot)
    {step} (hstep : step ∈ src.copySteps) :
    ∃ vs d', Dialog.perform ((os.withReads attrs).withFs f) shell link
        (stepOp args remoteRoot step) d = some (.ok vs, d') ∧
      d'.Represents K mount (.idle (copyApply remoteRoot m step)) ∧ d'.dev.endsInZlp = false := by
  cases step with
  | mkdir names =>
    have hat : names = [] ∨ src.At names none := Directory.at_of_mkdir_mem hstep
    have hvisited : names = [] ∨ ∃ x, src.At names x := hat.imp_right fun hnames => ⟨_, hnames⟩
    obtain ⟨hnames, hup, hlen⟩ := hfits.accepted hvisited
    obtain ⟨hdesired, hwriteable⟩ := hfits.storage names hvisited
    have hcs : pathComponents (cStr (utf8 (remoteDir remoteRoot names))) =
        remoteComponents remoteRoot names := by
      rw [cStr_remoteDir hnames hfits.noNul, pathComponents_remoteDir hnames]
    exact h.mkdir shell hdirs hlink hfree (hfits.pass _ hstep) (hfits.mkdirItems_fit hvisited) hcs
      hup hlen hdesired hwriteable fun q hq hpre =>
        hfits.dirs q hq (needsDirectory_of_isPrefix hat hpre)
  | put names file =>
    have hfile := Directory.put_mem_copySteps.mp hstep
    have hcommand := hfits.command_put hfile
    have hkeys : ∀ key ∈ ((stepOp args remoteRoot (.put names file)).command os.ulongMax
        mount).keys, key ∈ K := by
      rw [stepOp, hcommand]
      simpa [Command.keys] using hfits.keys names file hfile
    have happly : ((stepOp args remoteRoot (.put names file)).command os.ulongMax mount).apply m =
        (.done, copyApply remoteRoot m (.put names file)) := by
      rw [stepOp, hcommand]
      rfl
    have hvalue : ∀ v, (((stepOp args remoteRoot (.put names file)).command os.ulongMax
        mount).apply m).1 = .value v → v.length ≤ maxPayload := by
      rw [happly]
      simp
    have hop : (stepOp args remoteRoot (.put names file)).IsFileOp := trivial
    obtain ⟨r, d', hperform, hrepr, hreturned, hfill⟩ := h.perform attrs shell hK hf hlink hfree hop
      hfits.chunk (hfits.pass _ hstep) hkeys hvalue
    rw [happly] at hrepr hreturned hfill
    obtain ⟨vs, rfl, -⟩ := hreturned
    exact ⟨vs, d', hperform, hrepr, Bool.eq_false_iff.mpr hfill⟩

/-- **The steps** of a copy, one after the other. The induction is on the steps; the map of
the files is the state. -/
theorem Represents.copySteps (h : d.Represents K mount (.idle m)) (hK : FilePaths attrs K)
    (hf : f.AllOk) (hlink : link.Faithful) (hfree : d.dev.endsInZlp = false)
    (hdirs : KeepsDirectories os attrs)
    (hfits : CopyFits os.ulongMax mount attrs K args src remoteRoot)
    {steps : List (Directory.CopyStep String LocalFile)}
    (hsteps : ∀ step ∈ steps, step ∈ src.copySteps) :
    ∃ d', Dialog.performUntil ((os.withReads attrs).withFs f) shell link
        (steps.map (stepOp args remoteRoot)) d = some (.ok (), d') ∧
      d'.Represents K mount (.idle (steps.foldl (copyApply remoteRoot) m)) := by
  induction steps generalizing d m with
  | nil => exact ⟨d, rfl, h⟩
  | cons step steps ih =>
    obtain ⟨hstep, hsteps⟩ := List.forall_mem_cons.mp hsteps
    obtain ⟨vs, d₁, hperform, hrepr, hfree'⟩ :=
      h.copyStep shell hK hf hlink hfree hdirs hfits hstep
    obtain ⟨d₂, huntil, hrepr'⟩ := ih hrepr hfree' hsteps
    refine ⟨d₂, ?_, hrepr'⟩
    rw [List.map_cons, Dialog.performUntil, hperform]
    exact huntil

end Copy

end Dialog

end Host

end UsbResponder
