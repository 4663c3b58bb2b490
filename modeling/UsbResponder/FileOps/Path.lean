import UsbResponder.System.Process

/-!
# Paths and storages

The first half of `file_ops.c`: the normalisation of request paths, the storage a path is
on, and the checks an operation that writes makes first. A path parameter of a request is a
C string, so it contains no NUL; `outSize` is `PATH_MAX_LEN` at every call.

The functions are translated as they stand. `build_path` returns what it leaves in its
buffer also when it fails, since one caller copies it before it looks at the result. The
loops run on fuel that their arguments bound, and each has a lemma saying so where it is
used.

Beside each check stands the proposition it decides, `StorageMatches` and
`StorageWriteable`, and two lemmas, for when it passes and when it does not. Later modules
argue with the propositions. A check of the mount reads the mount table, so what comes
behind it runs on another outside (`Os.afterMountCheck`).

What `build_path` computes is the subject of `FileOps.Normalise`, and what the mount table
says that of `FileOps.MountTable`.
-/

namespace UsbResponder

open CString

variable {σ : Type}

/-! ### Storages -/

/-- `usb_responder_storage_t`: the flash of the device, or the card at `/sd`. -/
inductive Storage
  | nand
  | sd
  deriving DecidableEq, Repr

/-- `usb_responder_storage_name`. -/
def storageName : Storage → Bytes
  | .nand => utf8 "nand"
  | .sd => utf8 "sd"

/-- `usb_responder_storage_from_name`. Names are compared as they are, with upper case and
lower case told apart. -/
def storageFromName (name : Bytes) : Option Storage :=
  if name = utf8 "nand" then some .nand
  else if name = utf8 "sd" then some .sd
  else none

/-- `path_is_storage_root`: the root of the flash or that of the card, as paths without a
slash at the end. -/
def pathIsStorageRoot (absPath : Bytes) : Bool := absPath = utf8 "/" || absPath = utf8 "/sd"

/-! ### Normalisation -/

/-- The byte `'/'`. -/
def slash : UInt8 := 47

/-- The loop of `build_path`: the rest of the argument from `r` on, the output so far,
whether a component was seen, and the storage. Returns the output buffer and, on failure,
the error. Every round uses up a byte of `r`, so `fuel` above the length of `r` is never
used up. -/
def buildPathLoop (outSize : ℕ) :
    ℕ → Bytes → Bytes → Bool → Storage → Bytes × Except Bytes Storage
  | 0, _, out, _, storage => (out, .ok storage)
  | fuel + 1, r, out, sawComponent, storage =>
    let r := r.dropWhile (· == slash)
    if r = [] then (out, .ok storage)
    else
      let seg := r.takeWhile (· != slash)
      let next := (r.drop seg.length).drop 1
      if seg = utf8 ".." then (out, .error (utf8 "path traversal not allowed"))
      else if seg = utf8 "." then buildPathLoop outSize fuel next out sawComponent storage
      else
        let storage := if !sawComponent && seg = utf8 "sd" then .sd else storage
        let used := out.length
        if outSize ≤ used + (if 1 < used then 1 else 0) + seg.length then
          (out, .error (utf8 "path too long"))
        else
          let out := (if 1 < used then out ++ [slash] else out) ++ seg
          buildPathLoop outSize fuel next out true storage

/-- `build_path`: what it leaves in `out_path`, and the storage or the error. -/
def buildPath (relative : Bytes) (outSize : ℕ) : Bytes × Except Bytes Storage :=
  buildPathLoop outSize (relative.length + 1) relative [slash] false .nand

/-- `build_path` as a step of an operation that drops the buffer on failure. The last error
is then the one of `build_path`. -/
def buildPathOp (relative : Bytes) : Op σ (Bytes × Storage) :=
  match buildPath relative pathMaxLen with
  | (_, .error msg) => Op.failWith msg
  | (path, .ok storage) => pure (path, storage)

/-! ### Checks -/

/-- `path_storage_matches_desire`. -/
def pathStorageMatchesDesire (actual : Storage) (desireStorage : Option Bytes) : Op σ Unit :=
  match desireStorage with
  | none => pure ()
  | some desire =>
    if desire = [] then pure ()
    else
      match storageFromName desire with
      | none => Op.failWith (utf8 "invalid desire_storage")
      | some desired =>
        if desired = actual then pure ()
        else
          Op.failWith (snprintf 128 (utf8 "desire_storage=" ++ storageName desired ++
            utf8 " but path is on " ++ storageName actual))

/-- One round of the loop of `read_mountinfo_sd`: the mount source, when the line is an mmc
mount of `/sd`. The first four fields are skipped, the mount point is the fifth, and the
file system type and the source follow the separator. -/
def mountinfoLineSource (line : Bytes) : Option Bytes := do
  let (_, r) ← scanToken line.length line
  let (_, r) ← scanToken line.length r
  let (_, r) ← scanToken line.length r
  let (_, r) ← scanToken line.length r
  let (mountPoint, _) ← scanToken 4095 r
  let sep ← strstr line (utf8 " - ")
  if mountPoint ≠ utf8 "/sd" then none
  else
    let (_, r) ← scanToken 127 (sep.drop 3)
    let (mountSource, _) ← scanToken 4095 r
    if (strstr mountSource (utf8 "/dev/mmcblk")).isSome then some mountSource else none

/-- `read_mountinfo_sd` with a buffer of `sourceSize` bytes: the source it reports. The
table is read up to the first line that counts. -/
def readMountinfoSd (os : Os σ) (sourceSize : ℕ) : Op σ Bytes := do
  match ← Op.sys os.fopenMountinfo with
  | .error _ => Op.fail
  | .ok fp =>
    let found := (← Op.sys (os.fgetsMountinfo fp)).findSome? mountinfoLineSource
    let _ ← Op.sys (os.fcloseMountinfo fp)
    match found with
    | none => Op.fail
    | some source => return snprintf sourceSize source

/-- `is_sd_mounted`. A mount table that cannot be read is one without the card. -/
def isSdMounted (os : Os σ) : Op σ Bool := ⟨fun p =>
  let r := (readMountinfoSd os pathMaxLen).run p
  (some r.1.isSome, r.2)⟩

/-- `ensure_storage_writeable`. The root storage needs no check, so the mount table is not
read for it. -/
def ensureStorageWriteable (os : Os σ) (storage : Storage) : Op σ Unit :=
  match storage with
  | .nand => pure ()
  | .sd => do
    if ← isSdMounted os then pure ()
    else Op.failWith (utf8 "sd storage is not mounted on mmc")

/-- `parse_perm_octal` of a string that is not empty. -/
def parsePermOctal (os : Os σ) (permStr : Bytes) : Op σ ℕ :=
  match strtoul8 os.ulongMax permStr with
  | none => Op.failWith (utf8 "invalid perm")
  | some (val, stop) =>
    if stop ≠ [] ∨ 0o7777 < val then Op.failWith (utf8 "invalid perm")
    else pure (val &&& 0o7777)

/-! ### What `build_path` returns -/

/-- The errors of `build_path` are two messages: one about a component `..`, and one about
the length. -/
theorem buildPath_error {relative : Bytes} {outSize : ℕ} {msg : Bytes}
    (h : (buildPath relative outSize).2 = .error msg) :
    msg = utf8 "path traversal not allowed" ∨ msg = utf8 "path too long" := by
  have hloop : ∀ (fuel : ℕ) (r out : Bytes) (saw : Bool) (storage : Storage),
      (buildPathLoop outSize fuel r out saw storage).2 = .error msg →
        msg = utf8 "path traversal not allowed" ∨ msg = utf8 "path too long" := by
    intro fuel
    induction fuel with
    | zero =>
      intro r out saw storage hmsg
      simp [buildPathLoop] at hmsg
    | succ fuel ih =>
      intro r out saw storage hmsg
      rw [buildPathLoop] at hmsg
      dsimp only at hmsg
      split_ifs at hmsg
      · exact .inl (Except.error.inj hmsg).symm
      · exact ih _ _ _ _ hmsg
      all_goals first
        | exact ih _ _ _ _ hmsg
        | exact .inr (Except.error.inj hmsg).symm
  exact hloop _ _ _ _ _ h

/-- The path fits into the buffer. -/
private theorem length_buildPath_lt {relative : Bytes} {outSize : ℕ} (hsize : 1 < outSize) :
    (buildPath relative outSize).1.length < outSize := by
  have hloop : ∀ (fuel : ℕ) (r out : Bytes) (saw : Bool) (storage : Storage),
      out.length < outSize → (buildPathLoop outSize fuel r out saw storage).1.length < outSize := by
    intro fuel
    induction fuel with
    | zero =>
      intro r out saw storage hout
      exact hout
    | succ fuel ih =>
      intro r out saw storage hout
      rw [buildPathLoop]
      dsimp only
      split_ifs
      · exact hout
      · exact hout
      · exact ih _ _ _ _ hout
      all_goals first
        | exact hout
        | refine ih _ _ _ _ ?_
          simp only [List.length_append, List.length_singleton]
          omega
  exact hloop _ _ _ _ _ (by simpa using hsize)

section BuildPathOp

variable {relative path : Bytes} {storage : Storage}

theorem length_lt_of_buildPath (h : buildPath relative pathMaxLen = (path, .ok storage)) :
    path.length < pathMaxLen := by
  have hfits : (buildPath relative pathMaxLen).1.length < pathMaxLen :=
    length_buildPath_lt (by decide)
  rwa [h] at hfits

theorem buildPathOp_run (h : buildPath relative pathMaxLen = (path, .ok storage)) (p : Proc σ) :
    (buildPathOp relative : Op σ (Bytes × Storage)).run p = (some (path, storage), p) := by
  rw [buildPathOp, h]
  rfl

/-- A path that is delivered is the one `build_path` has built, and nothing has changed, not
even the last error. -/
theorem eq_of_buildPathOp {built : Bytes × Storage} {p p' : Proc σ}
    (h : (buildPathOp relative : Op σ (Bytes × Storage)).run p = (some built, p')) :
    buildPath relative pathMaxLen = (built.1, .ok built.2) ∧ p' = p := by
  rw [buildPathOp] at h
  rcases hpath : buildPath relative pathMaxLen with ⟨out, msg | storage⟩
  · simp [hpath] at h
  · obtain ⟨rfl, rfl⟩ : (out, storage) = built ∧ p = p' := by simpa [hpath] using h
    exact ⟨rfl, rfl⟩

end BuildPathOp

/-! ### What the checks decide -/

/-- The storage of a path is the desired one, if one is desired. An empty name desires none. -/
def StorageMatches (actual : Storage) (desireStorage : Option Bytes) : Prop :=
  ∀ desire, desireStorage = some desire → desire ≠ [] → storageFromName desire = some actual

/-- The mount table shows an mmc mount of `/sd`, if the storage is the SD card. -/
def StorageWriteable (os : Os σ) (storage : Storage) (s : σ) : Prop :=
  storage = .sd → ∃ lines, (os.mountinfo s).1 = some lines ∧
    (lines.findSome? mountinfoLineSource).isSome

/-- The outside state after the mount check. -/
def Os.afterMountCheck (os : Os σ) (storage : Storage) (s : σ) : σ :=
  match storage with
  | .nand => s
  | .sd => (os.mountinfo s).2

/-- The process after the mount check. -/
def Proc.afterMountCheck (os : Os σ) (storage : Storage) (p : Proc σ) : Proc σ :=
  { p with os := os.afterMountCheck storage p.os }

/-- An error text other than the one of a full session table, told apart by its first
letter. It serves to say that a begin is refused for want of a slot exactly when its error
says so. -/
def OtherError (msg : Bytes) : Prop :=
  msg.head? ≠ (utf8 "no free upload session").head?

instance (msg : Bytes) : Decidable (OtherError msg) :=
  inferInstanceAs (Decidable (msg.head? ≠ (utf8 "no free upload session").head?))

/-- Another error is still another error in the buffer of the last error. -/
theorem OtherError.snprintf_ne {msg : Bytes} (h : OtherError msg) :
    snprintf 256 msg ≠ utf8 "no free upload session" := by
  intro heq
  refine h ?_
  rw [← heq, snprintf, List.head?_take]
  rfl

theorem pathStorageMatchesDesire_of {actual : Storage} {desireStorage : Option Bytes}
    (h : StorageMatches actual desireStorage) (p : Proc σ) :
    (pathStorageMatchesDesire actual desireStorage).run p = (some (), p) := by
  cases desireStorage with
  | none => rfl
  | some desire =>
    rw [pathStorageMatchesDesire]
    split_ifs with hd
    · rfl
    · rw [h desire rfl hd]
      simp

theorem pathStorageMatchesDesire_of_not {actual : Storage} {desireStorage : Option Bytes}
    (h : ¬StorageMatches actual desireStorage) (p : Proc σ) :
    ∃ msg, (pathStorageMatchesDesire actual desireStorage).run p =
      (none, p.setLastError msg) ∧ OtherError msg := by
  obtain ⟨desire, rfl, hd, hne⟩ : ∃ desire, desireStorage = some desire ∧ desire ≠ [] ∧
      storageFromName desire ≠ some actual := by
    simpa [StorageMatches] using h
  rw [pathStorageMatchesDesire]
  rw [if_neg hd]
  cases hdesired : storageFromName desire with
  | none => exact ⟨_, rfl, by decide⟩
  | some desired =>
    have hne' : desired ≠ actual := fun heq => hne (by rw [hdesired, heq])
    dsimp only
    rw [if_neg hne']
    refine ⟨_, rfl, ?_⟩
    cases desired <;> cases actual <;> decide

/-- What `read_mountinfo_sd` makes of the mount table. -/
theorem readMountinfoSd_run (os : Os σ) (sourceSize : ℕ) (p : Proc σ) :
    (readMountinfoSd os sourceSize).run p =
      (((os.mountinfo p.os).1.bind fun lines => lines.findSome? mountinfoLineSource).map
        (snprintf sourceSize), { p with os := (os.mountinfo p.os).2 }) := by
  rw [readMountinfoSd, Op.run_bind_of_some (Op.run_sys ..), Os.mountinfo]
  rcases os.fopenMountinfo p.os with ⟨e | fp, s⟩
  · rfl
  · dsimp only
    rw [Op.run_bind_of_some (Op.run_sys ..), Op.run_bind_of_some (Op.run_sys ..), Option.bind_some]
    rcases (os.fgetsMountinfo fp s).1.findSome? mountinfoLineSource with _ | source
    · rfl
    · rfl

theorem isSdMounted_run (os : Os σ) (p : Proc σ) :
    (isSdMounted os).run p =
      (some (((os.mountinfo p.os).1.bind
        fun lines => lines.findSome? mountinfoLineSource).isSome),
        { p with os := (os.mountinfo p.os).2 }) := by
  rw [isSdMounted]
  dsimp only
  rw [readMountinfoSd_run, Option.isSome_map]

theorem ensureStorageWriteable_of {os : Os σ} {storage : Storage} {p : Proc σ}
    (h : StorageWriteable os storage p.os) :
    (ensureStorageWriteable os storage).run p = (some (), p.afterMountCheck os storage) := by
  cases storage with
  | nand => rfl
  | sd =>
    obtain ⟨lines, hlines, hsome⟩ := h rfl
    have hmounted : (isSdMounted os).run p = (some true, p.afterMountCheck os .sd) := by
      rw [isSdMounted_run, hlines, Option.bind_some, hsome]
      rfl
    rw [ensureStorageWriteable]
    rw [Op.run_bind_of_some hmounted]
    rfl

theorem ensureStorageWriteable_of_not {os : Os σ} {storage : Storage} {p : Proc σ}
    (h : ¬StorageWriteable os storage p.os) :
    ∃ msg, (ensureStorageWriteable os storage).run p =
      (none, (p.afterMountCheck os storage).setLastError msg) ∧ OtherError msg := by
  cases storage with
  | nand => exact absurd (fun hsd => nomatch hsd) h
  | sd =>
    have hmounted : (isSdMounted os).run p = (some false, p.afterMountCheck os .sd) := by
      rw [isSdMounted_run]
      refine Prod.ext (congrArg some ?_) rfl
      cases hlines : (os.mountinfo p.os).1 with
      | none => rfl
      | some lines =>
        rw [Option.bind_some, Bool.eq_false_iff]
        exact fun hsome => h fun _ => ⟨lines, hlines, hsome⟩
    rw [ensureStorageWriteable]
    rw [Op.run_bind_of_some hmounted]
    exact ⟨_, rfl, by decide⟩

end UsbResponder
