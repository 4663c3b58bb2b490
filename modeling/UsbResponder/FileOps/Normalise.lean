import UsbResponder.Base.Components
import UsbResponder.FileOps.Path

/-!
# The normalised path

`build_path` cuts the path of a request at its slashes, drops the empty components and those
that are `.`, and joins the others to an absolute path: `normalPath` of `pathComponents`. It
fails exactly if a component is `..` or the normalised path does not fit into the buffer
(`buildPath_eq_ok_iff`, `exists_buildPath_error_iff`). Normalising a normalised path gives
it back, since its components are those it was joined from (`pathComponents_normalPath`).

The proof about the loop is an induction on the bytes that are left, with the components
`seen` so far as the invariant: the output is the normalised path of these
(`delivers_buildPathLoop`). That the path gets too long is found at the first component that
does not fit, and it is too long as a whole then, because more components make a path
longer.

The loop keeps the output as a byte string that grows. `buildPathIn` is the same function on
the buffer itself, writing cell by cell as the code does. A write to a cell the buffer does
not have would end it without a result; there is always one, and it is the one of
`buildPath` (`runsInside_buildPathIn`). Symbolic links are not resolved, here as in the
source.
-/

namespace UsbResponder

open CString Components

/-! ### Paths and their components -/

/-- The components of a path, without those that are `.`. -/
def pathComponents (path : Bytes) : List Bytes :=
  (components slash path).filter fun c => c ≠ utf8 "."

/-- The absolute path with the given components. Without any it is the root, which is the
one path that ends in a slash. -/
def normalPath (cs : List Bytes) : Bytes := if cs = [] then [slash] else join slash cs

/-- The storage of the absolute path with the given components. -/
def storageOf (cs : List Bytes) : Storage :=
  if cs.head? = some (utf8 "sd") then .sd else .nand

/-- Components a normalised path can have: not empty, without a slash, and not `.`. A path
with `..` in it has such components too, and is refused for another reason. -/
def NormalComponents (cs : List Bytes) : Prop := ∀ c ∈ cs, IsComponent slash c ∧ c ≠ utf8 "."

theorem normalComponents_pathComponents (path : Bytes) :
    NormalComponents (pathComponents path) := by
  intro c hc
  obtain ⟨hmem, hdot⟩ := List.mem_filter.mp hc
  exact ⟨(of_mem_components hmem).1, by simpa using hdot⟩

theorem normalPath_of_ne_nil {cs : List Bytes} (h : cs ≠ []) : normalPath cs = join slash cs :=
  if_neg h

/-- A normalised path has the components it was joined from. -/
theorem pathComponents_normalPath {cs : List Bytes} (h : NormalComponents cs) :
    pathComponents (normalPath cs) = cs := by
  have hcomponents : components slash (normalPath cs) = cs := by
    rw [normalPath]
    split_ifs with hnil
    · rw [hnil, components_cons_sep, components_nil]
    · exact components_join fun c hc => (h c hc).1
  rw [pathComponents, hcomponents, List.filter_eq_self]
  exact fun c hc => by simpa using (h c hc).2

/-- Normalised paths with different components are different, so a path can be spoken of by
its components. -/
theorem normalPath_inj {cs ds : List Bytes} (hcs : NormalComponents cs)
    (hds : NormalComponents ds) : normalPath cs = normalPath ds ↔ cs = ds := by
  refine ⟨fun h => ?_, congrArg normalPath⟩
  rw [← pathComponents_normalPath hcs, h, pathComponents_normalPath hds]

private theorem one_le_length_normalPath (cs : List Bytes) : 1 ≤ (normalPath cs).length := by
  rcases cs with _ | ⟨c, cs⟩
  · exact le_rfl
  · rw [normalPath_of_ne_nil (List.cons_ne_nil c cs), join_cons]
    simp

/-- The path is longer than the slash of the root once it has a component. -/
theorem one_lt_length_normalPath {cs : List Bytes} (h : ∀ c ∈ cs, IsComponent slash c) :
    1 < (normalPath cs).length ↔ cs ≠ [] := by
  rcases cs with _ | ⟨c, cs⟩
  · simp [normalPath]
  · have hpos := List.length_pos_iff.mpr (h c List.mem_cons_self).1
    rw [normalPath_of_ne_nil (List.cons_ne_nil c cs), join_cons]
    simp only [List.length_append, List.length_cons]
    exact iff_of_true (by omega) (List.cons_ne_nil c cs)

/-- Another component is put behind a slash, except for the first, which is behind the slash
of the root already. -/
theorem normalPath_append {cs : List Bytes} (h : ∀ c ∈ cs, IsComponent slash c) (c : Bytes) :
    normalPath (cs ++ [c]) =
      (if 1 < (normalPath cs).length then normalPath cs ++ [slash] else normalPath cs) ++ c := by
  rw [normalPath_of_ne_nil (List.append_ne_nil_of_right_ne_nil _ (List.cons_ne_nil c []))]
  rw [join_append]
  split_ifs with hlong
  · rw [normalPath_of_ne_nil ((one_lt_length_normalPath h).mp hlong)]
    simp [join_cons]
  · rw [one_lt_length_normalPath h, not_not] at hlong
    simp [hlong, join_cons, normalPath]

private theorem length_normalPath_append {cs : List Bytes} (h : ∀ c ∈ cs, IsComponent slash c)
    (c : Bytes) : (normalPath (cs ++ [c])).length =
      (normalPath cs).length + (if 1 < (normalPath cs).length then 1 else 0) + c.length := by
  rw [normalPath_append h, List.length_append]
  split_ifs
  · rw [List.length_append, List.length_singleton]
  · rfl

/-- The first component decides the storage. -/
private theorem storageOf_append (cs : List Bytes) (c : Bytes) :
    storageOf (cs ++ [c]) =
      if (!decide (cs ≠ []) && c = utf8 "sd") = true then .sd else storageOf cs := by
  rcases cs with _ | ⟨d, cs⟩
  · simp [storageOf]
  · simp [storageOf]

/-- More components make a path longer. This bounds every path that is seen on the way to a
longer one. -/
theorem length_normalPath_le_append (cs ds : List Bytes) :
    (normalPath cs).length ≤ (normalPath (cs ++ ds)).length := by
  by_cases hcs : cs = []
  · rw [hcs]
    exact one_le_length_normalPath _
  · rw [normalPath_of_ne_nil hcs, normalPath_of_ne_nil (List.append_ne_nil_of_left_ne_nil hcs _),
      join_append, List.length_append]
    omega

/-! ### Paths on the card -/

/-- The path `/sd`, or a path below it. A name that only starts with `sd` is not meant. -/
def OnSd (path : Bytes) : Prop := path = utf8 "/sd" ∨ utf8 "/sd/" <+: path

/-- The first component of an absolute path, which alone decides about the storage. -/
def firstComponent (path : Bytes) : Bytes := (path.drop 1).takeWhile (· != slash)

/-- An absolute path is on the card exactly if its first component is `sd`. Paths such as
`/sdx` are not. -/
theorem onSd_iff {t : Bytes} : OnSd (slash :: t) ↔ firstComponent (slash :: t) = utf8 "sd" := by
  have hsd : utf8 "/sd" = slash :: utf8 "sd" := by decide +kernel
  have hbelow : utf8 "/sd/" = slash :: (utf8 "sd" ++ [slash]) := by decide +kernel
  rw [OnSd, firstComponent, List.drop_succ_cons, List.drop_zero, hsd, hbelow, List.cons_prefix_cons,
    List.cons_eq_cons, and_iff_right rfl, and_iff_right rfl]
  constructor
  · rintro (rfl | ⟨rest, rfl⟩)
    · decide +kernel
    · have hnoslash : ∀ b ∈ utf8 "sd", (b != slash) = true := by
        rw [show utf8 "sd" = [115, 100] by decide +kernel]
        simp [slash]
      rw [List.append_assoc, List.takeWhile_append_of_pos hnoslash, List.singleton_append,
        List.takeWhile_cons_of_neg (by decide), List.append_nil]
  · intro h
    have ht := List.takeWhile_append_dropWhile (p := (· != slash)) (l := t)
    rw [h] at ht
    rcases hrest : t.dropWhile (· != slash) with _ | ⟨b, rest⟩
    · rw [hrest, List.append_nil] at ht
      exact .inl ht.symm
    · -- the scan stopped at a slash
      have hstop := List.head_dropWhile_not (p := (· != slash)) (l := t) (by simp [hrest])
      simp only [hrest, List.head_cons, bne_eq_false_iff_eq] at hstop
      rw [hrest, hstop] at ht
      exact .inr ⟨rest, by rw [← ht]; simp⟩

/-- A normalised path is a slash and then something that starts with no slash. -/
theorem normalPath_eq_cons {cs : List Bytes} (h : NormalComponents cs) :
    ∃ t, normalPath cs = slash :: t ∧ t.head? ≠ some slash := by
  rcases cs with _ | ⟨c, cs⟩
  · exact ⟨[], rfl, by simp⟩
  · obtain ⟨hne, hfree⟩ := (h c List.mem_cons_self).1
    obtain ⟨b, c, rfl⟩ := List.exists_cons_of_ne_nil hne
    refine ⟨b :: c ++ join slash cs, normalPath_of_ne_nil (List.cons_ne_nil _ _),
      fun hb => hfree ?_⟩
    rw [List.cons_append, List.head?_cons, Option.some_inj] at hb
    exact hb ▸ List.mem_cons_self

/-- A normalised path is on the card exactly if its first component says so. -/
theorem onSd_normalPath {cs : List Bytes} (h : NormalComponents cs) :
    OnSd (normalPath cs) ↔ cs.head? = some (utf8 "sd") := by
  rcases cs with _ | ⟨c, cs⟩
  · rw [normalPath, if_pos rfl, onSd_iff]
    exact iff_of_false (by decide) (by simp)
  · have hall : ∀ b ∈ c, (b != slash) = true := fun b hb => by
      simpa using fun hslash : b = slash => (h c List.mem_cons_self).1.2 (hslash ▸ hb)
    have hstop : (join slash cs).takeWhile (· != slash) = [] := by
      rcases cs with _ | ⟨d, cs⟩
      · rfl
      · exact List.takeWhile_cons_of_neg (by simp)
    rw [normalPath_of_ne_nil (List.cons_ne_nil c cs), join_cons, List.cons_append, onSd_iff,
      firstComponent, List.drop_succ_cons, List.drop_zero, List.takeWhile_append_of_pos hall, hstop,
      List.append_nil, List.head?_cons, Option.some_inj]

theorem storageOf_eq_sd_iff {cs : List Bytes} :
    storageOf cs = .sd ↔ cs.head? = some (utf8 "sd") := by
  rw [storageOf]
  split_ifs with h
  · exact iff_of_true rfl h
  · exact iff_of_false (by simp) h

/-- The roots are the paths without components and with the one component `sd`. -/
theorem pathIsStorageRoot_normalPath {cs : List Bytes} (h : NormalComponents cs) :
    pathIsStorageRoot (normalPath cs) = true ↔ cs = [] ∨ cs = [utf8 "sd"] := by
  have hroot : utf8 "/" = normalPath [] := by decide +kernel
  have hsd : utf8 "/sd" = normalPath [utf8 "sd"] := by decide +kernel
  have hnil : NormalComponents [] := List.forall_mem_nil _
  have hnormal : NormalComponents [utf8 "sd"] := by
    intro c hc
    rw [List.mem_singleton.mp hc]
    exact ⟨⟨by decide, by decide⟩, by decide⟩
  rw [pathIsStorageRoot, Bool.or_eq_true, decide_eq_true_iff, decide_eq_true_iff, hroot, hsd,
    normalPath_inj h hnil, normalPath_inj h hnormal]

/-! ### The loop of `build_path` -/

/-- A scan finds the next component, and fewer bytes are left behind it. -/
theorem exists_component {r : Bytes} (h : r.dropWhile (· == slash) ≠ []) :
    ∃ c next, (r.dropWhile (· == slash)).takeWhile (· != slash) = c ∧
      ((r.dropWhile (· == slash)).drop c.length).drop 1 = next ∧ IsComponent slash c ∧
      next.length < r.length ∧ components slash r = c :: components slash next := by
  have hc := isComponent_takeWhile h
  refine ⟨_, _, rfl, rfl, hc, ?_, components_scan h⟩
  have hle : (r.dropWhile (· == slash)).length ≤ r.length := (List.dropWhile_sublist _).length_le
  have hpos := List.length_pos_iff.mpr hc.1
  have hlen := List.length_pos_iff.mpr h
  rw [List.length_drop, List.length_drop]
  omega

/-- What `build_path` delivers, given the components still to come: the normalised path and
its storage, or an error if a component is `..` or the path does not fit. -/
def Delivers (outSize : ℕ) (cs : List Bytes) (result : Bytes × Except Bytes Storage) : Prop :=
  (utf8 ".." ∉ cs ∧ (normalPath cs).length < outSize →
      result = (normalPath cs, .ok (storageOf cs))) ∧
    (utf8 ".." ∈ cs ∨ outSize ≤ (normalPath cs).length → ∃ msg, result.2 = .error msg)

/-- **The loop.** With the components `seen` in the output, the loop delivers these and the
ones it still finds. Any fuel above the number of bytes left will do. -/
theorem delivers_buildPathLoop {outSize fuel : ℕ} {r : Bytes} {seen : List Bytes}
    (hfuel : r.length < fuel) (hseen : ∀ c ∈ seen, IsComponent slash c)
    (hup : utf8 ".." ∉ seen) (hfit : (normalPath seen).length < outSize) :
    Delivers outSize (seen ++ pathComponents r)
      (buildPathLoop outSize fuel r (normalPath seen) (decide (seen ≠ [])) (storageOf seen)) := by
  induction fuel generalizing r seen with
  | zero => exact absurd hfuel (Nat.not_lt_zero _)
  | succ fuel ih =>
    rw [buildPathLoop]
    dsimp only
    by_cases hnil : r.dropWhile (· == slash) = []
    · -- only slashes are left
      rw [if_pos hnil, pathComponents, components_eq_nil hnil, List.filter_nil, List.append_nil]
      refine ⟨fun _ => rfl, ?_⟩
      rintro (hmem | hlong)
      · exact absurd hmem hup
      · omega
    rw [if_neg hnil]
    obtain ⟨c, next, hc, hnext, hcomp, hless, hscan⟩ := exists_component hnil
    rw [hc, hnext]
    by_cases hdots : c = utf8 ".."
    · -- the walk ends, whatever comes later
      have hmem : utf8 ".." ∈ seen ++ pathComponents r := by
        rw [pathComponents, hscan, hdots]
        exact List.mem_append_right _ (List.mem_filter.mpr ⟨List.mem_cons_self, by decide⟩)
      rw [if_pos hdots]
      exact ⟨fun hfine => absurd hmem hfine.1, fun _ => ⟨_, rfl⟩⟩
    rw [if_neg hdots]
    by_cases hdot : c = utf8 "."
    · have hskip : pathComponents r = pathComponents next := by
        rw [pathComponents, hscan, hdot]
        exact List.filter_cons_of_neg (by simp)
      rw [if_pos hdot, hskip]
      exact ih (by omega) hseen hup hfit
    rw [if_neg hdot]
    have htake : seen ++ pathComponents r = (seen ++ [c]) ++ pathComponents next := by
      rw [pathComponents, hscan, List.filter_cons_of_pos (by simpa using hdot)]
      simp [pathComponents]
    rw [← length_normalPath_append hseen, ← normalPath_append hseen, ← storageOf_append, htake]
    by_cases hlong : outSize ≤ (normalPath (seen ++ [c])).length
    · -- the path only grows
      rw [if_pos hlong]
      have hle := length_normalPath_le_append (seen ++ [c]) (pathComponents next)
      exact ⟨fun hfine => by omega, fun _ => ⟨_, rfl⟩⟩
    rw [if_neg hlong]
    have hdone : decide (seen ++ [c] ≠ []) = true := by simp
    rw [← hdone]
    refine ih (by omega) ?_ ?_ (by omega)
    · intro d hd
      rcases List.mem_append.mp hd with hd | hd
      · exact hseen d hd
      · exact List.mem_singleton.mp hd ▸ hcomp
    · simp [hup, Ne.symm hdots]

/-- **What `build_path` delivers.** -/
theorem delivers_buildPath {outSize : ℕ} (hsize : 1 < outSize) (relative : Bytes) :
    Delivers outSize (pathComponents relative) (buildPath relative outSize) :=
  @delivers_buildPathLoop outSize _ relative [] (Nat.lt_succ_self _) (List.forall_mem_nil _)
    List.not_mem_nil hsize

/-- `build_path` succeeds with the normalised path, exactly if no component is `..` and the
path fits. -/
theorem buildPath_eq_ok_iff {outSize : ℕ} (hsize : 1 < outSize) {relative path : Bytes}
    {storage : Storage} :
    buildPath relative outSize = (path, .ok storage) ↔
      utf8 ".." ∉ pathComponents relative ∧
        (normalPath (pathComponents relative)).length < outSize ∧
        path = normalPath (pathComponents relative) ∧
        storage = storageOf (pathComponents relative) := by
  obtain ⟨hok, herror⟩ := delivers_buildPath hsize relative
  constructor
  · intro h
    by_cases hfine : utf8 ".." ∉ pathComponents relative ∧
        (normalPath (pathComponents relative)).length < outSize
    · rw [hok hfine] at h
      obtain ⟨rfl, hstorage⟩ := Prod.mk.inj h
      exact ⟨hfine.1, hfine.2, rfl, (Except.ok.inj hstorage).symm⟩
    · obtain ⟨msg, hmsg⟩ := herror (by rwa [not_and_or, not_not, not_lt] at hfine)
      rw [h] at hmsg
      exact nomatch hmsg
  · rintro ⟨hup, hfit, rfl, rfl⟩
    exact hok ⟨hup, hfit⟩

/-- `build_path` fails exactly if a component is `..` or the path does not fit. -/
private theorem exists_buildPath_error_iff {outSize : ℕ} (hsize : 1 < outSize) {relative : Bytes} :
    (∃ msg, (buildPath relative outSize).2 = .error msg) ↔
      utf8 ".." ∈ pathComponents relative ∨
        outSize ≤ (normalPath (pathComponents relative)).length := by
  obtain ⟨hok, herror⟩ := delivers_buildPath hsize relative
  refine ⟨fun ⟨msg, hmsg⟩ => ?_, herror⟩
  by_contra hnot
  rw [not_or, not_le] at hnot
  rw [hok hnot] at hmsg
  exact nomatch hmsg

/-! ### The buffer -/

/-- Append a component to the path in the cells below `used`: the slash unless the path is
the root, the bytes of the component, and the NUL. Returns the buffer and the new `used`. -/
def appendSegment (outPath : Bytes) (used : ℕ) (seg : Bytes) : Option (Bytes × ℕ) :=
  let afterSep := if 1 < used then used + 1 else used
  (if 1 < used then store outPath used [slash] else some outPath).bind fun outPath =>
    (store outPath afterSep seg).bind fun outPath =>
      (store outPath (afterSep + seg.length) [0]).map fun outPath =>
        (outPath, afterSep + seg.length)

/-- The loop of `build_path` on the buffer `out_path`, whose cells below `used` are the path
so far. Returns the buffer and the storage, or `none` for the latter on failure; the last
error is then the one of `buildPathLoop`. -/
def buildPathInLoop :
    ℕ → Bytes → ℕ → Bool → Storage → Bytes → Option (Bytes × Option Storage)
  | 0, _, _, _, storage, outPath => some (outPath, some storage)
  | fuel + 1, r, used, sawComponent, storage, outPath =>
    let r := r.dropWhile (· == slash)
    if r = [] then some (outPath, some storage)
    else
      let seg := r.takeWhile (· != slash)
      let next := (r.drop seg.length).drop 1
      if seg = utf8 ".." then some (outPath, none)
      else if seg = utf8 "." then buildPathInLoop fuel next used sawComponent storage outPath
      else
        let storage := if !sawComponent && seg = utf8 "sd" then .sd else storage
        if outPath.length ≤ used + (if 1 < used then 1 else 0) + seg.length then
          some (outPath, none)
        else
          (appendSegment outPath used seg).bind fun (outPath, used) =>
            buildPathInLoop fuel next used true storage outPath

/-- `build_path` on a buffer `out_path` of `out_size` cells. -/
def buildPathIn (relative outPath : Bytes) : Option (Bytes × Option Storage) :=
  if outPath.length < 2 then some (outPath, none)
  else
    (store outPath 0 [slash]).bind fun outPath =>
      (store outPath 1 [0]).bind fun outPath =>
        buildPathInLoop (relative.length + 1) relative 1 false .nand outPath

/-- A run on a buffer stays inside it, leaves the given path in it with a NUL behind, and
returns what the function on byte strings does. Cells behind the NUL are not said to be
anything. -/
def RunsInside (outPath : Bytes) (run : Option (Bytes × Option Storage))
    (result : Bytes × Except Bytes Storage) : Prop :=
  ∃ outPath', run = some (outPath', result.2.toOption) ∧ outPath'.length = outPath.length ∧
    result.1 ++ [0] <+: outPath'

/-- A component that fits is appended inside the buffer. -/
private theorem exists_appendSegment {outPath out seg : Bytes} (hout : out <+: outPath)
    (hroom : out.length + (if 1 < out.length then 1 else 0) + seg.length < outPath.length) :
    let out' := (if 1 < out.length then out ++ [slash] else out) ++ seg
    ∃ outPath', appendSegment outPath out.length seg = some (outPath', out'.length) ∧
      outPath'.length = outPath.length ∧ out' ++ [0] <+: outPath' := by
  -- the separator, if there is one
  obtain ⟨out₁, hout₁⟩ : ∃ out₁, out₁ = if 1 < out.length then out ++ [slash] else out := ⟨_, rfl⟩
  have hlen₁ : out₁.length = if 1 < out.length then out.length + 1 else out.length := by
    rw [hout₁]
    split_ifs
    · rw [List.length_append, List.length_singleton]
    · rfl
  have hroom₁ : out₁.length + seg.length < outPath.length := by
    rw [hlen₁]
    split_ifs at hroom ⊢
    · exact hroom
    · exact hroom
  obtain ⟨buf, hsep, hbuf, hheld⟩ : ∃ buf,
      (if 1 < out.length then store outPath out.length [slash] else some outPath) = some buf ∧
        buf.length = outPath.length ∧ out₁ <+: buf := by
    rw [hout₁]
    split_ifs with hlong
    · refine exists_store_append hout [slash] ?_
      rw [if_pos hlong] at hlen₁
      rw [List.length_append, List.length_singleton]
      omega
    · exact ⟨outPath, rfl, rfl, hout⟩
  -- the component, and the NUL behind it
  obtain ⟨buf₁, hseg, hbuf₁, hheld₁⟩ := exists_store_append hheld seg (by
    rw [List.length_append]
    omega)
  obtain ⟨buf₂, hnul, hbuf₂, hheld₂⟩ := exists_store_append hheld₁ [0] (by
    rw [List.length_append, List.length_append, List.length_singleton]
    omega)
  rw [List.length_append] at hnul
  dsimp only
  rw [← hout₁, appendSegment, hsep, Option.bind_some, ← hlen₁, hseg, Option.bind_some, hnul,
    List.length_append]
  exact ⟨buf₂, rfl, by rw [hbuf₂, hbuf₁, hbuf], hheld₂⟩

/-- The buffer holds what the loop on byte strings has put together, in every round. The
check for room that the source makes before it copies a component is what keeps the copy
inside. -/
private theorem runsInside_buildPathInLoop (fuel : ℕ) {r out outPath : Bytes} {sawComponent : Bool}
    {storage : Storage} (hout : out ++ [0] <+: outPath) :
    RunsInside outPath (buildPathInLoop fuel r out.length sawComponent storage outPath)
      (buildPathLoop outPath.length fuel r out sawComponent storage) := by
  induction fuel generalizing r out outPath sawComponent storage with
  | zero => exact ⟨outPath, rfl, rfl, hout⟩
  | succ fuel ih =>
    rw [buildPathInLoop, buildPathLoop]
    dsimp only
    by_cases hnil : r.dropWhile (· == slash) = []
    · rw [if_pos hnil, if_pos hnil]
      exact ⟨outPath, rfl, rfl, hout⟩
    rw [if_neg hnil, if_neg hnil]
    generalize (r.dropWhile (· == slash)).takeWhile (· != slash) = seg
    by_cases hup : seg = utf8 ".."
    · rw [if_pos hup, if_pos hup]
      exact ⟨outPath, rfl, rfl, hout⟩
    rw [if_neg hup, if_neg hup]
    by_cases hdot : seg = utf8 "."
    · rw [if_pos hdot, if_pos hdot]
      exact ih hout
    rw [if_neg hdot, if_neg hdot]
    by_cases hlong : outPath.length ≤ out.length + (if 1 < out.length then 1 else 0) + seg.length
    · rw [if_pos hlong, if_pos hlong]
      exact ⟨outPath, rfl, rfl, hout⟩
    rw [if_neg hlong, if_neg hlong]
    have hstart : out <+: outPath := (List.prefix_append out [0]).trans hout
    obtain ⟨buf, hsegment, hbuf, hheld⟩ := exists_appendSegment hstart (not_le.mp hlong)
    rw [hsegment, Option.bind_some, ← hbuf]
    obtain ⟨outPath', hrun, hlength, hpath⟩ := ih hheld
    exact ⟨outPath', hrun, hlength.trans hbuf, hpath⟩

/-- **Inside the buffer.** No write of `build_path` is outside the buffer, and the buffer
then holds the path of `buildPath`. -/
theorem runsInside_buildPathIn {outPath : Bytes} (hsize : 1 < outPath.length) (relative : Bytes) :
    RunsInside outPath (buildPathIn relative outPath) (buildPath relative outPath.length) := by
  obtain ⟨buf, hslash, hbuf, hheld⟩ := exists_store_append outPath.nil_prefix [slash]
    (by rw [List.nil_append, List.length_singleton]; omega)
  obtain ⟨buf₁, hnul, hbuf₁, hheld₁⟩ := exists_store_append hheld [0]
    (by rw [hbuf]; exact hsize)
  rw [List.length_nil] at hslash
  rw [List.nil_append] at hnul hheld₁
  rw [List.length_singleton] at hnul
  have hlength : buf₁.length = outPath.length := hbuf₁.trans hbuf
  rw [buildPathIn, if_neg (by omega), hslash, Option.bind_some, hnul, Option.bind_some]
  obtain ⟨outPath', hrun, hlen, hpath⟩ := @runsInside_buildPathInLoop (relative.length + 1)
    relative [slash] buf₁ false .nand hheld₁
  rw [hlength] at hrun hlen hpath
  exact ⟨outPath', hrun, hlen, hpath⟩

/-- A normalised path has no byte the path did not have, apart from slashes. -/
private theorem notMem_normalPath {path : Bytes} {b : UInt8} (hb : b ∉ path) (hslash : b ≠ slash) :
    b ∉ normalPath (pathComponents path) := by
  intro hmem
  rw [normalPath] at hmem
  split_ifs at hmem
  · exact hslash (List.mem_singleton.mp hmem)
  · obtain ⟨c, hc, hbc⟩ := List.mem_flatMap.mp hmem
    rcases List.mem_cons.mp hbc with heq | hbc
    · exact hslash heq
    · exact hb ((of_mem_components (List.mem_filter.mp hc).1).2.subset hbc)

/-- **Exact normalisation.** On a buffer of two cells at least, `build_path` writes only
cells of the buffer. It fails exactly if a component of the path is `..` or the normalised
path has no room for its NUL, and otherwise delivers the normalised path: the storage is the
card exactly if the first component says so, normalising once more changes nothing, and the
path is a storage root exactly if it has no component or the one component `sd`. -/
theorem buildPathIn_exact {relative outPath : Bytes} (hnul : 0 ∉ relative)
    (hsize : 2 ≤ outPath.length) :
    ∃ outPath' result, buildPathIn relative outPath = some (outPath', result) ∧
      outPath'.length = outPath.length ∧
      (result = none ↔ utf8 ".." ∈ pathComponents relative ∨
        outPath.length ≤ (normalPath (pathComponents relative)).length) ∧
      ∀ storage, result = some storage →
        normalPath (pathComponents relative) ++ [0] <+: outPath' ∧
        cStr outPath' = normalPath (pathComponents relative) ∧
        (storage = .sd ↔ (pathComponents relative).head? = some (utf8 "sd")) ∧
        (storage = .sd ↔ OnSd (cStr outPath')) ∧
        (∀ again : Bytes, again.length = outPath.length → ∃ again',
          buildPathIn (cStr outPath') again = some (again', some storage) ∧
            cStr again' = cStr outPath') ∧
        (pathIsStorageRoot (cStr outPath') = true ↔
          pathComponents relative = [] ∨ pathComponents relative = [utf8 "sd"]) := by
  have hnormal := normalComponents_pathComponents relative
  have hfree := notMem_normalPath (b := 0) hnul (by decide)
  have hcomponents := pathComponents_normalPath hnormal
  obtain ⟨outPath', hrun, hlength, hpath⟩ := runsInside_buildPathIn hsize relative
  refine ⟨outPath', _, hrun, hlength, ?_, fun storage hstorage => ?_⟩
  · rw [← exists_buildPath_error_iff hsize]
    rcases (buildPath relative outPath.length).2 with msg | storage
    · simp [Except.toOption]
    · simp [Except.toOption]
  · -- the run has succeeded
    have hresult : buildPath relative outPath.length =
        ((buildPath relative outPath.length).1, .ok storage) := by
      refine Prod.ext rfl ?_
      rcases hcases : (buildPath relative outPath.length).2 with msg | storage'
      · simp [hcases, Except.toOption] at hstorage
      · simpa [hcases, Except.toOption] using hstorage
    obtain ⟨hup, hfit, hout, rfl⟩ := (buildPath_eq_ok_iff hsize).mp hresult
    rw [hout] at hpath
    have hstring : cStr outPath' = normalPath (pathComponents relative) :=
      cStr_eq_of_prefix hfree hpath
    refine ⟨hpath, hstring, storageOf_eq_sd_iff, ?_, fun again hagain => ?_, ?_⟩
    · rw [hstring, onSd_normalPath hnormal, storageOf_eq_sd_iff]
    · obtain ⟨again', hrun', -, hpath'⟩ := runsInside_buildPathIn (hagain ▸ hsize)
        (normalPath (pathComponents relative))
      have hagainOk : buildPath (normalPath (pathComponents relative)) again.length =
          (normalPath (pathComponents relative), .ok (storageOf (pathComponents relative))) := by
        rw [buildPath_eq_ok_iff (hagain ▸ hsize), hcomponents, hagain]
        exact ⟨hup, hfit, rfl, rfl⟩
      rw [hagainOk] at hrun' hpath'
      rw [hstring]
      exact ⟨again', hrun', cStr_eq_of_prefix hfree hpath'⟩
    · rw [hstring, pathIsStorageRoot_normalPath hnormal]

theorem buildPathIn_exact_sd :
    ∃ outPath',
      buildPathIn (utf8 "sd//./video/") (List.replicate 10 7) = some (outPath', some .sd) ∧
      cStr outPath' = utf8 "/sd/video" := by
  obtain ⟨outPath', result, hrun, -, hnone, hsome⟩ := @buildPathIn_exact (utf8 "sd//./video/")
    (List.replicate 10 7) (by decide +kernel) (by decide)
  have hcs : pathComponents (utf8 "sd//./video/") = [utf8 "sd", utf8 "video"] := by decide +kernel
  rw [hcs] at hnone hsome
  rcases result with _ | storage
  · exact absurd (hnone.mp rfl) (by decide +kernel)
  · obtain ⟨-, hstring, hstorage, -⟩ := hsome storage rfl
    rw [hstorage.mpr rfl] at hrun
    exact ⟨outPath', hrun, hstring.trans (by decide +kernel)⟩

end UsbResponder
