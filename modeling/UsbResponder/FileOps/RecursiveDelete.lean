import UsbResponder.FileOps.DirectoryTree

/-!
# Deleting a directory tree

`usb_responder_file_delete` on a tree of files, links and directories that nobody else
changes. Whatever calls fail and in whatever order directories are listed, only nodes at and
below the normalised path are taken away, and no call leads through a symbolic link or
follows one: a path that is a link or has no link above it stays one for every entry that is
removed, since the entries removed before were next to it. When `true` is returned, the node
at the path is gone, and with it everything below. When no call fails, `true` is returned:
each entry that is listed is there when its turn comes, and after the last one the directory
is empty.

All of this is one statement about the recursion, `runRemoves_removePathRecursive`. It is an
induction on the fuel, and inside it the loop over the entries is an induction on the list
of names. What a run may take away and when it succeeds are carried together (`RunRemoves`):
the removal of an entry is `PrunedBelow` its path, which leaves its siblings and its
directory in place, and this is what the next round of the loop needs.

The depth of the C stack is not modelled. A directory that changes while it is read is
outside the model, since nobody else changes the tree.
-/

namespace UsbResponder

open CString Components

/-! ### What is left of a tree -/

/-- The outside after calls that have taken away nodes at or below a path, and followed no
link. Nodes elsewhere are as they were. -/
structure PrunedBelow (cs : List Bytes) (w w' : TreeWorld) : Prop where
  outside : ∀ q, ¬cs <+: q → w'.tree.node q = w.tree.node q
  shrinks : ∀ q, w'.tree.node q = w.tree.node q ∨ w'.tree.node q = none
  followed : w'.followed = w.followed

namespace PrunedBelow

variable {cs ds : List Bytes} {w w₁ w₂ : TreeWorld}

private theorem of_tree_eq (htree : w₁.tree = w.tree) (hfollowed : w₁.followed = w.followed) :
    PrunedBelow cs w w₁ :=
  ⟨fun q _ => by rw [htree], fun q => .inl (by rw [htree]), hfollowed⟩

theorem trans (h₁ : PrunedBelow cs w w₁) (h₂ : PrunedBelow cs w₁ w₂) : PrunedBelow cs w w₂ where
  outside q hq := (h₂.outside q hq).trans (h₁.outside q hq)
  shrinks q := by
    rcases h₂.shrinks q with hsame | hgone
    · rw [hsame]
      exact h₁.shrinks q
    · exact .inr hgone
  followed := h₂.followed.trans h₁.followed

/-- What is below a path is below the paths above it. So what a call in a subdirectory does
is within what the directory is charged with. -/
theorem above (h : PrunedBelow ds w w₁) (hcs : cs <+: ds) : PrunedBelow cs w w₁ :=
  ⟨fun q hq => h.outside q fun hds => hq (hcs.trans hds), h.shrinks, h.followed⟩

/-- What is gone stays gone. -/
private theorem node_eq_none (h : PrunedBelow cs w w₁) {q : List Bytes}
    (hq : w.tree.node q = none) : w₁.tree.node q = none := by
  rcases h.shrinks q with hsame | hgone
  · rw [hsame, hq]
  · exact hgone

/-- Taking away a node that has nothing below it. -/
theorem withoutNode (hne : cs ≠ []) (hleaf : w.tree.names cs = []) :
    PrunedBelow cs w (w.after (w.tree.withoutNode cs)) := by
  have hnode := FileTree.node_withoutNode hne hleaf
  refine ⟨fun q hq => ?_, fun q => ?_, rfl⟩
  · show (w.tree.withoutNode cs).node q = _
    rw [hnode, Function.update_of_ne]
    rintro rfl
    exact hq List.prefix_rfl
  · show (w.tree.withoutNode cs).node q = _ ∨ (w.tree.withoutNode cs).node q = none
    rw [hnode]
    by_cases hq : q = cs
    · exact .inr (hq ▸ Function.update_self ..)
    · exact .inl (Function.update_of_ne hq ..)

end PrunedBelow

/-! ### Directories and their entries -/

/-- The components are those of a directory to which the path leads through no link, and
which is no link itself. -/
structure FileTree.DirectoryAt (t : FileTree) (cs : List Bytes) : Prop where
  direct : t.DirectAt cs
  directory : ∃ b, t.node cs = some b ∧ b.IsDirectory

/-- Entries of a directory are looked up in the tree. -/
theorem FileTree.DirectoryAt.entry {t : FileTree} {cs : List Bytes} (h : t.DirectoryAt cs)
    {name : Bytes} (hname : IsFileName name) : t.DirectAt (cs ++ [name]) where
  normal c hc := by
    rcases List.mem_append.mp hc with hc | hc
    · exact h.direct.normal c hc
    · rw [List.mem_singleton.mp hc]
      exact ⟨hname.1, hname.2.1⟩
  noDotDot hmem := by
    rcases List.mem_append.mp hmem with hmem | hmem
    · exact h.direct.noDotDot hmem
    · exact hname.2.2.1 (List.mem_singleton.mp hmem).symm
  noLinkAbove p hp hne b hb := by
    obtain ⟨d, hd, hdir⟩ := h.directory
    rcases List.prefix_concat_iff.mp ((List.mem_inits _ _).mp hp) with heq | hpre
    · exact absurd heq hne
    · by_cases hpcs : p = cs
      · rw [hpcs, Option.mem_def, hd, Option.some_inj] at hb
        rw [← hb, show d.stat.kind = .directory from hdir]
        exact fun hlink => nomatch hlink
      · exact h.direct.noLinkAbove p ((List.mem_inits _ _).mpr hpre) hpcs b hb

private theorem not_isPrefix_of_isPrefix {cs p : List Bytes} {name : Bytes} (hp : p <+: cs) :
    ¬cs ++ [name] <+: p := by
  intro h
  have hlen := (h.trans hp).length_le
  rw [List.length_append, List.length_singleton] at hlen
  omega

/-- Removing an entry leaves the directory in its place. The loop goes on in the same
directory, then. -/
private theorem FileTree.DirectoryAt.of_prunedBelow {cs : List Bytes} {name : Bytes}
    {w w' : TreeWorld} (h : w.tree.DirectoryAt cs) (hpruned : PrunedBelow (cs ++ [name]) w w') :
    w'.tree.DirectoryAt cs where
  direct := by
    refine ⟨h.direct.normal, h.direct.noDotDot, fun p hp hne b hb => ?_⟩
    rw [hpruned.outside p (not_isPrefix_of_isPrefix ((List.mem_inits _ _).mp hp))] at hb
    exact h.direct.noLinkAbove p hp hne b hb
  directory := by
    rw [hpruned.outside cs (not_isPrefix_of_isPrefix List.prefix_rfl)]
    exact h.directory

/-- The path of an entry. -/
private theorem childPath_normalPath {cs : List Bytes} (hne : cs ≠ []) (name : Bytes) :
    childPath (normalPath cs) name = normalPath (cs ++ [name]) := by
  rw [normalPath_of_ne_nil hne, normalPath_of_ne_nil (by simp), join_append, childPath]
  simp [join_cons]

/-- A directory lists its entries, and `.` and `..`. The order is that of the faults, and
the loop must not depend on it. -/
private theorem TreeFaults.mem_listing_iff (faults : TreeFaults) (t : FileTree) (cs : List Bytes)
    (time : ℕ) {name : Bytes} (hname : isDotName name = false) :
    name ∈ faults.listing time (t.names cs) ↔ name ∈ t.names cs := by
  rw [← (faults.listing_perm time (t.names cs) (t.ok_of_mem cs)).mem_iff, List.mem_filter, hname]
  simp

/-! ### The calls of a removal -/

section Calls

variable (os : Os TreeWorld) (faults : TreeFaults) {cs : List Bytes} {w : TreeWorld}

private theorem lstat_withTree (h : w.tree.DirectAt cs) :
    ∃ r, (os.withTree faults).lstat (normalPath cs) w = (r, w.after w.tree) ∧
      (∀ st, r = .ok st → ∃ b, w.tree.node cs = some b ∧ b.stat = st) ∧
      (faults.fault w.time = none → ∀ b, w.tree.node cs = some b → r = .ok b.stat) := by
  obtain ⟨r, hr, hsome, hnode⟩ : ∃ r, w.tree.lstat cs = (r, w.tree) ∧
      (∀ st, r = .ok st → ∃ b, w.tree.node cs = some b ∧ b.stat = st) ∧
      ∀ b, w.tree.node cs = some b → r = .ok b.stat := by
    rw [FileTree.lstat]
    rcases w.tree.node cs with _ | b
    · exact ⟨_, rfl, by simp, by simp⟩
    · exact ⟨_, rfl, fun st hst => ⟨b, rfl, Except.ok.inj hst⟩, fun d hd => by
        rw [Option.some.inj hd]⟩
  have hcall := TreeWorld.call_normalPath faults h
    (fun t cs => some (t.lstat cs)) (congrArg some hr) (os.lstat (normalPath cs)) .error
  rcases hfault : faults.fault w.time with _ | e
  · rw [hfault] at hcall
    exact ⟨_, hcall, hsome, fun _ => hnode⟩
  · rw [hfault] at hcall
    refine ⟨_, hcall, ?_, ?_⟩
    · intro st hst
      exact nomatch hst
    · intro hnone
      exact nomatch hnone

private theorem opendir_withTree (h : w.tree.DirectoryAt cs) :
    ∃ r, (os.withTree faults).opendir (normalPath cs) w = (r, w.after w.tree) ∧
      (∀ names, r = .ok names → names = faults.listing w.time (w.tree.names cs)) ∧
      (faults.fault w.time = none → r = .ok (faults.listing w.time (w.tree.names cs))) := by
  obtain ⟨b, hb, hdir⟩ := h.directory
  have hlink : b.stat.kind ≠ .link := by
    rw [show b.stat.kind = .directory from hdir]
    exact fun hlink => nomatch hlink
  have hopen : w.tree.opendir cs (faults.listing w.time) =
      some (.ok (faults.listing w.time (w.tree.names cs)), w.tree) := by
    simp only [FileTree.opendir, hb, if_neg hlink, if_pos hdir]
  have hcall := TreeWorld.call_normalPath faults h.direct
    (fun t cs => t.opendir cs (faults.listing w.time)) hopen
    (os.opendir (normalPath cs)) .error
  rcases hfault : faults.fault w.time with _ | e
  · rw [hfault] at hcall
    exact ⟨_, hcall, fun names hnames => (Except.ok.inj hnames).symm, fun _ => rfl⟩
  · rw [hfault] at hcall
    refine ⟨_, hcall, ?_, ?_⟩
    · intro names hnames
      exact nomatch hnames
    · intro hnone
      exact nomatch hnone

/-- A removal of one node: it takes away the node or nothing. -/
structure Removes (faults : TreeFaults) (cs : List Bytes) (w : TreeWorld)
    (result : Option Errno × TreeWorld) : Prop where
  pruned : PrunedBelow cs w result.2
  gone : result.1 = none → result.2.tree.node cs = none

/-- A call that takes away the node if it succeeds. -/
private theorem removes_of_answer {answer : FileTree → List Bytes → Option Errno × FileTree}
    (h : w.tree.DirectAt cs) (hne : cs ≠ []) {elsewhere : TreeWorld → Option Errno × TreeWorld}
    (hanswer : answer w.tree cs = (none, w.tree.withoutNode cs) ∧ w.tree.names cs = [] ∨
      ∃ e, answer w.tree cs = (some e, w.tree)) :
    Removes faults cs w (TreeWorld.call faults (normalPath cs) elsewhere some
      (fun t cs => some (answer t cs)) w) := by
  have hstays : PrunedBelow cs w (w.after w.tree) := .of_tree_eq rfl rfl
  rw [TreeWorld.call_normalPath faults h (fun t cs => some (answer t cs)) rfl]
  rcases faults.fault w.time with _ | e
  · rcases hanswer with ⟨hremoved, hleaf⟩ | ⟨e, hfailed⟩
    · dsimp only
      rw [hremoved]
      refine ⟨.withoutNode hne hleaf, fun _ => ?_⟩
      show (w.tree.withoutNode cs).node cs = none
      rw [FileTree.node_withoutNode hne hleaf, Function.update_self]
    · dsimp only
      rw [hfailed]
      exact ⟨hstays, fun hnone => nomatch hnone⟩
  · exact ⟨hstays, fun hnone => nomatch hnone⟩

private theorem unlink_withTree (h : w.tree.DirectAt cs) {b : FileNode}
    (hb : w.tree.node cs = some b) (hdir : ¬b.IsDirectory) :
    Removes faults cs w ((os.withTree faults).unlink (normalPath cs) w) ∧
      (faults.fault w.time = none →
        ((os.withTree faults).unlink (normalPath cs) w).1 = none) := by
  have hanswer : w.tree.unlink cs = (none, w.tree.withoutNode cs) := by
    simp only [FileTree.unlink, hb, if_neg hdir]
  have hne : cs ≠ [] := by
    rintro rfl
    obtain ⟨d, hd, hroot⟩ := w.tree.root
    rw [hb, Option.some_inj] at hd
    exact hdir (hd ▸ hroot)
  have hleaf : w.tree.names cs = [] := NodeTree.names_eq_nil_of_not_inner w.tree fun d hd => by
    rw [hb, Option.some_inj] at hd
    exact hd ▸ hdir
  refine ⟨removes_of_answer faults h hne (.inl ⟨hanswer, hleaf⟩), fun hfault => ?_⟩
  have hcall := TreeWorld.call_normalPath faults h
    (fun t cs => some (t.unlink cs)) (congrArg some hanswer)
    (os.unlink (normalPath cs)) some
  rw [hfault] at hcall
  exact congrArg Prod.fst hcall

private theorem rmdir_withTree (h : w.tree.DirectoryAt cs) (hne : cs ≠ []) :
    Removes faults cs w ((os.withTree faults).rmdir (normalPath cs) w) ∧
      (faults.fault w.time = none → w.tree.names cs = [] →
        ((os.withTree faults).rmdir (normalPath cs) w).1 = none) := by
  obtain ⟨b, hb, hdir⟩ := h.directory
  have hanswer : w.tree.rmdir cs =
      if w.tree.names cs = [] then (none, w.tree.withoutNode cs) else (some eNotEmpty, w.tree) := by
    simp only [FileTree.rmdir, hb, hdir, not_true_eq_false, if_false, if_neg hne]
  constructor
  · refine removes_of_answer faults h.direct hne ?_
    rw [hanswer]
    by_cases hleaf : w.tree.names cs = []
    · rw [if_pos hleaf]
      exact .inl ⟨rfl, hleaf⟩
    · rw [if_neg hleaf]
      exact .inr ⟨_, rfl⟩
  · intro hfault hleaf
    rw [if_pos hleaf] at hanswer
    have hcall := TreeWorld.call_normalPath faults h.direct
      (fun t cs => some (t.rmdir cs)) (congrArg some hanswer)
      (os.rmdir (normalPath cs)) some
    rw [hfault] at hcall
    exact congrArg Prod.fst hcall

end Calls

/-! ### The recursion -/

/-- Nothing keeps a removal from succeeding: no call fails, the node is there, and all paths
are short enough. The last condition is about every node of the subtree. -/
structure Removable (faults : TreeFaults) (fuel : ℕ) (cs : List Bytes) (t : FileTree) : Prop where
  noFault : ∀ time, faults.fault time = none
  there : t.node cs ≠ none
  fuel : pathMaxLen ≤ fuel + (normalPath cs).length
  short : ∀ q, cs <+: q → t.node q ≠ none → (normalPath q).length < pathMaxLen

/-- The path of an entry is longer. -/
private theorem length_normalPath_entry {cs : List Bytes} (hne : cs ≠ []) (name : Bytes) :
    (normalPath (cs ++ [name])).length = (normalPath cs).length + 1 + name.length := by
  rw [← childPath_normalPath hne, childPath, List.length_append, List.length_append,
    List.length_singleton]

theorem Removable.entry {faults : TreeFaults} {fuel : ℕ} {cs : List Bytes} {t : FileTree}
    (h : Removable faults (fuel + 1) cs t) (hne : cs ≠ []) {name : Bytes}
    (hthere : t.node (cs ++ [name]) ≠ none) : Removable faults fuel (cs ++ [name]) t where
  noFault := h.noFault
  there := hthere
  fuel := by
    have hfuel := h.fuel
    rw [length_normalPath_entry hne]
    omega
  short q hq := h.short q ((List.prefix_append _ _).trans hq)

/-- Removing other nodes keeps nothing from being removed. -/
private theorem Removable.of_prunedBelow {faults : TreeFaults} {fuel : ℕ} {cs ds : List Bytes}
    {w w' : TreeWorld} (h : Removable faults fuel cs w.tree) (hpruned : PrunedBelow ds w w')
    (hapart : ¬ds <+: cs) : Removable faults fuel cs w'.tree where
  noFault := h.noFault
  there := by
    rw [hpruned.outside cs hapart]
    exact h.there
  fuel := h.fuel
  short q hq hthere := h.short q hq fun hgone => hthere (hpruned.node_eq_none hgone)

/-- A run of a removal: it takes away nodes at and below a path only, after success the node
at the path is gone, and it succeeds if nothing keeps it from doing so. -/
structure RunRemoves (faults : TreeFaults) (fuel : ℕ) (cs : List Bytes) (p : Proc TreeWorld)
    (run : Option Unit × Proc TreeWorld) : Prop where
  pruned : PrunedBelow cs p.os run.2.os
  gone : run.1 = some () → run.2.os.tree.node cs = none
  done : Removable faults fuel cs p.os.tree → run.1 = some ()

/-- A run that has failed for a reason. -/
private theorem RunRemoves.of_failed {faults : TreeFaults} {fuel : ℕ} {cs : List Bytes}
    {p p' : Proc TreeWorld} (hpruned : PrunedBelow cs p.os p'.os)
    (hreason : ¬Removable faults fuel cs p.os.tree) : RunRemoves faults fuel cs p (none, p') :=
  ⟨hpruned, fun hnone => (nomatch hnone), fun h => absurd h hreason⟩

section Recursion

variable (os : Os TreeWorld) (faults : TreeFaults)

/-- A call on one node at the end of a removal that has pruned below it. -/
private theorem runRemoves_sys {fuel : ℕ} {cs : List Bytes} {p p₁ : Proc TreeWorld}
    {call : TreeWorld → Option Errno × TreeWorld} (hpruned : PrunedBelow cs p.os p₁.os)
    (hcall : Removes faults cs p₁.os (call p₁.os))
    (hdone : Removable faults fuel cs p.os.tree → (call p₁.os).1 = none) (pre path : Bytes) :
    RunRemoves faults fuel cs p ((do
      match ← Op.sys call with
      | some e => Op.failFile (os.withTree faults) pre path e
      | none => pure () : Op TreeWorld Unit).run p₁) := by
  rw [Op.run_bind_of_some (Op.run_sys ..)]
  rcases hresult : call p₁.os with ⟨_ | e, w⟩
  · rw [hresult] at hcall
    exact ⟨hpruned.trans hcall.pruned, fun _ => hcall.gone rfl, fun _ => rfl⟩
  · rw [hresult] at hcall hdone
    exact .of_failed (hpruned.trans hcall.pruned) fun h => nomatch hdone h

/-- What the loop over the entries of a directory leaves: the directory, and after success
none of the entries listed. -/
structure EntriesRemoved (faults : TreeFaults) (fuel : ℕ) (cs : List Bytes) (names : List Bytes)
    (p : Proc TreeWorld) (run : Option Unit × Proc TreeWorld) : Prop where
  pruned : PrunedBelow cs p.os run.2.os
  directory : run.2.os.tree.DirectoryAt cs
  gone : run.1 = some () →
    ∀ name ∈ names, isDotName name = false → run.2.os.tree.node (cs ++ [name]) = none
  done : (names.filter fun name => !isDotName name).Nodup →
    (∀ name ∈ names, isDotName name = false → Removable faults fuel (cs ++ [name]) p.os.tree) →
    run.1 = some ()

/-- The entries of a directory are removed one after the other, each next to the others. -/
private theorem entriesRemoved_removeEntries {fuel : ℕ} {cs : List Bytes} (hne : cs ≠ [])
    {remove : Bytes → Op TreeWorld Unit}
    (hremove : ∀ name (p : Proc TreeWorld), IsFileName name → p.os.tree.DirectoryAt cs →
      RunRemoves faults fuel (cs ++ [name]) p ((remove (normalPath (cs ++ [name]))).run p))
    {names : List Bytes} (hnames : ∀ name ∈ names, isDotName name = false → IsFileName name)
    (p : Proc TreeWorld) (hdir : p.os.tree.DirectoryAt cs) :
    EntriesRemoved faults fuel cs names p
      ((removeEntries remove (normalPath cs) names).run p) := by
  induction names generalizing p with
  | nil => exact ⟨.of_tree_eq rfl rfl, hdir, fun _ _ hmem => absurd hmem List.not_mem_nil,
    fun _ _ => rfl⟩
  | cons name names ih =>
    have hrest := fun other hother => hnames other (List.mem_cons_of_mem name hother)
    rw [removeEntries]
    dsimp only
    by_cases hdot : isDotName name = true
    · -- `.` and `..` are passed over
      rw [if_pos hdot]
      obtain ⟨hpruned, hdir', hgone, hdone⟩ := ih hrest p hdir
      refine ⟨hpruned, hdir', fun hsuccess other hother hother' => ?_, fun hnodup hall => ?_⟩
      · rcases List.mem_cons.mp hother with rfl | hother
        · exact absurd hdot (Bool.eq_false_iff.mp hother')
        · exact hgone hsuccess other hother hother'
      · rw [List.filter_cons_of_neg (by simp [hdot])] at hnodup
        exact hdone hnodup fun other hother => hall other (List.mem_cons_of_mem _ hother)
    have hdot' : isDotName name = false := Bool.eq_false_iff.mpr hdot
    rw [if_neg hdot, childPath_normalPath hne]
    split_ifs with hlong
    · refine ⟨.of_tree_eq rfl rfl, hdir, fun hnone => (nomatch hnone), fun _ hall => ?_⟩
      have hentry := hall name List.mem_cons_self hdot'
      exact absurd (hentry.short _ List.prefix_rfl hentry.there) (not_lt.mpr hlong)
    have hfirst := hremove name p (hnames name List.mem_cons_self hdot') hdir
    have hbelow : cs <+: cs ++ [name] := List.prefix_append _ _
    rcases hrun : (remove (normalPath (cs ++ [name]))).run p with ⟨_ | u, p'⟩
    · rw [hrun] at hfirst
      rw [Op.run_bind_of_none hrun]
      refine ⟨hfirst.pruned.above hbelow, hdir.of_prunedBelow hfirst.pruned,
        fun hsuccess => absurd hsuccess (Option.some_ne_none _).symm, fun _ hall => ?_⟩
      exact absurd (hfirst.done (hall name List.mem_cons_self hdot')) (Option.some_ne_none _).symm
    · rw [hrun] at hfirst
      rw [Op.run_bind_of_some hrun]
      obtain ⟨hpruned, hdir', hgone, hdone⟩ := ih hrest p' (hdir.of_prunedBelow hfirst.pruned)
      refine ⟨(hfirst.pruned.above hbelow).trans hpruned, hdir',
        fun hsuccess other hother hother' => ?_, fun hnodup hall => ?_⟩
      · rcases List.mem_cons.mp hother with rfl | hother
        · exact hpruned.node_eq_none (hfirst.gone rfl)
        · exact hgone hsuccess other hother hother'
      · rw [List.filter_cons_of_pos (by simp [hdot']), List.nodup_cons] at hnodup
        refine hdone hnodup.2 fun other hother hother' => ?_
        refine (hall other (List.mem_cons_of_mem _ hother) hother').of_prunedBelow hfirst.pruned ?_
        -- the entries have different names
        intro hpre
        have heq : name = other := by simpa using hpre.eq_of_length (by simp)
        exact hnodup.1 (heq ▸ List.mem_filter.mpr ⟨hother, by simp [hother']⟩)

/-- After its entries are gone, a directory is empty, so that the `rmdir` behind the loop
can succeed. -/
private theorem names_eq_nil_of_entriesRemoved {cs : List Bytes} {w w' : TreeWorld} {time : ℕ}
    (hpruned : PrunedBelow cs w w')
    (hgone : ∀ name ∈ faults.listing time (w.tree.names cs), isDotName name = false →
      w'.tree.node (cs ++ [name]) = none) : w'.tree.names cs = [] := by
  refine List.eq_nil_iff_forall_not_mem.mpr fun name hname => ?_
  have hthere := (w'.tree.mem_names cs name).mp hname
  have hdot : isDotName name = false := by
    have hok := w'.tree.ok_of_mem cs name hname
    simp [isDotName, hok.2.1, hok.2.2.1]
  refine hthere (hgone name ?_ hdot)
  rw [faults.mem_listing_iff _ _ _ hdot, w.tree.mem_names]
  exact fun hnone => hthere (hpruned.node_eq_none hnone)

/-- **The removal.** Whatever calls fail, `remove_path_recursive` takes away nodes at and
below its path only and follows no link; after success the node at the path is gone, and
there is success if nothing keeps it from succeeding. -/
theorem runRemoves_removePathRecursive (fuel : ℕ) {cs : List Bytes} (hne : cs ≠ [])
    (p : Proc TreeWorld) (hdirect : p.os.tree.DirectAt cs) :
    RunRemoves faults fuel cs p
      ((removePathRecursive (os.withTree faults) fuel (normalPath cs)).run p) := by
  induction fuel generalizing cs p with
  | zero =>
    refine .of_failed (.of_tree_eq rfl rfl) fun h => ?_
    have hshort := h.short cs List.prefix_rfl h.there
    have hfuel := h.fuel
    omega
  | succ fuel ih =>
    obtain ⟨found, hlstat, hfound, hthere⟩ := lstat_withTree os faults hdirect
    obtain ⟨p₁, hp₁⟩ : ∃ p₁ : Proc TreeWorld, p₁ = { p with os := p.os.after p.os.tree } := ⟨_, rfl⟩
    have htree : p₁.os.tree = p.os.tree := by rw [hp₁]; rfl
    have hsame : PrunedBelow cs p.os p₁.os := .of_tree_eq htree (by rw [hp₁]; rfl)
    rw [removePathRecursive, Op.run_bind_of_some (Op.run_sys ..), hlstat]
    dsimp only
    rw [← hp₁]
    rcases found with e | st
    · refine .of_failed hsame fun h => ?_
      obtain ⟨b, hb⟩ := Option.ne_none_iff_exists'.mp h.there
      exact nomatch hthere (h.noFault _) b hb
    obtain ⟨b, hb, rfl⟩ := hfound st rfl
    rw [← htree] at hb hdirect
    dsimp only
    split_ifs with hkind
    · -- a directory: its entries first
      have hdir : p₁.os.tree.DirectoryAt cs := ⟨hdirect, b, hb, hkind⟩
      obtain ⟨opened, hopendir, hlisted, hopened⟩ := opendir_withTree os faults hdir
      obtain ⟨p₂, hp₂⟩ : ∃ p₂ : Proc TreeWorld, p₂ = { p₁ with os := p₁.os.after p₁.os.tree } :=
        ⟨_, rfl⟩
      have htree₂ : p₂.os.tree = p₁.os.tree := by rw [hp₂]; rfl
      have hsame₂ : PrunedBelow cs p.os p₂.os := hsame.trans (.of_tree_eq htree₂ (by rw [hp₂]; rfl))
      rw [Op.run_bind_of_some (Op.run_sys ..), hopendir]
      dsimp only
      rw [← hp₂]
      rcases opened with e | names
      · exact .of_failed hsame₂ fun h => nomatch hopened (h.noFault _)
      obtain rfl := hlisted names rfl
      have hnames : ∀ name ∈ faults.listing p₁.os.time (p₁.os.tree.names cs),
          isDotName name = false → IsFileName name := by
        intro name hname hdot
        rw [faults.mem_listing_iff _ _ _ hdot] at hname
        exact p₁.os.tree.ok_of_mem cs name hname
      obtain ⟨hentries, hdir', hgone, hdone⟩ := entriesRemoved_removeEntries faults hne
        (fun name p' hname hat => ih (by simp) p' (hat.entry hname)) hnames p₂ (htree₂ ▸ hdir)
      have hentriesDone : Removable faults (fuel + 1) cs p.os.tree →
          ((removeEntries (removePathRecursive (os.withTree faults) fuel) (normalPath cs)
            (faults.listing p₁.os.time (p₁.os.tree.names cs))).run p₂).1 = some () := by
        intro h
        refine hdone ((faults.listing_perm _ _ (p₁.os.tree.ok_of_mem cs)).nodup_iff.mpr
          (p₁.os.tree.nodup_names cs)) fun name hname hdot => ?_
        rw [faults.mem_listing_iff _ _ _ hdot, p₁.os.tree.mem_names, htree] at hname
        rw [htree₂, htree]
        exact h.entry hne hname
      dsimp only
      rcases hrun : (removeEntries (removePathRecursive (os.withTree faults) fuel) (normalPath cs)
        (faults.listing p₁.os.time (p₁.os.tree.names cs))).run p₂ with ⟨_ | u, p₃⟩
      · rw [hrun] at hentries hentriesDone
        rw [Op.run_bind_of_none hrun]
        exact .of_failed (hsame₂.trans hentries) fun h => nomatch hentriesDone h
      · rw [hrun] at hentries hdir' hgone
        rw [Op.run_bind_of_some hrun]
        obtain ⟨hremoves, hrmdir⟩ := rmdir_withTree os faults hdir' hne
        refine runRemoves_sys os faults (hsame₂.trans hentries) hremoves (fun h => ?_) _ _
        rw [← htree₂] at hgone
        exact hrmdir (h.noFault _) (names_eq_nil_of_entriesRemoved faults hentries (hgone rfl))
    · obtain ⟨hremoves, hunlink⟩ := unlink_withTree os faults hdirect hb hkind
      exact runRemoves_sys os faults hsame hremoves (fun h => hunlink (h.noFault _)) _ _

end Recursion

/-! ### The request -/

section Request

variable (os : Os TreeWorld) (faults : TreeFaults)

/-- Looking at the mount table changes nothing. -/
private theorem afterMountCheck_withTree (storage : Storage) (p : Proc TreeWorld) :
    p.afterMountCheck (os.withTree faults) storage = p := by
  rcases storage with _ | _
  · rfl
  · rw [Proc.afterMountCheck, Os.afterMountCheck, os.withTree_mountinfo]

/-- What `usb_responder_file_delete` checks before it removes anything. -/
structure DeleteAccepted (relative : Bytes) (desireStorage : Option Bytes) (w : TreeWorld) :
    Prop where
  noDotDot : utf8 ".." ∉ pathComponents relative
  fits : (normalPath (pathComponents relative)).length < pathMaxLen
  desired : StorageMatches (storageOf (pathComponents relative)) desireStorage
  writeable : StorageWriteable (os.withTree faults) (storageOf (pathComponents relative)) w
  notRoot : pathIsStorageRoot (normalPath (pathComponents relative)) = false

/-- A request that passes the checks is a removal. -/
private theorem fileDelete_of_accepted {relative : Bytes} {desireStorage : Option Bytes}
    {p : Proc TreeWorld} (h : DeleteAccepted os faults relative desireStorage p.os) :
    (fileDelete (os.withTree faults) relative desireStorage).run p =
      (removePathRecursive (os.withTree faults) pathMaxLen
        (normalPath (pathComponents relative))).run p := by
  have hbuilt : buildPath relative pathMaxLen = (normalPath (pathComponents relative),
      .ok (storageOf (pathComponents relative))) :=
    (buildPath_eq_ok_iff (by decide)).mpr ⟨h.noDotDot, h.fits, rfl, rfl⟩
  have hwriteable := ensureStorageWriteable_of h.writeable
  rw [afterMountCheck_withTree] at hwriteable
  rw [fileDelete, Op.run_bind_of_some (buildPathOp_run hbuilt p)]
  dsimp only
  rw [Op.run_bind_of_some (pathStorageMatchesDesire_of h.desired p)]
  rw [Op.run_bind_of_some hwriteable, h.notRoot]
  rfl

/-- A request that does not pass the checks fails and changes nothing outside. -/
private theorem fileDelete_of_not_accepted {relative : Bytes} {desireStorage : Option Bytes}
    {p : Proc TreeWorld} (h : ¬DeleteAccepted os faults relative desireStorage p.os) :
    ((fileDelete (os.withTree faults) relative desireStorage).run p).1 = none ∧
      ((fileDelete (os.withTree faults) relative desireStorage).run p).2.os = p.os := by
  rw [fileDelete, buildPathOp]
  rcases hbuilt : buildPath relative pathMaxLen with ⟨path, msg | storage⟩
  · rw [Op.run_bind_of_none (Op.run_failWith ..)]
    exact ⟨rfl, rfl⟩
  obtain ⟨hup, hfit, rfl, rfl⟩ := (buildPath_eq_ok_iff (by decide)).mp hbuilt
  rw [Op.run_bind_of_some (Op.run_pure ..)]
  dsimp only
  by_cases hmatches : StorageMatches (storageOf (pathComponents relative)) desireStorage
  swap
  · obtain ⟨msg, hrun, -⟩ := pathStorageMatchesDesire_of_not hmatches p
    rw [Op.run_bind_of_none hrun]
    exact ⟨rfl, rfl⟩
  rw [Op.run_bind_of_some (pathStorageMatchesDesire_of hmatches p)]
  by_cases hwriteable :
      StorageWriteable (os.withTree faults) (storageOf (pathComponents relative)) p.os
  swap
  · obtain ⟨msg, hrun, -⟩ := ensureStorageWriteable_of_not hwriteable
    rw [Op.run_bind_of_none hrun, afterMountCheck_withTree]
    exact ⟨rfl, rfl⟩
  rw [Op.run_bind_of_some (ensureStorageWriteable_of hwriteable), afterMountCheck_withTree]
  rcases hroot : pathIsStorageRoot (normalPath (pathComponents relative)) with _ | _
  · exact absurd ⟨hup, hfit, hmatches, hwriteable, hroot⟩ h
  · exact ⟨rfl, rfl⟩

/-- **Exact deletion.** On a tree that nobody else changes, with no link above the requested
path, the storage roots stay, no link is followed, and nothing outside the subtree of the
path changes. If `true` is returned, exactly the nodes of the subtree are gone; and it is
returned if no call fails, the path is there and is no storage root, the checks of the
storage pass and all paths in the subtree are short enough. -/
theorem fileDelete_exact (p : Proc TreeWorld) (relative : Bytes) (desireStorage : Option Bytes)
    (hlinks : p.os.tree.NoLinkAbove (pathComponents relative)) :
    let cs := pathComponents relative
    let run := (fileDelete (os.withTree faults) relative desireStorage).run p
    run.2.os.tree.node [] = p.os.tree.node [] ∧
    run.2.os.tree.node [utf8 "sd"] = p.os.tree.node [utf8 "sd"] ∧
    run.2.os.followed = p.os.followed ∧
    (∀ q, ¬cs <+: q → run.2.os.tree.node q = p.os.tree.node q) ∧
    (run.1 = some () → ∀ q, cs <+: q → run.2.os.tree.node q = none) ∧
    ((∀ time, faults.fault time = none) → p.os.tree.node cs ≠ none →
      pathIsStorageRoot (normalPath cs) = false → StorageMatches (storageOf cs) desireStorage →
      StorageWriteable (os.withTree faults) (storageOf cs) p.os →
      (∀ q, cs <+: q → p.os.tree.node q ≠ none → (normalPath q).length < pathMaxLen) →
      run.1 = some ()) := by
  intro cs run
  have hnormal := normalComponents_pathComponents relative
  by_cases haccepted : DeleteAccepted os faults relative desireStorage p.os
  · -- accepted, the deletion is the removal of the path
    have hrun : run = (removePathRecursive (os.withTree faults) pathMaxLen (normalPath cs)).run p :=
      fileDelete_of_accepted os faults haccepted
    have hroot := haccepted.notRoot
    rw [Bool.eq_false_iff, ne_eq, pathIsStorageRoot_normalPath hnormal, not_or] at hroot
    have hremoves := runRemoves_removePathRecursive os faults pathMaxLen hroot.1 p
      ⟨hnormal, haccepted.noDotDot, hlinks⟩
    rw [← hrun] at hremoves
    refine ⟨hremoves.pruned.outside _ ?_, hremoves.pruned.outside _ ?_, hremoves.pruned.followed,
      hremoves.pruned.outside, fun hsuccess q hq => ?_, fun hfault hthere _ _ _ hshort => ?_⟩
    · exact fun hpre => hroot.1 (List.prefix_nil.mp hpre)
    · intro hpre
      rcases List.prefix_cons_iff.mp hpre with hnil | ⟨t, ht, htnil⟩
      · exact hroot.1 hnil
      · exact hroot.2 (by rw [ht, List.prefix_nil.mp htnil])
    · exact NodeTree.node_eq_none_of_prefix _ hq (hremoves.gone hsuccess)
    · exact hremoves.done ⟨hfault, hthere, Nat.le_add_right _ _, hshort⟩
  · -- refused, it leaves the tree alone, and one of the checks of the last clause has failed
    obtain ⟨hnone, hos⟩ := fileDelete_of_not_accepted os faults haccepted
    change run.1 = none at hnone
    change run.2.os = p.os at hos
    rw [hos, hnone]
    refine ⟨rfl, rfl, rfl, fun _ _ => rfl, fun hsuccess => (nomatch hsuccess), ?_⟩
    intro _ hthere hroot hmatches hwriteable hshort
    refine absurd ⟨fun hup => ?_, hshort cs List.prefix_rfl hthere, hmatches, hwriteable, hroot⟩
      haccepted
    exact (NodeTree.ok_of_node_ne_none _ hthere _ hup).2.2.1 rfl

theorem fileDelete_exact_link :
    ∃ t : FileTree, t.node [utf8 "a", utf8 "l"] ≠ none ∧
      let run := (fileDelete ((Os.failing TreeWorld).withTree .calm) (utf8 "a/") none).run
        ⟨fun _ => {}, [], t, 0, []⟩
      run.1 = some () ∧ run.2.os.tree.node [utf8 "a", utf8 "l"] = none ∧
        run.2.os.followed = [] := by
  -- the tree: a directory with a link to the root in it
  obtain ⟨t₁, ht₁⟩ : ∃ t : FileTree, t.node =
      Function.update FileTree.bare.node [utf8 "a"] (some ⟨⟨.directory, 0o755, 0, 0, 0⟩, []⟩) :=
    ⟨_, NodeTree.node_addAt FileTree.bare (p := [utf8 "a"]) (List.cons_ne_nil _ _)
      (by decide +kernel) FileTree.bare.root rfl⟩
  obtain ⟨t, ht⟩ : ∃ t : FileTree, t.node = Function.update t₁.node [utf8 "a", utf8 "l"]
      (some ⟨⟨.link, 0o777, 0, 0, 1⟩, utf8 "/"⟩) := by
    refine ⟨_, NodeTree.node_addAt t₁ (List.cons_ne_nil _ _) (by decide +kernel) ?_ ?_⟩
    · rw [ht₁]
      exact ⟨_, rfl, rfl⟩
    · rw [ht₁]
      rfl
  have hcs : pathComponents (utf8 "a/") = [utf8 "a"] := by decide +kernel
  have hnode : ∀ q, t.node q ≠ none → q = [] ∨ q = [utf8 "a"] ∨ q = [utf8 "a", utf8 "l"] := by
    intro q hq
    by_contra hnot
    rw [not_or, not_or] at hnot
    refine hq ?_
    rw [ht, Function.update_of_ne hnot.2.2, ht₁, Function.update_of_ne hnot.2.1]
    exact if_neg hnot.1
  have hthere : t.node [utf8 "a"] ≠ none := by
    rw [ht, ht₁]
    exact fun hnone => nomatch hnone
  have hlink : t.node [utf8 "a", utf8 "l"] ≠ none := by
    rw [ht, Function.update_self]
    exact fun hnone => nomatch hnone
  obtain ⟨-, -, hfollowed, -, hgone, hdone⟩ := fileDelete_exact (Os.failing TreeWorld) .calm
    ⟨fun _ => {}, [], t, 0, []⟩ (utf8 "a/") none (by
      rw [hcs]
      intro p hp hne b hb
      have hp : p = [] ∨ p = [utf8 "a"] := by simpa [List.inits] using hp
      obtain rfl := hp.resolve_right hne
      rw [ht, Function.update_of_ne (List.cons_ne_nil _ _).symm, ht₁,
        Function.update_of_ne (List.cons_ne_nil _ _).symm] at hb
      rw [← Option.some.inj hb]
      decide)
  rw [hcs] at hgone hdone
  have hsuccess := hdone (fun _ => rfl) hthere (by decide +kernel)
    (fun _ hdesire => nomatch hdesire)
    (fun hsd => absurd hsd (by decide +kernel)) fun q _ hq => by
      rcases hnode q hq with rfl | rfl | rfl
      · decide +kernel
      · decide +kernel
      · decide +kernel
  exact ⟨t, hlink, hsuccess, hgone hsuccess _ ⟨[utf8 "l"], rfl⟩, hfollowed⟩

end Request

end UsbResponder
