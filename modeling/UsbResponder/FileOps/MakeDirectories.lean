import UsbResponder.FileOps.DirectoryTree
import UsbResponder.FileOps.SdCard

/-!
# Creating a directory with its parents

`usb_responder_dir_mkdir` with `parents` cuts the normalised path once more and makes a
directory of every prefix in turn, the shortest first, where an existing directory counts as
made. The prefix it works on is always a prefix of the normalised path
(`prefix_of_mkdirReaches`), so the check of its length never fails and the loop is a walk
along the components (`mkdirLoop_eq_walk`).

On a file system without links, in which `mkdir` fails only for a path that exists, the walk
stops at the first prefix that is not a directory, and makes the missing ones before it
(`Walked`).

The file system is any outside that shows which nodes there are (`MakesDirectories`); a
directory tree is one (`makesDirectories_withTree`). What the walk has done is `Made`: a
directory at each prefix where nothing was, and no other change. Doing the same again then
changes nothing, which is the repeatability of the request. Modes of the directories made,
and links, which `stat` follows, are left out.
-/

namespace UsbResponder

open CString Components

variable {σ : Type}

/-! ### The prefix in work -/

/-- The rest of the path and the prefix in work, in an iteration of the loop on `path`,
however the calls turn out. The second rule of the definition is an iteration that goes on. -/
inductive MkdirReaches (path : Bytes) : Bytes → Bytes → Prop
  | start : MkdirReaches path (path.drop 1) [slash]
  | next {r work : Bytes} (h : MkdirReaches path r work) (hr : r.dropWhile (· == slash) ≠ []) :
    MkdirReaches path
      (((r.dropWhile (· == slash)).drop
        ((r.dropWhile (· == slash)).takeWhile (· != slash)).length).drop 1)
      (work ++ (if work = [slash] then [] else [slash]) ++
        (r.dropWhile (· == slash)).takeWhile (· != slash))

/-- The root is the path without components. -/
private theorem normalPath_eq_slash_iff {cs : List Bytes} (h : ∀ c ∈ cs, IsComponent slash c) :
    normalPath cs = [slash] ↔ cs = [] := by
  constructor
  · intro heq
    by_contra hne
    have hlong := (one_lt_length_normalPath h).mpr hne
    rw [heq] at hlong
    exact absurd hlong (by decide)
  · rintro rfl
    rfl

/-- The loop appends a component as `build_path` does. -/
private theorem work_append {cs : List Bytes} (h : ∀ c ∈ cs, IsComponent slash c) (c : Bytes) :
    normalPath cs ++ (if normalPath cs = [slash] then [] else [slash]) ++ c =
      normalPath (cs ++ [c]) := by
  rw [normalPath_append h]
  by_cases hnil : cs = []
  · rw [if_pos ((normalPath_eq_slash_iff h).mpr hnil),
      if_neg ((one_lt_length_normalPath h).not.mpr (not_not.mpr hnil)), List.append_nil]
  · rw [if_neg ((normalPath_eq_slash_iff h).not.mpr hnil),
      if_pos ((one_lt_length_normalPath h).mpr hnil)]

private theorem normalPath_prefix_append (cs ds : List Bytes) :
    normalPath cs <+: normalPath (cs ++ ds) := by
  by_cases hcs : cs = []
  · rcases ds with _ | ⟨d, ds⟩
    · rw [hcs]
      exact List.prefix_rfl
    · rw [hcs, List.nil_append, normalPath_of_ne_nil (List.cons_ne_nil d ds), join_cons,
        List.cons_append]
      exact List.prefix_append [slash] _
  · rw [normalPath_of_ne_nil hcs, normalPath_of_ne_nil (List.append_ne_nil_of_left_ne_nil hcs _),
      join_append]
    exact List.prefix_append _ _

/-- The components behind the first slash of a normalised path. -/
theorem components_drop_normalPath {cs : List Bytes} (h : ∀ c ∈ cs, IsComponent slash c) :
    components slash ((normalPath cs).drop 1) = cs := by
  by_cases hnil : cs = []
  · rw [hnil]
    exact components_nil
  · obtain ⟨c, ds, rfl⟩ := List.exists_cons_of_ne_nil hnil
    have hjoin := components_join h
    rw [join_cons, List.cons_append, components_cons_sep] at hjoin
    rw [normalPath_of_ne_nil hnil, join_cons, List.cons_append, List.drop_succ_cons, List.drop_zero,
      hjoin]

/-- The components made so far and those to come are those of the path. This is the
invariant of the loop. -/
private theorem exists_seen_of_mkdirReaches {cs : List Bytes} (h : ∀ c ∈ cs, IsComponent slash c)
    {r work : Bytes} (hreach : MkdirReaches (normalPath cs) r work) :
    ∃ seen, work = normalPath seen ∧ seen ++ components slash r = cs := by
  induction hreach with
  | start => exact ⟨[], rfl, by rw [components_drop_normalPath h, List.nil_append]⟩
  | @next r work _ hr ih =>
    obtain ⟨seen, rfl, hcs⟩ := ih
    have hseen : ∀ c ∈ seen, IsComponent slash c := fun c hc =>
      h c (hcs ▸ List.mem_append_left _ hc)
    refine ⟨seen ++ [(r.dropWhile (· == slash)).takeWhile (· != slash)], work_append hseen _, ?_⟩
    rw [← hcs, components_scan hr, List.append_assoc, List.singleton_append]

/-- **The prefix in work.** In every iteration it is a prefix of the normalised path, so it
fits whenever that does. -/
theorem prefix_of_mkdirReaches {cs : List Bytes} (h : ∀ c ∈ cs, IsComponent slash c)
    {r work : Bytes} (hreach : MkdirReaches (normalPath cs) r work) : work <+: normalPath cs := by
  obtain ⟨seen, rfl, rfl⟩ := exists_seen_of_mkdirReaches h hreach
  exact normalPath_prefix_append _ _

/-! ### The walk -/

/-- The loop along the components that are left, with no check of the length: a directory
for each prefix, of which the components `seen` have been made. It is the loop of the source
as far as its calls are concerned. -/
def mkdirWalk (os : Os σ) (seen : List Bytes) : List Bytes → Op σ Unit
  | [] => pure ()
  | c :: cs => do
    let work := normalPath (seen ++ [c])
    match ← Op.sys (os.mkdir work 0o755) with
    | none => mkdirWalk os (seen ++ [c]) cs
    | some e =>
      if e ≠ eExist then Op.failFile os (utf8 "mkdir") work e
      else
        match ← Op.sys (os.stat work) with
        | .error e => Op.failFile os (utf8 "stat") work e
        | .ok st =>
          if st.kind ≠ .directory then Op.failWith (utf8 "path exists and is not a directory")
          else mkdirWalk os (seen ++ [c]) cs

/-- A directory that is created is passed, and the walk goes on with the components behind
it. -/
theorem mkdirWalk_of_made {os : Os σ} {seen cs : List Bytes} {c : Bytes} {p : Proc σ} {s : σ}
    (h : os.mkdir (normalPath (seen ++ [c])) 0o755 p.os = (none, s)) :
    (mkdirWalk os seen (c :: cs)).run p =
      (mkdirWalk os (seen ++ [c]) cs).run { p with os := s } := by
  rw [mkdirWalk, Op.run_bind_of_some (Op.run_sys ..), h]

/-- Where something is already, it is a directory that is passed too, or the walk fails. -/
theorem mkdirWalk_of_exists {os : Os σ} {seen cs : List Bytes} {c : Bytes} {p : Proc σ} {s s' : σ}
    {st : Stat} (h : os.mkdir (normalPath (seen ++ [c])) 0o755 p.os = (some eExist, s))
    (hstat : os.stat (normalPath (seen ++ [c])) s = (.ok st, s')) :
    (mkdirWalk os seen (c :: cs)).run p =
      if st.kind = .directory then (mkdirWalk os (seen ++ [c]) cs).run { p with os := s' }
      else (none, { p with os := s' }.setLastError
        (utf8 "path exists and is not a directory")) := by
  rw [mkdirWalk, Op.run_bind_of_some (Op.run_sys ..), h]
  dsimp only
  rw [if_neg (not_not.mpr rfl), Op.run_bind_of_some (Op.run_sys ..), hstat]
  dsimp only
  by_cases hdir : st.kind = .directory
  · rw [if_pos hdir, if_neg (not_not.mpr hdir)]
  · rw [if_neg hdir, if_pos hdir, Op.run_failWith]

/-- The loop is a walk along the components: the check of the length never fails. -/
theorem mkdirLoop_eq_walk (os : Os σ) {fuel : ℕ} {r : Bytes} {seen : List Bytes}
    (hfuel : r.length < fuel) (hseen : ∀ c ∈ seen, IsComponent slash c)
    (hfit : (normalPath (seen ++ components slash r)).length < pathMaxLen) :
    mkdirLoop os fuel r (normalPath seen) = mkdirWalk os seen (components slash r) := by
  induction fuel generalizing r seen with
  | zero => exact absurd hfuel (Nat.not_lt_zero _)
  | succ fuel ih =>
    rw [mkdirLoop]
    dsimp only
    by_cases hnil : r.dropWhile (· == slash) = []
    · rw [if_pos hnil, components_eq_nil hnil]
      rfl
    rw [if_neg hnil]
    obtain ⟨c, next, hc, hnext, hcomp, hless, hscan⟩ := exists_component hnil
    have hseen' : ∀ d ∈ seen ++ [c], IsComponent slash d := by
      intro d hd
      rcases List.mem_append.mp hd with hd | hd
      · exact hseen d hd
      · exact List.mem_singleton.mp hd ▸ hcomp
    rw [hscan] at hfit
    rw [hc, hnext, hscan, work_append hseen]
    have hfit' : (normalPath ((seen ++ [c]) ++ components slash next)).length < pathMaxLen := by
      rwa [List.append_assoc, List.singleton_append]
    have hle := length_normalPath_le_append (seen ++ [c]) (components slash next)
    rw [if_neg (by omega), ih (by omega) hseen' hfit']
    rfl

/-! ### The file system -/

/-- No node is a symbolic link. A walk that meets one leads elsewhere, which is not
described. -/
def NoLinks (nodes : List Bytes → Option FileNode) : Prop :=
  ∀ cs b, nodes cs = some b → b.stat.kind ≠ .link

/-- Something is there, and it is not a directory. No request removes it, so a walk that
comes here fails for good. -/
def Blocked (nodes : List Bytes → Option FileNode) (cs : List Bytes) : Prop :=
  ∃ b, nodes cs = some b ∧ ¬b.IsDirectory

/-- System calls on a file system, of which `nodes` shows what is where: without links,
`mkdir` fails only for a path at which something is, and `stat` says what. -/
structure MakesDirectories (os : Os σ) (nodes : σ → List Bytes → Option FileNode) : Prop where
  root : ∀ s, ∃ b, nodes s [] = some b ∧ b.IsDirectory
  mkdir_new : ∀ s cs c, NoLinks (nodes s) → (∀ d ∈ cs ++ [c], IsFileName d) →
    (∃ b, nodes s cs = some b ∧ b.IsDirectory) → nodes s (cs ++ [c]) = none →
      (os.mkdir (normalPath (cs ++ [c])) 0o755 s).1 = none ∧
      ∃ b, b.IsDirectory ∧ nodes (os.mkdir (normalPath (cs ++ [c])) 0o755 s).2 =
        Function.update (nodes s) (cs ++ [c]) (some b)
  mkdir_exists : ∀ s cs, NoLinks (nodes s) → (∀ d ∈ cs, IsFileName d) → nodes s cs ≠ none →
    (os.mkdir (normalPath cs) 0o755 s).1 = some eExist ∧
      nodes (os.mkdir (normalPath cs) 0o755 s).2 = nodes s
  stat : ∀ s cs b, NoLinks (nodes s) → (∀ d ∈ cs, IsFileName d) → nodes s cs = some b →
    (os.stat (normalPath cs) s).1 = .ok b.stat ∧ nodes (os.stat (normalPath cs) s).2 = nodes s
  mountinfo : ∀ s, nodes (os.mountinfo s).2 = nodes s

/-- The nodes after directories have been made of the paths `made` at which nothing was. -/
structure Made (nodes nodes' : List Bytes → Option FileNode) (made : List (List Bytes)) : Prop where
  added : ∀ q ∈ made, nodes q = none → ∃ b, nodes' q = some b ∧ b.IsDirectory
  same : ∀ q, ¬(q ∈ made ∧ nodes q = none) → nodes' q = nodes q

theorem Made.nil (nodes : List Bytes → Option FileNode) : Made nodes nodes [] :=
  ⟨fun _ hq => (nomatch hq), fun _ _ => rfl⟩

/-- One directory is made. -/
private theorem Made.of_update {nodes : List Bytes → Option FileNode} {q : List Bytes}
    {b : FileNode} (hnone : nodes q = none) (hdir : b.IsDirectory) :
    Made nodes (Function.update nodes q (some b)) [q] := by
  refine ⟨fun q' hq' _ => ⟨b, ?_, hdir⟩, fun q' hq' => Function.update_of_ne (fun heq => hq' ?_) ..⟩
  · rw [List.mem_singleton.mp hq', Function.update_self]
  · exact ⟨List.mem_singleton.mpr heq, heq ▸ hnone⟩

/-- Nothing is made where something is. -/
private theorem Made.of_ne_none {nodes : List Bytes → Option FileNode} {q : List Bytes}
    (h : nodes q ≠ none) : Made nodes nodes [q] :=
  ⟨fun _ hq' hnone => absurd (List.mem_singleton.mp hq' ▸ hnone) h, fun _ _ => rfl⟩

/-- Directories made before others. -/
theorem Made.cons {nodes nodes₁ nodes₂ : List Bytes → Option FileNode} {q : List Bytes}
    {made : List (List Bytes)} (hfirst : Made nodes nodes₁ [q]) (hrest : Made nodes₁ nodes₂ made) :
    Made nodes nodes₂ (q :: made) where
  added q' hq' hnone := by
    by_cases hfirst' : q' = q
    · obtain ⟨b, hb, hdir⟩ := hfirst.added q' (List.mem_singleton.mpr hfirst') hnone
      exact ⟨b, by rw [hrest.same q' fun h => (nomatch hb.symm.trans h.2), hb], hdir⟩
    · have hmem := (List.mem_cons.mp hq').resolve_left hfirst'
      refine hrest.added q' hmem ?_
      rw [hfirst.same q' fun h => hfirst' (List.mem_singleton.mp h.1), hnone]
  same q' hq' := by
    have hnot : ¬(q' ∈ [q] ∧ nodes q' = none) := fun h =>
      hq' ⟨List.mem_cons.mpr (.inl (List.mem_singleton.mp h.1)), h.2⟩
    have hsame := hfirst.same q' hnot
    rw [hrest.same q' fun h => hq' ⟨List.mem_cons_of_mem _ h.1, hsame ▸ h.2⟩, hsame]

/-- Making directories blocks nothing and frees nothing. -/
private theorem Made.blocked_iff {nodes nodes' : List Bytes → Option FileNode}
    {made : List (List Bytes)}
    (h : Made nodes nodes' made) (q : List Bytes) : Blocked nodes' q ↔ Blocked nodes q := by
  by_cases hq : q ∈ made ∧ nodes q = none
  · obtain ⟨b, hb, hdir⟩ := h.added q hq.1 hq.2
    refine iff_of_false ?_ ?_
    · rintro ⟨d, hd, hnot⟩
      rw [hb, Option.some_inj] at hd
      exact hnot (hd ▸ hdir)
    · rintro ⟨d, hd, -⟩
      rw [hq.2] at hd
      exact nomatch hd
  · rw [Blocked, Blocked, h.same q hq]

private theorem Made.noLinks {nodes nodes' : List Bytes → Option FileNode}
    {made : List (List Bytes)}
    (h : Made nodes nodes' made) (hlinks : NoLinks nodes) : NoLinks nodes' := by
  intro q b hb
  by_cases hq : q ∈ made ∧ nodes q = none
  · obtain ⟨d, hd, hdir⟩ := h.added q hq.1 hq.2
    rw [hd, Option.some_inj] at hb
    rw [← hb, show d.stat.kind = .directory from hdir]
    exact fun hlink => nomatch hlink
  · rw [h.same q hq] at hb
    exact hlinks q b hb

/-- All the paths are there afterwards. -/
private theorem Made.ne_none {nodes nodes' : List Bytes → Option FileNode}
    {made : List (List Bytes)}
    (h : Made nodes nodes' made) {q : List Bytes} (hq : q ∈ made) : nodes' q ≠ none := by
  intro hnone
  by_cases hnew : nodes q = none
  · obtain ⟨b, hb, -⟩ := h.added q hq hnew
    exact nomatch hb.symm.trans hnone
  · rw [h.same q fun hmem => hnew hmem.2] at hnone
    exact hnew hnone

/-- Making the same directories once more changes nothing, because each of the paths is
there already. -/
theorem Made.again {nodes nodes' nodes'' : List Bytes → Option FileNode}
    {made : List (List Bytes)} (h : Made nodes nodes' made) (h' : Made nodes' nodes'' made) :
    nodes'' = nodes' :=
  funext fun q => h'.same q fun hq => h.ne_none hq.1 hq.2

/-- Without links every path of file names is looked up in the tree. -/
private theorem FileTree.directAt_of_noLinks {t : FileTree} (hlinks : NoLinks t.node)
    {cs : List Bytes} (hok : ∀ c ∈ cs, IsFileName c) : t.DirectAt cs :=
  ⟨fun c hc => ⟨(hok c hc).1, (hok c hc).2.1⟩, fun hup => (hok _ hup).2.2.1 rfl,
    fun p _ _ b hb => hlinks p b hb⟩

/-- The calls of a directory tree that do not fail are such system calls. -/
private theorem makesDirectories_withTree (os : Os TreeWorld) (faults : TreeFaults)
    (hfault : ∀ time, faults.fault time = none) :
    MakesDirectories (os.withTree faults) fun w => w.tree.node where
  root w := w.tree.root
  mkdir_new w cs c hlinks hok habove hnew := by
    have hokLast : IsFileName ((cs ++ [c]).getLast (by simp)) := hok _ (List.getLast_mem _)
    have haboveLast : ∃ d, w.tree.node (cs ++ [c]).dropLast = some d ∧ d.IsDirectory := by
      rwa [List.dropLast_concat]
    -- whatever node the call makes, the tree takes it
    have hanswer : ∀ b : FileNode, w.tree.mkdir (cs ++ [c]) b =
        (none, w.tree.addAt (cs ++ [c]) b (by simp) hokLast haboveLast hnew) := by
      intro b
      have hwith : w.tree.withDirectory (cs ++ [c]) b =
          some (w.tree.addAt (cs ++ [c]) b (by simp) hokLast haboveLast hnew) := by
        rw [FileTree.withDirectory, dif_pos (by simp), dif_pos ⟨hokLast, haboveLast, hnew⟩]
      simp only [FileTree.mkdir, hnew, hwith]
    have hcall := TreeWorld.call_normalPath faults
      (FileTree.directAt_of_noLinks hlinks hok) (fun t cs => some (t.mkdir cs
        ⟨{ faults.newStat 0o755 with kind := .directory }, []⟩)) (congrArg some (hanswer _))
      (os.mkdir (normalPath (cs ++ [c])) 0o755) some
    rw [hfault] at hcall
    refine ⟨congrArg Prod.fst hcall, ⟨{ faults.newStat 0o755 with kind := .directory }, []⟩, rfl,
      ?_⟩
    exact (congrArg (fun r => r.2.tree.node) hcall).trans
      (NodeTree.node_addAt w.tree (by simp) hokLast haboveLast hnew)
  mkdir_exists w cs hlinks hok hthere := by
    obtain ⟨b, hb⟩ := Option.ne_none_iff_exists'.mp hthere
    have hanswer : ∀ b : FileNode, w.tree.mkdir cs b = (some eExist, w.tree) := fun _ => by
      simp only [FileTree.mkdir, hb]
    have hcall := TreeWorld.call_normalPath faults
      (FileTree.directAt_of_noLinks hlinks hok) (fun t cs => some (t.mkdir cs
        ⟨{ faults.newStat 0o755 with kind := .directory }, []⟩)) (congrArg some (hanswer _))
      (os.mkdir (normalPath cs) 0o755) some
    rw [hfault] at hcall
    exact ⟨congrArg Prod.fst hcall, congrArg (fun r => r.2.tree.node) hcall⟩
  stat w cs b hlinks hok hb := by
    have hanswer : w.tree.stat cs = some (.ok b.stat, w.tree) := by
      simp only [FileTree.stat, hb, if_neg (hlinks cs b hb)]
    have hcall := TreeWorld.call_normalPath faults
      (FileTree.directAt_of_noLinks hlinks hok) (fun t cs => t.stat cs) hanswer
      (os.stat (normalPath cs)) .error
    rw [hfault] at hcall
    exact ⟨congrArg Prod.fst hcall, congrArg (fun r => r.2.tree.node) hcall⟩
  mountinfo w := by rw [os.withTree_mountinfo]

/-! ### What the walk does -/

/-- The prefixes a walk comes to, the shortest first. The root is not among them, since it
is there already. -/
def walkPrefixes (seen : List Bytes) : List Bytes → List (List Bytes)
  | [] => []
  | c :: cs => (seen ++ [c]) :: walkPrefixes (seen ++ [c]) cs

private theorem walkPrefixes_eq (seen cs : List Bytes) :
    walkPrefixes seen cs = cs.inits.tail.map fun q => seen ++ q := by
  induction cs generalizing seen with
  | nil => rfl
  | cons c cs ih =>
    rw [walkPrefixes, ih, List.inits_cons, List.tail_cons]
    rcases hinits : cs.inits with _ | ⟨q, qs⟩
    · exact absurd hinits (by cases cs <;> simp)
    · obtain rfl : q = [] := by
        rcases cs with _ | ⟨d, cs⟩
        · simpa using congrArg List.head? hinits.symm
        · simpa using congrArg List.head? hinits.symm
      simp

private theorem walkPrefixes_nil (cs : List Bytes) : walkPrefixes [] cs = cs.inits.tail := by
  simp [walkPrefixes_eq]

/-- A walk from the root comes to every prefix but the root. -/
private theorem mem_walkPrefixes_nil {cs q : List Bytes} : q ∈ walkPrefixes [] cs ↔ q <+: cs ∧
    q ≠ [] := by
  rw [walkPrefixes_nil, ← List.mem_inits]
  rcases cs with _ | ⟨c, cs⟩
  · simp
  · rw [List.inits_cons, List.tail_cons, List.mem_cons]
    have hne : q ∈ cs.inits.map (fun t => c :: t) → q ≠ [] := by
      rintro hmem rfl
      simp at hmem
    exact ⟨fun hmem => ⟨.inr hmem, hne hmem⟩, fun h => h.1.resolve_left h.2⟩

private theorem mem_walkPrefixes {seen cs q : List Bytes} :
    q ∈ walkPrefixes seen cs → seen <+: q ∧ seen ≠ q ∧ q <+: seen ++ cs := by
  induction cs generalizing seen with
  | nil => exact fun hq => nomatch hq
  | cons c cs ih =>
    intro hq
    have hlen : seen ≠ seen ++ [c] := by simp
    rw [walkPrefixes, List.mem_cons] at hq
    rcases hq with rfl | hq
    · exact ⟨List.prefix_append _ _, hlen, ⟨cs, by simp⟩⟩
    · obtain ⟨hpre, -, hsub⟩ := ih hq
      rw [List.append_assoc, List.singleton_append] at hsub
      refine ⟨(List.prefix_append _ _).trans hpre, ?_, hsub⟩
      rintro rfl
      exact hlen ((List.prefix_append _ _).eq_of_length_le hpre.length_le)

/-- The prefixes come in the order of their lengths, each within the next ones. So what is
in the way of one prefix is in the way of all later ones. -/
private theorem pairwise_walkPrefixes (seen cs : List Bytes) :
    (walkPrefixes seen cs).Pairwise fun q q' => q <+: q' ∧ q ≠ q' := by
  induction cs generalizing seen with
  | nil => exact .nil
  | cons c cs ih =>
    refine .cons (fun q hq => ?_) (ih _)
    obtain ⟨hpre, hne, -⟩ := mem_walkPrefixes hq
    exact ⟨hpre, hne⟩

/-- What a walk along prefixes does: it makes directories of all of them, or of those before
the first one that is blocked, which it comes to last. -/
def Walked (nodes : σ → List Bytes → Option FileNode) (paths : List (List Bytes))
    (p : Proc (Recorded σ)) (run : Option Unit × Proc (Recorded σ)) : Prop :=
  ∃ made rest, paths = made ++ rest ∧ Made (nodes p.os.inner) (nodes run.2.os.inner) made ∧
    (∀ q ∈ made, ¬Blocked (nodes p.os.inner) q) ∧
    ((run.1 = some () ∧ rest = [] ∧
        run.2.os.calls = p.os.calls ++ made.map fun q => .mkdir (normalPath q)) ∨
      (run.1 = none ∧ ∃ q rest', rest = q :: rest' ∧ Blocked (nodes p.os.inner) q ∧
        run.2.os.calls = p.os.calls ++ (made ++ [q]).map fun q => .mkdir (normalPath q)))

/-- A walk that has passed its first prefix. -/
theorem Walked.cons {nodes : σ → List Bytes → Option FileNode} {q : List Bytes}
    {paths : List (List Bytes)} {p p₁ : Proc (Recorded σ)} {run : Option Unit × Proc (Recorded σ)}
    (hfirst : Made (nodes p.os.inner) (nodes p₁.os.inner) [q])
    (hfree : ¬Blocked (nodes p.os.inner) q)
    (hcalls : p₁.os.calls = p.os.calls ++ [.mkdir (normalPath q)])
    (h : Walked nodes paths p₁ run) : Walked nodes (q :: paths) p run := by
  obtain ⟨made, rest, rfl, hmade, hfrees, hend⟩ := h
  refine ⟨q :: made, rest, rfl, hfirst.cons hmade, ?_, ?_⟩
  · intro q' hq'
    rcases List.mem_cons.mp hq' with rfl | hq'
    · exact hfree
    · exact (hfirst.blocked_iff q').not.mp (hfrees q' hq')
  · rw [hcalls] at hend
    rcases hend with ⟨hsuccess, hrest, hcalls'⟩ | ⟨hfailed, q', rest', hrest, hblocked, hcalls'⟩
    · refine .inl ⟨hsuccess, hrest, ?_⟩
      rw [hcalls', List.append_assoc]
      rfl
    · refine .inr ⟨hfailed, q', rest', hrest, (hfirst.blocked_iff q').mp hblocked, ?_⟩
      rw [hcalls', List.append_assoc]
      rfl

section Walked

variable {nodes : σ → List Bytes → Option FileNode} {paths : List (List Bytes)} {cs : List Bytes}
  {p : Proc (Recorded σ)} {run run' : Option Unit × Proc (Recorded σ)}

/-- A walk comes to its end if nothing is in the way. -/
private theorem Walked.eq_some_iff (h : Walked nodes paths p run) :
    run.1 = some () ↔ ∀ q ∈ paths, ¬Blocked (nodes p.os.inner) q := by
  obtain ⟨made, rest, rfl, -, hfree, ⟨hsuccess, rfl, -⟩ | ⟨hfailed, q, rest', rfl, hblocked, -⟩⟩ :=
    h
  · rw [List.append_nil]
    exact iff_of_true hsuccess hfree
  · refine iff_of_false (by simp [hfailed]) fun hall => ?_
    exact hall q (List.mem_append_right _ List.mem_cons_self) hblocked

/-- Then it has made directories of all prefixes. -/
private theorem Walked.of_some (h : Walked nodes paths p run) (hsuccess : run.1 = some ()) :
    Made (nodes p.os.inner) (nodes run.2.os.inner) paths ∧
      run.2.os.calls = p.os.calls ++ paths.map fun q => .mkdir (normalPath q) := by
  obtain ⟨made, rest, rfl, hmade, -, ⟨-, rfl, hcalls⟩ | ⟨hfailed, -⟩⟩ := h
  · rw [List.append_nil]
    exact ⟨hmade, hcalls⟩
  · exact nomatch hfailed.symm.trans hsuccess

/-- Going there once more changes nothing. Every prefix is a directory by then, and is
passed as one. -/
theorem Walked.again (h : Walked nodes paths p run) (hsuccess : run.1 = some ())
    (h' : Walked nodes paths run.2 run') :
    run'.1 = some () ∧ nodes run'.2.os.inner = nodes run.2.os.inner := by
  obtain ⟨hmade, -⟩ := h.of_some hsuccess
  have hsuccess' : run'.1 = some () := h'.eq_some_iff.mpr fun q hq hblocked =>
    h.eq_some_iff.mp hsuccess q hq ((hmade.blocked_iff q).mp hblocked)
  exact ⟨hsuccess', hmade.again (h'.of_some hsuccess').1⟩

/-- A walk from the root that has not come to its end has made at most directories above
what is in the way. -/
private theorem Walked.of_none (h : Walked nodes (walkPrefixes [] cs) p run)
    (hfailed : run.1 = none) : ∃ q, q <+: cs ∧ Blocked (nodes p.os.inner) q ∧
      ∀ q', nodes run.2.os.inner q' ≠ nodes p.os.inner q' →
        q' <+: q ∧ q' ≠ q ∧ nodes p.os.inner q' = none := by
  obtain ⟨made, rest, hpaths, hmade, -, ⟨hsuccess, -⟩ | ⟨-, q, rest', rfl, hblocked, -⟩⟩ := h
  · exact nomatch hsuccess.symm.trans hfailed
  have hq : q ∈ walkPrefixes [] cs := by
    rw [hpaths]
    exact List.mem_append_right _ List.mem_cons_self
  refine ⟨q, (mem_walkPrefixes_nil.mp hq).1, hblocked, fun q' hchanged => ?_⟩
  have hmem : q' ∈ made ∧ nodes p.os.inner q' = none := by
    by_contra hnot
    exact hchanged (hmade.same q' hnot)
  have hpairwise := pairwise_walkPrefixes [] cs
  rw [hpaths, List.pairwise_append] at hpairwise
  obtain ⟨hpre, hne⟩ := hpairwise.2.2 q' hmem.1 q List.mem_cons_self
  exact ⟨hpre, hne, hmem.2⟩

end Walked

/-- **The walk.** -/
theorem walked_mkdirWalk {os : Os σ} {nodes : σ → List Bytes → Option FileNode}
    (hworld : MakesDirectories os nodes) (seen cs : List Bytes) (p : Proc (Recorded σ))
    (hlinks : NoLinks (nodes p.os.inner)) (hok : ∀ d ∈ seen ++ cs, IsFileName d)
    (hseen : ∃ b, nodes p.os.inner seen = some b ∧ b.IsDirectory) :
    Walked nodes (walkPrefixes seen cs) p ((mkdirWalk os.recording seen cs).run p) := by
  induction cs generalizing seen p with
  | nil =>
    refine ⟨[], [], rfl, .nil _, List.forall_mem_nil _, .inl ⟨rfl, rfl, ?_⟩⟩
    exact (List.append_nil _).symm
  | cons c cs ih =>
    have hok' : ∀ d ∈ (seen ++ [c]) ++ cs, IsFileName d := by
      rwa [List.append_assoc, List.singleton_append]
    have hokPath : ∀ d ∈ seen ++ [c], IsFileName d := fun d hd =>
      hok' d (List.mem_append_left _ hd)
    obtain ⟨r₁, hr₁⟩ : ∃ r₁, r₁ = (os.recording.mkdir (normalPath (seen ++ [c])) 0o755 p.os).2 :=
      ⟨_, rfl⟩
    have hcalls : r₁.calls = p.os.calls ++ [.mkdir (normalPath (seen ++ [c]))] := by
      rw [hr₁]
      rfl
    have hinner : r₁.inner = (os.mkdir (normalPath (seen ++ [c])) 0o755 p.os.inner).2 := by
      rw [hr₁]
      rfl
    rw [walkPrefixes]
    rcases hnode : nodes p.os.inner (seen ++ [c]) with _ | b
    · -- nothing is there: a directory is made
      obtain ⟨hnew, b, hdir, hnodes⟩ := hworld.mkdir_new _ _ _ hlinks hokPath hseen hnode
      rw [← hinner] at hnodes
      have hmade : Made (nodes p.os.inner) (nodes r₁.inner) [seen ++ [c]] :=
        hnodes ▸ .of_update hnode hdir
      rw [mkdirWalk_of_made (Prod.ext hnew hr₁.symm)]
      refine .cons hmade ?_ hcalls (ih _ _ (hmade.noLinks hlinks) hok' ⟨b, ?_, hdir⟩)
      · rintro ⟨d, hd, -⟩
        rw [hnode] at hd
        exact nomatch hd
      · show nodes r₁.inner (seen ++ [c]) = some b
        rw [hnodes, Function.update_self]
    · -- something is there: a directory, or the walk ends
      obtain ⟨hexists, hnodes⟩ := hworld.mkdir_exists _ _ hlinks hokPath (by simp [hnode])
      rw [← hinner] at hnodes
      obtain ⟨hstat, hnodes'⟩ := hworld.stat r₁.inner (seen ++ [c]) b (hnodes ▸ hlinks) hokPath
        (by rw [hnodes, hnode])
      obtain ⟨r₂, hr₂⟩ : ∃ r₂, r₂ = (os.recording.stat (normalPath (seen ++ [c])) r₁).2 :=
        ⟨_, rfl⟩
      have hnodes₂ : nodes r₂.inner = nodes p.os.inner := by
        rw [hr₂, ← hnodes, ← hnodes']
        rfl
      have hcalls₂ : r₂.calls = p.os.calls ++ [.mkdir (normalPath (seen ++ [c]))] := by
        rw [← hcalls, hr₂]
        rfl
      have hmade : Made (nodes p.os.inner) (nodes r₂.inner) [seen ++ [c]] := by
        rw [hnodes₂]
        exact .of_ne_none (by simp [hnode])
      rw [mkdirWalk_of_exists (Prod.ext hexists hr₁.symm) (Prod.ext hstat hr₂.symm)]
      split_ifs with hdir
      · refine .cons hmade ?_ hcalls₂ (ih _ _ (hmade.noLinks hlinks) hok' ⟨b, ?_, hdir⟩)
        · rintro ⟨d, hd, hnot⟩
          rw [hnode, Option.some_inj] at hd
          exact hnot (hd ▸ hdir)
        · show nodes r₂.inner (seen ++ [c]) = some b
          rw [hnodes₂, hnode]
      · refine ⟨[], _, rfl, ?_, List.forall_mem_nil _,
          .inr ⟨rfl, seen ++ [c], _, rfl, ⟨b, hnode, hdir⟩, hcalls₂⟩⟩
        show Made _ (nodes r₂.inner) []
        rw [hnodes₂]
        exact .nil _

/-! ### The request -/

/-- The components of a path that `build_path` accepts are file names. -/
private theorem isFileName_of_mem_pathComponents {relative c : Bytes} (hnul : 0 ∉ relative)
    (hup : utf8 ".." ∉ pathComponents relative) (hc : c ∈ pathComponents relative) :
    IsFileName c := by
  obtain ⟨hcomp, hdot⟩ := normalComponents_pathComponents relative c hc
  refine ⟨hcomp, hdot, fun heq => hup (heq ▸ hc), fun hzero => hnul ?_⟩
  exact (of_mem_components (List.mem_of_mem_filter hc)).2.subset hzero

section Request

variable {os : Os σ} {nodes : σ → List Bytes → Option FileNode} {relative : Bytes}
  {desireStorage : Option Bytes} {p : Proc (Recorded σ)}

/-- A request that passes the checks is a walk along the components of its path. -/
private theorem dirMkdir_of_accepted (hup : utf8 ".." ∉ pathComponents relative)
    (hfit : (normalPath (pathComponents relative)).length < pathMaxLen)
    (hdesired : StorageMatches (storageOf (pathComponents relative)) desireStorage)
    (hwriteable : StorageWriteable os.recording (storageOf (pathComponents relative)) p.os) :
    (dirMkdir os.recording relative true desireStorage).run p =
      (mkdirWalk os.recording [] (pathComponents relative)).run
        (p.afterMountCheck os.recording (storageOf (pathComponents relative))) := by
  have hbuilt : buildPath relative pathMaxLen = (normalPath (pathComponents relative),
      .ok (storageOf (pathComponents relative))) :=
    (buildPath_eq_ok_iff (by decide)).mpr ⟨hup, hfit, rfl, rfl⟩
  have hcomponents := components_drop_normalPath fun c hc =>
    (normalComponents_pathComponents relative c hc).1
  have hloop : mkdirLoop os.recording ((normalPath (pathComponents relative)).length + 1)
      ((normalPath (pathComponents relative)).drop 1) (normalPath []) = _ :=
    mkdirLoop_eq_walk os.recording (by rw [List.length_drop]; omega) (List.forall_mem_nil _)
      (by rwa [hcomponents])
  rw [hcomponents] at hloop
  rw [dirMkdir, Op.run_bind_of_some (buildPathOp_run hbuilt p)]
  dsimp only
  rw [Op.run_bind_of_some (pathStorageMatchesDesire_of hdesired p)]
  rw [Op.run_bind_of_some (ensureStorageWriteable_of hwriteable), if_pos rfl]
  exact congrFun (congrArg Op.run hloop) _

/-- Looking at the mount table makes no directory. -/
private theorem afterMountCheck_recording (hworld : MakesDirectories os nodes) (storage : Storage) :
    nodes (p.afterMountCheck os.recording storage).os.inner = nodes p.os.inner ∧
      (p.afterMountCheck os.recording storage).os.calls = p.os.calls := by
  rcases storage with _ | _
  · exact ⟨rfl, rfl⟩
  · simp only [Proc.afterMountCheck, Os.afterMountCheck, os.recording_mountinfo]
    exact ⟨hworld.mountinfo p.os.inner, rfl⟩

/-- What a request does that passes the checks: it walks along the components of its
normalised path, from the root on. -/
private theorem walked_dirMkdir (hworld : MakesDirectories os nodes) (hnul : 0 ∉ relative)
    (hup : utf8 ".." ∉ pathComponents relative)
    (hfit : (normalPath (pathComponents relative)).length < pathMaxLen)
    (hdesired : StorageMatches (storageOf (pathComponents relative)) desireStorage)
    (hwriteable : StorageWriteable os.recording (storageOf (pathComponents relative)) p.os)
    (hlinks : NoLinks (nodes p.os.inner)) :
    Walked nodes (walkPrefixes [] (pathComponents relative)) p
      ((dirMkdir os.recording relative true desireStorage).run p) := by
  obtain ⟨hnodes, hcalls⟩ := afterMountCheck_recording (p := p) hworld
    (storageOf (pathComponents relative))
  have hwalk := walked_mkdirWalk hworld [] (pathComponents relative)
    (p.afterMountCheck os.recording (storageOf (pathComponents relative))) (hnodes ▸ hlinks)
    (fun c hc => isFileName_of_mem_pathComponents hnul hup hc) (hworld.root _)
  rw [dirMkdir_of_accepted hup hfit hdesired hwriteable]
  rw [Walked, hnodes, hcalls] at hwalk
  exact hwalk

/-- **Parents.** On a file system without links in which `mkdir` fails only for a path that
exists, a request with `parents` that passes the checks returns `true` exactly if no prefix
of its path is something else than a directory. Then it has made directories of the missing
prefixes, the shortest first, and changed nothing else, and once more it succeeds and
changes nothing. If it returns `false`, it has made at most directories above the prefix
that is in the way. The prefix in work is a prefix of the normalised path in every
iteration, so it always fits. -/
theorem dirMkdir_exact (hworld : MakesDirectories os nodes) (hnul : 0 ∉ relative) {path : Bytes}
    {storage : Storage} (hbuilt : buildPath relative pathMaxLen = (path, .ok storage))
    (hdesired : StorageMatches storage desireStorage)
    (hwriteable : StorageWriteable os.recording storage p.os)
    (hlinks : NoLinks (nodes p.os.inner)) :
    let cs := pathComponents relative
    let run := (dirMkdir os.recording relative true desireStorage).run p
    let before := nodes p.os.inner
    let after := nodes run.2.os.inner
    (run.1 = some () ↔ ∀ q, q <+: cs → ¬Blocked before q) ∧
    (run.1 = some () →
      (∀ q, q <+: cs → before q = none → ∃ b, after q = some b ∧ b.IsDirectory) ∧
      (∀ q, ¬(q <+: cs ∧ before q = none) → after q = before q) ∧
      run.2.os.calls = p.os.calls ++ cs.inits.tail.map (fun q => .mkdir (normalPath q)) ∧
      (StorageWriteable os.recording storage run.2.os →
        let again := (dirMkdir os.recording relative true desireStorage).run run.2
        again.1 = some () ∧ nodes again.2.os.inner = after)) ∧
    (run.1 = none → ∃ q, q <+: cs ∧ Blocked before q ∧
      ∀ q', after q' ≠ before q' → q' <+: q ∧ q' ≠ q ∧ before q' = none) ∧
    ∀ r work, MkdirReaches path r work → work <+: path ∧ work.length < pathMaxLen := by
  obtain ⟨hup, hfit, rfl, rfl⟩ := (buildPath_eq_ok_iff (by decide)).mp hbuilt
  intro cs run before after
  have hroot : ¬Blocked before [] := by
    rintro ⟨b, hb, hnot⟩
    obtain ⟨d, hd, hdir⟩ := hworld.root p.os.inner
    exact hnot (Option.some.inj (hd.symm.trans hb) ▸ hdir)
  have hreach : ∀ r work, MkdirReaches (normalPath cs) r work →
      work <+: normalPath cs ∧ work.length < pathMaxLen := by
    intro r work h
    have hpre := prefix_of_mkdirReaches
      (fun c hc => (normalComponents_pathComponents relative c hc).1) h
    exact ⟨hpre, hpre.length_le.trans_lt hfit⟩
  have hwalked : Walked nodes (walkPrefixes [] cs) p run :=
    walked_dirMkdir hworld hnul hup hfit hdesired hwriteable hlinks
  have hfree : run.1 = some () ↔ ∀ q, q <+: cs → ¬Blocked before q := by
    rw [hwalked.eq_some_iff]
    constructor
    · intro hall q hq
      by_cases hnil : q = []
      · exact hnil ▸ hroot
      · exact hall q (mem_walkPrefixes_nil.mpr ⟨hq, hnil⟩)
    · exact fun hall q hq => hall q (mem_walkPrefixes_nil.mp hq).1
  refine ⟨hfree, fun hsuccess => ?_, hwalked.of_none, hreach⟩
  obtain ⟨hmade, hcalls⟩ := hwalked.of_some hsuccess
  refine ⟨fun q hq hnew => hmade.added q (mem_walkPrefixes_nil.mpr ⟨hq, ?_⟩) hnew,
    fun q hq => hmade.same q fun h => hq ⟨(mem_walkPrefixes_nil.mp h.1).1, h.2⟩, ?_,
    fun hwriteable' => ?_⟩
  · -- the root is there before
    rintro rfl
    obtain ⟨d, hd, -⟩ := hworld.root p.os.inner
    exact nomatch hnew.symm.trans hd
  · rw [← walkPrefixes_nil]
    exact hcalls
  · exact hwalked.again hsuccess (walked_dirMkdir hworld hnul hup hfit hdesired hwriteable'
      (hmade.noLinks hlinks))

/-- `dirMkdir_exact` for `a//./b` in a bare tree. -/
theorem dirMkdir_exact_bare :
    let run := (dirMkdir ((Os.failing TreeWorld).withTree .calm).recording (utf8 "a//./b") true
      none).run ⟨fun _ => {}, [], ⟨⟨.bare, 0, []⟩, [], []⟩⟩
    run.1 = some () ∧
      (∃ b, run.2.os.inner.tree.node [utf8 "a", utf8 "b"] = some b ∧ b.IsDirectory) ∧
      run.2.os.calls = [.mkdir (utf8 "/a"), .mkdir (utf8 "/a/b")] := by
  intro run
  have hbare : ∀ q, q ≠ [] → FileTree.bare.node q = none := fun q hq => if_neg hq
  have hcs : pathComponents (utf8 "a//./b") = [utf8 "a", utf8 "b"] := by decide +kernel
  have hroot : ∀ q b, FileTree.bare.node q = some b → b.IsDirectory := by
    intro q b hb
    by_cases hq : q = []
    · rw [hq] at hb
      exact Option.some.inj hb ▸ rfl
    · rw [hbare q hq] at hb
      exact nomatch hb
  have hnul : 0 ∉ utf8 "a//./b" := by decide +kernel
  have hbuilt : buildPath (utf8 "a//./b") pathMaxLen = (utf8 "/a/b", .ok .nand) := by
    decide +kernel
  have hdesired : StorageMatches .nand none := fun _ hdesire => nomatch hdesire
  obtain ⟨hiff, hmade, -, -⟩ := dirMkdir_exact (p := ⟨fun _ => {}, [], ⟨⟨.bare, 0, []⟩, [], []⟩⟩)
    (makesDirectories_withTree (Os.failing TreeWorld) TreeFaults.calm fun _ => rfl)
    hnul hbuilt hdesired
    (fun hsd => nomatch hsd) (fun q b hb hlink => by
      rw [hroot q b hb] at hlink
      exact nomatch hlink)
  have hsuccess : run.1 = some () := hiff.mpr fun q _ hblocked => by
    obtain ⟨b, hb, hnot⟩ := hblocked
    exact hnot (hroot q b hb)
  obtain ⟨hadded, -, hcalls, -⟩ := hmade hsuccess
  rw [hcs] at hadded hcalls
  refine ⟨hsuccess, hadded _ List.prefix_rfl (hbare _ (List.cons_ne_nil _ _)), ?_⟩
  rw [hcalls]
  decide +kernel

end Request

end UsbResponder
