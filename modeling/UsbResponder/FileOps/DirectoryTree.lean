import UsbResponder.Base.NodeTree
import UsbResponder.FileOps.Normalise
import UsbResponder.FileOps.Tree
import UsbResponder.System.FileSystem

/-!
# A directory tree

A concrete outside world for the operations that work on whole paths: a tree of files,
symbolic links and directories, which only the responder changes. `TreeFaults` leaves open
which calls fail and in what order a directory is listed.

The calls of `Os.withTree` are those of a path in normal form all of whose proper prefixes
are directories or missing (`FileTree.DirectAt`). What a call does that leads through a
symbolic link or follows one, or that spells its path in another way, is left open as well:
it is whatever the system calls underneath do. Such calls are noted in `followed`, so that a
result can say that there were none.

`TreeWorld.call_normalPath` is the one lemma about calls: a call that the tree answers fails
and changes nothing, or does to the tree what its definition says. The results about
deleting and about creating directories are built on it. Contents of files, permissions and
time stamps are carried in the nodes and read by nobody here; mount points and other
processes are left out.
-/

namespace UsbResponder

open CString Components

/-! ### Trees -/

/-- What a directory entry may be called. A name has no slash and no NUL, and is neither
empty nor one of the two names that every directory has. -/
def IsFileName (name : Bytes) : Prop :=
  IsComponent slash name ∧ name ≠ utf8 "." ∧ name ≠ utf8 ".." ∧ 0 ∉ name

instance (name : Bytes) : Decidable (IsFileName name) :=
  inferInstanceAs (Decidable ((name ≠ [] ∧ slash ∉ name) ∧ name ≠ utf8 "." ∧ name ≠ utf8 ".." ∧
    0 ∉ name))

/-- A file, directory or symbolic link: what `lstat` says of it, and the contents of a file
or the target of a link. -/
structure FileNode where
  stat : Stat
  data : Bytes
  deriving DecidableEq, Repr

/-- A directory, as opposed to a link to one. `lstat` tells the two apart, and `stat` does
not. -/
def FileNode.IsDirectory (b : FileNode) : Prop := b.stat.kind = .directory

instance (b : FileNode) : Decidable b.IsDirectory :=
  inferInstanceAs (Decidable (b.stat.kind = .directory))

/-- Files, links and directories by the names on the way to them. -/
abbrev FileTree := NodeTree IsFileName FileNode.IsDirectory

namespace FileTree

/-- No link is above the path, so the path leads where its components say. -/
def NoLinkAbove (t : FileTree) (cs : List Bytes) : Prop :=
  ∀ p ∈ cs.inits, p ≠ cs → ∀ b ∈ t.node p, b.stat.kind ≠ .link

instance (t : FileTree) (cs : List Bytes) : Decidable (t.NoLinkAbove cs) :=
  inferInstanceAs (Decidable (∀ p ∈ cs.inits, p ≠ cs → ∀ b ∈ t.node p, b.stat.kind ≠ .link))

/-- Components of a path that is looked up in the tree itself. Whether there is something at
the end of the path is not said. -/
structure DirectAt (t : FileTree) (cs : List Bytes) : Prop where
  normal : NormalComponents cs
  noDotDot : utf8 ".." ∉ cs
  noLinkAbove : t.NoLinkAbove cs

/-- The components of a path in normal form with no link above it. A path that is spelled
otherwise has none, and the tree does not answer for it. -/
def direct (t : FileTree) (path : Bytes) : Option (List Bytes) :=
  let cs := pathComponents path
  if path = normalPath cs ∧ utf8 ".." ∉ cs ∧ t.NoLinkAbove cs then some cs else none

private theorem direct_normalPath {t : FileTree} {cs : List Bytes} (h : t.DirectAt cs) :
    t.direct (normalPath cs) = some cs := by
  rw [direct, pathComponents_normalPath h.normal]
  exact if_pos ⟨rfl, h.noDotDot, h.noLinkAbove⟩

/-- The tree without a node that has nothing below it. -/
def withoutNode (t : FileTree) (cs : List Bytes) : FileTree :=
  if h : cs ≠ [] ∧ t.names cs = [] then t.removeAt cs h.1 h.2 else t

theorem node_withoutNode {t : FileTree} {cs : List Bytes} (hne : cs ≠ [])
    (hleaf : t.names cs = []) : (t.withoutNode cs).node = Function.update t.node cs none := by
  rw [withoutNode, dif_pos ⟨hne, hleaf⟩, NodeTree.node_removeAt]

/-- The tree with another directory, below one that is there. -/
def withDirectory (t : FileTree) (cs : List Bytes) (b : FileNode) : Option FileTree :=
  if hne : cs ≠ [] then
    if h : IsFileName (cs.getLast hne) ∧ (∃ d, t.node cs.dropLast = some d ∧ d.IsDirectory) ∧
        t.node cs = none then
      some (t.addAt cs b hne h.1 h.2.1 h.2.2)
    else none
  else none

end FileTree

/-- A root directory with nothing in it. It is the tree that the examples start with. -/
def FileTree.bare : FileTree where
  node p := if p = [] then some ⟨⟨.directory, 0o755, 0, 0, 0⟩, []⟩ else none
  names _ := []
  mem_names p x := by simp
  nodup_names _ := List.nodup_nil
  ok_of_mem _ _ hx := nomatch hx
  inner_of_mem _ _ hx := nomatch hx
  root := ⟨_, rfl, rfl⟩

/-! ### Calls -/

/-- `ENOTDIR`. -/
def eNotDir : Errno := 20

/-- `EISDIR`. -/
def eIsDir : Errno := 21

/-- `EBUSY`. -/
def eBusy : Errno := 16

/-- `ENOTEMPTY`. -/
def eNotEmpty : Errno := 39

/-- The outside: the tree, how many calls there have been, and the paths of the calls that
were not answered by the tree. The number of calls is what the faults depend on. -/
structure TreeWorld where
  tree : FileTree
  time : ℕ
  followed : List Bytes

/-- How calls turn out: which of them fail, and in what order a directory is listed, also
where `.` and `..` stand in it. `newStat` is what a directory has apart from its kind when
it is made. -/
structure TreeFaults where
  fault : ℕ → Option Errno
  listing : ℕ → List Bytes → List Bytes
  newStat : ℕ → Stat
  listing_perm : ∀ time names, (∀ name ∈ names, IsFileName name) →
    ((listing time names).filter fun name => !isDotName name).Perm names

/-- No call fails, and directories are listed in the order of the tree. -/
def TreeFaults.calm : TreeFaults where
  fault _ := none
  listing _ names := names
  newStat perm := ⟨.directory, perm, 0, 0, 0⟩
  listing_perm _ names hnames := by
    rw [List.filter_eq_self.mpr fun name hname => ?_]
    obtain ⟨-, hdot, hdotdot, -⟩ := hnames name hname
    simp [isDotName, hdot, hdotdot]

namespace FileTree

variable (t : FileTree) (cs : List Bytes)

/-- The `errno` for a path at which there is no node. -/
def missing : Errno :=
  if ∃ p ∈ cs.inits, ∃ b ∈ t.node p, ¬b.IsDirectory then eNotDir else eNoEnt

/-- `lstat`. -/
def lstat : Except Errno Stat × FileTree :=
  match t.node cs with
  | none => (.error (t.missing cs), t)
  | some b => (.ok b.stat, t)

/-- `stat`, unless it follows a link. -/
def stat : Option (Except Errno Stat × FileTree) :=
  match t.node cs with
  | none => some (.error (t.missing cs), t)
  | some b => if b.stat.kind = .link then none else some (.ok b.stat, t)

/-- `opendir` with the names it lists, unless it follows a link. -/
def opendir (listing : List Bytes → List Bytes) :
    Option (Except Errno (List Bytes) × FileTree) :=
  match t.node cs with
  | none => some (.error (t.missing cs), t)
  | some b =>
    if b.stat.kind = .link then none
    else if b.IsDirectory then some (.ok (listing (t.names cs)), t)
    else some (.error eNotDir, t)

/-- `unlink`. -/
def unlink : Option Errno × FileTree :=
  match t.node cs with
  | none => (some (t.missing cs), t)
  | some b => if b.IsDirectory then (some eIsDir, t) else (none, t.withoutNode cs)

/-- `rmdir`. -/
def rmdir : Option Errno × FileTree :=
  match t.node cs with
  | none => (some (t.missing cs), t)
  | some b =>
    if ¬b.IsDirectory then (some eNotDir, t)
    else if cs = [] then (some eBusy, t)
    else if t.names cs = [] then (none, t.withoutNode cs)
    else (some eNotEmpty, t)

/-- `mkdir`. -/
def mkdir (b : FileNode) : Option Errno × FileTree :=
  match t.node cs with
  | some _ => (some eExist, t)
  | none =>
    match t.withDirectory cs b with
    | some t => (none, t)
    | none => (some (t.missing cs), t)

end FileTree

namespace TreeWorld

variable {β : Type}

/-- A call with a path: what the tree answers, unless the call fails; or what is
`elsewhere`, when the tree does not answer. In the latter case the path is noted. -/
def call (faults : TreeFaults) (path : Bytes) (elsewhere : TreeWorld → β × TreeWorld)
    (failed : Errno → β) (answer : FileTree → List Bytes → Option (β × FileTree)) (w : TreeWorld) :
    β × TreeWorld :=
  let later := { w with time := w.time + 1 }
  match (w.tree.direct path).bind (answer w.tree) with
  | none => ((elsewhere later).1, { (elsewhere later).2 with followed := w.followed ++ [path] })
  | some (result, tree) =>
    match faults.fault w.time with
    | some e => (failed e, later)
    | none => (result, { later with tree := tree })

end TreeWorld

/-- The system calls of a directory tree, on top of others: those are asked where the tree
does not answer. Reading the mount table changes nothing. -/
def Os.withTree (os : Os TreeWorld) (faults : TreeFaults) : Os TreeWorld :=
  { os with
    lstat := fun path => TreeWorld.call faults path (os.lstat path) .error
      fun t cs => some (t.lstat cs)
    stat := fun path => TreeWorld.call faults path (os.stat path) .error fun t cs => t.stat cs
    opendir := fun path w => TreeWorld.call faults path (os.opendir path) .error
      (fun t cs => t.opendir cs (faults.listing w.time)) w
    unlink := fun path => TreeWorld.call faults path (os.unlink path) some
      fun t cs => some (t.unlink cs)
    rmdir := fun path => TreeWorld.call faults path (os.rmdir path) some
      fun t cs => some (t.rmdir cs)
    mkdir := fun path mode => TreeWorld.call faults path (os.mkdir path mode) some
      fun t cs => some (t.mkdir cs ⟨{ faults.newStat mode with kind := .directory }, []⟩)
    fopenMountinfo := fun w => ((os.fopenMountinfo w).1, w)
    fgetsMountinfo := fun fp w => ((os.fgetsMountinfo fp w).1, w)
    fcloseMountinfo := fun fp w => ((os.fcloseMountinfo fp w).1, w) }

theorem Os.withTree_mountinfo (os : Os TreeWorld) (faults : TreeFaults) (w : TreeWorld) :
    ((os.withTree faults).mountinfo w).2 = w := by
  simp only [mountinfo, withTree]
  rcases (os.fopenMountinfo w).1 with _ | _
  · rfl
  · rfl

/-! ### What a call does to the tree -/

/-- The outside after a call that the tree has answered. The call is counted with the
others. -/
def TreeWorld.after (w : TreeWorld) (tree : FileTree) : TreeWorld :=
  { w with time := w.time + 1, tree := tree }

section Calls

variable {β : Type} {w : TreeWorld} {cs : List Bytes}

/-- A call that the tree answers: it fails and changes nothing, or does as the tree says.
Nothing is noted in either case. -/
theorem TreeWorld.call_normalPath (faults : TreeFaults) (hdirect : w.tree.DirectAt cs)
    {result : β} {tree : FileTree} (answer : FileTree → List Bytes → Option (β × FileTree))
    (hanswer : answer w.tree cs = some (result, tree)) (elsewhere : TreeWorld → β × TreeWorld)
    (failed : Errno → β) :
    TreeWorld.call faults (normalPath cs) elsewhere failed answer w =
      match faults.fault w.time with
      | some e => (failed e, w.after w.tree)
      | none => (result, w.after tree) := by
  rw [TreeWorld.call, FileTree.direct_normalPath hdirect, Option.bind_some, hanswer]
  rfl

end Calls

end UsbResponder
