import Mathlib.Data.List.Infix
import Mathlib.Logic.Function.Basic
import Mathlib.Tactic

/-!
# Trees of named nodes

A tree of nodes, each found by the names on the way to it from the root. Only inner nodes
have others below them, and each lists the names of those directly below; this is part of
the type, so taking away a node that has none below it and putting one below an inner node
are the two ways to change a tree. A node that is not there has nothing below it
(`NodeTree.node_eq_none_of_prefix`).

The nodes and the names are two functions that determine each other, and the fields of the
structure say how. Both are kept so that the listing of a node can be computed. `removeAt`
and `addAt` take the path of the node itself; they are what a file system needs for
`unlink`, `rmdir` and `mkdir`. Moving a subtree is not provided.
-/

/-- A tree of nodes `β` by the names on the way to them; `ok` says which names there can be,
and `inner` which nodes can have others below them. A value of this type is well formed by
its fields, so an operation that returns one keeps all of them. -/
structure NodeTree {ν β : Type*} (ok : ν → Prop) (inner : β → Prop) where
  /-- The node at a path. -/
  node : List ν → Option β
  /-- The names of the nodes directly below a path. -/
  names : List ν → List ν
  mem_names : ∀ p x, x ∈ names p ↔ node (p ++ [x]) ≠ none
  nodup_names : ∀ p, (names p).Nodup
  ok_of_mem : ∀ p x, x ∈ names p → ok x
  inner_of_mem : ∀ p x, x ∈ names p → ∃ b, node p = some b ∧ inner b
  root : ∃ b, node [] = some b ∧ inner b

namespace NodeTree

variable {ν β : Type*} {ok : ν → Prop} {inner : β → Prop} (t : NodeTree ok inner)

/-- The nodes above a node are inner ones. -/
private theorem inner_of_node_ne_none {p q : List ν} (hpq : p <+: q) (hne : p ≠ q)
    (hq : t.node q ≠ none) : ∃ b, t.node p = some b ∧ inner b := by
  induction q using List.reverseRecOn with
  | nil => exact absurd (List.prefix_nil.mp hpq) hne
  | append_singleton q x ih =>
    obtain ⟨b, hb, hinner⟩ := t.inner_of_mem q x ((t.mem_names q x).mpr hq)
    rcases List.prefix_concat_iff.mp hpq with heq | hpq
    · exact absurd heq hne
    · by_cases hp : p = q
      · exact ⟨b, hp ▸ hb, hinner⟩
      · exact ih hpq hp (by simp [hb])

/-- Below a node that is not there is nothing: each name on the way is listed by the node
above, which is there. -/
theorem node_eq_none_of_prefix {p q : List ν} (hpq : p <+: q) (hp : t.node p = none) :
    t.node q = none := by
  by_contra hq
  by_cases hne : p = q
  · exact hq (hne ▸ hp)
  · obtain ⟨b, hb, -⟩ := t.inner_of_node_ne_none hpq hne hq
    rw [hp] at hb
    exact nomatch hb

/-- A path to a node has names that are allowed. -/
theorem ok_of_node_ne_none {p : List ν} (hp : t.node p ≠ none) : ∀ x ∈ p, ok x := by
  induction p using List.reverseRecOn with
  | nil => exact fun x hx => nomatch hx
  | append_singleton p y ih =>
    intro x hx
    rcases List.mem_append.mp hx with hx | hx
    · obtain ⟨b, hb, -⟩ := t.inner_of_mem p y ((t.mem_names p y).mpr hp)
      exact ih (by simp [hb]) x hx
    · rw [List.mem_singleton.mp hx]
      exact t.ok_of_mem p y ((t.mem_names p y).mpr hp)

/-- Below a node that is not an inner one is nothing. So removing such a node leaves nothing
behind without a parent. -/
theorem names_eq_nil_of_not_inner {p : List ν} (h : ∀ b, t.node p = some b → ¬inner b) :
    t.names p = [] := by
  refine List.eq_nil_iff_forall_not_mem.mpr fun x hx => ?_
  obtain ⟨b, hb, hinner⟩ := t.inner_of_mem p x hx
  exact h b hb hinner

variable [DecidableEq ν]

/-- The tree without a node that has none below it. The root has no name above it and cannot
be removed in this way. -/
def remove (p : List ν) (x : ν) (hleaf : t.names (p ++ [x]) = []) : NodeTree ok inner where
  node := Function.update t.node (p ++ [x]) none
  names := Function.update t.names p ((t.names p).filter fun y => y ≠ x)
  mem_names q y := by
    by_cases hq : q = p
    · subst hq
      rw [Function.update_self, List.mem_filter, t.mem_names]
      by_cases hy : y = x
      · subst hy
        simp
      · rw [Function.update_of_ne (by simp [hy])]
        simp [hy]
    · rw [Function.update_of_ne hq, Function.update_of_ne (by simp [hq]), t.mem_names]
  nodup_names q := by
    by_cases hq : q = p
    · subst hq
      rw [Function.update_self]
      exact (t.nodup_names q).filter _
    · rw [Function.update_of_ne hq]
      exact t.nodup_names q
  ok_of_mem q y hy := by
    by_cases hq : q = p
    · subst hq
      rw [Function.update_self] at hy
      exact t.ok_of_mem q y (List.mem_of_mem_filter hy)
    · rw [Function.update_of_ne hq] at hy
      exact t.ok_of_mem q y hy
  inner_of_mem q y hy := by
    have hmem : y ∈ t.names q := by
      by_cases hq : q = p
      · subst hq
        rw [Function.update_self] at hy
        exact List.mem_of_mem_filter hy
      · rwa [Function.update_of_ne hq] at hy
    -- the node that goes has no names, so it is inner for none
    have hq : q ≠ p ++ [x] := by
      rintro rfl
      simp [hleaf] at hmem
    rw [Function.update_of_ne hq]
    exact t.inner_of_mem q y hmem
  root := by
    rw [Function.update_of_ne (by simp)]
    exact t.root

/-- The tree with a node where there was none, below an inner one. Its name has to be
allowed, and no node can already be at its path. -/
def add (p : List ν) (x : ν) (b : β) (hx : ok x) (hp : ∃ d, t.node p = some d ∧ inner d)
    (hnew : t.node (p ++ [x]) = none) : NodeTree ok inner where
  node := Function.update t.node (p ++ [x]) (some b)
  names := Function.update t.names p (x :: t.names p)
  mem_names q y := by
    by_cases hq : q = p
    · subst hq
      rw [Function.update_self, List.mem_cons, t.mem_names]
      by_cases hy : y = x
      · subst hy
        simp
      · rw [Function.update_of_ne (by simp [hy])]
        simp [hy]
    · rw [Function.update_of_ne hq, Function.update_of_ne (by simp [hq]), t.mem_names]
  nodup_names q := by
    by_cases hq : q = p
    · subst hq
      rw [Function.update_self, List.nodup_cons, t.mem_names]
      exact ⟨fun hmem => hmem hnew, t.nodup_names q⟩
    · rw [Function.update_of_ne hq]
      exact t.nodup_names q
  ok_of_mem q y hy := by
    by_cases hq : q = p
    · subst hq
      rw [Function.update_self, List.mem_cons] at hy
      rcases hy with rfl | hy
      · exact hx
      · exact t.ok_of_mem q y hy
    · rw [Function.update_of_ne hq] at hy
      exact t.ok_of_mem q y hy
  inner_of_mem q y hy := by
    obtain ⟨d, hd, hinner⟩ : ∃ d, t.node q = some d ∧ inner d := by
      by_cases hq : q = p
      · exact hq ▸ hp
      · rw [Function.update_of_ne hq] at hy
        exact t.inner_of_mem q y hy
    -- the node that comes was not there, so the inner nodes stay as they are
    have hq : q ≠ p ++ [x] := by
      rintro rfl
      rw [hnew] at hd
      exact nomatch hd
    rw [Function.update_of_ne hq]
    exact ⟨d, hd, hinner⟩
  root := by
    rw [Function.update_of_ne (by simp)]
    exact t.root

/-- The tree without the node at a path, if that is not the root and has no node below it. -/
def removeAt (t : NodeTree ok inner) (p : List ν) (hne : p ≠ []) (hleaf : t.names p = []) :
    NodeTree ok inner :=
  t.remove p.dropLast (p.getLast hne) (by rwa [List.dropLast_append_getLast hne])

@[simp]
theorem node_removeAt {p : List ν} (hne : p ≠ []) (hleaf : t.names p = []) :
    (t.removeAt p hne hleaf).node = Function.update t.node p none := by
  show Function.update t.node (p.dropLast ++ [p.getLast hne]) none = _
  rw [List.dropLast_append_getLast hne]

/-- The tree with a node at a path where there was none, if the node above is an inner one. -/
def addAt (t : NodeTree ok inner) (p : List ν) (b : β) (hne : p ≠ []) (hok : ok (p.getLast hne))
    (habove : ∃ d, t.node p.dropLast = some d ∧ inner d) (hnew : t.node p = none) :
    NodeTree ok inner :=
  t.add p.dropLast (p.getLast hne) b hok habove (by rwa [List.dropLast_append_getLast hne])

@[simp]
theorem node_addAt {p : List ν} {b : β} (hne : p ≠ []) (hok : ok (p.getLast hne))
    (habove : ∃ d, t.node p.dropLast = some d ∧ inner d) (hnew : t.node p = none) :
    (t.addAt p b hne hok habove hnew).node = Function.update t.node p (some b) := by
  show Function.update t.node (p.dropLast ++ [p.getLast hne]) (some b) = _
  rw [List.dropLast_append_getLast hne]

end NodeTree
