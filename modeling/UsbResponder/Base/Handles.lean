import Mathlib.Data.List.Induction

/-!
# Handles that are taken and given back

A component that works with one handle at a time (a descriptor, a lock, a connection) leaves
a trace of the handles it takes and gives back. `Holds trace held` says that the trace keeps
to the discipline, a handle is taken only when none is held and only the handle that is held
is given back, and that `held` is what it holds at the end. A trace that ends with nothing
held is a sequence of pairs: every handle taken is given back exactly once
(`holds_none_iff`). The discipline is inherited by every prefix, so it can be read at any
time (`Holds.of_take`).

With several handles at a time the order does not matter: `Balanced taken given held` says
that each handle was taken as often as it was given back and is held. Different handles of
which none is held at the end were each given back exactly once (`Balanced.count_eq`).

`Holds` is inductive with the last event in front, since a component adds to the end of its
trace; `Balanced` is a permutation, so its rules are those of lists up to order. Uses of a
handle between the two events are the subject of `HandleUses`.
-/

namespace Handles

variable {α : Type*}

/-- A handle is taken or given back. -/
inductive HandleEvent (α : Type*)
  | opened (a : α)
  | closed (a : α)
  deriving DecidableEq, Repr

/-- The trace takes a handle only when none is held, gives back only the one that is held,
and holds `held` at its end. The same name may be taken again once it has been given back. -/
inductive Holds : List (HandleEvent α) → Option α → Prop
  | nil : Holds [] none
  | opened {trace : List (HandleEvent α)} (h : Holds trace none) (a : α) :
    Holds (trace ++ [.opened a]) (some a)
  | closed {trace : List (HandleEvent α)} {a : α} (h : Holds trace (some a)) :
    Holds (trace ++ [.closed a]) none

variable {trace pre : List (HandleEvent α)} {held : Option α}

/-- Giving back whatever is held leaves nothing held. It is the way out of a program that
keeps at most one handle. -/
theorem Holds.release (h : Holds trace held) :
    Holds (trace ++ held.toList.map HandleEvent.closed) none := by
  rcases held with _ | a
  · rwa [Option.toList_none, List.map_nil, List.append_nil]
  · exact h.closed

/-- The shape of a disciplined trace: pairs, and the handle that is still held. The
induction is on the derivation, whose last rule tells what the last event was. -/
private theorem Holds.exists_pairs (h : Holds trace held) :
    ∃ as : List α, trace = as.flatMap (fun a => [.opened a, .closed a]) ++
      held.toList.map HandleEvent.opened := by
  induction h with
  | nil => exact ⟨[], rfl⟩
  | opened _ a ih =>
    obtain ⟨as, rfl⟩ := ih
    exact ⟨as, by simp⟩
  | @closed _ a _ ih =>
    obtain ⟨as, rfl⟩ := ih
    exact ⟨as ++ [a], by simp⟩

/-- Nothing is held at the end exactly when every handle taken is given back once, before
the next one is taken. -/
theorem holds_none_iff :
    Holds trace none ↔ ∃ as : List α, trace = as.flatMap fun a => [.opened a, .closed a] := by
  constructor
  · intro h
    obtain ⟨as, rfl⟩ := h.exists_pairs
    exact ⟨as, by simp⟩
  · rintro ⟨as, rfl⟩
    induction as using List.reverseRecOn with
    | nil => exact .nil
    | append_singleton as a ih =>
      have hpair := (ih.opened a).closed
      rw [List.append_assoc] at hpair
      rwa [List.flatMap_append, List.flatMap_singleton]

/-- A disciplined trace has been disciplined at any time. -/
theorem Holds.of_take (h : Holds trace held) (hpre : pre <+: trace) :
    ∃ held, Holds pre held := by
  induction h with
  | nil =>
    obtain rfl := List.prefix_nil.mp hpre
    exact ⟨none, .nil⟩
  | opened h a ih =>
    obtain rfl | hpre' := List.prefix_concat_iff.mp hpre
    · exact ⟨some a, h.opened a⟩
    · exact ih hpre'
  | closed h ih =>
    obtain rfl | hpre' := List.prefix_concat_iff.mp hpre
    · exact ⟨none, h.closed⟩
    · exact ih hpre'

/-! ### Several handles -/

section Balance

/-- Each handle was taken as often as it was given back and is held. The order of the events
is forgotten, so the rules below compose by rearranging lists. -/
def Balanced (taken given held : List α) : Prop := taken.Perm (given ++ held)

variable {taken given held held' as : List α}

theorem balanced_nil : Balanced ([] : List α) [] [] := List.Perm.refl _

theorem Balanced.perm (h : Balanced taken given held) (hheld : held.Perm held') :
    Balanced taken given held' :=
  h.trans (hheld.append_left given)

/-- Handles that are taken are held. -/
theorem Balanced.take (h : Balanced taken given held) (as : List α) :
    Balanced (taken ++ as) given (held ++ as) := by
  rw [Balanced, ← List.append_assoc]
  exact h.append_right as

/-- Handles that are given back are held no more. -/
theorem Balanced.give (h : Balanced taken given (as ++ held)) :
    Balanced taken (given ++ as) held := by
  rw [Balanced, List.append_assoc]
  exact h

/-- Different handles, none of them held: each was given back once, and nothing else was. -/
theorem Balanced.count_eq [DecidableEq α] (h : Balanced taken given []) (hnodup : taken.Nodup)
    (a : α) : given.count a = if a ∈ taken then 1 else 0 := by
  rw [Balanced, List.append_nil] at h
  rw [← h.count_eq, List.Nodup.count hnodup]

end Balance

end Handles
