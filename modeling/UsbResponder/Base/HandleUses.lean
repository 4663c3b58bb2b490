import Mathlib.Data.Finset.Basic
import Mathlib.Data.List.Infix

/-!
# Handles in use

A component that works with several handles at a time leaves a trace of what it does with
them. `openAfter` reads such a trace from the front and keeps the handles that are open: a
handle may be opened only while it is not open, and used or closed only while it is. `none`
says that the trace has broken this rule somewhere.

The handles still open at the end of a trace that keeps the rule are those that were opened
once more than they were closed (`count_of_openAfter`).

A trace is extended at its end, as the component goes on, and each kind of use has its rule
(`openAfter_opened`, `openAfter_used`, `openAfter_closed`). The handles are told apart by
their names: where an environment hands out a name again, the component has to be given
fresh ones.
-/

namespace Handles

variable {α : Type*} [DecidableEq α]

/-- What is done with a handle: it is opened, used while it is open, or closed. Anything but
these is not about a handle and leaves no entry in a trace. -/
inductive HandleUse (α : Type*)
  | opened (a : α)
  | used (a : α)
  | closed (a : α)
  deriving DecidableEq, Repr

/-- The handles open after a use, `none` if the use is not allowed. -/
def HandleUse.next (held : Finset α) : HandleUse α → Option (Finset α)
  | .opened a => if a ∈ held then none else some (insert a held)
  | .used a => if a ∈ held then some held else none
  | .closed a => if a ∈ held then some (held.erase a) else none

/-- The handles open after a trace, `none` if one of its uses is not allowed. A use of a
closed handle and a second closing are such uses, so `some` is already a safety property. -/
def openAfter : List (HandleUse α) → Finset α → Option (Finset α)
  | [], held => some held
  | u :: uses, held => (u.next held).bind (openAfter uses)

variable {uses uses' : List (HandleUse α)} {held held' : Finset α} {a : α}

private theorem openAfter_append (uses uses' : List (HandleUse α)) (held : Finset α) :
    openAfter (uses ++ uses') held = (openAfter uses held).bind (openAfter uses') := by
  induction uses generalizing held with
  | nil => rfl
  | cons u uses ih =>
    simp only [List.cons_append, openAfter, Option.bind_assoc]
    exact congrArg _ (funext ih)

private theorem openAfter_concat (h : openAfter uses held = some held') (u : HandleUse α) :
    openAfter (uses ++ [u]) held = u.next held' := by
  rw [openAfter_append, h, Option.bind_some, openAfter]
  exact Option.bind_fun_some _

/-- Opening a handle that is not open. -/
theorem openAfter_opened (h : openAfter uses held = some held') (ha : a ∉ held') :
    openAfter (uses ++ [.opened a]) held = some (insert a held') := by
  rw [openAfter_concat h, HandleUse.next, if_neg ha]

/-- Using a handle that is open. -/
theorem openAfter_used (h : openAfter uses held = some held') (ha : a ∈ held') :
    openAfter (uses ++ [.used a]) held = some held' := by
  rw [openAfter_concat h, HandleUse.next, if_pos ha]

/-- Closing a handle that is open. -/
theorem openAfter_closed (h : openAfter uses held = some held') (ha : a ∈ held') :
    openAfter (uses ++ [.closed a]) held = some (held'.erase a) := by
  rw [openAfter_concat h, HandleUse.next, if_pos ha]

/-- A use that is allowed opens its handle, closes it, or leaves it as it is; so the balance
of closings and openings changes exactly as the set of open handles does. -/
private theorem HandleUse.count_of_next {u : HandleUse α} (h : u.next held = some held') (a : α) :
    (if u = .closed a then 1 else 0) + (if a ∈ held' then 1 else 0) =
      (if u = .opened a then 1 else 0) + if a ∈ held then 1 else 0 := by
  cases u with
  | opened b =>
    by_cases hb : b ∈ held
    · simp [next, hb] at h
    · simp only [next, hb, if_false, Option.some.injEq] at h
      by_cases hab : a = b
      · simp [← h, hab, hb]
      · simp [← h, hab, Ne.symm hab]
  | used b =>
    by_cases hb : b ∈ held
    · simp only [next, hb, if_true, Option.some.injEq] at h
      simp [h]
    · simp [next, hb] at h
  | closed b =>
    by_cases hb : b ∈ held
    · simp only [next, hb, if_true, Option.some.injEq] at h
      by_cases hab : a = b
      · simp [← h, hab, hb]
      · simp [← h, hab, Ne.symm hab]
    · simp [next, hb] at h

/-- **Every handle is accounted for.** It is open at the end exactly if it was opened once
more than it was closed, counted from whether it was open before. The induction is on the
trace, with the handles open at first generalised. -/
theorem count_of_openAfter (h : openAfter uses held = some held') (a : α) :
    uses.count (.closed a) + (if a ∈ held' then 1 else 0) =
      uses.count (.opened a) + if a ∈ held then 1 else 0 := by
  induction uses generalizing held with
  | nil =>
    obtain rfl := Option.some.inj h
    simp
  | cons u uses ih =>
    obtain ⟨mid, hmid, hrest⟩ := Option.bind_eq_some_iff.mp h
    have hstep := HandleUse.count_of_next hmid a
    have hcount := ih hrest
    simp only [List.count_cons, beq_iff_eq]
    omega

/-- Where all handles are closed in the end, each was closed as often as it was opened. -/
theorem count_closed_eq (h : openAfter uses ∅ = some ∅) (a : α) :
    uses.count (.closed a) = uses.count (.opened a) := by
  simpa using count_of_openAfter h a

end Handles
