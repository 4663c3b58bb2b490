import Mathlib.Data.List.Basic
import Mathlib.Tactic

/-!
# Pacing

Amounts come in one after another, and behind an amount something is done about all that has
come in since it was done last. `pending` is what nothing has been done about. The amounts
are paced with a bound if something is done as soon as the pending amount reaches it, so
less than the bound is pending at any time (`Paced.pending_lt`), and from one action to the
next one less than the bound comes in besides the last amount (`Paced.between`).

A history is a list of amounts, each with a mark that says whether something was done behind
it. The counter of an implementation is `pending` of its history, which turns a statement
about a variable into one about everything that has happened. Amounts have no upper limit,
so what comes in with the last amount is not bounded here.
-/

namespace Pacing

/-- An amount, and whether something is done behind it. -/
structure Portion where
  amount : ℕ
  acted : Bool
  deriving DecidableEq, Repr

/-- The sum of the amounts. -/
def total (portions : List Portion) : ℕ := (portions.map Portion.amount).sum

/-- The amounts behind the last action. This is what a counter holds that is set to zero by
the action. -/
def pending (portions : List Portion) : ℕ :=
  portions.foldl (fun n portion => if portion.acted then 0 else n + portion.amount) 0

theorem total_append (portions portions' : List Portion) :
    total (portions ++ portions') = total portions + total portions' := by
  rw [total, total, total, List.map_append, List.sum_append]

theorem total_singleton (portion : Portion) : total [portion] = portion.amount := by
  rw [total, List.map_singleton, List.sum_singleton]

theorem pending_append_singleton (portions : List Portion) (portion : Portion) :
    pending (portions ++ [portion]) =
      if portion.acted then 0 else pending portions + portion.amount := by
  rw [pending, List.foldl_append]
  rfl

/-- Nothing is pending directly behind an action. -/
private theorem pending_eq_zero {portions : List Portion}
    (h : ∀ portion ∈ portions.getLast?, portion.acted = true) : pending portions = 0 := by
  cases portions using List.reverseRecOn with
  | nil => rfl
  | append_singleton portions portion =>
    rw [pending_append_singleton, if_pos (h portion List.getLast?_concat)]

/-- Without an action everything stays pending. -/
private theorem pending_append {portions portions' : List Portion}
    (h : ∀ portion ∈ portions', portion.acted = false) :
    pending (portions ++ portions') = pending portions + total portions' := by
  induction portions' using List.reverseRecOn with
  | nil => rw [List.append_nil, total, List.map_nil, List.sum_nil, Nat.add_zero]
  | append_singleton portions' portion ih =>
    have hlast : portion.acted = false := h portion (by simp)
    have hinit : ∀ p ∈ portions', p.acted = false := fun p hp => h p (List.mem_append_left _ hp)
    rw [← List.append_assoc, pending_append_singleton, hlast, if_neg Bool.false_ne_true, ih hinit,
      total_append, total_singleton, Nat.add_assoc]

/-- Something is done behind an amount exactly if the pending amount has then reached the
bound. Both directions count: nothing is done too late, and nothing too early. -/
def Paced (bound : ℕ) (portions : List Portion) : Prop :=
  ∀ before portion after, portions = before ++ portion :: after →
    (portion.acted = true ↔ bound ≤ pending before + portion.amount)

variable {bound : ℕ} {portions : List Portion}

theorem paced_nil : Paced bound [] := fun before portion after h =>
  absurd h.symm (List.append_ne_nil_of_right_ne_nil before (List.cons_ne_nil portion after))

/-- **One more amount** keeps the pace if something is done about it in time. This is the
step lemma; a run is paced by induction on its history. -/
theorem Paced.append (h : Paced bound portions) {portion : Portion}
    (hacted : portion.acted = true ↔ bound ≤ pending portions + portion.amount) :
    Paced bound (portions ++ [portion]) := by
  intro before portion' after heq
  cases after using List.reverseRecOn with
  | nil =>
    obtain ⟨rfl, hlast⟩ := List.append_inj' heq rfl
    obtain rfl := List.singleton_inj.mp hlast
    exact hacted
  | append_singleton after last =>
    have hinit : portions ++ [portion] = (before ++ portion' :: after) ++ [last] := by
      rw [heq, List.append_assoc, List.cons_append]
    exact h before portion' after (List.append_inj' hinit rfl).1

/-- Less than the bound is pending. -/
theorem Paced.pending_lt (h : Paced bound portions) (hbound : 0 < bound) :
    pending portions < bound := by
  cases portions using List.reverseRecOn with
  | nil => exact hbound
  | append_singleton portions portion =>
    rw [pending_append_singleton]
    split_ifs with hacted
    · exact hbound
    · exact not_le.mp fun hle => hacted ((h portions portion [] rfl).mpr hle)

/-- **From one action to the next.** Less than the bound comes in between, and the next
action is at the first amount with which the bound is reached. -/
theorem Paced.between (h : Paced bound portions) {before between after : List Portion}
    {portion : Portion} (hbound : 0 < bound)
    (hsplit : portions = before ++ between ++ portion :: after)
    (hlast : ∀ p ∈ before.getLast?, p.acted = true) (hbetween : ∀ p ∈ between, p.acted = false) :
    total between < bound ∧ (portion.acted = true ↔ bound ≤ total between + portion.amount) := by
  have hpending : pending (before ++ between) = total between := by
    rw [pending_append hbetween, pending_eq_zero hlast, Nat.zero_add]
  have hinit : Paced bound (before ++ between) := fun front p rest heq =>
    h front p (rest ++ portion :: after) (by
      rw [hsplit, heq, List.append_assoc, List.cons_append])
  constructor
  · rw [← hpending]
    exact hinit.pending_lt hbound
  · rw [← hpending]
    exact h (before ++ between) portion after hsplit

end Pacing
