import Mathlib.Tactic
import Mathlib.Logic.Function.Basic

/-!
# Interleavings of independent agents

Several agents each perform a fixed sequence of actions on a shared system, in any order
that respects every agent's own order. A schedule is a list of actions tagged with their
agent, and `proj i` is what agent `i` does in it.

An invariant of such a system relates its state to what every agent has still to do. The
proof rule `IsInterleaving.run` asks that one action of one agent keeps this relation while
it takes the action off that agent's list only; then the relation holds at every point of
every schedule, and no schedule is ever enumerated.

The agents decide nothing: their sequences are fixed in advance, and so is the set of
agents, which may be infinite. An agent that reacts to what the system answers needs a
relation of its own.
-/

namespace Interleaving

variable {ι α S : Type*} [DecidableEq ι]

/-- The actions of one agent in a schedule, in order. -/
def proj (i : ι) (w : List (ι × α)) : List α := (w.filter fun e => e.1 = i).map Prod.snd

/-- The schedule is an interleaving of the agents' sequences: each agent performs all of its
actions, in its own order, and nobody else performs any. -/
def IsInterleaving (seqs : ι → List α) (w : List (ι × α)) : Prop := ∀ i, proj i w = seqs i

theorem proj_cons_self (i : ι) (a : α) (w : List (ι × α)) :
    proj i ((i, a) :: w) = a :: proj i w := by
  simp [proj]

private theorem proj_cons_of_ne {i j : ι} (h : j ≠ i) (a : α) (w : List (ι × α)) :
    proj i ((j, a) :: w) = proj i w := by
  simp [proj, h]

/-- After its first action a schedule is an interleaving of what is left to do. -/
theorem IsInterleaving.tail {seqs : ι → List α} {i : ι} {a : α} {w : List (ι × α)}
    (h : IsInterleaving seqs ((i, a) :: w)) :
    seqs i = a :: proj i w ∧ IsInterleaving (Function.update seqs i (proj i w)) w := by
  refine ⟨by rw [← h i, proj_cons_self], fun j => ?_⟩
  by_cases hj : j = i
  · rw [hj, Function.update_self]
  · rw [Function.update_of_ne hj, ← h j, proj_cons_of_ne (Ne.symm hj)]

/-- **Interleaving rule.** `R s rest` relates a state of the system to what every agent has
still to do. If performing the next action of an agent keeps `R`, then `R` holds at every
point of a schedule: after the part `u`, of what the agents do in the part `v` still to
come. The induction is on `u`, each step of which takes an action off the list of one agent. -/
theorem IsInterleaving.run {step : S → ι × α → S} {R : S → (ι → List α) → Prop}
    (hstep : ∀ {s rest i a as}, R s rest → rest i = a :: as →
      R (step s (i, a)) (Function.update rest i as))
    {seqs : ι → List α} {s : S} (h : R s seqs) {u v : List (ι × α)}
    (hw : IsInterleaving seqs (u ++ v)) : R (u.foldl step s) fun i => proj i v := by
  induction u generalizing s seqs with
  | nil =>
    have hseqs : seqs = fun i => proj i v := funext fun i => (hw i).symm
    rwa [hseqs] at h
  | cons e u ih =>
    obtain ⟨i, a⟩ := e
    obtain ⟨hi, hw'⟩ := hw.tail
    exact ih (hstep h hi) hw'

end Interleaving
