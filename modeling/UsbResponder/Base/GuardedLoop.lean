import Mathlib.Data.Nat.Notation
import Mathlib.Logic.Basic

/-!
# Loops with an error exit

A loop of the form `while (guard) { round }` whose rounds may leave it for the error exit of
the function around it. It need not end, so a run has fuel, and the states at the head of
the loop are given by a relation.

What holds at the head of the first round and is kept by every round that does not leave the
loop holds at every head (`GuardedLoop.Heads.invariant`). A run that ends does so at a head
where the guard is false, or in a round that leaves the loop (`GuardedLoop.run_eq_some`). An
invariant for whole runs says for both cases what holds, and every round has to establish
the case it ends in (`GuardedLoop.run_invariant`).

The rules are for partial correctness: fuel that is used up says nothing. A loop that waits
for its environment has no bound on its rounds, so a result about it is stated for the runs
that end.
-/

/-- A loop on states `S`; a round returns `false` when it leaves the loop for the error
exit. The state is everything the function works with, its environment included. -/
structure GuardedLoop (S : Type*) where
  guard : S → Bool
  round : S → Bool × S

namespace GuardedLoop

variable {S : Type*} (l : GuardedLoop S)

/-- Run the loop for at most `fuel` rounds: whether it has ended in the regular way, and the
state; `none` when the fuel is used up. -/
def run : ℕ → S → Option (Bool × S)
  | 0, _ => none
  | fuel + 1, s =>
    if l.guard s then
      match l.round s with
      | (true, s') => run fuel s'
      | (false, s') => some (false, s')
    else some (true, s)

/-- The states at the head of the loop, from the start on. The state in which a round has
left the loop is not one of them. -/
inductive Heads (s : S) : S → Prop
  | start : Heads s s
  | next {t t' : S} (h : Heads s t) (hguard : l.guard t = true) (hround : l.round t = (true, t')) :
    Heads s t'

variable {l} {s t t' : S}

theorem Heads.trans (h : l.Heads s t) (h' : l.Heads t t') : l.Heads s t' := by
  induction h' with
  | start => exact h
  | next _ hguard hround ih => exact ih.next hguard hround

/-- **Invariants.** What every round keeps that does not leave the loop holds at every head.
The rounds may use that the guard was true. -/
theorem Heads.invariant {Inv : S → Prop} (h : l.Heads s t) (hstart : Inv s)
    (hkeep : ∀ t t', Inv t → l.guard t = true → l.round t = (true, t') → Inv t') : Inv t := by
  induction h with
  | start => exact hstart
  | next _ hguard hround ih => exact hkeep _ _ ih hguard hround

/-- How a run ends: at a head whose guard is false, or in a round from a head whose guard is
true. In both cases the head has every invariant of the loop. -/
theorem run_eq_some {fuel : ℕ} {ended : Bool} (h : l.run fuel s = some (ended, t)) :
    (ended = true ∧ l.Heads s t ∧ l.guard t = false) ∨
      (ended = false ∧ ∃ head, l.Heads s head ∧ l.guard head = true ∧
        l.round head = (false, t)) := by
  induction fuel generalizing s with
  | zero => exact nomatch h
  | succ fuel ih =>
    rw [run] at h
    rcases hguard : l.guard s with _ | _
    · rw [hguard] at h
      obtain ⟨rfl, rfl⟩ : true = ended ∧ s = t := by simpa using h
      exact .inl ⟨rfl, .start, hguard⟩
    · rw [hguard, if_pos rfl] at h
      rcases hround : l.round s with ⟨_ | _, s'⟩
      · rw [hround] at h
        obtain ⟨rfl, rfl⟩ : false = ended ∧ s' = t := by simpa using h
        exact .inr ⟨rfl, s, .start, hguard, hround⟩
      · rw [hround] at h
        have hfirst : l.Heads s s' := .next .start hguard hround
        rcases ih h with ⟨hended, hheads, hstop⟩ | ⟨hended, head, hheads, hhead, hleave⟩
        · exact .inl ⟨hended, hfirst.trans hheads, hstop⟩
        · exact .inr ⟨hended, head, hfirst.trans hheads, hhead, hleave⟩

/-- What holds at the head of the first round, and after every round for the way in which it
ends, holds when a run ends. -/
theorem run_invariant {P : Bool → S → Prop} {fuel : ℕ} {ended : Bool}
    (h : l.run fuel s = some (ended, t)) (hstart : P true s)
    (hkeep : ∀ t, P true t → l.guard t = true → P (l.round t).1 (l.round t).2) :
    P ended t := by
  have hheads : ∀ head, l.Heads s head → P true head := fun head hhead =>
    hhead.invariant hstart fun t t' ht hguard hround => by
      have hkept := hkeep t ht hguard
      rwa [hround] at hkept
  rcases run_eq_some h with ⟨rfl, hhead, -⟩ | ⟨rfl, head, hhead, hguard, hround⟩
  · exact hheads t hhead
  · have hkept := hkeep head (hheads head hhead) hguard
    rwa [hround] at hkept

end GuardedLoop
