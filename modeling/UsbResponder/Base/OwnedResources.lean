import Mathlib.Data.Set.Insert
import Mathlib.Logic.Function.Basic

/-!
# Resources held by slots

Resources that a program makes and later gives back, such as files it creates and removes
again, and a table of slots of which each holds at most one. `Owned held made live` says
that nothing is forgotten: a resource of `made` that is still `live` is held by a slot.

* `Owned.acquire`: making a resource and storing it in a free slot;
* `Owned.release`: giving back what a slot holds and clearing the slot;
* `Owned.mono`: anything else that brings no resource back to life;
* `Owned.releaseAll`: when everything held has been given back, no resource is left.

A resource may be held by two slots, and a slot may hold one that is gone. So the invariant
survives a program that gives a resource back twice or has it taken away from outside; what
it excludes is a resource that is there and that nobody knows of. Resources the program did
not make are not counted.
-/

namespace OwnedResources

variable {ι R : Type*} {held held' : ι → Option R} {made live live' : Set R} {i : ι} {r : R}

/-- Every resource of `made` that is `live` is held by a slot. `made` is what the program
has ever acquired, and `live` what is there now. -/
def Owned (held : ι → Option R) (made live : Set R) : Prop :=
  ∀ r ∈ made, r ∈ live → ∃ i, held i = some r

/-- Nothing is owed for no resources. -/
theorem owned_empty (held : ι → Option R) (live : Set R) : Owned held ∅ live :=
  fun _ hr => absurd hr (Set.notMem_empty _)

/-- Resources may go at any time. That something was made and is gone is no violation; that
it is there and nobody holds it is one. -/
theorem Owned.mono (h : Owned held made live) (hlive : ∀ r ∈ made, r ∈ live' → r ∈ live) :
    Owned held made live' :=
  fun r hr hr' => h r hr (hlive r hr hr')

section Update

variable [DecidableEq ι]

/-- **Acquiring.** A resource is made, again or for the first time, and stored in a free
slot. Nothing else comes to life meanwhile. -/
theorem Owned.acquire (h : Owned held made live) (hfree : held i = none)
    (hlive : ∀ r' ∈ made, r' ∈ live' → r' = r ∨ r' ∈ live) :
    Owned (Function.update held i (some r)) (insert r made) live' := by
  rintro r' hmade hr'
  by_cases heq : r' = r
  · exact ⟨i, by rw [Function.update_self, heq]⟩
  · have hold := hmade.resolve_left heq
    obtain ⟨j, hj⟩ := h r' hold ((hlive r' hold hr').resolve_left heq)
    refine ⟨j, ?_⟩
    rw [Function.update_of_ne (by rintro rfl; simp [hfree] at hj), hj]

/-- **Releasing.** What a slot holds is given back, if it holds anything, and the slot is
cleared. A resource that two slots hold must not be live any more once one of them has
released it. -/
theorem Owned.release (h : Owned held made live)
    (hlive : ∀ r ∈ made, r ∈ live' → r ∈ live ∧ held i ≠ some r) :
    Owned (Function.update held i none) made live' := by
  intro r hmade hr
  obtain ⟨hold, hne⟩ := hlive r hmade hr
  obtain ⟨j, hj⟩ := h r hmade hold
  refine ⟨j, ?_⟩
  rw [Function.update_of_ne (by rintro rfl; exact hne hj), hj]

end Update

/-- **Releasing everything.** When what any slot holds is given back, no resource is left. -/
theorem Owned.releaseAll (h : Owned held made live)
    (hlive : ∀ r ∈ made, r ∈ live' → r ∈ live ∧ ∀ i, held i ≠ some r) : ∀ r ∈ made, r ∉ live' := by
  intro r hmade hr
  obtain ⟨hold, hne⟩ := hlive r hmade hr
  obtain ⟨i, hi⟩ := h r hmade hold
  exact hne i hi

end OwnedResources
