import Mathlib.Data.List.TakeWhile
import Mathlib.Tactic

/-!
# Lists cut at a separator

The components of a list are the parts between its separators that are not empty: for a path
these are the names it is made of. A scanner finds them one by one, skipping separators and
then taking everything up to the next one (`components_scan`). `join` puts a separator in
front of each component, and cutting the result gives the components back
(`components_join`).

`components` is defined by `List.splitOn`, so that it can be evaluated and Mathlib's lemmas
apply; a loop over the list is related to it by `components_scan` alone, which takes one
component off the front. Nothing is said about lists with empty components: they cannot be
told from doubled separators.
-/

namespace Components

variable {α : Type*} {sep : α}

/-- A part without a separator that is not empty. -/
def IsComponent (sep : α) (c : List α) : Prop := c ≠ [] ∧ sep ∉ c

/-- Every component behind a separator. -/
def join (sep : α) (cs : List (List α)) : List α := cs.flatMap fun c => sep :: c

@[simp]
theorem join_nil : join sep [] = [] := rfl

theorem join_cons (c : List α) (cs : List (List α)) :
    join sep (c :: cs) = sep :: c ++ join sep cs := rfl

theorem join_append (cs ds : List (List α)) : join sep (cs ++ ds) = join sep cs ++ join sep ds :=
  List.flatMap_append

variable [BEq α]

/-- The parts between the separators of a list, without the empty ones. Separators at the
ends and doubled ones therefore leave no trace. -/
def components (sep : α) (l : List α) : List (List α) :=
  (l.splitOn sep).filter fun c => !c.isEmpty

/-! ### Cutting -/

@[simp]
theorem components_nil : components sep [] = [] := by
  simp [components]

variable [LawfulBEq α]

/-- A separator in front is skipped. So a path means the same with one slash in front of it
as with many. -/
@[simp]
theorem components_cons_sep (l : List α) : components sep (sep :: l) = components sep l := by
  simp [components, List.splitOn_cons_eq_if_modifyHead]

/-- A part up to a separator is a component. -/
private theorem components_append_sep {c : List α} (hc : IsComponent sep c) (l : List α) :
    components sep (c ++ sep :: l) = c :: components sep l := by
  rw [components, List.splitOn_append_cons_self_of_not_mem hc.2]
  exact List.filter_cons_of_pos (by simpa using hc.1)

/-- A list without separators is its only component. -/
private theorem components_of_isComponent {c : List α} (hc : IsComponent sep c) :
    components sep c = [c] := by
  rw [components, List.splitOn_eq_singleton hc.2]
  exact List.filter_cons_of_pos (by simpa using hc.1)

private theorem components_dropWhile (l : List α) :
    components sep (l.dropWhile (· == sep)) = components sep l := by
  induction l with
  | nil => rfl
  | cons a l ih =>
    by_cases ha : a = sep
    · subst ha
      rw [List.dropWhile_cons_of_pos (by simp), ih, components_cons_sep]
    · rw [List.dropWhile_cons_of_neg (by simpa using ha)]

/-- What is scanned after the separators is a component: it is not empty, and it ends where
the next separator is. -/
theorem isComponent_takeWhile {l : List α} (h : l.dropWhile (· == sep) ≠ []) :
    IsComponent sep ((l.dropWhile (· == sep)).takeWhile (· != sep)) := by
  refine ⟨?_, fun hmem => by simpa using List.mem_takeWhile_imp hmem⟩
  have hhead := List.head_dropWhile_not (p := (· == sep)) (l := l) h
  rw [← List.cons_head_tail h, List.takeWhile_cons_of_pos (by simpa using hhead)]
  exact List.cons_ne_nil _ _

/-- **The scanner.** When something is left after the separators, the next component reaches
up to the following separator, and the other components are behind that. A loop that scans
in this way needs no other fact about `components`. -/
theorem components_scan {l : List α} (h : l.dropWhile (· == sep) ≠ []) :
    components sep l =
      (l.dropWhile (· == sep)).takeWhile (· != sep) :: components sep
        (((l.dropWhile (· == sep)).drop
          ((l.dropWhile (· == sep)).takeWhile (· != sep)).length).drop 1) := by
  rw [← components_dropWhile l]
  have hc := isComponent_takeWhile h
  generalize l.dropWhile (· == sep) = r at hc
  have hsplit := List.takeWhile_append_dropWhile (p := (· != sep)) (l := r)
  have hrest : r.drop (r.takeWhile (· != sep)).length = r.dropWhile (· != sep) := by
    nth_rewrite 2 [← hsplit]
    exact List.drop_left
  rw [hrest]
  rcases hstop : r.dropWhile (· != sep) with _ | ⟨a, rest⟩
  · -- the scan reached the end
    rw [hstop, List.append_nil] at hsplit
    rw [hsplit] at hc ⊢
    rw [components_of_isComponent hc, List.drop_nil, components_nil]
  · have ha := List.head_dropWhile_not (p := (· != sep)) (l := r) (by simp [hstop])
    simp only [hstop, List.head_cons, bne_eq_false_iff_eq] at ha
    subst ha
    rw [hstop] at hsplit
    conv_lhs => rw [← hsplit]
    rw [components_append_sep hc, List.drop_succ_cons, List.drop_zero]

/-- When nothing is left after the separators, there is no component. -/
theorem components_eq_nil {l : List α} (h : l.dropWhile (· == sep) = []) :
    components sep l = [] := by
  rw [← components_dropWhile, h, components_nil]

/-- A component has no separator, is not empty, and is a part of the list. So what holds of
all elements of the list holds of those of its components. -/
theorem of_mem_components {l c : List α} (hc : c ∈ components sep l) :
    IsComponent sep c ∧ c.Sublist l := by
  induction hn : l.length using Nat.strong_induction_on generalizing l with
  | _ n ih =>
    by_cases h : l.dropWhile (· == sep) = []
    · simp [components_eq_nil h] at hc
    · have hskip := List.dropWhile_sublist (l := l) (· == sep)
      rw [components_scan h] at hc
      rcases List.mem_cons.mp hc with rfl | hrest
      · exact ⟨isComponent_takeWhile h, (List.takeWhile_sublist _).trans hskip⟩
      · have hpos := List.length_pos_iff.mpr (isComponent_takeWhile h).1
        have hlen := List.length_pos_iff.mpr h
        have hle := hskip.length_le
        obtain ⟨hcomp, hsub⟩ := ih _ (by
          rw [← hn, List.length_drop, List.length_drop]
          omega) hrest rfl
        refine ⟨hcomp, hsub.trans ?_⟩
        exact (List.drop_sublist _ _).trans ((List.drop_sublist _ _).trans hskip)

/-! ### Joining -/

/-- **Cutting what was joined** gives the components back, since none of them is empty or
contains the separator. -/
theorem components_join {cs : List (List α)} (h : ∀ c ∈ cs, IsComponent sep c) :
    components sep (join sep cs) = cs := by
  induction cs with
  | nil => exact components_nil
  | cons c cs ih =>
    have hc := h c List.mem_cons_self
    have hcs : ∀ d ∈ cs, IsComponent sep d := fun d hd => h d (List.mem_cons_of_mem _ hd)
    rw [join_cons, List.cons_append, components_cons_sep]
    rcases cs with _ | ⟨d, ds⟩
    · rw [join_nil, List.append_nil, components_of_isComponent hc]
    · rw [join_cons, List.cons_append, components_append_sep hc, ← components_cons_sep,
        ← List.cons_append, ← join_cons, ih hcs]

/-- What is joined behind a list comes after its components. -/
theorem components_append_join {cs : List (List α)} (h : ∀ c ∈ cs, IsComponent sep c)
    (l : List α) : components sep (l ++ join sep cs) = components sep l ++ cs := by
  have hjoin := components_join h
  cases cs with
  | nil => rw [join_nil, List.append_nil, List.append_nil]
  | cons c cs =>
    rw [join_cons, List.cons_append, components_cons_sep] at hjoin
    rw [join_cons, List.cons_append, components, List.splitOn_append_cons_self,
      List.filter_append, ← components, ← components, hjoin]

end Components
