import Mathlib.Data.List.Basic
import Mathlib.Tactic

/-!
# A buffer that grows

A buffer of cells of which the first `used` hold the contents. Appending copies behind them,
after the buffer has been enlarged if that is necessary, by doubling its size, which is 64
cells at first. What the new cells hold is not known, and no copy goes beyond the cells
there are.

`GrowBuffer.contents_append` says that the contents are what has been appended.

That `used` stays within the cells is a field of the structure, so a buffer that has been
written beyond its end cannot be built, and every caller has the bound at hand. An allocator
that fails, and capacities that do not fit into a machine word, are not part of this
library: a program with a bounded buffer restricts `grownCap` itself.
-/

namespace GrowBuffer

variable {α : Type*}

/-- The loop that doubles a capacity until `needed` fits. Every round adds a cell at least,
so `fuel` of as many as are missing is never used up. -/
def enlarge (needed : ℕ) : ℕ → ℕ → ℕ
  | 0, cap => cap
  | fuel + 1, cap => if cap < needed then enlarge needed fuel (cap * 2) else cap

theorem le_enlarge {needed fuel cap : ℕ} (hpos : 0 < cap) (h : needed ≤ cap + fuel) :
    needed ≤ enlarge needed fuel cap ∧ cap ≤ enlarge needed fuel cap := by
  induction fuel generalizing cap with
  | zero => exact ⟨h, le_rfl⟩
  | succ fuel ih =>
    rw [enlarge]
    split_ifs with hlt
    · obtain ⟨hneeded, hcap⟩ : needed ≤ enlarge needed fuel (cap * 2) ∧
          cap * 2 ≤ enlarge needed fuel (cap * 2) := ih (by omega) (by omega)
      exact ⟨hneeded, by omega⟩
    · exact ⟨not_lt.mp hlt, le_rfl⟩

end GrowBuffer

/-- The cells of a buffer and how many of them are in use. The bound is carried along, so
that reading the contents needs no check. -/
structure GrowBuffer (α : Type*) where
  cells : List α
  used : ℕ
  used_le : used ≤ cells.length

namespace GrowBuffer

variable {α : Type*}

/-- No cells. -/
def empty : GrowBuffer α := ⟨[], 0, le_rfl⟩

/-- The cells in use. What is behind them in the block has no meaning, and is not preserved. -/
def contents (b : GrowBuffer α) : List α := b.cells.take b.used

/-- The capacity with room for `n` more cells: the capacity is doubled, from a first one on,
until there is room. -/
def grownCap (b : GrowBuffer α) (n : ℕ) : ℕ :=
  let newCap := if b.cells.length = 0 then 64 else b.cells.length
  enlarge (b.used + n) (b.used + n) newCap

/-- The cells with room for `n` more; `fresh` is what an added cell holds, which no contents
depend on. -/
def grown (fresh : α) (b : GrowBuffer α) (n : ℕ) : List α :=
  if b.cells.length < b.used + n then
    b.cells ++ List.replicate (b.grownCap n - b.cells.length) fresh
  else b.cells

private theorem le_length_grown (fresh : α) (b : GrowBuffer α) (n : ℕ) :
    b.used + n ≤ (b.grown fresh n).length ∧ (b.grown fresh n).take b.used = b.contents := by
  have hle := b.used_le
  rw [grown]
  split_ifs with hlt
  · have hpos : 0 < if b.cells.length = 0 then 64 else b.cells.length := by
      split_ifs <;> omega
    obtain ⟨hneeded, -⟩ := le_enlarge hpos (Nat.le_add_left (b.used + n) _)
    refine ⟨?_, List.take_append_of_le_length hle⟩
    rw [List.length_append, List.length_replicate]
    have hcap : b.used + n ≤ b.grownCap n := hneeded
    omega
  · exact ⟨not_lt.mp hlt, rfl⟩

/-- Append `src`: enlarge the buffer and copy. The copy replaces the cells behind the
contents, of which there are enough after the enlargement. -/
def append (fresh : α) (b : GrowBuffer α) (src : List α) : GrowBuffer α where
  cells :=
    let cells := b.grown fresh src.length
    cells.take b.used ++ (src ++ cells.drop (b.used + src.length))
  used := b.used + src.length
  used_le := by
    have hlen := (b.le_length_grown fresh src.length).1
    simp only [List.length_append, List.length_take, List.length_drop]
    omega

@[simp]
theorem contents_empty : (empty : GrowBuffer α).contents = [] := rfl

/-- **Appending.** The contents are followed by what is appended, whatever the cells beyond
them held before. -/
@[simp]
theorem contents_append (fresh : α) (b : GrowBuffer α) (src : List α) :
    (b.append fresh src).contents = b.contents ++ src := by
  obtain ⟨hlen, hkeep⟩ := b.le_length_grown fresh src.length
  have hused : ((b.grown fresh src.length).take b.used).length = b.used := by
    rw [List.length_take]
    omega
  rw [contents, append]
  dsimp only
  rw [← List.append_assoc, List.take_left' (by rw [List.length_append, hused]), hkeep]

end GrowBuffer
