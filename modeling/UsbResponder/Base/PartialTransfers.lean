import Mathlib.Data.List.Basic

/-!
# Records sent over a stream that may break off

Records are sent one after the other over a byte stream. A record may be cut off: some of
its bytes, but not all, have gone out when sending it fails. `ts` lists the records with
what was sent of each. A receiver can take the stream apart again as long as nothing is sent
behind a record that was cut off (`Aligned`), and a further record does no harm when nothing
of it is sent or no earlier one was cut off (`Aligned.concat`).

Records of which nothing was sent are filtered out first, since a receiver does not see
them. What is left must be complete records and at most one more, so a stream that is not
aligned has a record in the middle that was cut off, with bytes of another one behind it
(`Aligned.eq_whole`). How a receiver recovers from that is not treated: without further
marks it cannot.
-/

namespace PartialTransfers

variable {ι α : Type*} (whole : ι → List α)

/-- Some record was cut off: a part of it is on the stream, and the rest will never be. -/
def CutOff (ts : List (ι × List α)) : Prop := ∃ t ∈ ts, t.2 ≠ [] ∧ t.2 ≠ whole t.1

/-- What was sent is a sequence of complete records followed by at most one that was cut
off. The records of which nothing was sent do not matter. -/
def Aligned (ts : List (ι × List α)) : Prop :=
  ∃ full part : List (ι × List α), (ts.filter fun t => !t.2.isEmpty) = full ++ part ∧
    (∀ t ∈ full, t.2 = whole t.1) ∧ part.length ≤ 1

variable {whole} {ts : List (ι × List α)} {t : ι × List α}

theorem Aligned.nil : Aligned whole [] := ⟨[], [], rfl, by simp, by simp⟩

/-- A record is added to a stream. If an earlier one was cut off, nothing of the new one may
be sent. -/
theorem Aligned.concat (h : Aligned whole ts) (ht : CutOff whole ts → t.2 = []) :
    Aligned whole (ts ++ [t]) := by
  obtain ⟨full, part, hfilter, hfull, hpart⟩ := h
  by_cases hempty : t.2 = []
  · refine ⟨full, part, ?_, hfull, hpart⟩
    rw [List.filter_append, hfilter]
    simp [hempty]
  · -- no record was cut off, so all of which something was sent are complete
    refine ⟨ts.filter fun t => !t.2.isEmpty, [t], ?_, ?_, Nat.le_refl 1⟩
    · rw [List.filter_append]
      simp [hempty]
    · intro u hu
      obtain ⟨hmem, hsent⟩ := List.mem_filter.mp hu
      by_contra hcut
      exact hempty (ht ⟨u, hmem, by simpa using hsent, hcut⟩)

/-- Before a record of which something was sent there are only complete ones. -/
theorem Aligned.eq_whole {u : ι × List α} (h : Aligned whole [t, u]) (ht : t.2 ≠ [])
    (hu : u.2 ≠ []) : t.2 = whole t.1 := by
  obtain ⟨full, part, hfilter, hfull, hpart⟩ := h
  have hboth : [t, u] = full ++ part := by
    rw [← hfilter]
    simp [ht, hu]
  rcases full with _ | ⟨t', full⟩
  · rw [List.nil_append] at hboth
    rw [← hboth] at hpart
    exact absurd hpart (by simp)
  · obtain ⟨rfl, -⟩ := List.cons.inj hboth
    exact hfull t List.mem_cons_self

/-- The bytes of an aligned stream are complete records and part of one more. This is what a
receiver makes use of: it reads records until one is not complete. -/
theorem Aligned.exists_records (h : Aligned whole ts) (hpre : ∀ t ∈ ts, t.2 <+: whole t.1) :
    ∃ (full : List ι) (rest : List α), ts.flatMap Prod.snd = full.flatMap whole ++ rest ∧
      (rest = [] ∨ ∃ i, rest <+: whole i) := by
  obtain ⟨full, part, hfilter, hfull, hpart⟩ := h
  have hsent : ∀ ts : List (ι × List α),
      ts.flatMap Prod.snd = (ts.filter fun t => !t.2.isEmpty).flatMap Prod.snd := by
    intro ts
    induction ts with
    | nil => rfl
    | cons t ts ih =>
      by_cases hempty : t.2 = [] <;> simp [hempty, ih]
  refine ⟨full.map Prod.fst, part.flatMap Prod.snd, ?_, ?_⟩
  · rw [hsent, hfilter, List.flatMap_append, List.flatMap_map]
    exact congrArg (· ++ _) (List.flatMap_congr hfull)
  · rcases part with _ | ⟨t, _ | ⟨t', part⟩⟩
    · exact .inl rfl
    · have hmem : t ∈ ts.filter fun t => !t.2.isEmpty := by simp [hfilter]
      refine .inr ⟨t.1, ?_⟩
      rw [List.flatMap_singleton]
      exact hpre t (List.mem_filter.mp hmem).1
    · simp at hpart

end PartialTransfers
