import Mathlib.Tactic
import Mathlib.Data.Fintype.Card
import Mathlib.Data.Fintype.EquivFin

/-!
# Slot tables as finite maps

A slot table is an array of `n` records, searched from the front. `key` tells which key a
slot serves, `none` for a slot not in use. When no key is served twice (`Unique`), the table
*is* a partial map of at most `n` entries: `lookup` is this map, and the lemmas below say
what storing a record in a slot does to it.

* `lookup_eq_some_iff`: under `Unique`, a map entry is a slot that serves the key;
* `lookup_update_store` and `lookup_update_release`: writing a slot sets one entry of the
  map, or removes one, and leaves all others alone; `Unique.update_store` and
  `Unique.update_release` keep the invariant;
* `exclusive_update_store_iff`: storing a record keeps the slots free of conflicts exactly
  when the record is in conflict with none of them;
* `alloc_eq_none_iff`: no slot is free exactly when `n` keys are live.

Nothing is assumed about the records of slots that are not in use: they may hold anything,
such as what was left there when the slot was released. That is why the results are about
`lookup` and not about the array.
-/

namespace SlotTable

variable {n : ℕ} {α κ : Type*}

/-! ### Free slots and unique keys -/

section Unique

variable (key : α → Option κ)

/-- The first slot not in use. The search runs over all slots, so `none` says that the table
is full. -/
def alloc (slots : Fin n → α) : Option (Fin n) :=
  (List.finRange n).find? fun i => (key (slots i)).isNone

/-- No key is served by two slots. A search from the front then finds the only slot there
is. -/
def Unique (slots : Fin n → α) : Prop :=
  ∀ ⦃i j : Fin n⦄ ⦃k : κ⦄, key (slots i) = some k → key (slots j) = some k → i = j

variable {key} {slots : Fin n → α} {i : Fin n} {k : κ} {x : α}

theorem key_of_alloc (h : alloc key slots = some i) : key (slots i) = none := by
  simpa using List.find?_some h

theorem alloc_eq_none_iff_forall : alloc key slots = none ↔ ∀ i, key (slots i) ≠ none := by
  simp [alloc, List.find?_eq_none, Option.ne_none_iff_isSome]

/-- Storing a record keeps `Unique` when no other slot serves its key. -/
theorem Unique.update_store (hu : Unique key slots) (hx : key x = some k)
    (hother : ∀ j, j ≠ i → key (slots j) ≠ some k) : Unique key (Function.update slots i x) := by
  intro a b k' ha hb
  rw [Function.update_apply] at ha hb
  split_ifs at ha hb with hai hbi hbi
  · rw [hai, hbi]
  · rw [hx] at ha
    exact absurd (ha ▸ hb) (hother b hbi)
  · rw [hx] at hb
    exact absurd (hb ▸ ha) (hother a hai)
  · exact hu ha hb

/-- Releasing a slot keeps `Unique`. A slot without a key is in conflict with none. -/
theorem Unique.update_release (hu : Unique key slots) (hx : key x = none) :
    Unique key (Function.update slots i x) := by
  intro a b k' ha hb
  rw [Function.update_apply] at ha hb
  split_ifs at ha hb with hai hbi hbi
  · rw [hai, hbi]
  · rw [hx] at ha
    simp at ha
  · rw [hx] at hb
    simp at hb
  · exact hu ha hb

end Unique

/-! ### Records in conflict -/

section Exclusive

variable (key : α → Option κ) (r : α → α → Prop)

/-- No two slots in use hold records related by `r`. The relation is one between records,
not between keys, so conflicts of any kind can be expressed. -/
def Exclusive (slots : Fin n → α) : Prop :=
  ∀ ⦃i j : Fin n⦄, i ≠ j → key (slots i) ≠ none → key (slots j) ≠ none →
    ¬r (slots i) (slots j)

variable {key r} {slots : Fin n → α} {i : Fin n} {x : α}

/-- Releasing a slot brings no records into conflict. -/
theorem Exclusive.update_release (h : Exclusive key r slots) (hx : key x = none) :
    Exclusive key r (Function.update slots i x) := by
  intro a b hab ha hb
  rw [Function.update_apply] at ha hb
  split_ifs at ha hb with hai hbi hbi
  · exact absurd hx ha
  · exact absurd hx ha
  · exact absurd hx hb
  · rw [Function.update_of_ne hai, Function.update_of_ne hbi]
    exact h hab ha hb

/-- A record stored in a free slot is in conflict with the records of the slots in use, or
with none; in the second case the table is free of conflicts exactly if it was before. -/
theorem exclusive_update_store_iff [Std.Symm r] (hi : key (slots i) = none)
    (hx : key x ≠ none) :
    Exclusive key r (Function.update slots i x) ↔
      Exclusive key r slots ∧ ∀ j, key (slots j) ≠ none → ¬r x (slots j) := by
  have hne : ∀ {j}, key (slots j) ≠ none → j ≠ i := by
    rintro j hj rfl
    exact hj hi
  constructor
  · intro h
    refine ⟨fun a b hab ha hb => ?_, fun j hj => ?_⟩
    · have hpair := h hab
      rw [Function.update_of_ne (hne ha), Function.update_of_ne (hne hb)] at hpair
      exact hpair ha hb
    · have hpair := h (hne hj).symm
      rw [Function.update_self, Function.update_of_ne (hne hj)] at hpair
      exact hpair hx hj
  · rintro ⟨h, hnew⟩ a b hab ha hb
    rw [Function.update_apply] at ha hb
    split_ifs at ha hb with hai hbi hbi
    · exact absurd (hai.trans hbi.symm) hab
    · rw [hai, Function.update_self, Function.update_of_ne hbi]
      exact hnew b hb
    · rw [hbi, Function.update_self, Function.update_of_ne hai]
      exact fun hrab => hnew a ha (Std.Symm.symm _ _ hrab)
    · rw [Function.update_of_ne hai, Function.update_of_ne hbi]
      exact h hab ha hb

/-- Rewriting a slot in use by a record with no more conflicts brings no records into
conflict. -/
theorem Exclusive.update_of_imp [Std.Symm r] (h : Exclusive key r slots)
    (hi : key (slots i) ≠ none) (hx : ∀ y, r x y → r (slots i) y) :
    Exclusive key r (Function.update slots i x) := by
  intro a b hab ha hb
  rw [Function.update_apply] at ha hb
  split_ifs at ha hb with hai hbi hbi
  · exact absurd (hai.trans hbi.symm) hab
  · rw [hai, Function.update_self, Function.update_of_ne hbi]
    exact fun hxb => h (Ne.symm hbi) hi hb (hx _ hxb)
  · rw [hbi, Function.update_self, Function.update_of_ne hai]
    exact fun hax => h (Ne.symm hai) hi ha (hx _ (Std.Symm.symm _ _ hax))
  · rw [Function.update_of_ne hai, Function.update_of_ne hbi]
    exact h hab ha hb

end Exclusive

/-! ### Searching by key -/

section Lookup

variable [DecidableEq κ] (key : α → Option κ)

/-- The first slot serving the key. Where keys are unique it is the only one. -/
def find (slots : Fin n → α) (k : κ) : Option (Fin n) :=
  (List.finRange n).find? fun i => key (slots i) = some k

/-- The partial map a slot table stands for. It depends on the order of the slots only as
long as a key is served twice. -/
def lookup (slots : Fin n → α) (k : κ) : Option α := (find key slots k).map slots

variable {key} {slots : Fin n → α} {i : Fin n} {k : κ} {x : α}

theorem key_of_find (h : find key slots k = some i) : key (slots i) = some k := by
  simpa using List.find?_some h

theorem find_eq_none_iff : find key slots k = none ↔ ∀ i, key (slots i) ≠ some k := by
  simp [find, List.find?_eq_none]

/-- What is found depends on the keys of the slots only. -/
theorem find_congr {slots' : Fin n → α} (h : ∀ j, key (slots' j) = key (slots j)) (k : κ) :
    find key slots' k = find key slots k := by
  simp only [find, h]

/-- Under `Unique` the search finds the slot that serves the key, not just some slot. -/
theorem Unique.find_eq_some_iff (hu : Unique key slots) :
    find key slots k = some i ↔ key (slots i) = some k := by
  refine ⟨key_of_find, fun h => ?_⟩
  cases hf : find key slots k with
  | none => exact absurd h (find_eq_none_iff.mp hf i)
  | some j => rw [hu (key_of_find hf) h]

/-- A stored record is found when no other slot serves its key. -/
theorem find_update_store (hx : key x = some k) (hother : ∀ j, j ≠ i → key (slots j) ≠ some k) :
    find key (Function.update slots i x) k = some i := by
  cases hf : find key (Function.update slots i x) k with
  | none => exact absurd hx (by simpa using find_eq_none_iff.mp hf i)
  | some j =>
    have hj := key_of_find hf
    by_cases hji : j = i
    · rw [hji]
    · rw [Function.update_of_ne hji] at hj
      exact absurd hj (hother j hji)

private theorem lookup_eq_none_iff : lookup key slots k = none ↔ ∀ i, key (slots i) ≠ some k := by
  rw [lookup, Option.map_eq_none_iff, find_eq_none_iff]

/-- Under `Unique` an entry of the map is a slot serving its key. -/
theorem Unique.lookup_eq_some_iff (hu : Unique key slots) :
    lookup key slots k = some x ↔ ∃ i, key (slots i) = some k ∧ slots i = x := by
  simp only [lookup, Option.map_eq_some_iff, hu.find_eq_some_iff]

/-! ### Writing a slot -/

/-- Storing a record for `k` in a slot that is free or already serves `k` sets the entry of
`k` and no other. -/
theorem Unique.lookup_update_store (hu : Unique key slots) (hx : key x = some k)
    (hi : key (slots i) = none ∨ key (slots i) = some k)
    (hother : ∀ j, j ≠ i → key (slots j) ≠ some k) :
    lookup key (Function.update slots i x) = Function.update (lookup key slots) k (some x) := by
  have hu' := hu.update_store hx hother
  funext k'
  by_cases hk : k' = k
  · rw [hk, Function.update_self, hu'.lookup_eq_some_iff]
    exact ⟨i, by rw [Function.update_self, hx], Function.update_self ..⟩
  · rw [Function.update_of_ne hk]
    ext y
    rw [hu'.lookup_eq_some_iff, hu.lookup_eq_some_iff]
    refine exists_congr fun j => ?_
    by_cases hj : j = i
    · have hne : some k ≠ some k' := by simpa using Ne.symm hk
      rw [hj, Function.update_self, hx]
      refine ⟨fun h => absurd h.1 hne, fun h => ?_⟩
      rcases hi with hi | hi <;> rw [hi] at h
      · simp at h
      · exact absurd h.1 hne
    · rw [Function.update_of_ne hj]

/-- Releasing the slot of `k` removes the entry of `k` and no other. -/
theorem Unique.lookup_update_release (hu : Unique key slots) (hx : key x = none)
    (hi : key (slots i) = some k) :
    lookup key (Function.update slots i x) = Function.update (lookup key slots) k none := by
  have hu' := hu.update_release (i := i) hx
  funext k'
  by_cases hk : k' = k
  · rw [hk, Function.update_self, lookup_eq_none_iff]
    intro j hj
    by_cases hji : j = i
    · rw [hji, Function.update_self, hx] at hj
      simp at hj
    · rw [Function.update_of_ne hji] at hj
      exact hji (hu hj hi)
  · rw [Function.update_of_ne hk]
    ext y
    rw [hu'.lookup_eq_some_iff, hu.lookup_eq_some_iff]
    refine exists_congr fun j => ?_
    by_cases hj : j = i
    · rw [hj, Function.update_self, hx, hi]
      simpa using fun h => absurd h.symm hk
    · rw [Function.update_of_ne hj]

/-- Rewriting a slot that is not in use by a record not in use changes nothing. -/
theorem Unique.lookup_update_free (hu : Unique key slots) (hx : key x = none)
    (hi : key (slots i) = none) : lookup key (Function.update slots i x) = lookup key slots := by
  funext k
  ext y
  rw [(hu.update_release hx).lookup_eq_some_iff, hu.lookup_eq_some_iff]
  refine exists_congr fun j => ?_
  by_cases hj : j = i
  · rw [hj, Function.update_self, hx, hi]
    simp
  · rw [Function.update_of_ne hj]

/-! ### Capacity -/

/-- **Capacity.** Under `Unique`, no slot is free exactly when `n` keys are live: the slots
are then in bijection with the keys they serve. -/
theorem Unique.alloc_eq_none_iff (hu : Unique key slots) :
    alloc key slots = none ↔
      ∃ ks : Finset κ, ks.card = n ∧ ∀ k ∈ ks, lookup key slots k ≠ none := by
  rw [alloc_eq_none_iff_forall]
  constructor
  · intro hall
    choose f hf using fun i => Option.ne_none_iff_exists'.mp (hall i)
    have hinj : Function.Injective f := fun a b hab => hu (hf a) (hab ▸ hf b)
    refine ⟨Finset.univ.map ⟨f, hinj⟩, by simp, fun k hk => ?_⟩
    obtain ⟨i, -, rfl⟩ := Finset.mem_map.mp hk
    exact fun h => lookup_eq_none_iff.mp h i (hf i)
  · rintro ⟨ks, hcard, hlive⟩ i hi
    -- every live key needs a slot of its own, and slot `i` is not available
    have hslot : ∀ k ∈ ks, ∃ j, key (slots j) = some k := fun k hk => by
      by_contra hno
      exact hlive k hk (lookup_eq_none_iff.mpr fun j hj => hno ⟨j, hj⟩)
    have : Nonempty (Fin n) := ⟨i⟩
    choose! g hg using hslot
    have hmaps : Set.MapsTo g ks ((Finset.univ : Finset (Fin n)).erase i) := fun k hk => by
      refine Finset.mem_coe.mpr (Finset.mem_erase.mpr ⟨fun hgi => ?_, Finset.mem_univ _⟩)
      have hlive := hg k hk
      rw [hgi, hi] at hlive
      simp at hlive
    have hginj : Set.InjOn g ks := fun a ha b hb hab => by
      have hga := hg a ha
      rw [hab, hg b hb] at hga
      exact (Option.some_injective _ hga).symm
    have hle := Finset.card_le_card_of_injOn g hmaps hginj
    have hpos : 0 < n := i.pos
    rw [hcard, Finset.card_erase_of_mem (Finset.mem_univ i), Finset.card_univ,
      Fintype.card_fin] at hle
    omega

end Lookup

end SlotTable
