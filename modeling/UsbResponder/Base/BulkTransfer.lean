import Mathlib.Tactic

/-!
# Bulk transfers

How a byte stream crosses a bulk endpoint. A sender writes in requests; each request goes
out in packets of at most `mps` symbols, and a request for no symbols is one empty packet. A
receiver posts reads of `size` symbols; a read completes when it is full or when a packet
shorter than `mps` arrives, and returns what it has.

A transfer is written in requests of `size` symbols and closed with an empty request exactly
when its length is a multiple of `mps`. When `mps` divides `size`, the result
`reads_transferWrites` says what the reads of the receiver return: the transfer in pieces of
`size` symbols, where a transfer whose length is a multiple of `size` ends with an empty
read (`transferReads_eq`).

The proof follows the read in progress: the packets of a request that still fits into it
either leave it waiting, which takes full packets and room for more, or complete it
(`reads_slices`). An induction on the requests of the transfer does the rest. Errors of the
link, time-outs and the order in which packets are retried are left out; a packet arrives
once and whole.
-/

namespace BulkTransfer

variable {α : Type*}

/-- A list cut into slices of `n`. Every round uses up a symbol if `0 < n`, so `fuel` from
the length on is never used up; the definition stays structurally recursive, and concrete
transfers can be evaluated. -/
def slices (n : ℕ) : ℕ → List α → List (List α)
  | _, [] => []
  | 0, _ => []
  | fuel + 1, data => data.take n :: slices n fuel (data.drop n)

/-- The packets of a request. A request for no symbols still takes one packet on the bus,
which is empty. -/
def packets (mps : ℕ) (data : List α) : List (List α) :=
  if data = [] then [[]] else slices mps data.length data

/-- The requests of a transfer: slices of `size` symbols, and an empty one when the last
packet would be full and the receiver could not tell that the transfer is over. -/
def transferWrites (size mps : ℕ) (data : List α) : List (List α) :=
  slices size data.length data ++ if data.length % mps = 0 then [[]] else []

/-- What the completed reads return, with the symbols the read in progress already has and
the packets to come. A read that the packets do not complete returns nothing, however much
it has. -/
def reads (size mps : ℕ) : List α → List (List α) → List (List α)
  | _, [] => []
  | acc, packet :: rest =>
    if size ≤ (acc ++ packet).length ∨ packet.length < mps then
      (acc ++ packet) :: reads size mps [] rest
    else reads size mps (acc ++ packet) rest

/-- A transfer in pieces of `size`, the last of which is shorter. A transfer of a multiple
of `size` therefore ends with a piece of no symbols. -/
def transferReads (size : ℕ) : ℕ → List α → List (List α)
  | 0, data => [data]
  | fuel + 1, data =>
    if data.length < size then [data]
    else data.take size :: transferReads size fuel (data.drop size)

variable {size mps : ℕ}

/-- The packets of a request that fits into the read in progress either leave the read
waiting, when all of them are full and the read is not, or complete it. The induction is on
the fuel of the slices, with the symbols read so far generalised. -/
private theorem reads_slices (hmps : 0 < mps) {fuel : ℕ} (acc data : List α)
    (hfuel : data.length ≤ fuel) (hlt : acc.length < size)
    (hle : acc.length + data.length ≤ size) (rest : List (List α)) :
    reads size mps acc (slices mps fuel data ++ rest) =
      if mps ∣ data.length ∧ acc.length + data.length < size then
        reads size mps (acc ++ data) rest
      else (acc ++ data) :: reads size mps [] rest := by
  induction fuel generalizing acc data with
  | zero =>
    obtain rfl := List.length_eq_zero_iff.mp (Nat.le_zero.mp hfuel)
    rw [slices, List.nil_append, List.append_nil, if_pos ⟨dvd_zero mps, hlt⟩]
  | succ fuel ih =>
    cases data with
    | nil => rw [slices, List.nil_append, List.append_nil, if_pos ⟨dvd_zero mps, hlt⟩]
    | cons a data =>
      obtain ⟨d, hd⟩ : ∃ d, d = a :: data := ⟨_, rfl⟩
      have hslices : slices mps (fuel + 1) (a :: data) =
          d.take mps :: slices mps fuel (d.drop mps) := by
        rw [hd, slices]
        simp
      have hpos : 0 < d.length := by rw [hd]; exact Nat.succ_pos _
      rw [hslices, ← hd, List.cons_append, reads]
      rw [← hd] at hfuel hle
      by_cases hshort : d.length < mps
      · -- the last packet is short
        have htake : d.take mps = d := List.take_of_length_le hshort.le
        have hdrop : d.drop mps = [] := List.drop_eq_nil_of_le hshort.le
        have hnot : ¬mps ∣ d.length := Nat.not_dvd_of_pos_of_lt hpos hshort
        rw [htake, hdrop, if_pos (.inr hshort), if_neg (fun h => hnot h.1)]
        cases fuel <;> rfl
      · have hlen : (d.take mps).length = mps := by
          rw [List.length_take]
          omega
        have hdroplen : (d.drop mps).length = d.length - mps := List.length_drop ..
        by_cases hfull : size ≤ acc.length + mps
        · -- the packet completes the read, so it is the last one
          have heq : d.length = mps := by omega
          have htake : d.take mps = d := List.take_of_length_le heq.le
          have hdrop : d.drop mps = [] := List.drop_eq_nil_of_le heq.le
          rw [htake, hdrop, List.length_append, heq, if_pos (.inl hfull),
            if_neg (fun h => absurd h.2 (not_lt.mpr hfull))]
          cases fuel <;> rfl
        · have hnext := ih (acc ++ d.take mps) (d.drop mps) (by omega)
            (by rw [List.length_append, hlen]; omega)
            (by rw [List.length_append, hlen, hdroplen]; omega)
          have hiff : mps ∣ d.length - mps ↔ mps ∣ d.length :=
            ⟨fun h => by simpa [Nat.sub_add_cancel (not_lt.mp hshort)] using Nat.dvd_add h dvd_rfl,
              fun h => Nat.dvd_sub h dvd_rfl⟩
          have hsum : (acc ++ d.take mps).length + (d.drop mps).length =
              acc.length + d.length := by
            rw [List.length_append, hlen, hdroplen]
            omega
          rw [if_neg (by rw [List.length_append, hlen]; omega), hnext, List.append_assoc,
            List.take_append_drop, hdroplen, ← hdroplen, hsum, hdroplen]
          simp only [hiff]

/-- **What the receiver reads of a transfer.** The reads of the receiver return the transfer
in pieces of `size`, and the next transfer starts with a fresh read. So transfers do not run
into each other, whatever their lengths. -/
theorem reads_transferWrites (hmps : 0 < mps) (hsize : 0 < size) (hdvd : mps ∣ size)
    (data : List α) (rest : List (List α)) :
    reads size mps [] ((transferWrites size mps data).flatMap (packets mps) ++ rest) =
      transferReads size data.length data ++ reads size mps [] rest := by
  -- the closing request depends on the length only, which changes by `size` from slice to slice
  have hloop : ∀ (fuel : ℕ) (data : List α), data.length ≤ fuel →
      reads size mps [] ((slices size fuel data ++
        if data.length % mps = 0 then [[]] else []).flatMap (packets mps) ++ rest) =
        transferReads size fuel data ++ reads size mps [] rest := by
    intro fuel
    have hclose : reads size mps ([] : List α) (packets mps [] ++ rest) =
        [] :: reads size mps [] rest := by
      rw [packets, if_pos rfl, List.singleton_append, reads, List.append_nil,
        if_pos (.inr hmps)]
    induction fuel with
    | zero =>
      intro data hdata
      obtain rfl := List.length_eq_zero_iff.mp (Nat.le_zero.mp hdata)
      rw [slices, List.length_nil, Nat.zero_mod, if_pos rfl, List.nil_append,
        List.flatMap_singleton, hclose]
      rfl
    | succ fuel ih =>
      intro data hdata
      by_cases hempty : data = []
      · subst hempty
        rw [slices, List.length_nil, Nat.zero_mod, if_pos rfl, List.nil_append,
          List.flatMap_singleton, hclose, transferReads, List.length_nil, if_pos hsize]
        rfl
      · have hslices : slices size (fuel + 1) data =
            data.take size :: slices size fuel (data.drop size) := by
          rw [slices]
          exact hempty
        have hne : data.take size ≠ [] := by
          rw [Ne, List.take_eq_nil_iff]
          rintro (h | h)
          · omega
          · exact hempty h
        have hread := reads_slices hmps [] (data.take size) le_rfl hsize (by
          rw [List.length_nil, zero_add, List.length_take]
          omega)
        rw [hslices, List.cons_append, List.flatMap_cons, packets, if_neg hne, List.append_assoc,
          hread, List.length_nil, zero_add, List.nil_append, transferReads]
        by_cases hshort : data.length < size
        · -- the only slice; the closing request ends the read when its packets are full
          have htake : data.take size = data := List.take_of_length_le hshort.le
          have hdrop : data.drop size = [] := List.drop_eq_nil_of_le hshort.le
          have hnil : slices size fuel ([] : List α) = [] := by cases fuel <;> rfl
          rw [htake, hdrop, if_pos hshort, hnil, List.nil_append]
          by_cases hmod : mps ∣ data.length
          · rw [if_pos ⟨hmod, hshort⟩, if_pos (Nat.mod_eq_zero_of_dvd hmod),
              List.flatMap_singleton, packets, if_pos rfl, List.singleton_append, reads,
              List.append_nil, if_pos (.inr hmps)]
            rfl
          · rw [if_neg (fun h => hmod h.1), if_neg (fun h => hmod (Nat.dvd_of_mod_eq_zero h)),
              List.flatMap_nil, List.nil_append]
            rfl
        · have hlen : (data.take size).length = size := by
            rw [List.length_take]
            omega
          have hmod : data.length % mps = (data.drop size).length % mps := by
            rw [List.length_drop]
            obtain ⟨k, rfl⟩ := hdvd
            conv_lhs => rw [show data.length = data.length - mps * k + mps * k by omega]
            exact Nat.add_mul_mod_self_left ..
          have hdroplen : (data.drop size).length ≤ fuel := by
            rw [List.length_drop]
            omega
          rw [hlen, if_neg (fun h => lt_irrefl _ h.2), if_neg hshort, hmod, List.cons_append,
            ih (data.drop size) hdroplen]
  exact hloop data.length data le_rfl

/-- A transfer is read in non-empty pieces of at most `size` symbols; when its length is a
multiple of `size`, an empty read follows. -/
theorem transferReads_eq (hsize : 0 < size) (data : List α) :
    ∃ pieces, transferReads size data.length data =
        pieces ++ (if size ∣ data.length then [[]] else []) ∧
      pieces.flatten = data ∧ ∀ piece ∈ pieces, piece ≠ [] ∧ piece.length ≤ size := by
  have hloop : ∀ (fuel : ℕ) (data : List α), data.length ≤ fuel →
      ∃ pieces, transferReads size fuel data =
          pieces ++ (if size ∣ data.length then [[]] else []) ∧
        pieces.flatten = data ∧ ∀ piece ∈ pieces, piece ≠ [] ∧ piece.length ≤ size := by
    intro fuel
    induction fuel with
    | zero =>
      intro data hdata
      obtain rfl := List.length_eq_zero_iff.mp (Nat.le_zero.mp hdata)
      refine ⟨[], ?_, rfl, by simp⟩
      rw [transferReads, List.length_nil, if_pos (dvd_zero size), List.nil_append]
    | succ fuel ih =>
      intro data hdata
      rw [transferReads]
      by_cases hshort : data.length < size
      · rw [if_pos hshort]
        by_cases hempty : data = []
        · subst hempty
          exact ⟨[], by simp, rfl, by simp⟩
        · -- a short read ends the transfer, and no empty one follows
          have hnot : ¬size ∣ data.length :=
            Nat.not_dvd_of_pos_of_lt (List.length_pos_iff.mpr hempty) hshort
          refine ⟨[data], by rw [if_neg hnot, List.append_nil], by simp, ?_⟩
          intro piece hpiece
          obtain rfl := List.mem_singleton.mp hpiece
          exact ⟨hempty, hshort.le⟩
      · obtain ⟨pieces, heq, hflat, hpieces⟩ := ih (data.drop size) (by
          rw [List.length_drop]
          omega)
        have hlen : (data.take size).length = size := by
          rw [List.length_take]
          omega
        -- a full read leaves the divisibility as it is
        have hiff : size ∣ (data.drop size).length ↔ size ∣ data.length := by
          rw [List.length_drop]
          exact ⟨fun h => by
            simpa [Nat.sub_add_cancel (not_lt.mp hshort)] using Nat.dvd_add h dvd_rfl,
            fun h => Nat.dvd_sub h dvd_rfl⟩
        refine ⟨data.take size :: pieces, ?_, ?_, ?_⟩
        · rw [if_neg hshort, heq, List.cons_append]
          simp only [hiff]
        · rw [List.flatten_cons, hflat, List.take_append_drop]
        · intro piece hpiece
          obtain rfl | hpiece := List.mem_cons.mp hpiece
          · exact ⟨List.ne_nil_of_length_pos (by omega), hlen.le⟩
          · exact hpieces piece hpiece
  exact hloop data.length data le_rfl

/-! ### Packets of slices -/

variable {n : ℕ}

/-- More fuel than symbols makes no difference. -/
private theorem slices_of_le (hn : 0 < n) {fuel : ℕ} {data : List α} (h : data.length ≤ fuel) :
    slices n fuel data = slices n data.length data := by
  induction fuel using Nat.strong_induction_on generalizing data with
  | _ fuel ih =>
    rcases data with _ | ⟨a, data⟩
    · cases fuel <;> rfl
    · obtain ⟨fuel, rfl⟩ := Nat.exists_eq_add_one_of_ne_zero (Nat.ne_of_gt (Nat.lt_of_lt_of_le
        (Nat.succ_pos _) h))
      have hlen : ((a :: data).drop n).length ≤ data.length := by
        rw [List.length_drop, List.length_cons]
        omega
      rw [List.length_cons] at h
      rw [List.length_cons, slices, slices, ih fuel (Nat.lt_succ_self _) (by omega)]
      · rcases Nat.lt_or_ge data.length (fuel + 1) with hlt | hge
        · rw [ih data.length hlt hlen]
        · omega
      · simp
      · simp

/-- The slices of what is not empty: the first one, and those of the rest. -/
theorem slices_eq_cons (hn : 0 < n) {data : List α} (h : data ≠ []) :
    slices n data.length data =
      data.take n :: slices n (data.drop n).length (data.drop n) := by
  rcases data with _ | ⟨a, data⟩
  · exact absurd rfl h
  · rw [List.length_cons, slices, slices_of_le hn]
    · rw [List.length_drop, List.length_cons]
      omega
    · simp

/-- Slices of a part that is a multiple of the slice size long do not reach into the rest. -/
private theorem slices_append (hn : 0 < n) {xs : List α} (h : n ∣ xs.length) (ys : List α) :
    slices n (xs ++ ys).length (xs ++ ys) =
      slices n xs.length xs ++ slices n ys.length ys := by
  obtain ⟨k, hk⟩ := h
  induction k generalizing xs with
  | zero =>
    obtain rfl := List.length_eq_zero_iff.mp hk
    rfl
  | succ k ih =>
    have hle : n ≤ xs.length := by
      rw [hk]
      exact Nat.le_mul_of_pos_right n (Nat.succ_pos k)
    have hne : xs ≠ [] := by
      rintro rfl
      rw [List.length_nil] at hle
      omega
    have hrest : (xs.drop n).length = n * k := by
      rw [List.length_drop, hk, Nat.mul_succ, Nat.add_sub_cancel]
    rw [slices_eq_cons hn (by simp [hne]), slices_eq_cons hn hne,
      List.take_append_of_le_length hle, List.drop_append_of_le_length hle, ih hrest,
      List.cons_append]

/-- The packets of requests whose size is a multiple of the packet size are those of one
request for all of the data: cutting at `size` first makes no difference on the bus. -/
theorem flatMap_packets_slices (hmps : 0 < mps) (hsize : 0 < size) (hdvd : mps ∣ size)
    (data : List α) :
    (slices size data.length data).flatMap (packets mps) = slices mps data.length data := by
  obtain ⟨k, hk⟩ : ∃ k, data.length = k := ⟨_, rfl⟩
  induction k using Nat.strong_induction_on generalizing data with
  | _ k ih =>
    by_cases hempty : data = []
    · rw [hempty]
      rfl
    have hpos : 0 < data.length := List.length_pos_iff.mpr hempty
    have hne : data.take size ≠ [] := by
      rw [Ne, List.take_eq_nil_iff]
      rintro (h | h)
      · omega
      · exact hempty h
    rw [slices_eq_cons hsize hempty, List.flatMap_cons, packets, if_neg hne,
      ih (data.drop size).length (by rw [List.length_drop]; omega) _ rfl]
    by_cases hshort : data.length ≤ size
    · rw [List.take_of_length_le hshort, List.drop_eq_nil_of_le hshort]
      exact List.append_nil _
    · have hmod : mps ∣ (data.take size).length := by
        rwa [List.length_take, min_eq_left (by omega)]
      conv_rhs => rw [← List.take_append_drop size data]
      rw [slices_append hmps hmod]

end BulkTransfer
