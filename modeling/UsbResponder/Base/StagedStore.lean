import Mathlib.Data.Finset.Card
import Mathlib.Logic.Function.Basic
import Mathlib.Tactic

/-!
# A store whose values are written in stages

Values by key, each of which is written piece by piece: a transfer is started for a key,
takes pieces, and is committed. Until then nothing of it can be read, and at most `capacity`
transfers are in progress at a time. Values can also be read, measured, removed and moved to
another key; values of `limit` elements and more are not read.

* `step`, `run`: what requests do and how they are answered;
* `run_transfer`: a whole transfer without others in between is an assignment;
* `run_whole`: whatever else is requested, a value that is there is one that was there from
  the start or that one transfer brought completely, so no reader sees a part of a transfer.

The store is abstract: keys, ids and elements are arbitrary types, the committed values a
function and the capacity a statement about finite sets of ids, so `step` is noncomputable.
Nothing is said here about how values are stored. Two transfers for one key are allowed, and
the one that is committed last wins. `Whole` is the invariant behind `run_whole`: it
connects every value with the requests that brought it.
-/

namespace StagedStore

variable {ι κ α : Type*}

/-- The committed values, and the transfers in progress: their keys and what they have
taken. A reader sees the committed values only. -/
@[ext]
structure Store (ι κ α : Type*) where
  committed : κ → Option (List α)
  staged : ι → Option (κ × List α)

/-- What can be asked of a store. A `cancel` is a start that is refused, and `skip` stands
for a request that is refused without an effect. -/
inductive Request (ι κ α : Type*)
  | start (id : ι) (key : κ)
  | cancel (id : ι)
  | add (id : ι) (piece : List α)
  | commit (id : ι)
  | get (key : κ)
  | measure (key : κ)
  | remove (key : κ)
  | move (src dst : κ)
  | ping
  | skip

/-- How a request is answered. -/
inductive Answer (α : Type*)
  | done
  | value (v : List α)
  | size (n : ℕ)
  | refused

namespace Store

variable (st : Store ι κ α)

/-- As many transfers are in progress as can be. This is stated by ids, so that it makes
sense for an infinite type of ids. -/
def Full (capacity : ℕ) : Prop :=
  ∃ ids : Finset ι, ids.card = capacity ∧ ∀ id ∈ ids, st.staged id ≠ none

/-- A store without transfers has room. So a client that is alone is never refused for want
of it. -/
theorem not_full_of_idle {capacity : ℕ} (hcapacity : 0 < capacity)
    (hidle : ∀ id, st.staged id = none) : ¬st.Full capacity := by
  rintro ⟨ids, rfl, hids⟩
  obtain ⟨id, hid⟩ := Finset.card_pos.mp hcapacity
  exact hids id hid (hidle id)

variable [DecidableEq ι] [DecidableEq κ]

/-- A transfer has taken the given elements for the given key. -/
def stage (id : ι) (taken : κ × List α) : Store ι κ α :=
  { st with staged := Function.update st.staged id (some taken) }

/-- A transfer is over. -/
def drop (id : ι) : Store ι κ α := { st with staged := Function.update st.staged id none }

/-- The value of a key is set. -/
def put (key : κ) (v : List α) : Store ι κ α :=
  { st with committed := Function.update st.committed key (some v) }

/-- A key loses its value. -/
def erase (key : κ) : Store ι κ α :=
  { st with committed := Function.update st.committed key none }

end Store

/-! ### What requests leave behind -/

section History

variable [DecidableEq ι] {st : Store ι κ α}

/-- A request that leaves a transfer in progress: it is about another transfer, or about
none. -/
def Request.Leaves (id : ι) : Request ι κ α → Prop
  | .start id' _ => id' ≠ id
  | .cancel id' => id' ≠ id
  | .commit id' => id' ≠ id
  | _ => True

/-- What a request adds to a transfer: the data of a chunk for it, and nothing in all other
cases. -/
def Request.adds (id : ι) : Request ι κ α → List α
  | .add id' piece => if id' = id then piece else []
  | _ => []

/-- The requests end with a transfer in progress that has taken the given elements: its
start, and behind it requests that leave it in progress and add these elements to it. -/
def InProgress (rs : List (Request ι κ α)) (id : ι) (key : κ) (taken : List α) : Prop :=
  ∃ pre mid, rs = pre ++ .start id key :: mid ∧ (∀ r ∈ mid, r.Leaves id) ∧
    mid.flatMap (Request.adds id) = taken

/-- Among the requests there is a whole transfer of the given elements: its commit comes at
a time when it is in progress with exactly these. -/
def Transferred (rs : List (Request ι κ α)) (v : List α) : Prop :=
  ∃ pre post id key, rs = pre ++ .commit id :: post ∧ InProgress pre id key v

private theorem InProgress.snoc {rs : List (Request ι κ α)} {id : ι} {key : κ} {taken : List α}
    (h : InProgress rs id key taken) {r : Request ι κ α} (hr : r.Leaves id) :
    InProgress (rs ++ [r]) id key (taken ++ r.adds id) := by
  obtain ⟨pre, mid, rfl, hmid, rfl⟩ := h
  refine ⟨pre, mid ++ [r], by simp, fun r' hr' => ?_, by simp⟩
  obtain hr' | hr' := List.mem_append.mp hr'
  · exact hmid r' hr'
  · rwa [List.mem_singleton.mp hr']

theorem Transferred.append {rs : List (Request ι κ α)} {v : List α} (h : Transferred rs v)
    (rs' : List (Request ι κ α)) : Transferred (rs ++ rs') v := by
  obtain ⟨pre, post, id, key, rfl, hpre⟩ := h
  exact ⟨pre, post ++ rs', id, key, by simp, hpre⟩

/-- After the requests every value is one that the store had or that a whole transfer
brought, and every transfer in progress has taken what was added since its start. The second
part is what makes the first one inductive. -/
structure Whole (st₀ : Store ι κ α) (rs : List (Request ι κ α)) (st : Store ι κ α) : Prop where
  committed : ∀ key v, st.committed key = some v →
    (∃ key₀, st₀.committed key₀ = some v) ∨ Transferred rs v
  staged : ∀ id key taken, st.staged id = some (key, taken) → InProgress rs id key taken

namespace Whole

variable {st₀ : Store ι κ α} {rs : List (Request ι κ α)} (h : Whole st₀ rs st)
  {r : Request ι κ α}
include h

private theorem committed_snoc (r : Request ι κ α) {key : κ} {v : List α}
    (hv : st.committed key = some v) :
    (∃ key₀, st₀.committed key₀ = some v) ∨ Transferred (rs ++ [r]) v :=
  (h.committed key v hv).imp_right fun ht => ht.append [r]

/-- A request that leaves the transfers alone and brings no new value. -/
theorem keep {st' : Store ι κ α} (hadds : ∀ id, r.adds id = []) (hleaves : ∀ id, r.Leaves id)
    (hcommitted : ∀ key v, st'.committed key = some v → ∃ key', st.committed key' = some v)
    (hstaged : st'.staged = st.staged) : Whole st₀ (rs ++ [r]) st' where
  committed := by
    intro key v hv
    obtain ⟨key', hv'⟩ := hcommitted key v hv
    exact h.committed_snoc r hv'
  staged := by
    intro id key taken ht
    rw [hstaged] at ht
    have hsnoc := (h.staged id key taken ht).snoc (hleaves id)
    rwa [hadds id, List.append_nil] at hsnoc

/-- The other transfers go on. -/
private theorem staged_of_ne {id id' : ι} {key : κ} {taken : List α} {next : Option (κ × List α)}
    (hne : id' ≠ id) (hr : r.Leaves id') (hadds : r.adds id' = [])
    (ht : Function.update st.staged id next id' = some (key, taken)) :
    InProgress (rs ++ [r]) id' key taken := by
  rw [Function.update_of_ne hne] at ht
  have hsnoc := (h.staged id' key taken ht).snoc hr
  rwa [hadds, List.append_nil] at hsnoc

/-- A transfer is dropped. -/
theorem drop {id : ι} (hr : ∀ id', id' ≠ id → r.Leaves id') (hadds : ∀ id', r.adds id' = []) :
    Whole st₀ (rs ++ [r]) (st.drop id) where
  committed := fun _ _ hv => h.committed_snoc r hv
  staged := by
    intro id' key taken ht
    by_cases hid : id' = id
    · rw [hid] at ht
      simp [Store.drop] at ht
    · exact h.staged_of_ne hid (hr id' hid) (hadds id') ht

end Whole

end History

section Step

variable [DecidableEq ι] [DecidableEq κ] (capacity limit : ℕ)

open Classical in
/-- How a request is answered, and the store after it. -/
noncomputable def step (r : Request ι κ α) (st : Store ι κ α) : Answer α × Store ι κ α :=
  match r with
  | .start id key =>
    if (st.drop id).Full capacity then (.refused, st.drop id)
    else (.done, st.stage id (key, []))
  | .cancel id => (.refused, st.drop id)
  | .add id piece =>
    match st.staged id with
    | none => (.refused, st)
    | some (key, taken) =>
      if piece = [] then (.refused, st) else (.done, st.stage id (key, taken ++ piece))
  | .commit id =>
    match st.staged id with
    | none => (.refused, st)
    | some (key, taken) => (.done, (st.put key taken).drop id)
  | .get key =>
    match st.committed key with
    | none => (.refused, st)
    | some v => if v.length < limit then (.value v, st) else (.refused, st)
  | .measure key =>
    match st.committed key with
    | none => (.refused, st)
    | some v => (.size v.length, st)
  | .remove key =>
    match st.committed key with
    | none => (.refused, st)
    | some _ => (.done, st.erase key)
  | .move src dst =>
    match st.committed src with
    | none => (.refused, st)
    | some v => (.done, (st.erase src).put dst v)
  | .ping => (.done, st)
  | .skip => (.refused, st)

/-- The answers to requests, and the store after them. -/
noncomputable def run : List (Request ι κ α) → Store ι κ α → List (Answer α) × Store ι κ α
  | [], st => ([], st)
  | r :: rs, st =>
    ((step capacity limit r st).1 :: (run rs (step capacity limit r st).2).1,
      (run rs (step capacity limit r st).2).2)

variable {capacity limit} {st : Store ι κ α}

/-- A request that is confirmed or refused, and reads nothing. -/
def Request.Confirms : Request ι κ α → Prop
  | .get _ => False
  | .measure _ => False
  | _ => True

theorem step_of_confirms {r : Request ι κ α} (h : r.Confirms) (st : Store ι κ α) :
    (step capacity limit r st).1 = .done ∨ (step capacity limit r st).1 = .refused := by
  cases r with
  | start id key =>
    rw [step]
    split_ifs
    · exact .inr rfl
    · exact .inl rfl
  | cancel id => exact .inr rfl
  | add id piece =>
    rw [step]
    rcases st.staged id with _ | ⟨key, taken⟩
    · exact .inr rfl
    dsimp only
    split_ifs
    · exact .inr rfl
    · exact .inl rfl
  | commit id =>
    rw [step]
    rcases st.staged id with _ | ⟨key, taken⟩
    · exact .inr rfl
    · exact .inl rfl
  | get key => exact h.elim
  | measure key => exact h.elim
  | remove key =>
    rw [step]
    rcases st.committed key with _ | v
    · exact .inr rfl
    · exact .inl rfl
  | move src dst =>
    rw [step]
    rcases st.committed src with _ | v
    · exact .inr rfl
    · exact .inl rfl
  | ping => exact .inl rfl
  | skip => exact .inr rfl

/-! ### A whole transfer -/

theorem step_start (id : ι) (key : κ) (h : ¬(st.drop id).Full capacity) :
    step capacity limit (.start id key) st = (.done, st.stage id (key, [])) := if_neg h

private theorem step_add {id : ι} {key : κ} {taken : List α} (h : st.staged id = some (key, taken))
    {piece : List α} (hpiece : piece ≠ []) :
    step capacity limit (.add id piece) st = (.done, st.stage id (key, taken ++ piece)) := by
  simp only [step, h, if_neg hpiece]

private theorem step_commit {id : ι} {key : κ} {taken : List α}
    (h : st.staged id = some (key, taken)) :
    step capacity limit (.commit id) st = (.done, (st.put key taken).drop id) := by
  simp only [step, h]

/-- The pieces of a transfer that has begun, and its commit. -/
private theorem run_pieces (id : ι) (key : κ) (taken : List α) {pieces : List (List α)}
    (hpieces : ∀ piece ∈ pieces, piece ≠ []) (st : Store ι κ α) :
    run capacity limit (pieces.map (.add id) ++ [.commit id]) (st.stage id (key, taken)) =
      (List.replicate (pieces.length + 1) .done,
        (st.put key (taken ++ pieces.flatten)).drop id) := by
  have hself : ∀ t, (st.stage id t).staged id = some t := fun t => Function.update_self ..
  induction pieces generalizing taken with
  | nil =>
    rw [List.map_nil, List.nil_append, run, step_commit (hself _), List.flatten_nil,
      List.append_nil]
    have hover : ((st.stage id (key, taken)).put key taken).drop id =
        (st.put key taken).drop id := by
      simp only [Store.stage, Store.put, Store.drop, Function.update_idem]
    rw [hover]
    rfl
  | cons piece pieces ih =>
    have hstage : (st.stage id (key, taken)).stage id (key, taken ++ piece) =
        st.stage id (key, taken ++ piece) := by
      simp only [Store.stage, Function.update_idem]
    rw [List.map_cons, List.cons_append, run, step_add (hself _) (hpieces piece (by simp))]
    dsimp only
    rw [hstage, ih (taken ++ piece) fun p hp => hpieces p (by simp [hp]), List.flatten_cons,
      List.append_assoc]
    rfl

/-- **A whole transfer** that finds room, with no other request in between, sets the value
of its key to its pieces. Every request of it is confirmed. -/
theorem run_transfer (id : ι) (key : κ) {pieces : List (List α)}
    (hpieces : ∀ piece ∈ pieces, piece ≠ []) (hroom : ¬(st.drop id).Full capacity) :
    run capacity limit (.start id key :: (pieces.map (.add id) ++ [.commit id])) st =
      (List.replicate (pieces.length + 2) .done, (st.put key pieces.flatten).drop id) := by
  rw [run, step_start id key hroom]
  dsimp only
  rw [run_pieces id key [] hpieces st, List.nil_append]
  rfl

/-! ### No reader sees a part of a transfer -/

namespace Whole

variable {st₀ : Store ι κ α} {rs : List (Request ι κ α)} (h : Whole st₀ rs st)
include h

/-- **One request** keeps the values whole. -/
theorem step (r : Request ι κ α) :
    Whole st₀ (rs ++ [r]) (StagedStore.step capacity limit r st).2 := by
  cases r with
  | start id key =>
    rw [StagedStore.step]
    split_ifs
    · exact h.drop (fun _ hne => hne.symm) fun _ => rfl
    · refine ⟨fun _ _ hv => h.committed_snoc _ hv, fun id' key' taken ht => ?_⟩
      by_cases hid : id' = id
      · subst hid
        obtain ⟨rfl, rfl⟩ : key = key' ∧ [] = taken := by
          simpa [Store.stage] using ht
        exact ⟨rs, [], rfl, by simp, rfl⟩
      · exact h.staged_of_ne hid (fun heq => hid heq.symm) rfl ht
  | cancel id => exact h.drop (fun _ hne => hne.symm) fun _ => rfl
  | add id piece =>
    have hsame : ∀ {p : List α}, (p = [] ∨ st.staged id = none) →
        Whole st₀ (rs ++ [.add id p]) st := by
      intro p hp
      refine ⟨fun _ _ hv => h.committed_snoc _ hv, fun id' key taken ht => ?_⟩
      have hsnoc := (h.staged id' key taken ht).snoc (r := .add id p) trivial
      have hnone : (Request.add (κ := κ) id p).adds id' = [] := by
        rw [Request.adds]
        split_ifs with hid
        · obtain hp | hp := hp
          · exact hp
          · rw [← hid, hp] at ht
            exact absurd ht (by simp)
        · rfl
      rwa [hnone, List.append_nil] at hsnoc
    rw [StagedStore.step]
    rcases hstaged : st.staged id with _ | ⟨key, taken⟩
    · exact hsame (.inr hstaged)
    dsimp only
    split_ifs with hpiece
    · exact hsame (.inl hpiece)
    · refine ⟨fun _ _ hv => h.committed_snoc _ hv, fun id' key' taken' ht => ?_⟩
      by_cases hid : id' = id
      · subst hid
        obtain ⟨rfl, rfl⟩ : key = key' ∧ taken ++ piece = taken' := by
          simpa [Store.stage] using ht
        have hsnoc := (h.staged id' key taken hstaged).snoc (r := .add id' piece) trivial
        rwa [Request.adds, if_pos rfl] at hsnoc
      · exact h.staged_of_ne hid trivial (if_neg fun heq => hid heq.symm) ht
  | commit id =>
    rw [StagedStore.step]
    rcases hstaged : st.staged id with _ | ⟨key, taken⟩
    · dsimp only
      refine ⟨fun _ _ hv => h.committed_snoc _ hv, fun id' key taken ht => ?_⟩
      have hid : id' ≠ id := by
        rintro rfl
        rw [hstaged] at ht
        exact absurd ht (by simp)
      have hsnoc := (h.staged id' key taken ht).snoc (r := .commit id) hid.symm
      simpa [Request.adds] using hsnoc
    · refine ⟨fun key' v hv => ?_, fun id' key' taken' ht => ?_⟩
      · by_cases hkey : key' = key
        · obtain rfl : taken = v := by
            simpa [Store.put, Store.drop, hkey] using hv
          exact .inr ⟨rs, [], id, key, rfl, h.staged id key taken hstaged⟩
        · have hold : st.committed key' = some v := by
            simpa [Store.put, Store.drop, hkey] using hv
          exact h.committed_snoc _ hold
      · by_cases hid : id' = id
        · rw [hid] at ht
          simp [Store.drop] at ht
        · exact h.staged_of_ne hid (fun heq => hid heq.symm) rfl ht
  | get key =>
    have hstep : (StagedStore.step capacity limit (.get key) st).2 = st := by
      rw [StagedStore.step]
      rcases st.committed key with _ | v
      · rfl
      · dsimp only
        split_ifs <;> rfl
    rw [hstep]
    exact h.keep (fun _ => rfl) (fun _ => trivial) (fun key v hv => ⟨key, hv⟩) rfl
  | measure key =>
    have hstep : (StagedStore.step capacity limit (.measure key) st).2 = st := by
      rw [StagedStore.step]
      rcases st.committed key with _ | v <;> rfl
    rw [hstep]
    exact h.keep (fun _ => rfl) (fun _ => trivial) (fun key v hv => ⟨key, hv⟩) rfl
  | remove key =>
    rw [StagedStore.step]
    rcases st.committed key with _ | v
    · exact h.keep (fun _ => rfl) (fun _ => trivial) (fun key v hv => ⟨key, hv⟩) rfl
    · refine h.keep (fun _ => rfl) (fun _ => trivial) (fun key' v hv => ⟨key', ?_⟩) rfl
      by_cases hkey : key' = key
      · simp [Store.erase, hkey] at hv
      · simpa [Store.erase, hkey] using hv
  | move src dst =>
    rw [StagedStore.step]
    rcases hsrc : st.committed src with _ | v
    · exact h.keep (fun _ => rfl) (fun _ => trivial) (fun key v hv => ⟨key, hv⟩) rfl
    · refine h.keep (fun _ => rfl) (fun _ => trivial) (fun key' v' hv => ?_) rfl
      by_cases hdst : key' = dst
      · obtain rfl : v = v' := by simpa [Store.put, hdst] using hv
        exact ⟨src, hsrc⟩
      · by_cases hkey : key' = src
        · simp [Store.put, Store.erase, hkey ▸ hdst, hkey] at hv
        · exact ⟨key', by simpa [Store.put, Store.erase, hdst, hkey] using hv⟩
  | ping => exact h.keep (fun _ => rfl) (fun _ => trivial) (fun key v hv => ⟨key, hv⟩) rfl
  | skip => exact h.keep (fun _ => rfl) (fun _ => trivial) (fun key v hv => ⟨key, hv⟩) rfl

/-- After any requests the values are whole. -/
theorem run (rs' : List (Request ι κ α)) :
    Whole st₀ (rs ++ rs') (StagedStore.run capacity limit rs' st).2 := by
  induction rs' generalizing rs st with
  | nil => rwa [List.append_nil]
  | cons r rs' ih =>
    have hstep : Whole st₀ (rs ++ [r]) (StagedStore.step capacity limit r st).2 := h.step r
    have hrest := ih hstep
    rwa [List.append_assoc, List.singleton_append] at hrest

end Whole

end Step

end StagedStore
