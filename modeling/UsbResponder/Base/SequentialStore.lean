import UsbResponder.Base.StagedStore

/-!
# A staged store with one client

A store whose values are written in stages, used by a client that finishes each command
before the next, is a map. A command is what the client does to the map in one go: the value
it puts is brought by a whole transfer, the other commands are single requests.

`Command.Asks` says which requests a command makes, and `Command.Asks.attempt_idle` that
they leave the map with the command applied and no transfer in progress, and are answered so
that the client can tell how it went.

A client stops at the first request that is refused (`attempt`), so the requests that follow
it in `Command.Asks` are never made. A command that is refused without an effect is a
`reject`: this is where all checks of arguments end up, and the map says nothing about them.
Several clients at a time are the business of `StagedStore` itself.
-/

namespace StagedStore

variable {ι κ α : Type*}

/-- What a client does to a map. A `reject` stands for a command that is refused without an
effect. -/
inductive Command (κ α : Type*)
  | put (key : κ) (v : List α)
  | get (key : κ)
  | remove (key : κ)
  | move (src dst : κ)
  | ping
  | reject

/-- How a command goes: it is done, it has a value as its result, or it is refused. -/
inductive Outcome (α : Type*)
  | done
  | value (v : List α)
  | failed

/-- A store without transfers: nothing but the map of its committed values. -/
def Store.idle (m : κ → Option (List α)) : Store ι κ α where
  committed := m
  staged _ := none

namespace Command

/-- The keys of a command: those whose values it reads or changes. -/
def keys : Command κ α → List κ
  | .put key _ => [key]
  | .get key => [key]
  | .remove key => [key]
  | .move src dst => [src, dst]
  | .ping => []
  | .reject => []

section Apply

variable [DecidableEq κ]

/-- How a command goes, and the map after it. -/
def apply (m : κ → Option (List α)) : Command κ α → Outcome α × (κ → Option (List α))
  | .put key v => (.done, Function.update m key (some v))
  | .get key =>
    match m key with
    | none => (.failed, m)
    | some v => (.value v, m)
  | .remove key =>
    match m key with
    | none => (.failed, m)
    | some _ => (.done, Function.update m key none)
  | .move src dst =>
    match m src with
    | none => (.failed, m)
    | some v => (.done, Function.update (Function.update m src none) dst (some v))
  | .ping => (.done, m)
  | .reject => (.failed, m)

/-- How commands go one after the other, and the map after them. -/
def applyAll : List (Command κ α) → (κ → Option (List α)) → List (Outcome α) × (κ → Option (List α))
  | [], m => ([], m)
  | c :: cs, m => ((c.apply m).1 :: (applyAll cs (c.apply m).2).1, (applyAll cs (c.apply m).2).2)

end Apply

end Command

/-! ### Requests -/

section Attempt

variable [DecidableEq ι] [DecidableEq κ] (capacity limit : ℕ)

/-- The answers to requests that are made one after the other until one is refused, and the
store after them. Where nothing is refused this is `run`. -/
noncomputable def attempt : List (Request ι κ α) → Store ι κ α → List (Answer α) × Store ι κ α
  | [], st => ([], st)
  | r :: rs, st =>
    match step capacity limit r st with
    | (.refused, st') => ([.refused], st')
    | (a, st') => (a :: (attempt rs st').1, (attempt rs st').2)

variable {capacity limit} {st : Store ι κ α}

theorem attempt_of_refused {r : Request ι κ α} (rs : List (Request ι κ α))
    (h : (step capacity limit r st).1 = .refused) :
    attempt capacity limit (r :: rs) st = ([.refused], (step capacity limit r st).2) := by
  rw [attempt]
  rcases hstep : step capacity limit r st with ⟨a, st'⟩
  rw [hstep] at h
  obtain rfl : a = .refused := h
  rfl

theorem attempt_of_ne {r : Request ι κ α} (rs : List (Request ι κ α))
    (h : (step capacity limit r st).1 ≠ .refused) :
    attempt capacity limit (r :: rs) st =
      ((step capacity limit r st).1 ::
          (attempt capacity limit rs (step capacity limit r st).2).1,
        (attempt capacity limit rs (step capacity limit r st).2).2) := by
  rw [attempt]
  rcases hstep : step capacity limit r st with ⟨a, st'⟩
  rw [hstep] at h
  cases a with
  | refused => exact absurd rfl h
  | done => rfl
  | value v => rfl
  | size n => rfl

/-- Where nothing is refused, all requests are made. -/
private theorem attempt_eq_run {rs : List (Request ι κ α)}
    (h : ∀ a ∈ (run capacity limit rs st).1, a ≠ .refused) :
    attempt capacity limit rs st = run capacity limit rs st := by
  induction rs generalizing st with
  | nil => rfl
  | cons r rs ih =>
    rw [run] at h ⊢
    obtain ⟨hr, hrs⟩ := List.forall_mem_cons.mp h
    rw [attempt_of_ne rs hr, ih hrs]

/-- A single request. -/
private theorem attempt_singleton (r : Request ι κ α) (st : Store ι κ α) :
    attempt capacity limit [r] st =
      ([(step capacity limit r st).1], (step capacity limit r st).2) := by
  by_cases h : (step capacity limit r st).1 = .refused
  · rw [attempt_of_refused [] h, h]
  · rw [attempt_of_ne [] h]
    rfl

end Attempt

/-- The requests that a client makes for a command until one is refused, those of a `put`
with the id and the pieces of its transfer. A `cancel` is a start that the store refuses;
what would have followed does not matter. -/
inductive Command.Asks (id : ι) : Command κ α → List (Request ι κ α) → Prop
  | put (key : κ) {pieces : List (List α)} (hpieces : ∀ piece ∈ pieces, piece ≠ []) :
    Asks id (.put key pieces.flatten) (.start id key :: (pieces.map (.add id) ++ [.commit id]))
  | get (key : κ) : Asks id (.get key) [.get key]
  | remove (key : κ) : Asks id (.remove key) [.remove key]
  | move (src dst : κ) : Asks id (.move src dst) [.move src dst]
  | ping : Asks id .ping [.ping]
  | skip : Asks id .reject [.skip]
  | cancel (rest : List (Request ι κ α)) : Asks id .reject (.cancel id :: rest)

/-- The answers to the requests of a command tell how it goes. Of a `put` every request is
confirmed, and of a command that fails only one answer is ever seen. -/
def Outcome.ToldBy (answers : List (Answer α)) : Outcome α → Prop
  | .done => ∀ a ∈ answers, a = .done
  | .value v => answers = [.value v]
  | .failed => answers = [.refused]

section Sequential

variable [DecidableEq ι] {capacity limit : ℕ} {m : κ → Option (List α)}

private theorem Store.drop_idle (id : ι) : (Store.idle m).drop id =
    (Store.idle m : Store ι κ α) := by
  ext1
  · rfl
  · funext id'
    by_cases hid : id' = id
    · rw [hid]
      exact Function.update_self ..
    · exact Function.update_of_ne hid ..

variable [DecidableEq κ]

private theorem Store.drop_put_idle (id : ι) (key : κ) (v : List α) :
    ((Store.idle m).put key v).drop id =
      (Store.idle (Function.update m key (some v)) : Store ι κ α) :=
  Store.drop_idle id

/-- **One client at a time.** A command whose requests find no transfer in progress leaves
the map with the command applied and no transfer, and the answers tell how it goes. The
cases are the constructors of `Command.Asks`; the only one with more than two requests is
the transfer, which `run_transfer` does. -/
theorem Command.Asks.attempt_idle {id : ι} {c : Command κ α} {rs : List (Request ι κ α)}
    (h : c.Asks id rs) (hcapacity : 0 < capacity)
    (hlimit : ∀ v, (c.apply m).1 = .value v → v.length < limit) :
    (c.apply m).1.ToldBy (attempt capacity limit rs (.idle m)).1 ∧
      (attempt capacity limit rs (.idle m)).2 = .idle (c.apply m).2 := by
  cases h with
  | @put key pieces hpieces =>
    have hroom : ¬((Store.idle m).drop id : Store ι κ α).Full capacity := by
      rw [Store.drop_idle]
      exact Store.not_full_of_idle _ hcapacity fun _ => rfl
    have hrun := @run_transfer _ _ _ _ _ capacity limit _ id key _ hpieces hroom
    have hdone : ∀ a ∈ (List.replicate (pieces.length + 2) Answer.done : List (Answer α)),
        a = .done := fun a ha => List.eq_of_mem_replicate ha
    rw [attempt_eq_run, hrun, Store.drop_put_idle]
    · exact ⟨hdone, rfl⟩
    · rw [hrun]
      intro a ha
      rw [hdone a ha]
      exact nofun
  | get key =>
    rw [attempt_singleton, step, Command.apply]
    rcases hkey : m key with _ | v
    · simp only [Store.idle, hkey]
      exact ⟨rfl, trivial⟩
    · have hlt : v.length < limit := hlimit v (by rw [Command.apply, hkey])
      simp only [Store.idle, hkey, if_pos hlt]
      exact ⟨rfl, trivial⟩
  | remove key =>
    rw [attempt_singleton, step, Command.apply]
    rcases hkey : m key with _ | v
    · simp only [Store.idle, hkey]
      exact ⟨rfl, trivial⟩
    · simp only [Store.idle, hkey]
      exact ⟨by simp [Outcome.ToldBy], rfl⟩
  | move src dst =>
    rw [attempt_singleton, step, Command.apply]
    rcases hsrc : m src with _ | v
    · simp only [Store.idle, hsrc]
      exact ⟨rfl, trivial⟩
    · simp only [Store.idle, hsrc]
      exact ⟨by simp [Outcome.ToldBy], rfl⟩
  | ping =>
    rw [attempt_singleton]
    exact ⟨by simp [Command.apply, Outcome.ToldBy, step], rfl⟩
  | skip =>
    rw [attempt_singleton]
    exact ⟨rfl, rfl⟩
  | cancel rest =>
    rw [attempt_of_refused rest rfl]
    exact ⟨rfl, Store.drop_idle id⟩

end Sequential

end StagedStore
