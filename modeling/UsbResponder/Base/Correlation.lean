import Mathlib.Tactic

/-!
# Responses that come in the order of their requests

A client sends requests, a server answers them one after another, and the client takes the
responses in the order they were given, without being told which request a response is for.
A request carries a tag, and a response has the tag of its request. Tags may be used again,
for requests that are sent one after the other has been answered, and a client that gives up
on a request leaves its response behind.

`Exchange.InOrder.credited` says when a tag is enough to recognise a response: when, of the
requests whose responses have not been taken, only the last one carries the tag.

The state is two histories, of the requests and of the responses, and how many responses
have been taken. `InOrder` is kept by sending and by answering the request that is next in
line; `Fresh` and `Awaits` describe the tags of what is outstanding, and are what a client
has to keep up by its choice of tags. Neither mentions why a client left a response behind,
so any mixture of successes, errors and time-outs is covered.
-/

namespace Correlation

variable {α β ι : Type*}

/-- The requests and the responses so far, oldest first, and how many of the responses have
been taken. Both histories only grow, so a response keeps its place. -/
structure Exchange (α β : Type*) where
  requests : List α
  responses : List β
  taken : ℕ

namespace Exchange

/-- Nothing has been sent. -/
def empty : Exchange α β := ⟨[], [], 0⟩

/-- The client sends a request. -/
def send (x : Exchange α β) (a : α) : Exchange α β := { x with requests := x.requests ++ [a] }

/-- The server gives a response. -/
def respond (x : Exchange α β) (b : β) : Exchange α β := { x with responses := x.responses ++ [b] }

/-- The client takes a response. -/
def take (x : Exchange α β) : Exchange α β := { x with taken := x.taken + 1 }

/-- The request that is answered next: the first one that has no response, since responses
are given in the order of the requests. -/
def pending (x : Exchange α β) : Option α := x.requests[x.responses.length]?

/-- The response that is taken next. It was given, and all responses in front of it have
been taken. -/
def arriving (x : Exchange α β) : Option β := x.responses[x.taken]?

/-- The requests whose responses have not been taken, whether or not they have been given
yet. -/
def outstanding (x : Exchange α β) : List α := x.requests.drop x.taken

/-! ### Order -/

/-- Every response answers the request at its place. This is all that is assumed of a
server: it neither skips a request nor answers one twice. -/
def InOrder (Answers : α → β → Prop) (x : Exchange α β) : Prop :=
  ∀ (i : ℕ) (b : β), x.responses[i]? = some b → ∃ a, x.requests[i]? = some a ∧ Answers a b

variable {Answers : α → β → Prop} {x : Exchange α β} {a : α} {b : β}

theorem inOrder_empty : (empty : Exchange α β).InOrder Answers := by
  intro i b hb
  simp [empty] at hb

theorem InOrder.send (h : x.InOrder Answers) (a : α) : (x.send a).InOrder Answers := by
  intro i b hb
  obtain ⟨a', ha', hans⟩ := h i b hb
  obtain ⟨hlt, -⟩ := List.getElem?_eq_some_iff.mp ha'
  exact ⟨a', by rw [Exchange.send, List.getElem?_append_left hlt, ha'], hans⟩

theorem InOrder.respond (h : x.InOrder Answers) (ha : x.pending = some a) (hab : Answers a b) :
    (x.respond b).InOrder Answers := by
  intro i b' hb'
  rw [Exchange.respond, List.getElem?_append] at hb'
  split_ifs at hb' with hlt
  · exact h i b' hb'
  · -- the response just given stands at the place of the request it answers
    obtain ⟨hlast, rfl⟩ := List.getElem?_eq_some_iff.mp hb'
    rw [List.length_singleton] at hlast
    obtain rfl : i = x.responses.length := by omega
    exact ⟨a, ha, by simpa using hab⟩

/-! ### Tags -/

variable (tag : α → ι)

/-- No request with the tag waits for its response. A client may then use the tag for its
next request. -/
def Fresh (t : ι) (x : Exchange α β) : Prop := ∀ a ∈ x.outstanding, tag a ≠ t

/-- The last request is `a`, and no other one with its tag waits for its response. This is
what a client knows of itself while it waits. -/
def Awaits (a : α) (x : Exchange α β) : Prop :=
  ∃ earlier, x.requests = earlier ++ [a] ∧ ∀ a' ∈ earlier.drop x.taken, tag a' ≠ tag a

variable {tag} {t : ι}

theorem Fresh.send (h : x.Fresh tag (tag a)) : (x.send a).Awaits tag a := ⟨x.requests, rfl, h⟩

theorem Fresh.of_unused (h : ∀ a ∈ x.requests, tag a ≠ t) : x.Fresh tag t :=
  fun a ha => h a (List.mem_of_mem_drop ha)

/-- **Crediting a response.** A response with the tag of the last request is the response to
it, when no other request with the tag waits for its response: the response has the tag of
the request at its place, and of the requests that can be at this place only the last one
has the tag. -/
theorem InOrder.credited {tag' : β → ι} (h : x.InOrder Answers)
    (htag : ∀ a b, Answers a b → tag' b = tag a) (ha : x.Awaits tag a)
    (hb : x.arriving = some b) (heq : tag' b = tag a) :
    ∃ earlier, x.requests = earlier ++ [a] ∧ x.taken = earlier.length ∧ Answers a b := by
  obtain ⟨earlier, hrequests, hothers⟩ := ha
  obtain ⟨a', ha', hans⟩ := h x.taken b hb
  obtain ⟨hlt, hget⟩ := List.getElem?_eq_some_iff.mp ha'
  rw [hrequests, List.length_append, List.length_singleton] at hlt
  rcases Nat.lt_succ_iff_lt_or_eq.mp hlt with hearlier | hlast
  · -- the response to an earlier request has another tag
    have hmem : a' ∈ earlier.drop x.taken := by
      rw [hrequests, List.getElem?_append_left hearlier] at ha'
      refine List.mem_of_getElem? (i := 0) ?_
      rwa [List.getElem?_drop, Nat.add_zero]
    exact absurd ((htag a' b hans).symm.trans heq) (hothers a' hmem)
  · refine ⟨earlier, hrequests, hlast, ?_⟩
    rw [hrequests, hlast, List.getElem?_concat_length] at ha'
    obtain rfl := Option.some.inj ha'
    exact hans

/-- When the response to the last request has been taken nothing is outstanding. -/
theorem fresh_take_of_last {earlier : List α} (hrequests : x.requests = earlier ++ [a])
    (htaken : x.taken = earlier.length) (t : ι) : x.take.Fresh tag t := by
  intro a' ha'
  rw [outstanding, take, hrequests, htaken, List.drop_of_length_le (by simp)] at ha'
  exact absurd ha' List.not_mem_nil

end Exchange

end Correlation
