import KeyedStream.Instant

/-!
# Contexts

Every callback gets the context of its request: how far event time has come, and a token that says
whether the request was given up. A token may be the child of another one, and is then cancelled
together with it; cancelling a child leaves its parent alone.
-/

namespace KeyedStream

/-- A cancellation token, by its number and those of the tokens that it hangs from. -/
structure Token where
  id : Nat
  ancestors : List Nat := []
deriving DecidableEq, Repr

/-- All tokens: how many there are, and which were cancelled themselves. -/
structure Tokens where
  next : Nat := 0
  cancelled : List Nat := []
deriving DecidableEq, Repr

namespace Tokens

def create (ts : Tokens) : Token × Tokens := (⟨ts.next, []⟩, { ts with next := ts.next + 1 })

def child (ts : Tokens) (t : Token) : Token × Tokens :=
  (⟨ts.next, t.id :: t.ancestors⟩, { ts with next := ts.next + 1 })

/-- Cancels a token, and with it those that hang from it. -/
def cancel (ts : Tokens) (t : Token) : Tokens := { ts with cancelled := t.id :: ts.cancelled }

def isCancelled (ts : Tokens) (t : Token) : Bool :=
  (t.id :: t.ancestors).any fun id => ts.cancelled.contains id

theorem isCancelled_cancel_self (ts : Tokens) (t : Token) :
    (ts.cancel t).isCancelled t = true := by
  simp [isCancelled, cancel]

theorem isCancelled_cancel_of (ts : Tokens) (t u : Token) (h : ts.isCancelled u = true) :
    (ts.cancel t).isCancelled u = true := by
  simp only [isCancelled, cancel, List.any_eq_true, List.contains_eq_mem, List.mem_cons,
    decide_eq_true_eq] at h ⊢
  obtain ⟨id, h₁, h₂⟩ := h
  exact ⟨id, h₁, .inr h₂⟩

end Tokens

/-- The context of a request. -/
structure Context where
  watermark : Instant
  token : Token
deriving DecidableEq

namespace Context

/-- A context that watches a token. -/
def withCancellation (t : Token) : Context := ⟨Instant.epoch, t⟩

/-- A context with a token of its own. -/
def new (ts : Tokens) : Context × Tokens :=
  let (t, ts) := ts.create
  (withCancellation t, ts)

/-- The context with another watermark and the same token. -/
def withWatermark (c : Context) (watermark : Instant) : Context := { c with watermark }

def child (c : Context) (ts : Tokens) : Context × Tokens :=
  let (t, ts) := ts.child c.token
  (withCancellation t, ts)

end Context

end KeyedStream
