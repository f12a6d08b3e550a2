import KeyedStream.Assoc
import KeyedStream.InPlace
import KeyedStream.State.Basic
import KeyedStream.Subject

/-!
# Operators

What an operator declares before it runs: the states that it uses, with the way each is looked up,
and the sinks that it writes to. Delivering to a sink is not the operator's work; it asks for it
with its subject.
-/

namespace KeyedStream

structure Sink where
  id : String
deriving DecidableEq, Repr

namespace Sink

variable {κ : Type} {Item : κ → Type}

def collect (sink : Sink) (s : Subject Item) (payload : Bytes) : Subject Item :=
  s.addSinkRequest sink.id payload

/-- Turns a value into its stored form, and then asks for it to be delivered. -/
def collectWithInPlace {α : Type} (sink : Sink) (codec : ValueCodec α) (v : α) :
    InPlace (Subject Item) Unit := do
  let payload ← liftExcept (liftCodec (codec.encode v))
  modify (sink.collect · payload)

/-- Asks for a value to be delivered in its stored form. -/
def collectWith {α : Type} (sink : Sink) (codec : ValueCodec α) (s : Subject Item) (v : α) :
    Except Error Unit × Subject Item :=
  (sink.collectWithInPlace codec v).on s

theorem collectWith_eq {α : Type} (sink : Sink) (codec : ValueCodec α) (s : Subject Item) (v : α) :
    sink.collectWith codec s v =
      match liftCodec (codec.encode v) with
      | .ok payload => (.ok (), sink.collect s payload)
      | .error e => (.error e, s) := by
  simp only [collectWith, collectWithInPlace, InPlace.on_bind, InPlace.on_liftExcept,
    InPlace.on_modify]
  cases liftCodec (codec.encode v) <;> rfl

end Sink

/-- What an operator declares. -/
structure Operator where
  id : String
  /-- The declared states, by name. -/
  specs : Ordered String QueryType := .empty
  /-- The connected sinks, in the order in which they were connected. -/
  sinks : List String := []

namespace Operator

/-- Declares a state; one that was declared under the same name is replaced. -/
def registerSpec (op : Operator) (id : String) (query : QueryType) : Operator :=
  { op with specs := op.specs.insert id query }

def queryType? (op : Operator) (id : String) : Option QueryType := op.specs.get? id

/-- Connects a sink, unless it is connected already. -/
def registerSink (op : Operator) (id : String) : Sink × Operator :=
  (⟨id⟩, if op.sinks.contains id then op else { op with sinks := op.sinks ++ [id] })

end Operator

end KeyedStream
