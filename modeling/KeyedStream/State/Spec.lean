import KeyedStream.Operator
import KeyedStream.State.Map
import KeyedStream.State.Value
import KeyedStream.Subject

/-!
# State specs

A spec says how a named state is looked up, how it is read from its rows, and how its changes are
rendered. A subject loads the state once, on the first use, and keeps it for every later one.
-/

namespace KeyedStream

/-- The schema of a named state. -/
structure StateSpec {κ : Type} (Item : κ → Type) (k : κ) where
  id : String
  query : QueryType
  load : List StateEntry → Except Error (Item k)
  mutationsOf : Item k → Except Error (List Mutation)

namespace StateSpec

variable {κ : Type} [DecidableEq κ] {Item : κ → Type} {k : κ}

def typeMismatch (id : String) : Error :=
  .internal ("state " ++ id ++ " is cached with a different type")

/-- The state of this spec's type, if it is one. -/
def cast? (k : κ) (item : AnyItem Item) : Option (Item k) :=
  if h : item.1 = k then some (h ▸ item.2) else none

/-- How a state that is kept under the spec's name is rendered. -/
def renderer (spec : StateSpec Item k) : Renderer Item := fun item =>
  match cast? k item with
  | some state => spec.mutationsOf state
  | none => .error (typeMismatch spec.id)

/-- The state that is kept under the spec's name, if it has the spec's type. -/
def kept (spec : StateSpec Item k) (s : Subject Item) : Except Error (Item k) :=
  match (s.loaded.get? spec.id).bind (cast? k) with
  | some state => .ok state
  | none => .error (typeMismatch spec.id)

/-- Loads the state from the subject's rows on the first use, and keeps it; then hands out what is
kept. The load is an action that may have effects of its own. -/
def stateForBy {m : Type → Type} [Monad m] (spec : StateSpec Item k)
    (load : List StateEntry → m (Except Error (Item k))) : InPlaceT m (Subject Item) (Item k) := do
  unless (← get).loaded.contains spec.id do
    let rows := (← get).entries spec.id
    let loaded : Except Error (Item k) ← liftM (load rows)
    let state ← liftExcept (loaded.mapError (Error.stateLoad spec.id))
    modify (·.registerUse spec.id spec.renderer)
    modify (·.store spec.id ⟨k, state⟩)
  liftExcept (spec.kept (← get))

/-- Loads the state on the first use and keeps it, and then hands out what is kept. -/
def stateForInPlace (spec : StateSpec Item k) : InPlace (Subject Item) (Item k) :=
  spec.stateForBy (m := Id) fun rows => pure (spec.load rows)

/-- The state of a subject. On the first use it is loaded from the subject's rows, and kept. -/
def stateFor (spec : StateSpec Item k) (s : Subject Item) : Except Error (Item k) × Subject Item :=
  spec.stateForInPlace.on s

def put (spec : StateSpec Item k) (s : Subject Item) (state : Item k) : Subject Item :=
  s.store spec.id ⟨k, state⟩

omit [DecidableEq κ] in
def text (spec : StateSpec Item k) : String :=
  Text.openRecord "StateSpec" [("id", Text.quoted spec.id), ("query", spec.query.name)]

omit [DecidableEq κ] in
/-- Declares the state to the operator that uses it. -/
def declare (spec : StateSpec Item k) (op : Operator) : Operator := op.registerSpec spec.id spec.query

end StateSpec

/-! ## Specs of the two kinds of states -/

def ValueState.ofRows {α : Type} [Inhabited α] (name : String) (codec : ValueCodec α)
    (rows : List StateEntry) : Except Error (ValueState α) :=
  (ValueState.new name codec).load rows

def MapState.ofRows {α β : Type} [DecidableEq α] (name : String) (codec : MapCodec α β)
    (rows : List StateEntry) : Except Error (MapState α β) :=
  (MapState.new name codec).load rows

end KeyedStream
