import KeyedStream.Assoc
import KeyedStream.State.Basic

/-!
# Subjects

A subject is a key for the time of a batch: the rows that were delivered for it, and what its
callbacks come to, which are timers, sink requests and the states they touched. A touched state is
kept with the subject, under its name, and so is the way to render its changes.

States of different types live side by side: a type of states is given by an index of the family
`Item`, and a state is kept together with its index.
-/

namespace KeyedStream

abbrev NamedRows := Assoc String (List StateEntry)

/-- A state of any type of a family. -/
abbrev AnyItem {κ : Type} (Item : κ → Type) := (k : κ) × Item k

/-- How the changes of a kept state are rendered. -/
abbrev Renderer {κ : Type} (Item : κ → Type) := AnyItem Item → Except Error (List Mutation)

/-- A key for the time of a batch. -/
structure Subject {κ : Type} (Item : κ → Type) where
  key : Bytes
  /-- The time of the event or timer that is being handled. -/
  timestamp : Instant
  /-- The rows that were delivered. -/
  rows : NamedRows := .empty
  timers : List Instant := []
  sinkRequests : List Wire.SinkRequest := []
  /-- How to render the states that were touched. -/
  used : Ordered String (Renderer Item) := .empty
  /-- The states that were loaded. -/
  loaded : Assoc String (AnyItem Item) := .empty

namespace Subject

variable {κ : Type} {Item : κ → Type}

/-- Sets a timer. Timers of one time are all kept. -/
def setTimer (s : Subject Item) (t : Instant) : Subject Item := { s with timers := s.timers ++ [t] }

/-- The rows that were delivered for a state. -/
def entries (s : Subject Item) (name : String) : List StateEntry := (s.rows.get? name).getD []

/-- Says how a touched state is rendered. -/
def registerUse (s : Subject Item) (name : String) (r : Renderer Item) : Subject Item :=
  { s with used := s.used.insert name r }

/-- Asks for a payload to be delivered to a sink. -/
def addSinkRequest (s : Subject Item) (id : String) (payload : Bytes) : Subject Item :=
  { s with sinkRequests := s.sinkRequests ++ [⟨id, payload⟩] }

def store (s : Subject Item) (name : String) (item : AnyItem Item) : Subject Item :=
  { s with loaded := s.loaded.insert name item }

def renderError (name : String) (e : Error) : Error :=
  .internal ("failed to get mutations for state " ++ name ++ ": " ++ e.message)

/-- The changes of a touched state. -/
def renderUse (s : Subject Item) (name : String) (r : Renderer Item) :
    Except Error (List Mutation) :=
  let rendered :=
    match s.loaded.get? name with
    | some item => r item
    | none => .error (.internal ("state " ++ name ++ " was used but never loaded"))
  match rendered with
  | .ok ms => .ok ms
  | .error e => .error (renderError name e)

/-- The changes of the touched states, by name. -/
def namespaces (s : Subject Item) :
    List (String × Renderer Item) → Except Error (List Wire.StateMutationNamespace)
  | [] => .ok []
  | (name, r) :: rest => do
    let ms ← s.renderUse name r
    let others ← s.namespaces rest
    return { name, mutations := (Mutation.coalesce ms).map Mutation.toWire } :: others

/-- What the events of the subject came to. -/
def encode (s : Subject Item) : Except Error Wire.KeyResult := do
  let namespaces ← s.namespaces s.used.entries
  return { key := s.key, newTimers := s.timers.map .ofInstant, stateMutationNamespaces := namespaces }

def text (s : Subject Item) : String :=
  Text.openRecord "Subject"
    [("key", Text.bracketed (s.key.map fun b => toString b.toNat)),
     ("timestamp", s.timestamp.text),
     ("timers", toString s.timers.length),
     ("sink_requests", toString s.sinkRequests.length),
     ("used_states", Text.bracketed (s.used.keys.map Text.quoted))]

end Subject

end KeyedStream
