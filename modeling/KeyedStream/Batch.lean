import KeyedStream.Subject

/-!
# Batches

A batch has one subject for each key that comes up in it, in the order in which the keys come up
first. The rows that were delivered for a key go to its subject; rows of keys that do not come up
are left over. Of two deliveries for one key, and of two lists of rows under one name, the later
one counts.
-/

namespace KeyedStream

/-- The subjects of a batch. -/
structure Batch {κ : Type} (Item : κ → Type) where
  subjects : List (Subject Item) := []
  /-- The place of each key's subject. -/
  index : Assoc Bytes Nat := .empty
  /-- The rows of keys that have not come up. -/
  rows : Assoc Bytes NamedRows := .empty

namespace Batch

variable {κ : Type} {Item : κ → Type}

/-- The rows of states, by name. -/
def namedRows (namespaces : List Wire.StateEntryNamespace) : NamedRows :=
  .ofList (namespaces.map fun n => (n.name, n.entries))

def new (keyStates : List Wire.KeyState) : Batch Item :=
  { rows := .ofList (keyStates.map fun s => (s.key, namedRows s.stateEntryNamespaces)) }

def size (b : Batch Item) : Nat := b.subjects.length

def isEmpty (b : Batch Item) : Bool := b.subjects.isEmpty

/-- The subject of a key that has come up, with its place. -/
def find? (b : Batch Item) (key : Bytes) : Option (Nat × Subject Item) := do
  let place ← b.index.get? key
  let s ← b.subjects[place]?
  return (place, s)

def put (b : Batch Item) (place : Nat) (s : Subject Item) : Batch Item :=
  { b with subjects := b.subjects.set place s }

/-- Makes the subject of a key that has not come up. -/
def create (b : Batch Item) (key : Bytes) (timestamp : Instant) : Subject Item × Batch Item :=
  let s : Subject Item := { key, timestamp, rows := (b.rows.get? key).getD .empty }
  (s, { subjects := b.subjects ++ [s], index := b.index.insert key b.subjects.length,
        rows := b.rows.erase key })

/-- The subject of a key, at a time, with its place. -/
def subjectFor (b : Batch Item) (key : Bytes) (timestamp : Instant) :
    Nat × Subject Item × Batch Item :=
  match b.find? key with
  | some (place, s) =>
    let s := { s with timestamp }
    (place, s, b.put place s)
  | none =>
    let (s, b') := b.create key timestamp
    (b.size, s, b')

/-- What the subjects came to: a result for each, and all sink requests, in the order of the
subjects. -/
def collect : List (Subject Item) → Except Error Wire.ProcessEventBatchResponse
  | [] => .ok {}
  | s :: rest => do
    let result ← s.encode
    let others ← collect rest
    return { keyResults := result :: others.keyResults,
             sinkRequests := s.sinkRequests ++ others.sinkRequests }

def response (b : Batch Item) : Except Error Wire.ProcessEventBatchResponse := collect b.subjects

end Batch

end KeyedStream
