import KeyedStream.Error
import KeyedStream.Ordered
import KeyedStream.Wire.Batch

/-!
# States of a key

The stored rows of a state are read into memory, edited there, and rendered as the changes that
bring the rows up to date. Here are the changes; the states are in the files beside this one.
-/

namespace KeyedStream

export Wire (StateEntry)

/-- How the rows of a state are looked up. -/
inductive QueryType where
  /-- A single row. -/
  | get
  /-- All rows under a key. -/
  | scan
deriving DecidableEq, Repr

namespace QueryType

def word : QueryType → String
  | get => "get"
  | scan => "scan"

def name : QueryType → String
  | get => "Get"
  | scan => "Scan"

end QueryType

/-- A change to a row of a state. -/
inductive Mutation where
  | put (key value : Bytes)
  | delete (key : Bytes)
deriving DecidableEq, Repr

namespace Mutation

def key : Mutation → Bytes
  | put key _ => key
  | delete key => key

def toWire : Mutation → Wire.StateMutation
  | put key value => ⟨some (.put ⟨key, value⟩)⟩
  | delete key => ⟨some (.delete ⟨key⟩)⟩

/-- The rows after a change. -/
def apply (m : Mutation) (rows : List StateEntry) : List StateEntry :=
  match m with
  | put key value =>
    if rows.any fun e => e.key = key then
      rows.map fun e => if e.key = key then ⟨key, value⟩ else e
    else rows ++ [⟨key, value⟩]
  | delete key => rows.filter fun e => e.key ≠ key

/-- The last change of each row, in the order of the rows' keys. -/
def coalesce (ms : List Mutation) : List Mutation := Ordered.sortBy key ms

end Mutation

end KeyedStream
