import KeyedStream.Codec.ValueType
import KeyedStream.State.Spec

/-!
# States of scripted handlers

The states that a scripted handler can declare: a value, a table, or a recorder, which keeps the
rows that it was loaded from and renders the changes that were pushed to it, as they were pushed.
-/

namespace KeyedStream.Script

inductive ItemKind where
  | value (t : ValueType)
  | map (key value : ScalarType)
  | recorder
deriving DecidableEq, Repr

/-- A state that keeps its rows and the changes that were pushed to it. -/
structure Recorder where
  name : String
  rows : List StateEntry := []
  pushed : List Mutation := []
  /-- Whether rendering fails. -/
  failing : Bool := false
deriving DecidableEq

namespace Recorder

def mutations (r : Recorder) : Except Error (List Mutation) :=
  if r.failing then .error (.handler "scripted mutations failure") else .ok r.pushed

end Recorder

def Item : ItemKind → Type
  | .value t => ValueState t.Carrier
  | .map k v => MapState k.Carrier v.Carrier
  | .recorder => Recorder

namespace Item

def load : (k : ItemKind) → Item k → List StateEntry → Except Error (Item k)
  | .value _, (s : ValueState _), rows => s.load rows
  | .map _ _, (s : MapState _ _), rows => s.load rows
  | .recorder, (s : Recorder), rows => .ok { s with rows }

def name : (k : ItemKind) → Item k → String
  | .value _, (s : ValueState _) => s.name
  | .map _ _, (s : MapState _ _) => s.name
  | .recorder, (s : Recorder) => s.name

def mutations : (k : ItemKind) → Item k → Except Error (List Mutation)
  | .value _, (s : ValueState _) => s.mutations
  | .map _ _, (s : MapState _ _) => s.mutations
  | .recorder, (s : Recorder) => s.mutations

def text : (k : ItemKind) → Item k → String
  | .value t, (s : ValueState _) => s.text t.text
  | .map _ _, (s : MapState _ _) => s.text
  | .recorder, (s : Recorder) => s.name

end Item

/-! ## Declarations -/

/-- What is declared of a state besides its name. -/
inductive Shape where
  /-- A value, and what is said of a stored value that cannot be read as MessagePack. -/
  | value (t : ValueType) (width : IntWidth) (complaint : Bytes → String := fun _ => "")
  | map (key value : ScalarType) (width : IntWidth)
  | recorder (query : QueryType) (failLoad : Bool)

namespace Shape

def kind : Shape → ItemKind
  | value t _ _ => .value t
  | map k v _ => .map k v
  | recorder _ _ => .recorder

def empty (name : String) : (s : Shape) → Item s.kind
  | value t width complaint =>
    (ValueState.new name (t.codec width complaint) : ValueState t.Carrier)
  | map k v width => (MapState.new name (.scalar k v width) : MapState k.Carrier v.Carrier)
  | recorder _ _ => ({ name } : Recorder)

def query : Shape → QueryType
  | value _ _ _ => .get
  | map _ _ _ => .scan
  | recorder query _ => query

def failLoad : Shape → Bool
  | recorder _ failLoad => failLoad
  | _ => false

end Shape

structure Declaration where
  id : String
  /-- The name by which steps speak of the state. -/
  label : String
  shape : Shape

namespace Declaration

abbrev kind (d : Declaration) : ItemKind := d.shape.kind

def empty (d : Declaration) : Item d.kind := d.shape.empty d.id

def spec (d : Declaration) : StateSpec Item d.kind where
  id := d.id
  query := d.shape.query
  load rows :=
    if d.shape.failLoad then .error (.protocol "scripted load failure")
    else Item.load d.kind d.empty rows
  mutationsOf := Item.mutations d.kind

def specText (d : Declaration) : Option String :=
  match d.shape with
  | .recorder _ _ => some d.spec.text
  | _ => none

end Declaration

end KeyedStream.Script
