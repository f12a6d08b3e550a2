import KeyedStream.MsgPack.Form

/-!
# Records with named fields

A record is written as a map from the names of its fields to their values. It is read in any order
of its fields, none of which may come twice. A field may be left out if its form has a value for that,
and fields that are not the record's own are read over. An array of exactly its values in order is read
as well, and a field may be given by its place in that order.
-/

namespace KeyedStream.MsgPack

/-- A field of a record that is being read into `σ`. -/
structure Slot (σ : Type) where
  name : String
  /-- Reads the field's value, unless the record has it already. -/
  fill : σ → Bytes → Option (σ × Bytes)

def slot {σ α : Type} (name : String) (f : Form α) (get : σ → Option α) (set : σ → α → σ) :
    Slot σ where
  name := name
  fill s bytes :=
    match get s with
    | some _ => none
    | none => (f.read bytes).map fun r => (set s r.1, r.2)

namespace Fields

variable {σ : Type}

/-- The field that a key stands for; a key is a name or a place. -/
inductive Key where
  | name (b : Bytes)
  | place (n : Nat)
deriving DecidableEq, Repr

def readKey (bytes : Bytes) : Option (Key × Bytes) :=
  match Head.read bytes with
  | some (.unsigned n, rest) => some (.place n, rest)
  | some (.text n, rest) | some (.binary n, rest) =>
    (Bytes.take? n rest).map fun r => (.name r.1, r.2)
  | _ => none

/-- The field that a key stands for, if the record has it. -/
def find? (slots : List (Slot σ)) : Key → Option (Slot σ)
  | .name b => slots.find? fun s => Bytes.ofText s.name = b
  | .place n => slots[n]?

/-- Reads `count` fields with their keys. -/
def readEntries (slots : List (Slot σ)) : Nat → σ → Bytes → Option (σ × Bytes)
  | 0, s, bytes => some (s, bytes)
  | count + 1, s, bytes =>
    match readKey bytes with
    | none => none
    | some (key, rest) =>
      let after : Option (σ × Bytes) :=
        match find? slots key with
        | some slot => slot.fill s rest
        | none => (skip (nestingBudget - 1) rest).map fun rest => (s, rest)
      match after with
      | some (s, rest) => readEntries slots count s rest
      | none => none

/-- Reads the values of the fields in order. -/
def readPlaces : List (Slot σ) → σ → Bytes → Option (σ × Bytes)
  | [], s, bytes => some (s, bytes)
  | slot :: slots, s, bytes =>
    match slot.fill s bytes with
    | some (s, rest) => readPlaces slots s rest
    | none => none

def read (slots : List (Slot σ)) (s : σ) (bytes : Bytes) : Option (σ × Bytes) :=
  match Head.read bytes with
  | some (.map n, rest) => readEntries slots n s rest
  | some (.array n, rest) => if n = slots.length then readPlaces slots s rest else none
  | _ => none

end Fields

/-! ## Carts -/

structure Cart where
  id : UInt32 := 0
  owner : String := ""
  checkedOut : Bool := false
deriving DecidableEq, Repr, Inhabited

namespace Cart

/-- A cart of which some fields are known. -/
structure Draft where
  id : Option UInt32 := none
  owner : Option String := none
  checkedOut : Option Bool := none
deriving DecidableEq, Repr

def slots : List (Slot Draft) := [
  slot "id" .uint32 (·.id) fun s v => { s with id := some v },
  slot "owner" .text (·.owner) fun s v => { s with owner := some v },
  slot "checked_out" .bool (·.checkedOut) fun s v => { s with checkedOut := some v }]

/-- The cart, once it has all its fields. -/
def Draft.finish? (p : Draft) : Option Cart := do
  return ⟨← Form.uint32.known p.id, ← Form.text.known p.owner, ← Form.bool.known p.checkedOut⟩

def form : Form Cart where
  write c :=
    Head.writeMap 3 ++ (Form.text.write "id" ++ Form.uint32.write c.id) ++
      (Form.text.write "owner" ++ Form.text.write c.owner) ++
      (Form.text.write "checked_out" ++ Form.bool.write c.checkedOut)
  read bytes :=
    match Fields.read slots {} bytes with
    | some (p, rest) => p.finish?.map fun c => (c, rest)
    | none => none

end Cart

end KeyedStream.MsgPack
