import KeyedStream.Assoc
import KeyedStream.InPlace
import KeyedStream.State.Basic

/-!
# Map states

A state that holds a table, with a row for each of its keys: what was loaded, and over it the edits.
Loading anew replaces what was loaded and keeps the edits. The number of visible keys is counted
along.
-/

namespace KeyedStream

/-- The last edit of a key. -/
inductive Update (ν : Type) where
  | put (v : ν)
  | delete
deriving DecidableEq, Repr

/-- A state that holds a table. -/
structure MapState (κ ν : Type) where
  name : String
  codec : MapCodec κ ν
  /-- What was loaded. -/
  baseline : Assoc κ ν := .empty
  /-- The last edit of each key that was edited. -/
  updates : Assoc κ (Update ν) := .empty
  /-- The number of visible keys. -/
  size : Nat := 0

namespace MapState

variable {κ ν : Type} [DecidableEq κ]

omit [DecidableEq κ] in
def new (name : String) (codec : MapCodec κ ν) : MapState κ ν := { name, codec }

/-- The visible value under a key. -/
def get? (s : MapState κ ν) (k : κ) : Option ν :=
  match s.updates.get? k with
  | some (.put v) => some v
  | some .delete => none
  | none => s.baseline.get? k

def contains (s : MapState κ ν) (k : κ) : Bool := (s.get? k).isSome

def set (s : MapState κ ν) (k : κ) (v : ν) : MapState κ ν :=
  { s with
    size := if s.contains k then s.size else s.size + 1
    updates := s.updates.insert k (.put v) }

/-- Takes the value under a visible key away. -/
def delete (s : MapState κ ν) (k : κ) : MapState κ ν :=
  if s.contains k then
    { s with size := s.size - 1, updates := s.updates.insert k .delete }
  else s

theorem get?_set (s : MapState κ ν) (k k' : κ) (v : ν) :
    (s.set k v).get? k' = if k' = k then some v else s.get? k' := by
  by_cases h : k' = k <;> simp [set, get?, h]

theorem get?_delete (s : MapState κ ν) (k k' : κ) :
    (s.delete k).get? k' = if k' = k then none else s.get? k' := by
  unfold delete
  by_cases hk : s.contains k
  · by_cases h : k' = k <;> simp [hk, get?, h]
  · simp only [hk, Bool.false_eq_true, if_false]
    split
    · next h =>
      subst h
      simpa [contains] using hk
    · rfl

/-- What is visible of a loaded entry. -/
def ofBaseline (s : MapState κ ν) (e : κ × ν) : Option (κ × ν) :=
  match s.updates.get? e.1 with
  | some (.put v) => some (e.1, v)
  | some .delete => none
  | none => some e

/-- What is visible of an edit of a key that was not loaded. -/
def added (s : MapState κ ν) (e : κ × Update ν) : Option (κ × ν) :=
  match e.2 with
  | .put v => if s.baseline.contains e.1 then none else some (e.1, v)
  | .delete => none

/-- All visible entries: those that were loaded, and then those that were added. -/
def all (s : MapState κ ν) : List (κ × ν) :=
  s.baseline.entries.filterMap s.ofBaseline ++ s.updates.entries.filterMap s.added

omit [DecidableEq κ] in
def isEmpty (s : MapState κ ν) : Bool := s.size = 0

/-- Reads rows into a table; of rows of one key, the last counts. -/
def readRows (codec : MapCodec κ ν) : List StateEntry → Assoc κ ν → Except Error (Assoc κ ν)
  | [], m => .ok m
  | row :: rows, m => do
    let k ← liftCodec (codec.key.decode row.key)
    let v ← liftCodec (codec.value.decode row.value)
    readRows codec rows (m.insert k v)

/-- Replaces what was loaded, and then counts what there is to see; the edits stay over it. -/
def loadInPlace (rows : List StateEntry) : InPlace (MapState κ ν) Unit := do
  let baseline ← liftExcept (readRows (← get).codec rows .empty)
  modify fun s => { s with baseline }
  modify fun s => { s with size := s.all.length }

/-- The table after a load. -/
def load (s : MapState κ ν) (rows : List StateEntry) : Except Error (MapState κ ν) :=
  (loadInPlace rows).exec s

/-- The table with another baseline, and with its visible keys counted. -/
def rebased (s : MapState κ ν) (baseline : Assoc κ ν) : MapState κ ν :=
  { s with baseline, size := { s with baseline }.all.length }

/-- **A load in place** leaves the table with what the rows hold, or the table as it was. -/
theorem loadInPlace_on_eq (rows : List StateEntry) (s : MapState κ ν) :
    (loadInPlace rows).on s =
      match readRows s.codec rows .empty with
      | .ok baseline => (.ok (), s.rebased baseline)
      | .error e => (.error e, s) := by
  simp only [loadInPlace, InPlace.on_bind, InPlace.on_get, InPlace.on_liftExcept, InPlace.on_modify]
  cases readRows s.codec rows .empty <;> rfl

theorem load_eq (s : MapState κ ν) (rows : List StateEntry) :
    s.load rows = (readRows s.codec rows .empty).map s.rebased := by
  rw [load, InPlace.exec, loadInPlace_on_eq]
  cases readRows s.codec rows .empty <;> rfl

omit [DecidableEq κ] in
/-- The change that an edit asks for. -/
def mutation (codec : MapCodec κ ν) (e : κ × Update ν) : Except Error Mutation := do
  let k ← liftCodec (codec.key.encode e.1)
  match e.2 with
  | .put v => return .put k (← liftCodec (codec.value.encode v))
  | .delete => return .delete k

omit [DecidableEq κ] in
def render (codec : MapCodec κ ν) (es : List (κ × Update ν)) : Except Error (List Mutation) :=
  es.mapM (mutation codec)

omit [DecidableEq κ] in
def mutations (s : MapState κ ν) : Except Error (List Mutation) := render s.codec s.updates.entries

omit [DecidableEq κ] in
/-- The text of a table: its counts of loaded, edited and visible keys. -/
def text (s : MapState κ ν) : String :=
  Text.record "MapState" [("name", Text.quoted s.name), ("original", toString s.baseline.size),
    ("updates", toString s.updates.size), ("size", toString s.size)]

end MapState

end KeyedStream
