import KeyedStream.InPlace
import KeyedStream.State.Basic

/-!
# Value states

A state that holds one value, in a row that is keyed by the state's name. However often it is
edited, it renders at most one change: the one that its last edit asks for.
-/

namespace KeyedStream

/-- What the last edit of a value state asks for. -/
inductive ValueStatus where
  | unset | updated | deleted
deriving DecidableEq, Repr

def ValueStatus.name : ValueStatus → String
  | unset => "Unset"
  | updated => "Updated"
  | deleted => "Deleted"

structure ValueState (α : Type) where
  name : String
  codec : ValueCodec α
  value : α
  status : ValueStatus := .unset

namespace ValueState

variable {α : Type}

/-- The state without a stored row. -/
def new [Inhabited α] (name : String) (codec : ValueCodec α) : ValueState α :=
  { name, codec, value := default }

def set (s : ValueState α) (v : α) : ValueState α := { s with value := v, status := .updated }

def drop [Inhabited α] (s : ValueState α) : ValueState α :=
  { s with value := default, status := .deleted }

/-- Takes the value over from the first of the stored rows. No row and an empty row leave the state as
it is. -/
def loadInPlace (rows : List StateEntry) : InPlace (ValueState α) Unit := do
  match rows with
  | [] => pure ()
  | row :: _ =>
    if row.value.isEmpty then pure ()
    else
      let v ← liftExcept (liftCodec ((← get).codec.decode row.value))
      modify fun s => { s with value := v }

/-- The state after a load. -/
def load (s : ValueState α) (rows : List StateEntry) : Except Error (ValueState α) :=
  (loadInPlace rows).exec s

theorem loadInPlace_on_cons (s : ValueState α) {row : StateEntry} (rest : List StateEntry)
    (h : row.value ≠ []) :
    (loadInPlace (row :: rest)).on s =
      match liftCodec (s.codec.decode row.value) with
      | .ok v => (.ok (), { s with value := v })
      | .error e => (.error e, s) := by
  have hvalue : ¬ row.value.isEmpty = true := by simpa using h
  simp only [loadInPlace, if_neg hvalue, InPlace.on_bind, InPlace.on_get, InPlace.on_liftExcept,
    InPlace.on_modify]
  cases liftCodec (s.codec.decode row.value) <;> rfl

theorem load_cons_empty (s : ValueState α) {row : StateEntry} (rest : List StateEntry)
    (h : row.value = []) : s.load (row :: rest) = .ok s := by
  rw [load, InPlace.exec, loadInPlace, h, List.isEmpty_nil, if_pos rfl, InPlace.on_pure]

theorem load_cons (s : ValueState α) {row : StateEntry} (rest : List StateEntry)
    (h : row.value ≠ []) :
    s.load (row :: rest) =
      (liftCodec (s.codec.decode row.value)).map fun v => { s with value := v } := by
  rw [load, InPlace.exec, loadInPlace_on_cons s rest h]
  cases liftCodec (s.codec.decode row.value) <;> rfl

def rowKey (s : ValueState α) : Bytes := Bytes.ofText s.name

/-- The change that brings the stored row up to date. -/
def mutations (s : ValueState α) : Except Error (List Mutation) :=
  match s.status with
  | .unset => .ok []
  | .deleted => .ok [.delete s.rowKey]
  | .updated => do
    let v ← liftCodec (s.codec.encode s.value)
    return [.put s.rowKey v]

def text (valueText : α → String) (s : ValueState α) : String :=
  Text.record "ValueState" [("name", Text.quoted s.name), ("value", valueText s.value),
    ("status", s.status.name)]

end ValueState

end KeyedStream
