import Mathlib
import KeyedStream.Batch

/-!
# Delivered rows

What a key's subject starts with. Of several deliveries for a key the last one counts, and inside it
the last list of rows under a name; without one there are no rows (`deliveredRows`). The batch keeps
its deliveries in a map that later ones overwrite, and `get?_rows_new` says that this is the same.
-/

namespace KeyedStream

namespace Assoc

variable {κ ν : Type} [DecidableEq κ]

theorem ofList_concat (l : List (κ × ν)) (e : κ × ν) :
    ofList (l ++ [e]) = (ofList l).insert e.1 e.2 := by
  simp [ofList]

/-- Of the entries of a key, the last one counts. -/
theorem get?_ofList (l : List (κ × ν)) (k : κ) :
    (ofList l).get? k = ((l.filter fun e => e.1 = k).getLast?).map Prod.snd := by
  induction l using List.reverseRecOn with
  | nil => rfl
  | append_singleton l e ih =>
    rw [ofList_concat, get?_insert, List.filter_append]
    by_cases h : k = e.1
    · simp [h]
    · rw [if_neg h, ih, List.filter_singleton]
      simp [Ne.symm h]

end Assoc

/-- The last delivery for a key. -/
def lastDelivery? (keyStates : List Wire.KeyState) (key : Bytes) : Option Wire.KeyState :=
  (keyStates.filter fun s => s.key = key).getLast?

/-- The rows of a state that a delivery holds: of several lists under its name, the last. -/
def rowsIn (s : Wire.KeyState) (name : String) : List StateEntry :=
  match (s.stateEntryNamespaces.filter fun n => n.name = name).getLast? with
  | some n => n.entries
  | none => []

/-- The rows that are delivered for a state of a key. -/
def deliveredRows (keyStates : List Wire.KeyState) (key : Bytes) (name : String) : List StateEntry :=
  match lastDelivery? keyStates key with
  | some s => rowsIn s name
  | none => []

/-- The subject of a key before its first event. -/
def Subject.initial {κ : Type} {Item : κ → Type} (keyStates : List Wire.KeyState) (key : Bytes) :
    Subject Item where
  key := key
  timestamp := Instant.epoch
  rows := ((lastDelivery? keyStates key).map fun s => Batch.namedRows s.stateEntryNamespaces).getD .empty

namespace Batch

variable {κ : Type} {Item : κ → Type}

theorem getD_get?_namedRows (s : Wire.KeyState) (name : String) :
    ((namedRows s.stateEntryNamespaces).get? name).getD [] = rowsIn s name := by
  rw [namedRows, Assoc.get?_ofList, List.filter_map, List.getLast?_map, rowsIn]
  simp only [Function.comp_def]
  cases (s.stateEntryNamespaces.filter fun n => n.name = name).getLast? <;> rfl

theorem get?_rows_new (keyStates : List Wire.KeyState) (key : Bytes) :
    (new keyStates : Batch Item).rows.get? key =
      (lastDelivery? keyStates key).map fun s => namedRows s.stateEntryNamespaces := by
  rw [new, Assoc.get?_ofList, List.filter_map, List.getLast?_map, Option.map_map]
  rfl

end Batch

theorem Subject.entries_initial {κ : Type} {Item : κ → Type} (keyStates : List Wire.KeyState)
    (key : Bytes) (name : String) :
    (Subject.initial keyStates key : Subject Item).entries name = deliveredRows keyStates key name := by
  unfold Subject.entries Subject.initial deliveredRows
  cases lastDelivery? keyStates key with
  | none => rfl
  | some s => exact Batch.getD_get?_namedRows s name

end KeyedStream
