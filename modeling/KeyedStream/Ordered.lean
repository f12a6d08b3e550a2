import KeyedStream.Assoc

/-!
# Ordered maps

A finite map as a list of entries in ascending order of their keys (`ascending`). Inserting under a
key that is there replaces its value (`get?_insert`), so a fold of insertions keeps, for every key,
the last value. A look-up and a listing of the entries agree (`get?_eq_some_iff`).
-/

namespace KeyedStream

/-- A strict order in which, of two different keys, one comes first. -/
class KeyOrder (κ : Type) [LT κ] : Prop where
  trans {a b c : κ} : a < b → b < c → a < c
  irrefl (a : κ) : ¬ a < a
  connected {a b : κ} : ¬ a < b → ¬ a = b → b < a

/-- Texts are ordered by their characters. -/
instance : KeyOrder String where
  trans := String.lt_trans
  irrefl := String.lt_irrefl
  connected h hne := Decidable.byContradiction fun h' =>
    hne (String.le_antisymm (String.not_lt.1 h') (String.not_lt.1 h))

/-- Byte strings are ordered by their bytes. -/
instance : KeyOrder (List UInt8) where
  trans := List.lt_trans
  irrefl := List.lt_irrefl
  connected h hne := Decidable.byContradiction fun h' =>
    hne (List.le_antisymm (List.not_lt.1 h') (List.not_lt.1 h))

/-- A finite map whose keys ascend. -/
structure Ordered (κ ν : Type) [LT κ] where
  entries : List (κ × ν)
  ascending : (entries.map Prod.fst).Pairwise (· < ·)

namespace Ordered

variable {κ ν : Type} [LT κ]

/-! ## Lists of entries -/

section Put

variable [DecidableLT κ] [DecidableEq κ]

/-- Puts a value under a key, at the key's place in the order. -/
def put (k : κ) (v : ν) : List (κ × ν) → List (κ × ν)
  | [] => [(k, v)]
  | (k', v') :: r =>
    if k < k' then (k, v) :: (k', v') :: r
    else if k = k' then (k, v) :: r
    else (k', v') :: put k v r

theorem mem_keys_put (k : κ) (v : ν) (l : List (κ × ν)) (a : κ) :
    a ∈ (put k v l).map Prod.fst ↔ a = k ∨ a ∈ l.map Prod.fst := by
  induction l with
  | nil => simp [put]
  | cons e r ih =>
    obtain ⟨k', v'⟩ := e
    rw [put]
    split
    · simp
    · split
      · next h => simp [h]
      · rw [List.map_cons, List.mem_cons, ih, List.map_cons, List.mem_cons]
        exact or_left_comm

theorem ascending_put [KeyOrder κ] (k : κ) (v : ν) {l : List (κ × ν)}
    (h : (l.map Prod.fst).Pairwise (· < ·)) : ((put k v l).map Prod.fst).Pairwise (· < ·) := by
  induction l with
  | nil => simp [put]
  | cons e r ih =>
    obtain ⟨k', v'⟩ := e
    obtain ⟨hall, hr⟩ := List.pairwise_cons.1 h
    rw [put]
    split
    · next hlt =>
      refine List.pairwise_cons.2 ⟨fun a ha => ?_, h⟩
      rcases List.mem_cons.1 ha with rfl | ha
      · exact hlt
      · exact KeyOrder.trans hlt (hall a ha)
    · next hlt =>
      split
      · next heq => subst heq; exact h
      · next hne =>
        refine List.pairwise_cons.2 ⟨fun a ha => ?_, ih hr⟩
        rcases (mem_keys_put k v r a).1 ha with rfl | ha
        · exact KeyOrder.connected hlt hne
        · exact hall a ha

theorem find?_put (k k' : κ) (v : ν) (l : List (κ × ν)) :
    Assoc.find? k' (put k v l) = if k' = k then some v else Assoc.find? k' l := by
  induction l with
  | nil => simp [put, Assoc.find?, eq_comm]
  | cons e r ih =>
    obtain ⟨a, b⟩ := e
    by_cases hk : k' = k
    · subst hk
      rw [put]
      split
      · simp [Assoc.find?]
      · split
        · simp [Assoc.find?]
        · next h => simp [Assoc.find?, ih, Ne.symm h]
    · rw [put]
      split
      · simp [Assoc.find?, Ne.symm hk]
      · split
        · next h => subst h; simp [Assoc.find?, Ne.symm hk]
        · simp [Assoc.find?, ih, hk]

end Put

/-! ## The map -/

def empty : Ordered κ ν := ⟨[], List.Pairwise.nil⟩

def keys (m : Ordered κ ν) : List κ := m.entries.map Prod.fst

def size (m : Ordered κ ν) : Nat := m.entries.length

def get? [DecidableEq κ] (m : Ordered κ ν) (k : κ) : Option ν := Assoc.find? k m.entries

theorem nodup_keys [KeyOrder κ] (m : Ordered κ ν) : m.keys.Nodup :=
  List.Pairwise.imp (fun {a b} (hlt : a < b) (heq : a = b) => KeyOrder.irrefl b (heq ▸ hlt))
    m.ascending

theorem get?_eq_some_iff [DecidableEq κ] [KeyOrder κ] (m : Ordered κ ν) {k : κ} {v : ν} :
    m.get? k = some v ↔ (k, v) ∈ m.entries :=
  Assoc.find?_eq_some_iff m.nodup_keys

theorem mem_keys_iff [DecidableEq κ] [KeyOrder κ] (m : Ordered κ ν) {k : κ} :
    k ∈ m.keys ↔ ∃ v, m.get? k = some v := by
  simp [keys, get?_eq_some_iff]

@[simp] theorem get?_empty [DecidableEq κ] (k : κ) : (empty : Ordered κ ν).get? k = none := rfl

section Insert

variable [DecidableLT κ] [DecidableEq κ] [KeyOrder κ]

/-- Puts a value under a key, in place of the one that was there. -/
def insert (m : Ordered κ ν) (k : κ) (v : ν) : Ordered κ ν :=
  ⟨put k v m.entries, ascending_put k v m.ascending⟩

/-- The map of a list of entries, where the last entry of a key counts. -/
def ofList (l : List (κ × ν)) : Ordered κ ν := l.foldl (fun m e => m.insert e.1 e.2) empty

/-- Sorts by a key; of entries with one key the last is kept. -/
def sortBy {α : Type} (key : α → κ) (l : List α) : List α :=
  (ofList (l.map fun a => (key a, a))).entries.map Prod.snd

@[simp] theorem get?_insert (m : Ordered κ ν) (k k' : κ) (v : ν) :
    (m.insert k v).get? k' = if k' = k then some v else m.get? k' :=
  find?_put k k' v m.entries

end Insert

end Ordered

end KeyedStream
