/-!
# Association lists

A finite map kept in the order in which its keys first came. No key comes twice (`nodup`), so a
look-up and a listing of the entries agree (`get?_eq_some_iff`), and replacing a value leaves the
order alone.
-/

namespace KeyedStream

/-- A finite map as a list of entries with distinct keys. -/
structure Assoc (κ ν : Type) where
  entries : List (κ × ν)
  nodup : (entries.map Prod.fst).Nodup

namespace Assoc

variable {κ ν : Type} [DecidableEq κ]

/-! ## Lists of entries -/

/-- The first value under a key. -/
def find? (k : κ) : List (κ × ν) → Option ν
  | [] => none
  | (k', v) :: r => if k' = k then some v else find? k r

/-- Replaces the value under a key, or adds an entry at the end. -/
def put (k : κ) (v : ν) : List (κ × ν) → List (κ × ν)
  | [] => [(k, v)]
  | (k', v') :: r => if k' = k then (k, v) :: r else (k', v') :: put k v r

theorem keys_put (k : κ) (v : ν) (l : List (κ × ν)) :
    (put k v l).map Prod.fst = if k ∈ l.map Prod.fst then l.map Prod.fst else l.map Prod.fst ++ [k] := by
  induction l with
  | nil => simp [put]
  | cons e r ih =>
    obtain ⟨k', v'⟩ := e
    by_cases h : k' = k
    · subst h; simp [put]
    · have h' : ¬ k = k' := fun e => h e.symm
      simp only [put, h, if_false, List.map_cons, ih, List.mem_cons, h', false_or]
      split <;> simp

theorem nodup_put (k : κ) (v : ν) {l : List (κ × ν)} (h : (l.map Prod.fst).Nodup) :
    ((put k v l).map Prod.fst).Nodup := by
  rw [keys_put]
  split
  · exact h
  · next hk =>
    rw [List.nodup_append]
    refine ⟨h, by simp, ?_⟩
    intro a ha b hb e
    simp only [List.mem_singleton] at hb
    exact hk (hb ▸ e ▸ ha)

theorem find?_put (k k' : κ) (v : ν) (l : List (κ × ν)) :
    find? k' (put k v l) = if k' = k then some v else find? k' l := by
  induction l with
  | nil =>
    by_cases h : k' = k
    · simp [put, find?, h]
    · have h' : ¬ k = k' := fun e => h e.symm
      simp [put, find?, h, h']
  | cons e r ih =>
    obtain ⟨a, b⟩ := e
    by_cases h : a = k
    · subst h
      by_cases h' : k' = a
      · subst h'; simp [put, find?]
      · have h'' : ¬ a = k' := fun e => h' e.symm
        simp [put, find?, h', h'']
    · by_cases h' : a = k'
      · subst h'; simp [put, find?, h]
      · simp [put, find?, h, h', ih]

/-- Drops the entries under a key. -/
def remove (k : κ) (l : List (κ × ν)) : List (κ × ν) := l.filter fun e => e.1 ≠ k

theorem nodup_remove (k : κ) {l : List (κ × ν)} (h : (l.map Prod.fst).Nodup) :
    ((remove k l).map Prod.fst).Nodup :=
  h.sublist (List.Sublist.map _ (List.filter_sublist))

theorem find?_remove (k k' : κ) (l : List (κ × ν)) :
    find? k' (remove k l) = if k' = k then none else find? k' l := by
  induction l with
  | nil => simp [remove, find?]
  | cons e r ih =>
    obtain ⟨a, b⟩ := e
    simp only [remove] at ih
    by_cases h : a = k
    · subst h
      by_cases h' : k' = a
      · subst h'; simpa [remove, find?] using ih
      · have h'' : ¬ a = k' := fun e => h' e.symm
        simpa [remove, find?, h', h''] using ih
    · by_cases h' : a = k'
      · subst h'; simp [remove, find?, h]
      · simpa [remove, find?, h, h'] using ih

/-! ## The map -/

omit [DecidableEq κ] in
def empty : Assoc κ ν := ⟨[], List.nodup_nil⟩

def get? (m : Assoc κ ν) (k : κ) : Option ν := find? k m.entries

def contains (m : Assoc κ ν) (k : κ) : Bool := (m.get? k).isSome

/-- Puts a value under a key, in place of the one that was there. -/
def insert (m : Assoc κ ν) (k : κ) (v : ν) : Assoc κ ν :=
  ⟨put k v m.entries, nodup_put k v m.nodup⟩

def erase (m : Assoc κ ν) (k : κ) : Assoc κ ν := ⟨remove k m.entries, nodup_remove k m.nodup⟩

/-- The map of a list of entries, where the last entry of a key counts. -/
def ofList (l : List (κ × ν)) : Assoc κ ν := l.foldl (fun m e => m.insert e.1 e.2) empty

def size (m : Assoc κ ν) : Nat := m.entries.length

def keys (m : Assoc κ ν) : List κ := m.entries.map Prod.fst

@[simp] theorem get?_empty (k : κ) : (empty : Assoc κ ν).get? k = none := rfl

@[simp] theorem get?_insert (m : Assoc κ ν) (k k' : κ) (v : ν) :
    (m.insert k v).get? k' = if k' = k then some v else m.get? k' :=
  find?_put k k' v m.entries

@[simp] theorem get?_erase (m : Assoc κ ν) (k k' : κ) :
    (m.erase k).get? k' = if k' = k then none else m.get? k' :=
  find?_remove k k' m.entries

theorem find?_eq_some_iff {k : κ} {v : ν} {l : List (κ × ν)} (h : (l.map Prod.fst).Nodup) :
    find? k l = some v ↔ (k, v) ∈ l := by
  induction l with
  | nil => simp [find?]
  | cons e r ih =>
    obtain ⟨a, b⟩ := e
    simp only [List.map_cons, List.nodup_cons] at h
    by_cases ha : a = k
    · subst ha
      have : (a, v) ∉ r := fun hm => h.1 (List.mem_map.2 ⟨_, hm, rfl⟩)
      simp [find?, this, eq_comm]
    · have ha' : ¬ k = a := fun e => ha e.symm
      simp [find?, ha, ha', ih h.2]

theorem get?_eq_some_iff (m : Assoc κ ν) {k : κ} {v : ν} :
    m.get? k = some v ↔ (k, v) ∈ m.entries :=
  find?_eq_some_iff m.nodup

theorem mem_keys_iff (m : Assoc κ ν) {k : κ} : k ∈ m.keys ↔ ∃ v, m.get? k = some v := by
  simp [keys, get?_eq_some_iff]

end Assoc

end KeyedStream
