import Mathlib
import KeyedStream.Dispatch
import KeyedStream.Proofs.Render

/-!
# Stores

The rows of a key are stored under the names of its states. A delivery lists the rows of a name in
some order (`Table.Lists`), and an answer is applied change by change (`Store.apply`). Coalesced
changes leave the same rows as the changes themselves (`foldl_change_rowsOf`).
-/

namespace KeyedStream

/-- The rows that are stored under a name, by their keys. -/
abbrev Table := Bytes → Option Bytes

/-- The rows of a key, by name. -/
abbrev Store := String → Table

namespace Table

/-- The table with a payload in a row, or without the row. -/
def set (n : Table) (row : Bytes) (payload : Option Bytes) : Table := Function.update n row payload

/-- The table after a change. -/
def change (n : Table) (m : Wire.StateMutation) : Table :=
  match m.payload with
  | some (.put row) => n.set row.key (some row.value)
  | some (.delete row) => n.set row.key none
  | none => n

/-- The rows list a table, in whatever order. -/
structure Lists (rows : List StateEntry) (n : Table) : Prop where
  nodup : (rows.map (·.key)).Nodup
  mem_iff : ∀ row : StateEntry, row ∈ rows ↔ n row.key = some row.value

theorem set_self (n : Table) (row : Bytes) (payload : Option Bytes) :
    n.set row payload row = payload := by
  rw [set, Function.update_self]

theorem set_of_ne {row row' : Bytes} (h : row' ≠ row) (n : Table) (payload : Option Bytes) :
    n.set row payload row' = n row' := by
  rw [set, Function.update_of_ne h]

theorem set_set (n : Table) (row : Bytes) (payload payload' : Option Bytes) :
    (n.set row payload).set row payload' = n.set row payload' :=
  Function.update_idem _ _ _

namespace Lists

variable {rows rows' : List StateEntry} {n : Table}

theorem perm (h : Lists rows n) (hperm : rows'.Perm rows) : Lists rows' n where
  nodup := (hperm.map _).nodup_iff.2 h.nodup
  mem_iff row := hperm.mem_iff.trans (h.mem_iff row)

/-- A row that is deleted is taken out of a listing. -/
theorem erase (h : Lists rows n) (key : Bytes) :
    Lists (rows.filter fun e => e.key ≠ key) (n.set key none) where
  nodup := h.nodup.sublist (List.filter_sublist.map _)
  mem_iff row := by
    rw [List.mem_filter, h.mem_iff, decide_eq_true_eq]
    by_cases hkey : row.key = key
    · simp [hkey, set_self]
    · simp [hkey, set_of_ne hkey]

/-- A row that is new is put at the end of a listing. -/
theorem concat (h : Lists rows n) {key : Bytes} (hnew : ∀ e ∈ rows, e.key ≠ key) (value : Bytes) :
    Lists (rows ++ [⟨key, value⟩]) (n.set key (some value)) where
  nodup := by
    rw [List.map_append, List.nodup_append]
    refine ⟨h.nodup, by simp, ?_⟩
    rintro a ha b hb rfl
    obtain ⟨e, he, rfl⟩ := List.mem_map.1 ha
    exact hnew e he (by simpa using hb)
  mem_iff row := by
    rw [List.mem_append, List.mem_singleton]
    by_cases hkey : row.key = key
    · have hnot : row ∉ rows := fun hmem => hnew row hmem hkey
      obtain ⟨key', value'⟩ := row
      subst hkey
      simp [hnot, set_self, eq_comm]
    · rw [set_of_ne hkey, h.mem_iff]
      refine or_iff_left ?_
      rintro rfl
      exact hkey rfl

/-- A row that is replaced keeps its place in a listing. -/
theorem replace (h : Lists rows n) {key : Bytes} (hold : ∃ e ∈ rows, e.key = key) (value : Bytes) :
    Lists (rows.map fun e => if e.key = key then ⟨key, value⟩ else e) (n.set key (some value)) where
  nodup := by
    have hkeys : (rows.map fun e => if e.key = key then (⟨key, value⟩ : StateEntry) else e).map (·.key) =
        rows.map (·.key) := by
      rw [List.map_map]
      refine List.map_congr_left fun e _ => ?_
      by_cases he : e.key = key <;> simp [he]
    rw [hkeys]
    exact h.nodup
  mem_iff row := by
    rw [List.mem_map]
    by_cases hkey : row.key = key
    · rw [hkey, set_self, Option.some.injEq]
      constructor
      · rintro ⟨e, -, rfl⟩
        by_cases he : e.key = key
        · rw [if_pos he]
        · rw [if_neg he] at hkey
          exact absurd hkey he
      · rintro rfl
        obtain ⟨e, he, hsame⟩ := hold
        exact ⟨e, he, by rw [if_pos hsame, ← hkey]⟩
    · rw [set_of_ne hkey, ← h.mem_iff]
      constructor
      · rintro ⟨e, he, rfl⟩
        by_cases hsame : e.key = key
        · rw [if_pos hsame] at hkey
          exact absurd rfl hkey
        · rwa [if_neg hsame]
      · intro hmem
        exact ⟨row, hmem, if_neg hkey⟩

/-- A row that is changed is taken out of a listing, and put at the end if it is not deleted. -/
theorem exists_set (h : Lists rows n) (row : Bytes) (payload : Option Bytes) :
    ∃ rows', Lists rows' (n.set row payload) := by
  cases payload with
  | none => exact ⟨_, h.erase row⟩
  | some value =>
    have hnew : ∀ e ∈ rows.filter (fun e => e.key ≠ row), e.key ≠ row :=
      fun e he => by simpa using (List.mem_filter.1 he).2
    have hlists := (h.erase row).concat hnew value
    rw [set_set] at hlists
    exact ⟨_, hlists⟩

theorem exists_change (h : Lists rows n) (m : Wire.StateMutation) :
    ∃ rows', Lists rows' (n.change m) := by
  rw [change]
  split
  · exact h.exists_set _ _
  · exact h.exists_set _ _
  · exact ⟨rows, h⟩

/-- What was listed and then changed can be listed again. -/
theorem exists_foldl_change (h : Lists rows n) (ms : List Wire.StateMutation) :
    ∃ rows', Lists rows' (ms.foldl change n) := by
  induction ms generalizing rows n with
  | nil => exact ⟨rows, h⟩
  | cons m ms ih =>
    obtain ⟨rows', h'⟩ := h.exists_change m
    exact ih h'

end Lists

end Table

namespace Mutation

/-- What a change leaves in its row. -/
def payload : Mutation → Option Bytes
  | put _ value => some value
  | delete _ => none

/-- The table after changes. -/
def changes (ms : List Mutation) (n : Table) : Table := (ms.map toWire).foldl Table.change n

theorem change_toWire (n : Table) (m : Mutation) : n.change m.toWire = n.set m.key m.payload := by
  cases m <;> rfl

theorem changes_concat (ms : List Mutation) (m : Mutation) (n : Table) :
    changes (ms ++ [m]) n = (changes ms n).set m.key m.payload := by
  rw [changes, List.map_append, List.foldl_append, List.map_singleton, List.foldl_cons,
    List.foldl_nil, change_toWire, changes]

/-- The last change of a row says what is in it. -/
theorem changes_apply (ms : List Mutation) (n : Table) (row : Bytes) :
    changes ms n row = ((last? ms row).map payload).getD (n row) := by
  induction ms using List.reverseRecOn with
  | nil => rfl
  | append_singleton ms m ih =>
    rw [changes_concat]
    by_cases h : row = m.key
    · subst h
      rw [Table.set_self, last?_concat]
      rfl
    · rw [Table.set_of_ne h, ih, last?, last?, List.filter_append, List.filter_singleton]
      simp [Ne.symm h]

theorem last?_coalesce (ms : List Mutation) (row : Bytes) :
    last? (coalesce ms) row = last? ms row := by
  have hkept : ∀ m, last? (coalesce ms) row = some m → last? ms row = some m := by
    intro m hm
    obtain ⟨hmem, hkey⟩ := mem_and_key_of_last? hm
    exact last?_eq_some_iff.2 ⟨hmem, hkey⟩
  cases hlast : last? ms row with
  | none =>
    cases hlast' : last? (coalesce ms) row with
    | none => rfl
    | some m => rw [hkept m hlast'] at hlast; cases hlast
  | some m =>
    obtain ⟨hmem, hkey⟩ := last?_eq_some_iff.1 hlast
    obtain ⟨m', hm'⟩ := exists_last? hmem
    rw [hkey] at hm'
    rw [hm', ← hlast, hkept m' hm']

/-- Coalescing leaves the rows that the changes leave. -/
theorem changes_coalesce (ms : List Mutation) (n : Table) : changes (coalesce ms) n = changes ms n := by
  funext row
  rw [changes_apply, changes_apply, last?_coalesce]

end Mutation

theorem foldl_change_rowsOf (ms : List Mutation) (n : Table) :
    (Subject.rowsOf ms).foldl Table.change n = Mutation.changes ms n :=
  Mutation.changes_coalesce ms n

/-! ## Rows that are changed one by one -/

/-- The table that rows list. -/
def Table.ofRows (rows : List StateEntry) : Table := fun row =>
  (rows.find? fun e => e.key = row).map (·.value)

theorem Table.lists_ofRows {rows : List StateEntry} (hnodup : (rows.map (·.key)).Nodup) :
    Table.Lists rows (Table.ofRows rows) := by
  have hfound : ∀ {row e : StateEntry}, rows.find? (fun e => e.key = row.key) = some e →
      e ∈ rows ∧ e.key = row.key := by
    intro row e he
    exact ⟨List.mem_of_find?_eq_some he, by simpa using List.find?_some he⟩
  refine ⟨hnodup, fun row => ?_⟩
  rw [ofRows, Option.map_eq_some_iff]
  constructor
  · intro hrow
    have hsome : (rows.find? fun e => e.key = row.key).isSome := by
      rw [List.find?_isSome]
      exact ⟨row, hrow, by simp⟩
    obtain ⟨e, he⟩ := Option.isSome_iff_exists.1 hsome
    obtain ⟨hmem, hkey⟩ := hfound he
    exact ⟨e, he, by rw [List.inj_on_of_nodup_map hnodup hmem hrow hkey]⟩
  · rintro ⟨e, he, hvalue⟩
    obtain ⟨hmem, hkey⟩ := hfound he
    obtain ⟨key, value⟩ := row
    obtain rfl : e.key = key := hkey
    obtain rfl : e.value = value := hvalue
    exact hmem

namespace Mutation

/-- The rows after changes, one after the other. -/
def applyAll (ms : List Mutation) (rows : List StateEntry) : List StateEntry :=
  ms.foldl (fun rows m => m.apply rows) rows

variable {rows : List StateEntry} {n : Table}

/-- A change of rows is one of the table that they list. -/
theorem lists_apply (h : Table.Lists rows n) (m : Mutation) :
    Table.Lists (m.apply rows) (n.set m.key m.payload) := by
  cases m with
  | delete key => exact h.erase key
  | put key value =>
    rw [apply]
    split
    · next hold => exact h.replace (by simpa using hold) value
    · next hnew => exact h.concat (by simpa using hnew) value

theorem lists_applyAll (h : Table.Lists rows n) (ms : List Mutation) :
    Table.Lists (applyAll ms rows) (changes ms n) := by
  induction ms generalizing rows n with
  | nil => exact h
  | cons m ms ih =>
    have hstep := ih (lists_apply h m)
    rw [← change_toWire] at hstep
    exact hstep

end Mutation

namespace Store

/-- The store with other rows under a name. -/
def set (σ : Store) (name : String) (n : Table) : Store := Function.update σ name n

theorem set_self (σ : Store) (name : String) (n : Table) : σ.set name n name = n := by
  rw [set, Function.update_self]

theorem set_of_ne {name name' : String} (h : name' ≠ name) (σ : Store) (n : Table) :
    σ.set name n name' = σ name' := by
  rw [set, Function.update_of_ne h]

/-- The store after the changes to a named state. -/
def change (σ : Store) (n : Wire.StateMutationNamespace) : Store :=
  σ.set n.name (n.mutations.foldl Table.change (σ n.name))

/-- The store of a key after an answer on events of that key. -/
def apply (σ : Store) (r : Wire.ProcessEventBatchResponse) : Store :=
  (r.keyResults.flatMap (·.stateMutationNamespaces)).foldl change σ

/-- The rows under a name that no change is for stay as they are. -/
theorem foldl_change_of_notMem {ns : List Wire.StateMutationNamespace} {name : String}
    (h : name ∉ ns.map (·.name)) (σ : Store) : ns.foldl change σ name = σ name := by
  induction ns generalizing σ with
  | nil => rfl
  | cons n ns ih =>
    rw [List.map_cons, List.mem_cons, not_or] at h
    rw [List.foldl_cons, ih h.2, change, set_of_ne h.1]

/-- The rows under other names have no part in a change. -/
theorem foldl_change_of_mem {ns : List Wire.StateMutationNamespace}
    (hnodup : (ns.map (·.name)).Nodup) {n : Wire.StateMutationNamespace} (h : n ∈ ns) (σ : Store) :
    ns.foldl change σ n.name = n.mutations.foldl Table.change (σ n.name) := by
  induction ns generalizing σ with
  | nil => cases h
  | cons n' ns ih =>
    rw [List.map_cons, List.nodup_cons] at hnodup
    rw [List.foldl_cons]
    rcases List.mem_cons.1 h with rfl | h
    · rw [foldl_change_of_notMem hnodup.1, change, set_self]
    · have hne : n.name ≠ n'.name := by
        intro heq
        exact hnodup.1 (heq ▸ List.mem_map_of_mem h)
      rw [ih hnodup.2 h, change, set_of_ne hne]

end Store

end KeyedStream
