import Mathlib
import KeyedStream.Proofs.Mirror
import KeyedStream.Proofs.Scalar
import KeyedStream.Script.Item

/-!
# Value states mirror their row

The row of a value state is keyed by the name of the state. No row stands for the value zero, and so
does an empty one; the states that an operation leaves are those that stand for the row that it
writes (`ValueState.Stands`), and the one change that they render makes that row of the one that was
loaded.
-/

namespace KeyedStream

/-- A value that is read back from its stored form. -/
def ScalarType.Storable (t : ScalarType) (width : IntWidth) (v : t.Carrier) : Prop :=
  ∃ payload, t.encode width v = .ok payload ∧ t.decode width payload = .ok v

/-- What callbacks do with a value state. They only put values in it that are read back. -/
inductive ValueOp (t : ScalarType) (width : IntWidth) where
  | read
  | set (v : t.Carrier) (hv : t.Storable width v)
  | drop

namespace ValueOp

variable {t : ScalarType} {width : IntWidth}

/-- What an operation answers. -/
def Reply : ValueOp t width → Type
  | read => t.Carrier
  | set _ _ => Unit
  | drop => Unit

/-- An operation on the state in memory. -/
def run : (op : ValueOp t width) → ValueState t.Carrier → op.Reply × ValueState t.Carrier
  | read, s => (s.value, s)
  | set v _, s => ((), s.set v)
  | drop, s => ((), s.drop)

/-- The value that a row holds, if it can be read. -/
def valueIn (t : ScalarType) (width : IntWidth) (row : Bytes) (n : Table) : Option t.Carrier :=
  match n row with
  | none => some t.zero
  | some payload => (t.decode width payload).toOption

/-- What an operation answers from the row. -/
def reply (row : Bytes) : (op : ValueOp t width) → Table → op.Reply
  | read, n => (valueIn t width row n).getD t.zero
  | set _ _, _ => ()
  | drop, _ => ()

/-- The rows that an operation leaves. -/
def write (row : Bytes) : ValueOp t width → Table → Table
  | read, n => n
  | set v _, n => n.set row (t.encode width v).toOption
  | drop, n => n.set row none

end ValueOp

namespace ValueState

open ValueOp (valueIn)

variable {id : String} {t : ScalarType} {width : IntWidth} {s : ValueState t.Carrier} {n₀ n : Table}

/-- Whether a table has no other row than that of a value state. -/
def Sole (id : String) (n : Table) : Prop := ∀ row, row ≠ Bytes.ofText id → n row = none

/-- A value state that was loaded from one row and stands for another. -/
structure Stands (id : String) (width : IntWidth) (s : ValueState t.Carrier) (n₀ n : Table) : Prop where
  name : s.name = id
  codec : s.codec = .scalar t width
  value : valueIn t width (Bytes.ofText id) n = some s.value
  sole_loaded : Sole id n₀
  sole : Sole id n
  rendered : ∃ ms, s.mutations = .ok ms ∧ Mutation.changes ms n₀ = n

theorem sole_set (h : Sole id n) (payload : Option Bytes) : Sole id (n.set (Bytes.ofText id) payload) := by
  intro row hrow
  rw [Table.set_of_ne hrow, h row hrow]

/-- Two tables without other rows are the same after a change of the row. -/
theorem set_eq_set (h₀ : Sole id n₀) (h : Sole id n) (payload : Option Bytes) :
    n₀.set (Bytes.ofText id) payload = n.set (Bytes.ofText id) payload := by
  funext row
  by_cases hrow : row = Bytes.ofText id
  · rw [hrow, Table.set_self, Table.set_self]
  · rw [sole_set h₀ payload row hrow, sole_set h payload row hrow]

theorem changes_singleton (m : Mutation) (n : Table) :
    Mutation.changes [m] n = n.set m.key m.payload :=
  Mutation.changes_concat [] m n

theorem stands_set (h : Stands id width s n₀ n) {v : t.Carrier} (hv : t.Storable width v) :
    Stands id width (s.set v) n₀ (n.set (Bytes.ofText id) (t.encode width v).toOption) := by
  obtain ⟨payload, hencode, hdecode⟩ := hv
  have hpayload : (t.encode width v).toOption = some payload := by rw [hencode]; rfl
  rw [hpayload]
  refine ⟨h.name, h.codec, ?_, h.sole_loaded, sole_set h.sole _, ?_⟩
  · rw [valueIn, Table.set_self]
    simp only [hdecode]
    rfl
  · refine ⟨[.put (Bytes.ofText id) payload], ?_, ?_⟩
    · have hname : (s.set v).rowKey = Bytes.ofText id := by rw [rowKey, ← h.name]; rfl
      have hcodec : (s.set v).codec.encode (s.set v).value = .ok payload := by
        rw [show (s.set v).codec = s.codec from rfl, h.codec]
        exact hencode
      simp only [mutations, hname, hcodec]
      rfl
    · rw [changes_singleton]
      exact set_eq_set h.sole_loaded h.sole _

theorem stands_drop (h : Stands id width s n₀ n) :
    Stands id width s.drop n₀ (n.set (Bytes.ofText id) none) := by
  refine ⟨h.name, h.codec, ?_, h.sole_loaded, sole_set h.sole _, ?_⟩
  · rw [valueIn, Table.set_self]
    rfl
  · refine ⟨[.delete (Bytes.ofText id)], ?_, ?_⟩
    · have hname : s.drop.rowKey = Bytes.ofText id := by rw [rowKey, ← h.name]; rfl
      simp only [mutations, hname]
      rfl
    · rw [changes_singleton]
      exact set_eq_set h.sole_loaded h.sole _

/-- The one row of a table is all that is delivered. -/
theorem rows_of_sole {rows : List StateEntry} (hsole : Sole id n) (hlists : Table.Lists rows n) :
    rows = [] ∧ n (Bytes.ofText id) = none ∨
      ∃ payload, rows = [⟨Bytes.ofText id, payload⟩] ∧ n (Bytes.ofText id) = some payload := by
  have hkey : ∀ row ∈ rows, row.key = Bytes.ofText id := by
    intro row hrow
    by_contra hne
    have hsome := (hlists.mem_iff row).1 hrow
    rw [hsole row.key hne] at hsome
    cases hsome
  match rows, hlists with
  | [], hlists =>
    refine .inl ⟨rfl, ?_⟩
    cases hn : n (Bytes.ofText id) with
    | none => rfl
    | some payload => exact absurd ((hlists.mem_iff ⟨_, payload⟩).2 hn) List.not_mem_nil
  | [row], hlists =>
    have hrow := hkey row List.mem_cons_self
    refine .inr ⟨row.value, ?_, ?_⟩
    · rw [← hrow]
    · rw [← hrow]
      exact (hlists.mem_iff row).1 List.mem_cons_self
  | row :: row' :: rows, hlists =>
    have hsame : row.key = row'.key := by
      rw [hkey row List.mem_cons_self, hkey row' (List.mem_cons_of_mem _ List.mem_cons_self)]
    have hnodup := hlists.nodup
    rw [List.map_cons, List.map_cons, hsame] at hnodup
    exact absurd List.mem_cons_self (List.nodup_cons.1 hnodup).1

/-- The state without a row, with a value in place of zero. -/
def holding (id : String) (width : IntWidth) (v : t.Carrier) : ValueState t.Carrier :=
  { name := id, codec := .scalar t width, value := v }

/-- What is loaded is what can be read, and an empty row is read as no row. -/
theorem load_eq (width : IntWidth) (hsole : Sole id n) {rows : List StateEntry}
    (hlists : Table.Lists rows n) :
    (∃ e, (holding id width t.zero).load rows = .error e) ∧
        valueIn t width (Bytes.ofText id) n = none ∨
      ∃ v, (holding id width t.zero).load rows = .ok (holding id width v) ∧
        valueIn t width (Bytes.ofText id) n = some v := by
  rw [valueIn]
  obtain ⟨rfl, hn⟩ | ⟨payload, rfl, hn⟩ := rows_of_sole hsole hlists
  · exact .inr ⟨t.zero, rfl, by rw [hn]⟩
  · simp only [hn]
    cases payload with
    | nil => exact .inr ⟨t.zero, rfl, by rw [ScalarType.decode_nil]; rfl⟩
    | cons b bs =>
      have hload : (holding id width t.zero).load [⟨Bytes.ofText id, b :: bs⟩] =
          (liftCodec (t.decode width (b :: bs))).map (holding id width) :=
        load_cons _ [] (List.cons_ne_nil b bs)
      cases hdecode : t.decode width (b :: bs) with
      | error e =>
        refine .inl ⟨⟨.codec e, ?_⟩, rfl⟩
        rw [hload, hdecode]
        rfl
      | ok v =>
        refine .inr ⟨v, ?_, rfl⟩
        rw [hload, hdecode]
        rfl

theorem stands_holding (hsole : Sole id n) {v : t.Carrier}
    (hv : valueIn t width (Bytes.ofText id) n = some v) : Stands id width (holding id width v) n n :=
  ⟨rfl, rfl, hv, hsole, hsole, [], rfl, rfl⟩

end ValueState

/-- A declared value state of a scalar type, and what its operations come to on its row. -/
def Mirror.value (id : String) (t : ScalarType) (width : IntWidth) : Mirror Script.Item where
  kind := .value (.scalar t)
  spec := Script.Declaration.spec ⟨id, id, .value (.scalar t) width⟩
  Op := ValueOp t width
  Reply := ValueOp.Reply
  run := ValueOp.run
  reply := ValueOp.reply (Bytes.ofText id)
  write := ValueOp.write (Bytes.ofText id)
  Valid := ValueState.Sole id
  Readable n := (ValueOp.valueIn t width (Bytes.ofText id) n).isSome = true
  Stands := ValueState.Stands id width
  stands_of_load {rows n x} hsole hlists hload := by
    have hloaded : (ValueState.holding id width t.zero).load rows = .ok x := hload
    obtain ⟨⟨e, he⟩, -⟩ | ⟨v, hok, hv⟩ := ValueState.load_eq width hsole hlists
    · rw [hloaded] at he
      cases he
    · rw [hloaded] at hok
      cases hok
      exact ValueState.stands_holding hsole hv
  load_of_readable {rows n} hsole hlists hread := by
    obtain ⟨-, hnone⟩ | ⟨v, hok, -⟩ := ValueState.load_eq (t := t) width hsole hlists
    · rw [hnone] at hread
      cases hread
    · exact ⟨_, hok⟩
  stands_run {x n₀ n} op h := by
    cases op with
    | read => exact ⟨by rw [ValueOp.reply, h.value]; rfl, h⟩
    | set v hv => exact ⟨rfl, ValueState.stands_set h hv⟩
    | drop => exact ⟨rfl, ValueState.stands_drop h⟩
  render_of_stands h := h.rendered
  valid_of_stands h := h.sole
  readable_of_stands h := by rw [h.value]; rfl

end KeyedStream
