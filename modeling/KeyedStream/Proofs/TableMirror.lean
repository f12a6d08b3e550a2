import Mathlib
import KeyedStream.Proofs.MapState
import KeyedStream.Proofs.RowOrder
import KeyedStream.Proofs.ValueMirror

/-!
# Map states mirror their rows

Every row of a map state is keyed by the stored form of a key of the table, and a key that is read
from a row is the one that the row was written for. So the visible table and the stored rows say the
same (`MapState.Stands`), and each edit of a key comes to a change of its own row
(`MapState.edited_insert`).
-/

namespace KeyedStream

/-- What callbacks do with a map state. They only put keys and values in it that are read back. -/
inductive TableOp (k v : ScalarType) (width : IntWidth) where
  | get (key : k.Carrier)
  | size
  | all
  | set (key : k.Carrier) (value : v.Carrier) (hkey : k.Storable width key)
    (hvalue : v.Storable width value)
  | delete (key : k.Carrier)

namespace TableOp

variable {k v : ScalarType} {width : IntWidth}

/-- What an operation answers. The entries of a table come in no particular order. -/
def Reply : TableOp k v width → Type
  | get _ => Option v.Carrier
  | size => Nat
  | all => Set (k.Carrier × v.Carrier)
  | set _ _ _ _ => Unit
  | delete _ => Unit

/-- An operation on the state in memory. -/
def run : (op : TableOp k v width) → MapState k.Carrier v.Carrier →
    op.Reply × MapState k.Carrier v.Carrier
  | get key, s => (s.get? key, s)
  | size, s => (s.size, s)
  | all, s => ({e | e ∈ s.all}, s)
  | set key value _ _, s => ((), s.set key value)
  | delete key, s => ((), s.delete key)

/-- The value that the row of a key holds, if there is one. -/
def valueAt (width : IntWidth) (n : Table) (key : k.Carrier) : Option v.Carrier :=
  ((k.encode width key).toOption.bind n).bind fun payload => (v.decode width payload).toOption

/-- The rows with a payload in the row of a key, or without it. -/
def writeAt (width : IntWidth) (n : Table) (key : k.Carrier) (payload : Option Bytes) : Table :=
  match k.encode width key with
  | .ok row => n.set row payload
  | .error _ => n

/-- What an operation answers from the rows. -/
noncomputable def reply : (op : TableOp k v width) → Table → op.Reply
  | get key, n => (valueAt width n key : Option v.Carrier)
  | size, n => {key : k.Carrier | ∃ value : v.Carrier, valueAt width n key = some value}.ncard
  | all, n => {e : k.Carrier × v.Carrier | valueAt width n e.1 = some e.2}
  | set _ _ _ _, _ => ()
  | delete _, _ => ()

/-- The rows that an operation leaves. -/
def write : TableOp k v width → Table → Table
  | set key value _ _, n => writeAt width n key (v.encode width value).toOption
  | delete key, n => writeAt width n key none
  | _, n => n

theorem valueAt_eq_some_iff {n : Table} {key : k.Carrier} {value : v.Carrier} :
    valueAt width n key = some value ↔ ∃ row payload, k.encode width key = .ok row ∧
      n row = some payload ∧ v.decode width payload = .ok value := by
  rw [valueAt]
  cases hrow : k.encode width key with
  | error e => simp [Except.toOption]
  | ok row =>
    cases hn : n row with
    | none => simp [Except.toOption, hn]
    | some payload =>
      cases hvalue : v.decode width payload with
      | error e => simp [Except.toOption, hn, hvalue]
      | ok value' => simp [Except.toOption, hn, hvalue]

end TableOp

namespace MapState

open TableOp

variable {id : String} {k v : ScalarType} {width : IntWidth} {s : MapState k.Carrier v.Carrier}
  {n₀ n : Table}

/-- Whether every row is keyed by the stored form of a key. -/
def Keyed (k : ScalarType) (width : IntWidth) (n : Table) : Prop :=
  ∀ row payload, n row = some payload → ∃ key : k.Carrier, k.encode width key = .ok row

/-- Whether the key and the value of every row can be read. -/
def Legible (k v : ScalarType) (width : IntWidth) (n : Table) : Prop :=
  ∀ row payload, n row = some payload → ∃ (key : k.Carrier) (value : v.Carrier),
    k.decode width row = .ok key ∧ v.decode width payload = .ok value

/-- A map state that was loaded from some rows and stands for others. -/
structure Stands (id : String) (width : IntWidth) (s : MapState k.Carrier v.Carrier)
    (n₀ n : Table) : Prop where
  name : s.name = id
  codec : s.codec = .scalar k v width
  counted : s.Counted
  keyed : Keyed k width n
  legible : Legible k v width n
  value : ∀ key, s.get? key = valueAt width n key
  /-- The row of a key that was edited holds what the edit put there. -/
  edited : ∀ key u, s.updates.get? key = some u →
    ∃ m, mutation (.scalar k v width) (key, u) = .ok m ∧ n m.key = m.payload
  /-- A row of no key that was edited is as it was loaded. -/
  unedited : ∀ row, (∀ key u, s.updates.get? key = some u → k.encode width key ≠ .ok row) →
    n row = n₀ row

/-! ## Rows and keys -/

/-- A row that can be read is read as the key that it was written for. -/
theorem decode_of_keyed (hk : k ∉ [.float32, .float64, .instant]) (hkeyed : Keyed k width n)
    (hlegible : Legible k v width n) {row payload : Bytes} (hrow : n row = some payload) :
    ∃ (key : k.Carrier) (value : v.Carrier), k.encode width key = .ok row ∧
      k.decode width row = .ok key ∧ v.decode width payload = .ok value := by
  obtain ⟨key₀, hencode⟩ := hkeyed row payload hrow
  obtain ⟨key, value, hdecode, hvalue⟩ := hlegible row payload hrow
  obtain rfl := ScalarType.eq_of_decode hk hencode hdecode
  exact ⟨key, value, hencode, hdecode, hvalue⟩

/-- A change of the row of a key is seen under that key only. -/
theorem valueAt_set (hk : k ∉ [.float32, .float64, .instant]) {key : k.Carrier} {row : Bytes}
    (hencode : k.encode width key = .ok row) (hdecode : k.decode width row = .ok key)
    (payload : Option Bytes) (key' : k.Carrier) :
    (valueAt width (n.set row payload) key' : Option v.Carrier) =
      if key' = key then payload.bind fun p => (v.decode width p).toOption
      else valueAt width n key' := by
  by_cases hkey : key' = key
  · rw [if_pos hkey, hkey, valueAt, hencode]
    simp only [Except.toOption, Option.bind_some, Table.set_self]
  · rw [if_neg hkey, valueAt, valueAt]
    cases hrow : k.encode width key' with
    | error e => rfl
    | ok row' =>
      have hne : row' ≠ row := by
        rintro rfl
        exact hkey (ScalarType.eq_of_decode hk hrow hdecode).symm
      simp only [Except.toOption, Option.bind_some, Table.set_of_ne hne]

theorem keyed_set (h : Keyed k width n) {key : k.Carrier} {row : Bytes}
    (hencode : k.encode width key = .ok row) (payload : Option Bytes) :
    Keyed k width (n.set row payload) := by
  intro row' payload' hrow'
  by_cases hrow : row' = row
  · exact ⟨key, by rw [hencode, hrow]⟩
  · rw [Table.set_of_ne hrow] at hrow'
    exact h row' payload' hrow'

theorem legible_set (h : Legible k v width n) {key : k.Carrier} {row : Bytes}
    (hdecode : k.decode width row = .ok key) {payload : Option Bytes}
    (hpayload : ∀ p, payload = some p → ∃ value, v.decode width p = .ok value) :
    Legible k v width (n.set row payload) := by
  intro row' payload' hrow'
  by_cases hrow : row' = row
  · subst hrow
    rw [Table.set_self] at hrow'
    obtain ⟨value, hvalue⟩ := hpayload payload' hrow'
    exact ⟨key, value, hdecode, hvalue⟩
  · rw [Table.set_of_ne hrow] at hrow'
    exact h row' payload' hrow'

/-! ## Edits -/

/-- One more edit comes to a change of the row of its key. -/
theorem edited_insert (hk : k ∉ [.float32, .float64, .instant]) (h : Stands id width s n₀ n)
    {key : k.Carrier} {u : Update v.Carrier} {m : Mutation}
    (hm : mutation (.scalar k v width) (key, u) = .ok m) (hdecode : k.decode width m.key = .ok key) :
    (∀ key' u', (s.updates.insert key u).get? key' = some u' → ∃ m',
        mutation (.scalar k v width) (key', u') = .ok m' ∧
          n.set m.key m.payload m'.key = m'.payload) ∧
      ∀ row, (∀ key' u', (s.updates.insert key u).get? key' = some u' →
        k.encode width key' ≠ .ok row) → n.set m.key m.payload row = n₀ row := by
  have hencode : k.encode width key = .ok m.key := encode_key_of_mutation hm
  constructor
  · intro key' u' hget
    rw [Assoc.get?_insert] at hget
    by_cases hkey : key' = key
    · subst hkey
      rw [if_pos rfl, Option.some.injEq] at hget
      subst hget
      exact ⟨m, hm, Table.set_self _ _ _⟩
    · rw [if_neg hkey] at hget
      obtain ⟨m', hm', hrow⟩ := h.edited key' u' hget
      have hencode' : k.encode width key' = .ok m'.key := encode_key_of_mutation hm'
      have hne : m'.key ≠ m.key := by
        intro hsame
        rw [hsame] at hencode'
        exact hkey (ScalarType.eq_of_decode hk hencode' hdecode).symm
      exact ⟨m', hm', by rw [Table.set_of_ne hne, hrow]⟩
  · intro row hrow
    have hne : row ≠ m.key := by
      rintro rfl
      exact hrow key u (by rw [Assoc.get?_insert, if_pos rfl]) hencode
    rw [Table.set_of_ne hne]
    refine h.unedited row fun key' u' hget => ?_
    by_cases hkey : key' = key
    · subst hkey
      exact hrow key' u (by rw [Assoc.get?_insert, if_pos rfl])
    · exact hrow key' u' (by rw [Assoc.get?_insert, if_neg hkey, hget])

theorem stands_set (hk : k ∉ [.float32, .float64, .instant]) (h : Stands id width s n₀ n)
    {key : k.Carrier} {value : v.Carrier} (hkey : k.Storable width key)
    (hvalue : v.Storable width value) :
    Stands id width (s.set key value) n₀
      (writeAt width n key (v.encode width value).toOption) := by
  obtain ⟨row, hencode, hdecode⟩ := hkey
  obtain ⟨payload, hencode', hdecode'⟩ := hvalue
  have hm : mutation (.scalar k v width) (key, .put value) = .ok (.put row payload) := by
    simp [mutation, MapCodec.scalar, ValueCodec.scalar, hencode, hencode', liftCodec, bind,
      Except.bind, pure, Except.pure]
  obtain ⟨hedited, hunedited⟩ := edited_insert hk h hm hdecode
  have hwrite : writeAt width n key (v.encode width value).toOption = n.set row (some payload) := by
    rw [writeAt, hencode, hencode']
    rfl
  rw [hwrite]
  refine ⟨h.name, h.codec, counted_set h.counted key value, keyed_set h.keyed hencode _,
    legible_set h.legible hdecode ?_, ?_, hedited, hunedited⟩
  · rintro p hp
    cases hp
    exact ⟨value, hdecode'⟩
  · intro key'
    rw [get?_set, valueAt_set hk hencode hdecode, h.value, Option.bind_some, hdecode']
    rfl

/-- Under a key that is not visible there is no row to take away. -/
theorem writeAt_of_hidden (hk : k ∉ [.float32, .float64, .instant]) (h : Stands id width s n₀ n)
    {key : k.Carrier} (hget : s.get? key = none) : writeAt width n key none = n := by
  rw [writeAt]
  cases hencode : k.encode width key with
  | error e => rfl
  | ok row =>
    have hrow : n row = none := by
      by_contra hsome
      obtain ⟨payload, hrow⟩ := Option.ne_none_iff_exists'.1 hsome
      obtain ⟨-, value, -, -, hvalue⟩ := decode_of_keyed hk h.keyed h.legible hrow
      have hat := valueAt_eq_some_iff.2 ⟨row, payload, hencode, hrow, hvalue⟩
      rw [← h.value, hget] at hat
      cases hat
    funext row'
    by_cases hsame : row' = row
    · rw [hsame]
      exact (Table.set_self _ _ _).trans hrow.symm
    · exact Table.set_of_ne hsame _ _

theorem stands_delete_of_visible (hk : k ∉ [.float32, .float64, .instant])
    (h : Stands id width s n₀ n) {key : k.Carrier} {value : v.Carrier} (hget : s.get? key = some value) :
    Stands id width (s.delete key) n₀ (writeAt width n key none) := by
  have hvalue := h.value key
  rw [hget] at hvalue
  obtain ⟨row, payload, hencode, hrow, -⟩ := valueAt_eq_some_iff.1 hvalue.symm
  obtain ⟨key₁, -, hencode₁, hdecode, -⟩ := decode_of_keyed hk h.keyed h.legible hrow
  obtain rfl := ScalarType.eq_of_decode hk hencode hdecode
  have hm : mutation (.scalar k v width) (key₁, .delete) = .ok (.delete row) := by
    simp [mutation, MapCodec.scalar, ValueCodec.scalar, hencode, liftCodec, bind, Except.bind,
      pure, Except.pure]
  obtain ⟨hedited, hunedited⟩ := edited_insert hk h hm hdecode
  have hwrite : writeAt width n key₁ none = n.set row none := by rw [writeAt, hencode]
  have hdelete : s.delete key₁ =
      { s with size := s.size - 1, updates := s.updates.insert key₁ .delete } := by
    rw [delete, contains, hget]
    rfl
  have hcounted := counted_delete h.counted key₁
  have hlookup : ∀ key', (s.delete key₁).get? key' = valueAt width (n.set row none) key' := by
    intro key'
    rw [get?_delete, valueAt_set hk hencode hdecode, h.value]
    rfl
  rw [hwrite]
  rw [hdelete] at hcounted hlookup ⊢
  refine ⟨h.name, h.codec, hcounted, keyed_set h.keyed hencode _,
    legible_set h.legible hdecode ?_, hlookup, hedited, hunedited⟩
  rintro p ⟨⟩

theorem stands_delete (hk : k ∉ [.float32, .float64, .instant]) (h : Stands id width s n₀ n)
    (key : k.Carrier) : Stands id width (s.delete key) n₀ (writeAt width n key none) := by
  cases hget : s.get? key with
  | some value => exact stands_delete_of_visible hk h hget
  | none =>
    have hdelete : s.delete key = s := by
      rw [delete, contains, hget]
      rfl
    rw [hdelete, writeAt_of_hidden hk h hget]
    exact h

/-! ## Rendering -/

theorem rendered_of_stands (h : Stands id width s n₀ n) :
    ∃ ms, s.mutations = .ok ms ∧ Mutation.changes ms n₀ = n := by
  have hall : ∀ e ∈ s.updates.entries, ∃ m, mutation s.codec e = .ok m := by
    rintro ⟨key, u⟩ he
    obtain ⟨m, hm, -⟩ := h.edited key u ((Assoc.get?_eq_some_iff _).2 he)
    exact ⟨m, by rw [h.codec, hm]⟩
  obtain ⟨ms, hms⟩ := exists_forall₂ hall
  refine ⟨ms, render_eq_ok_iff.2 hms, ?_⟩
  funext row
  rw [Mutation.changes_apply]
  cases hlast : Mutation.last? ms row with
  | some m =>
    obtain ⟨hmem, rfl⟩ := Mutation.mem_and_key_of_last? hlast
    obtain ⟨⟨key, u⟩, he, hm⟩ := exists_mem_of_forall₂ hms.flip hmem
    obtain ⟨m', hm', hrow⟩ := h.edited key u ((Assoc.get?_eq_some_iff _).2 he)
    have hsame : m = m' := by
      rw [← h.codec, show mutation s.codec (key, u) = .ok m from hm] at hm'
      exact Except.ok.inj hm'
    rw [hsame]
    exact hrow.symm
  | none =>
    refine (h.unedited row fun key u hget hencode => ?_).symm
    obtain ⟨m, hmem, hm⟩ := exists_mem_of_forall₂ hms ((Assoc.get?_eq_some_iff _).1 hget)
    have hkey := encode_key_of_mutation hm
    rw [h.codec] at hkey
    have hrow : m.key = row := Except.ok.inj (hkey.symm.trans hencode)
    obtain ⟨m', hm'⟩ := Mutation.exists_last? hmem
    rw [hrow, hlast] at hm'
    cases hm'

/-! ## Listing and loading -/

theorem ncard_of_stands (h : Stands id width s n₀ n) :
    {key : k.Carrier | ∃ value : v.Carrier, valueAt width n key = some value}.ncard = s.size := by
  have hvisible : {key : k.Carrier | ∃ value : v.Carrier, valueAt width n key = some value} =
      (s.visible : Set k.Carrier) := by
    ext key
    rw [Finset.mem_coe, mem_visible_iff, contains, h.value key, Option.isSome_iff_exists]
    rfl
  rw [hvisible, Set.ncard_coe_finset]
  exact h.counted.symm

theorem setOf_mem_all (h : Stands id width s n₀ n) :
    {e | e ∈ s.all} = {e | valueAt width n e.1 = some e.2} := by
  ext e
  rw [Set.mem_ofPred_eq, Set.mem_ofPred_eq, ← h.value e.1]
  exact mem_all_iff

/-- What a loaded entry has to do with its row. -/
def Row (k v : ScalarType) (width : IntWidth) (row : StateEntry) (e : k.Carrier × v.Carrier) : Prop :=
  k.encode width e.1 = .ok row.key ∧ k.decode width row.key = .ok e.1 ∧
    v.decode width row.value = .ok e.2

/-- Rows of different keys are loaded as entries of different keys. -/
theorem nodup_of_rows (hk : k ∉ [.float32, .float64, .instant]) {rows : List StateEntry}
    {es : List (k.Carrier × v.Carrier)} (hes : List.Forall₂ (Row k v width) rows es)
    (hnodup : (rows.map (·.key)).Nodup) : (es.map Prod.fst).Nodup := by
  rw [List.Nodup, List.pairwise_map] at hnodup ⊢
  refine (pairwise_iff_of_forall₂ ?_ hes).1 hnodup
  rintro row row' e e' ⟨hencode, hdecode, -⟩ ⟨hencode', -, -⟩
  refine not_congr ⟨fun hsame => ?_, fun hsame => ?_⟩
  · rw [← hsame] at hencode'
    exact ScalarType.eq_of_decode hk hencode' hdecode
  · rw [hsame, hencode'] at hencode
    exact (Except.ok.inj hencode).symm

theorem get?_of_rows (hk : k ∉ [.float32, .float64, .instant]) {rows : List StateEntry}
    (hlists : Table.Lists rows n) {es : List (k.Carrier × v.Carrier)}
    (hes : List.Forall₂ (Row k v width) rows es) (key : k.Carrier) :
    (Assoc.ofList es).get? key = valueAt width n key := by
  ext value
  rw [Assoc.get?_ofList_eq_some_iff (nodup_of_rows hk hes hlists.nodup), valueAt_eq_some_iff]
  constructor
  · intro hmem
    obtain ⟨row, hrow, hencode, -, hvalue⟩ := exists_mem_of_forall₂ hes.flip hmem
    exact ⟨row.key, row.value, hencode, (hlists.mem_iff row).1 hrow, hvalue⟩
  · rintro ⟨row, payload, hencode, hrow, hvalue⟩
    obtain ⟨e, he, -, hdecode, hvalue'⟩ :=
      exists_mem_of_forall₂ hes ((hlists.mem_iff ⟨row, payload⟩).2 hrow)
    have hkey : e.1 = key := ScalarType.eq_of_decode hk hencode hdecode
    have hsame : e.2 = value := Except.ok.inj (hvalue'.symm.trans hvalue)
    rw [← hkey, ← hsame]
    exact he

/-- The entries that are loaded from the rows of a table stand for the table. -/
theorem stands_of_rows (hk : k ∉ [.float32, .float64, .instant]) (hkeyed : Keyed k width n)
    {rows : List StateEntry} (hlists : Table.Lists rows n)
    (hload : ofRows id (.scalar k v width) rows = .ok s) : Stands id width s n n := by
  obtain ⟨es, hread, rfl⟩ := ofRows_eq_ok_iff.1 hload
  have hrows : ∀ row ∈ rows, ∃ key : k.Carrier, k.encode width key = .ok row.key :=
    fun row hrow => hkeyed row.key row.value ((hlists.mem_iff row).1 hrow)
  have hes : List.Forall₂ (Row k v width) rows es := by
    refine ((List.forall₂_and_left rows es).2 ⟨hrows, hread⟩).imp ?_
    rintro row e ⟨⟨key₀, hencode⟩, hdecode, hvalue⟩
    have hkey : e.1 = key₀ := ScalarType.eq_of_decode hk hencode hdecode
    exact ⟨by rw [hkey, hencode], hdecode, hvalue⟩
  refine ⟨rfl, rfl, counted_ofEntries _ _ _, hkeyed, ?_, get?_of_rows hk hlists hes, ?_, fun _ _ => rfl⟩
  · intro row payload hrow
    obtain ⟨e, -, -, hdecode, hvalue⟩ :=
      exists_mem_of_forall₂ hes ((hlists.mem_iff ⟨row, payload⟩).2 hrow)
    exact ⟨e.1, e.2, hdecode, hvalue⟩
  · rintro key u ⟨⟩

theorem ofRows_of_legible {rows : List StateEntry} (hlists : Table.Lists rows n)
    (hlegible : Legible k v width n) : ∃ s, ofRows id (.scalar k v width) rows = .ok s := by
  have hall : ∀ row ∈ rows, ∃ e : k.Carrier × v.Carrier,
      (MapCodec.scalar k v width).key.decode row.key = .ok e.1 ∧
        (MapCodec.scalar k v width).value.decode row.value = .ok e.2 := by
    intro row hrow
    obtain ⟨key, value, hdecode, hvalue⟩ := hlegible row.key row.value ((hlists.mem_iff row).1 hrow)
    exact ⟨(key, value), hdecode, hvalue⟩
  obtain ⟨es, hes⟩ := exists_forall₂ hall
  exact ⟨_, ofRows_eq_ok_iff.2 ⟨es, hes, rfl⟩⟩

end MapState

/-- A declared map state of scalar types, and what its operations come to on its rows. The keys are
of a type in which no two have one stored form. -/
noncomputable def Mirror.table (id : String) (k v : ScalarType) (width : IntWidth)
    (hk : k ∉ [.float32, .float64, .instant]) : Mirror Script.Item where
  kind := .map k v
  spec := Script.Declaration.spec ⟨id, id, .map k v width⟩
  Op := TableOp k v width
  Reply := TableOp.Reply
  run := TableOp.run
  reply := TableOp.reply
  write := TableOp.write
  Valid := MapState.Keyed k width
  Readable := MapState.Legible k v width
  Stands := MapState.Stands id width
  stands_of_load hkeyed hlists hload := MapState.stands_of_rows hk hkeyed hlists hload
  load_of_readable _ hlists hlegible := MapState.ofRows_of_legible hlists hlegible
  stands_run {x n₀ n} op h := by
    cases op with
    | get key => exact ⟨h.value key, h⟩
    | size => exact ⟨(MapState.ncard_of_stands h).symm, h⟩
    | all => exact ⟨MapState.setOf_mem_all h, h⟩
    | set key value hkey hvalue => exact ⟨rfl, MapState.stands_set hk h hkey hvalue⟩
    | delete key => exact ⟨rfl, MapState.stands_delete hk h key⟩
  render_of_stands h := MapState.rendered_of_stands h
  valid_of_stands h := h.keyed
  readable_of_stands h := h.legible

end KeyedStream
