import Mathlib
import KeyedStream.Proofs.Restored
import KeyedStream.Proofs.TableMirror

/-!
# Tables that are stored and loaded again

The rows of a table are loaded, the table is worked on, and its changes are applied to the rows one
by one, in whatever order they are listed. After any operations the table stands for some rows
(`MapState.stands_performed`), and they are the ones that its changes lead to
(`MapState.changes_of_render`). So what is loaded from them is what was there to be seen, and the
row of a key that was neither set nor deleted is not touched (`MapState.table_stored_as_seen`).

The keys are of any type but floats, which are no keys, and instants, of which two may be stored as
one.
-/

namespace KeyedStream

variable {k v : ScalarType} {width : IntWidth}

/-- Whether an operation sets or deletes a key. -/
def TableOp.Edits : TableOp k v width → k.Carrier → Prop
  | set key' _ _ _, key => key' = key
  | delete key', key => key' = key
  | _, _ => False

namespace MapState

variable {name : String} {s : MapState k.Carrier v.Carrier} {rows : List StateEntry} {n₀ n : Table}

/-! ## Operations -/

/-- A table after operations, one after the other. -/
def performed (s : MapState k.Carrier v.Carrier) (ops : List (TableOp k v width)) :
    MapState k.Carrier v.Carrier :=
  ops.foldl (fun s op => (op.run s).2) s

theorem stands_performed (hk : k ∉ [.float32, .float64, .instant]) (h : Stands name width s n₀ n)
    (ops : List (TableOp k v width)) : ∃ n', Stands name width (s.performed ops) n₀ n' := by
  induction ops generalizing s n with
  | nil => exact ⟨n, h⟩
  | cons op ops ih => exact ih ((Mirror.table name k v width hk).stands_run op h).2

theorem updates_run (s : MapState k.Carrier v.Carrier) {op : TableOp k v width} {key : k.Carrier}
    (h : ¬ op.Edits key) : (op.run s).2.updates.get? key = s.updates.get? key := by
  cases op with
  | get key' => rfl
  | size => rfl
  | all => rfl
  | set key' value hkey hvalue =>
    exact (Assoc.get?_insert _ _ _ _).trans (if_neg (Ne.symm h))
  | delete key' =>
    change (s.delete key').updates.get? key = _
    rw [delete]
    split
    · exact (Assoc.get?_insert _ _ _ _).trans (if_neg (Ne.symm h))
    · rfl

/-- Operations that neither set nor delete a key leave no edit of it. -/
theorem updates_performed (s : MapState k.Carrier v.Carrier) {ops : List (TableOp k v width)}
    {key : k.Carrier} (h : ∀ op ∈ ops, ¬ op.Edits key) :
    (s.performed ops).updates.get? key = s.updates.get? key := by
  induction ops generalizing s with
  | nil => rfl
  | cons op ops ih =>
    obtain ⟨hop, hops⟩ := List.forall_mem_cons.1 h
    exact (ih (op.run s).2 hops).trans (updates_run s hop)

/-! ## Changes in any order -/

/-- However the edits are listed, their changes lead to the rows that the table stands for, and no
row is changed twice. -/
theorem changes_of_render (hk : k ∉ [.float32, .float64, .instant]) (h : Stands name width s n₀ n)
    {es : List (k.Carrier × Update v.Carrier)} (hperm : es.Perm s.updates.entries) :
    ∃ ms, render s.codec es = .ok ms ∧ (ms.map Mutation.key).Nodup ∧
      Mutation.changes ms n₀ = n := by
  obtain ⟨ms, hms, hchanges⟩ := rendered_of_stands h
  have hapart := apart_of_notMem hk s
  obtain ⟨ms', hms', hsame⟩ := coalesce_of_agree h.codec (agree_of_apart hapart) hperm hms
  obtain ⟨ms₁, hms₁, hperm'⟩ := render_perm hperm hms
  cases hms'.symm.trans hms₁
  refine ⟨ms', hms', ?_, ?_⟩
  · exact (hperm'.map Mutation.key).nodup_iff.1 ((apart_iff_nodup h.codec hms).1 hapart)
  · rw [← Mutation.changes_coalesce, ← hsame, Mutation.changes_coalesce, hchanges]

/-! ## Stored tables -/

/-- Rows of a stored table: each is keyed by the stored form of a key, no two of one key, and has a
payload that can be read as a value. -/
def StoredTable (k v : ScalarType) (width : IntWidth) (rows : List StateEntry) : Prop :=
  ∃ keys : List k.Carrier, keys.Nodup ∧ List.Forall₂ (fun row key => k.FitsMemory key ∧
    k.encode width key = .ok row.key ∧ ∃ value, v.decode width row.value = .ok value) rows keys

/-- A key of most types is read back from its stored form. -/
theorem decode_key (hk : k ∉ [.float32, .float64, .instant]) {key : k.Carrier} {row : Bytes}
    (hfits : k.FitsMemory key) (hencode : k.encode width key = .ok row) :
    k.decode width row = .ok key := by
  rw [ScalarType.decode_restored hfits hencode]
  cases k with
  | float32 => simp at hk
  | float64 => simp at hk
  | instant => simp at hk
  | _ => rfl

theorem lists_of_storedTable (hk : k ∉ [.float32, .float64, .instant])
    (h : StoredTable k v width rows) :
    Table.Lists rows (.ofRows rows) ∧ Keyed k width (.ofRows rows) ∧
      Legible k v width (.ofRows rows) := by
  obtain ⟨keys, hdiffer, hkeys⟩ := h
  have hnodup : (rows.map (·.key)).Nodup := by
    rw [List.Nodup, List.pairwise_map]
    refine (pairwise_iff_of_forall₂ ?_ hkeys).2 hdiffer
    rintro row row' key key' ⟨hfits, hencode, -⟩ ⟨-, hencode', -⟩
    refine not_congr ⟨fun hsame => ?_, fun hsame => ?_⟩
    · rw [← hsame] at hencode'
      exact ScalarType.eq_of_decode hk hencode' (decode_key hk hfits hencode)
    · rw [hsame, hencode'] at hencode
      exact (Except.ok.inj hencode).symm
  have hlists := Table.lists_ofRows hnodup
  have hrow : ∀ row payload, Table.ofRows rows row = some payload → ∃ key : k.Carrier,
      k.FitsMemory key ∧ k.encode width key = .ok row ∧
        ∃ value, v.decode width payload = .ok value := by
    intro row payload hsome
    obtain ⟨key, -, hkey⟩ := exists_mem_of_forall₂ hkeys ((hlists.mem_iff ⟨row, payload⟩).2 hsome)
    exact ⟨key, hkey⟩
  refine ⟨hlists, fun row payload hsome => ?_, fun row payload hsome => ?_⟩
  · obtain ⟨key, -, hencode, -⟩ := hrow row payload hsome
    exact ⟨key, hencode⟩
  · obtain ⟨key, hfits, hencode, value, hvalue⟩ := hrow row payload hsome
    exact ⟨key, value, decode_key hk hfits hencode, hvalue⟩

/-! ## Stored, loaded, and stored again -/

/-- Two tables of which all that can be seen is the same. -/
structure ShowsSame (s s' : MapState k.Carrier v.Carrier) : Prop where
  get? : ∀ key, s.get? key = s'.get? key
  all : ∀ e, e ∈ s.all ↔ e ∈ s'.all
  size : s.size = s'.size

theorem showsSame_of_stands {s' : MapState k.Carrier v.Carrier} {n₁ : Table}
    (h : Stands name width s n₀ n) (h' : Stands name width s' n₁ n) : ShowsSame s s' where
  get? key := by rw [h.value, h'.value]
  all e := by rw [← Prod.mk.eta (p := e), mem_all_iff, mem_all_iff, h.value, h'.value]
  size := by rw [← ncard_of_stands h, ← ncard_of_stands h']

/-- **A table is stored as it was seen.** The rows of a stored table are loaded, and the table is
worked on with keys and values that are read back. Its edits are rendered in whatever order they are
listed, as at most one change of each row, and the changes are applied to the stored rows, one after
the other. What is then loaded shows what was there to be seen, whatever order the rows come in; and
there is a row of a key that was neither set nor deleted just if it was stored, byte for byte. -/
theorem table_stored_as_seen (hk : k ∉ [.float32, .float64, .instant])
    (hrows : StoredTable k v width rows) (name : String) (ops : List (TableOp k v width)) :
    ∃ s : MapState k.Carrier v.Carrier, ofRows name (.scalar k v width) rows = .ok s ∧
      ∀ es, es.Perm (s.performed ops).updates.entries →
        ∃ ms, render (s.performed ops).codec es = .ok ms ∧ (ms.map Mutation.key).Nodup ∧
          ((Mutation.applyAll ms rows).map (·.key)).Nodup ∧
          (∀ row : StateEntry,
            (∀ key, k.encode width key = .ok row.key → ∀ op ∈ ops, ¬ op.Edits key) →
              (row ∈ Mutation.applyAll ms rows ↔ row ∈ rows)) ∧
          ∀ rows', rows'.Perm (Mutation.applyAll ms rows) →
            ∃ s', ofRows name (.scalar k v width) rows' = .ok s' ∧ ShowsSame s' (s.performed ops) := by
  obtain ⟨hlists, hkeyed, hlegible⟩ := lists_of_storedTable hk hrows
  obtain ⟨s, hload⟩ : ∃ s, ofRows name (.scalar k v width) rows = .ok s :=
    ofRows_of_legible hlists hlegible
  have hloaded := stands_of_rows hk hkeyed hlists hload
  obtain ⟨n, hstands⟩ := stands_performed hk hloaded ops
  refine ⟨s, hload, fun es hperm => ?_⟩
  obtain ⟨ms, hms, hnodup, hchanges⟩ := changes_of_render hk hstands hperm
  have hlists' := Mutation.lists_applyAll hlists ms
  rw [hchanges] at hlists'
  refine ⟨ms, hms, hnodup, hlists'.nodup, fun row hrow => ?_, fun rows' hperm' => ?_⟩
  · rw [hlists.mem_iff, hlists'.mem_iff, hstands.unedited row.key fun key u hget hencode => ?_]
    have hsame := updates_performed s (hrow key hencode)
    rw [hget] at hsame
    obtain ⟨es₀, -, rfl⟩ := ofRows_eq_ok_iff.1 hload
    cases hsame
  · have hreads := hlists'.perm hperm'
    obtain ⟨s', hload'⟩ : ∃ s', ofRows name (.scalar k v width) rows' = .ok s' :=
      ofRows_of_legible hreads hstands.legible
    exact ⟨s', hload', showsSame_of_stands (stands_of_rows hk hstands.keyed hreads hload') hstands⟩

/-- Three rows of a table of counts. -/
def countRows : List StateEntry :=
  [⟨[10, 1, 97], [8, 1]⟩, ⟨[10, 1, 98], [8, 2]⟩, ⟨[10, 1, 99], [8, 3]⟩]

theorem storable_string {text : String} (hfits : (Bytes.ofText text).length < 2 ^ 64) :
    ScalarType.string.Storable .w64 text :=
  ⟨_, rfl, decode_key (by decide) hfits rfl⟩

/-- One count is changed, one is taken away, and one comes and goes. -/
def countOps : List (TableOp .string .int64 .w64) :=
  [.set "a" (5 : Int64) (storable_string (by decide)) ⟨_, rfl, rfl⟩, .delete "b",
    .set "d" (7 : Int64) (storable_string (by decide)) ⟨_, rfl, rfl⟩, .delete "d"]

theorem table_stored_as_seen_counts :
    StoredTable .string .int64 .w64 countRows ∧
      ∃ s s', ofRows "counts" (.scalar .string .int64 .w64) countRows = .ok s ∧
        (s.performed countOps).mutations =
          .ok [.put [10, 1, 97] [8, 5], .delete [10, 1, 98], .delete [10, 1, 100]] ∧
        ofRows "counts" (.scalar .string .int64 .w64) [⟨[10, 1, 97], [8, 5]⟩, ⟨[10, 1, 99], [8, 3]⟩] =
          .ok s' ∧
        ShowsSame s' (s.performed countOps) := by
  have hrows : StoredTable .string .int64 .w64 countRows := by
    have ha : (Bytes.ofText "a").length < 2 ^ 64 := by decide
    have hb : (Bytes.ofText "b").length < 2 ^ 64 := by decide
    have hc : (Bytes.ofText "c").length < 2 ^ 64 := by decide
    refine ⟨["a", "b", "c"], by decide, ?_⟩
    exact .cons ⟨ha, rfl, _, rfl⟩ (.cons ⟨hb, rfl, _, rfl⟩ (.cons ⟨hc, rfl, _, rfl⟩ .nil))
  obtain ⟨s, hload, hall⟩ := table_stored_as_seen (by decide) hrows "counts" countOps
  obtain ⟨ms, hms, -, -, -, hreload⟩ := hall _ (.refl _)
  have hmutations : (s.performed countOps).mutations =
      .ok [.put [10, 1, 97] [8, 5], .delete [10, 1, 98], .delete [10, 1, 100]] := by
    cases hload
    rfl
  obtain rfl := Except.ok.inj (hms.symm.trans hmutations)
  obtain ⟨s', hload', hshows⟩ := hreload _ (.refl _)
  exact ⟨hrows, s, s', hload, hmutations, hload', hshows⟩

end MapState

end KeyedStream
