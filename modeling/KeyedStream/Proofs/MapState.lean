import Mathlib
import KeyedStream.Proofs.Delivery
import KeyedStream.Proofs.Pairing
import KeyedStream.State.Spec

/-!
# Tables in memory

What is listed of a table is what is looked up in it (`mem_all_iff`), each key once
(`nodup_keys_all`), and the counted size is the length of the list (`Counted`), whatever is loaded and
edited.
-/

namespace KeyedStream

namespace Assoc

variable {κ ν : Type} [DecidableEq κ]

/-- Of entries with different keys, all count. -/
theorem get?_ofList_eq_some_iff {l : List (κ × ν)} (h : (l.map Prod.fst).Nodup) {k : κ} {v : ν} :
    (ofList l).get? k = some v ↔ (k, v) ∈ l := by
  rw [get?_ofList, Option.map_eq_some_iff]
  constructor
  · rintro ⟨e, he, rfl⟩
    have hmem := List.mem_of_getLast? he
    simp only [List.mem_filter, decide_eq_true_eq] at hmem
    rw [← hmem.2]
    exact hmem.1
  · intro hmem
    have hsome : l.filter (fun e => e.1 = k) ≠ [] :=
      List.ne_nil_of_mem (List.mem_filter.2 ⟨hmem, by simp⟩)
    obtain ⟨e, he⟩ := Option.ne_none_iff_exists'.1 (mt List.getLast?_eq_none_iff.1 hsome)
    have hlast := List.mem_of_getLast? he
    simp only [List.mem_filter, decide_eq_true_eq] at hlast
    have hsame : e = (k, v) := List.inj_on_of_nodup_map h hlast.1 hmem hlast.2
    exact ⟨e, he, by rw [hsame]⟩

end Assoc

namespace MapState

variable {κ ν : Type} [DecidableEq κ] {s : MapState κ ν} {k : κ} {v : ν}

/-! ## Looking up and listing -/

theorem get?_eq_some_iff : s.get? k = some v ↔
    s.updates.get? k = some (.put v) ∨ s.updates.get? k = none ∧ s.baseline.get? k = some v := by
  unfold get?
  cases s.updates.get? k with
  | none => simp
  | some u => cases u <;> simp

theorem fst_of_ofBaseline {e e' : κ × ν} (h : s.ofBaseline e = some e') : e'.1 = e.1 := by
  unfold ofBaseline at h
  split at h
  · cases h; rfl
  · cases h
  · cases h; rfl

theorem added_eq_some_iff {e : κ × Update ν} :
    s.added e = some (k, v) ↔ e = (k, .put v) ∧ s.baseline.contains k = false := by
  obtain ⟨k', u⟩ := e
  cases u with
  | delete => simp [added]
  | put v' =>
    unfold added
    cases hc : s.baseline.contains k' with
    | true =>
      simp only [if_true, reduceCtorEq, Prod.mk.injEq, Update.put.injEq, false_iff, not_and]
      rintro ⟨rfl, rfl⟩
      simp [hc]
    | false =>
      simp only [Bool.false_eq_true, if_false, Option.some.injEq, Prod.mk.injEq, Update.put.injEq]
      constructor
      · rintro ⟨rfl, rfl⟩
        exact ⟨⟨rfl, rfl⟩, hc⟩
      · rintro ⟨h, -⟩
        exact h

/-- What is listed is what is looked up. -/
theorem mem_all_iff : (k, v) ∈ s.all ↔ s.get? k = some v := by
  rw [all, List.mem_append, List.mem_filterMap, List.mem_filterMap, get?_eq_some_iff]
  constructor
  · rintro (⟨⟨k', v'⟩, hmem, he⟩ | ⟨e, hmem, he⟩)
    · have hkey : k = k' := fst_of_ofBaseline he
      subst hkey
      rw [← Assoc.get?_eq_some_iff] at hmem
      unfold ofBaseline at he
      cases hu : s.updates.get? k with
      | none =>
        simp only [hu, Option.some.injEq, Prod.mk.injEq, true_and] at he
        exact .inr ⟨rfl, by rw [hmem, he]⟩
      | some u =>
        cases u with
        | put v₁ =>
          simp only [hu, Option.some.injEq, Prod.mk.injEq, true_and] at he
          exact .inl (by rw [he])
        | delete => simp [hu] at he
    · obtain ⟨rfl, -⟩ := added_eq_some_iff.1 he
      exact .inl ((Assoc.get?_eq_some_iff _).2 hmem)
  · rintro (hput | ⟨hnone, hbase⟩)
    · cases hc : s.baseline.contains k with
      | false =>
        exact .inr ⟨(k, .put v), (Assoc.get?_eq_some_iff _).1 hput, added_eq_some_iff.2 ⟨rfl, hc⟩⟩
      | true =>
        obtain ⟨v', hv'⟩ := Option.isSome_iff_exists.1 hc
        exact .inl ⟨(k, v'), (Assoc.get?_eq_some_iff _).1 hv', by simp [ofBaseline, hput]⟩
    · exact .inl ⟨(k, v), (Assoc.get?_eq_some_iff _).1 hbase, by simp [ofBaseline, hnone]⟩

theorem mem_keys_all_iff : k ∈ s.all.map Prod.fst ↔ s.contains k = true := by
  rw [List.mem_map, contains, Option.isSome_iff_exists]
  constructor
  · rintro ⟨⟨k', v⟩, hmem, rfl⟩
    exact ⟨v, mem_all_iff.1 hmem⟩
  · rintro ⟨v, hv⟩
    exact ⟨(k, v), mem_all_iff.2 hv, rfl⟩

omit [DecidableEq κ] in
/-- Entries that keep their keys keep them different. -/
theorem nodup_keys_filterMap {α β : Type} {f : κ × α → Option (κ × β)}
    (hf : ∀ e e', f e = some e' → e'.1 = e.1) {l : List (κ × α)} (h : (l.map Prod.fst).Nodup) :
    ((l.filterMap f).map Prod.fst).Nodup := by
  have hsub : ((l.filterMap f).map Prod.fst).Sublist (l.map Prod.fst) := by
    clear h
    induction l with
    | nil => exact .slnil
    | cons e l ih =>
      rw [List.filterMap_cons]
      split
      · exact ih.cons _
      · next e' he =>
        rw [List.map_cons, List.map_cons, hf e e' he]
        exact ih.cons_cons _
  exact h.sublist hsub

/-- Each key is listed once. -/
theorem nodup_keys_all (s : MapState κ ν) : (s.all.map Prod.fst).Nodup := by
  have hkeeps : ∀ e e', s.added e = some e' → e'.1 = e.1 := by
    rintro e ⟨k, v⟩ he
    rw [(added_eq_some_iff.1 he).1]
  rw [all, List.map_append, List.nodup_append]
  refine ⟨nodup_keys_filterMap (fun _ _ => fst_of_ofBaseline) s.baseline.nodup,
    nodup_keys_filterMap hkeeps s.updates.nodup, ?_⟩
  rintro a ha _ hb rfl
  obtain ⟨e', he', rfl⟩ := List.mem_map.1 ha
  obtain ⟨e, he, hof⟩ := List.mem_filterMap.1 he'
  obtain ⟨⟨k, v⟩, hu', hkey⟩ := List.mem_map.1 hb
  obtain ⟨u, -, hadd⟩ := List.mem_filterMap.1 hu'
  have hloaded : s.baseline.contains e.1 = true := by
    rw [Assoc.contains, Option.isSome_iff_exists]
    exact ⟨e.2, (Assoc.get?_eq_some_iff _).2 he⟩
  have hnot := (added_eq_some_iff.1 hadd).2
  rw [show k = e.1 from hkey.trans (fst_of_ofBaseline hof), hloaded] at hnot
  cases hnot

/-! ## The size -/

/-- The keys that are visible. -/
def visible (s : MapState κ ν) : Finset κ := (s.all.map Prod.fst).toFinset

theorem mem_visible_iff : k ∈ s.visible ↔ s.contains k = true := by
  rw [visible, List.mem_toFinset, mem_keys_all_iff]

theorem card_visible (s : MapState κ ν) : s.visible.card = s.all.length := by
  rw [visible, List.toFinset_card_of_nodup s.nodup_keys_all, List.length_map]

/-- The size is the number of visible keys. -/
def Counted (s : MapState κ ν) : Prop := s.size = s.visible.card

theorem visible_set (s : MapState κ ν) (k : κ) (v : ν) : (s.set k v).visible = insert k s.visible := by
  ext k'
  rw [mem_visible_iff, Finset.mem_insert, mem_visible_iff, contains, contains, get?_set]
  by_cases h : k' = k <;> simp [h]

theorem visible_delete (s : MapState κ ν) (k : κ) : (s.delete k).visible = s.visible.erase k := by
  ext k'
  rw [mem_visible_iff, Finset.mem_erase, mem_visible_iff, contains, contains, get?_delete]
  by_cases h : k' = k <;> simp [h]

theorem counted_set (h : s.Counted) (k : κ) (v : ν) : (s.set k v).Counted := by
  rw [Counted, visible_set, set]
  by_cases hk : s.contains k = true
  · rw [if_pos hk, Finset.insert_eq_of_mem (mem_visible_iff.2 hk)]
    exact h
  · rw [if_neg hk, Finset.card_insert_of_notMem (mt mem_visible_iff.1 hk)]
    exact congrArg (· + 1) h

theorem counted_delete (h : s.Counted) (k : κ) : (s.delete k).Counted := by
  rw [Counted, visible_delete, delete]
  by_cases hk : s.contains k = true
  · rw [if_pos hk, Finset.card_erase_of_mem (mem_visible_iff.2 hk)]
    exact congrArg (· - 1) h
  · rw [if_neg hk, Finset.erase_eq_of_notMem (mt mem_visible_iff.1 hk)]
    exact h

/-! ## Loading -/

theorem readRows_eq_ok_iff {codec : MapCodec κ ν} {rows : List StateEntry} {m m' : Assoc κ ν} :
    readRows codec rows m = .ok m' ↔ ∃ es : List (κ × ν),
      List.Forall₂ (fun row e => codec.key.decode row.key = .ok e.1 ∧
        codec.value.decode row.value = .ok e.2) rows es ∧
      m' = es.foldl (fun m e => m.insert e.1 e.2) m := by
  induction rows generalizing m with
  | nil =>
    simp only [readRows, Except.ok.injEq, List.forall₂_nil_left_iff]
    constructor
    · rintro rfl
      exact ⟨[], rfl, rfl⟩
    · rintro ⟨_, rfl, rfl⟩
      rfl
  | cons row rows ih =>
    rw [readRows]
    simp only [bind_eq_ok_iff, liftCodec_eq_ok_iff, ih]
    constructor
    · rintro ⟨k, hk, v, hv, es, hes, rfl⟩
      exact ⟨(k, v) :: es, .cons ⟨hk, hv⟩ hes, rfl⟩
    · rintro ⟨es, hes, rfl⟩
      obtain ⟨e, es, ⟨hk, hv⟩, hrest, rfl⟩ := List.forall₂_cons_left_iff.1 hes
      exact ⟨e.1, hk, e.2, hv, es, hrest, rfl⟩

/-- The table of loaded entries, without edits. -/
def ofEntries (name : String) (codec : MapCodec κ ν) (es : List (κ × ν)) : MapState κ ν :=
  let s : MapState κ ν := { name, codec, baseline := .ofList es }
  { s with size := s.all.length }

theorem counted_ofEntries (name : String) (codec : MapCodec κ ν) (es : List (κ × ν)) :
    (ofEntries name codec es).Counted := by
  rw [Counted, card_visible]
  rfl

/-- Rows are loaded if the key and the value of each can be read. -/
theorem ofRows_eq_ok_iff {name : String} {codec : MapCodec κ ν} {rows : List StateEntry} :
    ofRows name codec rows = .ok s ↔ ∃ es : List (κ × ν),
      List.Forall₂ (fun row e => codec.key.decode row.key = .ok e.1 ∧
        codec.value.decode row.value = .ok e.2) rows es ∧ s = ofEntries name codec es := by
  rw [ofRows, load_eq, map_eq_ok_iff]
  simp only [new, readRows_eq_ok_iff]
  constructor
  · rintro ⟨m, ⟨es, hes, rfl⟩, rfl⟩
    exact ⟨es, hes, rfl⟩
  · rintro ⟨es, hes, rfl⟩
    exact ⟨_, ⟨es, hes, rfl⟩, rfl⟩

end MapState

end KeyedStream
