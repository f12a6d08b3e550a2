import Mathlib
import KeyedStream.State.Basic

/-!
# Coalesced changes

Coalescing keeps the last change of each row (`mem_coalesce_iff`), in the order of the rows' keys. So
what is left depends on the last changes alone (`coalesce_eq_iff`), and nothing is left out just if
no row is changed twice (`length_coalesce_eq_iff`). Changes that come in another order leave the same
if those of one row are one change (`coalesce_perm`).
-/

namespace KeyedStream

namespace Ordered

variable {κ ν : Type} [LT κ] [DecidableLT κ] [DecidableEq κ] [KeyOrder κ]

/-- Of the entries of a key, the last one counts. -/
theorem get?_ofList (l : List (κ × ν)) (k : κ) :
    (ofList l).get? k = ((l.filter fun e => e.1 = k).getLast?).map Prod.snd := by
  induction l using List.reverseRecOn with
  | nil => rfl
  | append_singleton l e ih =>
    have hconcat : ofList (l ++ [e]) = (ofList l).insert e.1 e.2 := by simp [ofList]
    rw [hconcat, get?_insert, List.filter_append]
    by_cases h : k = e.1
    · simp [h]
    · rw [if_neg h, ih, List.filter_singleton]
      simp [Ne.symm h]

omit [DecidableLT κ] in
/-- An ordered map is determined by its look-ups. -/
theorem ext_get? {m m' : Ordered κ ν} (h : ∀ k, m.get? k = m'.get? k) : m = m' := by
  have hsame : ∀ e, e ∈ m.entries ↔ e ∈ m'.entries := by
    rintro ⟨k, v⟩
    rw [← get?_eq_some_iff, ← get?_eq_some_iff, h]
  have hperm : m.entries.Perm m'.entries :=
    (List.perm_ext_iff_of_nodup m.nodup_keys.of_map m'.nodup_keys.of_map).2 hsame
  have hanti : ∀ a b : κ × ν, a ∈ m.entries → b ∈ m'.entries → a.1 < b.1 → b.1 < a.1 → a = b :=
    fun a b _ _ hab hba => absurd (KeyOrder.trans hab hba) (KeyOrder.irrefl _)
  have hentries : m.entries = m'.entries :=
    hperm.eq_of_pairwise hanti (List.pairwise_map.1 m.ascending) (List.pairwise_map.1 m'.ascending)
  obtain ⟨_, _⟩ := m
  obtain ⟨_, _⟩ := m'
  cases hentries
  rfl

/-- The entries of a map make it up again in any order. -/
theorem ofList_of_perm {m : Ordered κ ν} {l : List (κ × ν)} (hperm : l.Perm m.entries) :
    ofList l = m := by
  refine ext_get? fun k => ?_
  rw [get?_ofList]
  cases hlast : (l.filter fun e => e.1 = k).getLast? with
  | none =>
    have hnone : ∀ e ∈ l, ¬ e.1 = k := by simpa using hlast
    refine (Option.eq_none_iff_forall_ne_some.2 fun v hv => ?_).symm
    exact hnone _ (hperm.mem_iff.2 (m.get?_eq_some_iff.1 hv)) rfl
  | some e =>
    obtain ⟨he, hkey⟩ := List.mem_filter.1 (List.mem_of_getLast? hlast)
    obtain rfl : e.1 = k := by simpa using hkey
    exact (m.get?_eq_some_iff.2 (hperm.mem_iff.1 he)).symm

end Ordered

namespace Mutation

/-- The last change of a row. -/
def last? (ms : List Mutation) (k : Bytes) : Option Mutation := (ms.filter fun m => m.key = k).getLast?

theorem mem_and_key_of_last? {ms : List Mutation} {k : Bytes} {m : Mutation}
    (h : last? ms k = some m) : m ∈ ms ∧ m.key = k := by
  have hmem := List.mem_of_getLast? h
  simpa using hmem

/-- The changes by the rows that they are for. -/
def byRow (ms : List Mutation) : Ordered Bytes Mutation := .ofList (ms.map fun m => (m.key, m))

theorem coalesce_eq_byRow (ms : List Mutation) :
    coalesce ms = (byRow ms).entries.map Prod.snd := rfl

theorem get?_byRow (ms : List Mutation) (k : Bytes) : (byRow ms).get? k = last? ms k := by
  rw [byRow, Ordered.get?_ofList, List.filter_map, List.getLast?_map, Option.map_map, last?]
  simp [Function.comp_def]

/-- **The last change of each row is kept**, and no other. -/
theorem mem_coalesce_iff {ms : List Mutation} {m : Mutation} :
    m ∈ coalesce ms ↔ last? ms m.key = some m := by
  rw [coalesce_eq_byRow, List.mem_map]
  constructor
  · rintro ⟨⟨k, m⟩, hmem, rfl⟩
    have hlast := (Ordered.get?_eq_some_iff _).2 hmem
    rw [get?_byRow] at hlast
    rw [(mem_and_key_of_last? hlast).2]
    exact hlast
  · intro hlast
    rw [← get?_byRow] at hlast
    exact ⟨(m.key, m), (Ordered.get?_eq_some_iff _).1 hlast, rfl⟩

theorem last?_eq_some_iff {ms : List Mutation} {k : Bytes} {m : Mutation} :
    last? ms k = some m ↔ m ∈ coalesce ms ∧ m.key = k := by
  constructor
  · intro h
    have hkey := (mem_and_key_of_last? h).2
    exact ⟨mem_coalesce_iff.2 (by rw [hkey, h]), hkey⟩
  · rintro ⟨hmem, rfl⟩
    exact mem_coalesce_iff.1 hmem

/-- What is kept depends on the last changes alone. -/
theorem coalesce_eq_iff {ms ms' : List Mutation} :
    coalesce ms = coalesce ms' ↔ ∀ k, last? ms k = last? ms' k := by
  constructor
  · intro h k
    ext m
    rw [last?_eq_some_iff, last?_eq_some_iff, h]
  · intro h
    have hrows : byRow ms = byRow ms' := Ordered.ext_get? fun k => by rw [get?_byRow, get?_byRow, h]
    rw [coalesce_eq_byRow, hrows, ← coalesce_eq_byRow]

/-- Every change is of the row that it is kept under. -/
theorem keys_coalesce (ms : List Mutation) : (coalesce ms).map key = (byRow ms).keys := by
  rw [coalesce_eq_byRow, List.map_map, Ordered.keys]
  refine List.map_congr_left fun e he => ?_
  have hlast := (Ordered.get?_eq_some_iff _).2 (show (e.1, e.2) ∈ (byRow ms).entries from he)
  rw [get?_byRow] at hlast
  exact (mem_and_key_of_last? hlast).2

theorem exists_last? {ms : List Mutation} {m : Mutation} (h : m ∈ ms) :
    ∃ m', last? ms m.key = some m' := by
  refine Option.ne_none_iff_exists'.1 fun hnone => ?_
  rw [last?, List.getLast?_eq_none_iff, List.filter_eq_nil_iff] at hnone
  exact hnone m h (by simp)

theorem mem_keys_coalesce_iff {ms : List Mutation} {k : Bytes} :
    k ∈ (coalesce ms).map key ↔ k ∈ ms.map key := by
  rw [List.mem_map, List.mem_map]
  constructor
  · rintro ⟨m, hm, rfl⟩
    exact ⟨m, (mem_and_key_of_last? (mem_coalesce_iff.1 hm)).1, rfl⟩
  · rintro ⟨m, hm, rfl⟩
    obtain ⟨m', hlast⟩ := exists_last? hm
    exact ⟨m', last?_eq_some_iff.1 hlast⟩

/-- All changes are kept just if no row is changed twice. -/
theorem length_coalesce_eq_iff {ms : List Mutation} :
    (coalesce ms).length = ms.length ↔ (ms.map key).Nodup := by
  have hnodup : ((coalesce ms).map key).Nodup := by
    rw [keys_coalesce]
    exact Ordered.nodup_keys _
  have hperm : ((coalesce ms).map key).Perm (ms.map key).dedup := by
    refine (List.perm_ext_iff_of_nodup hnodup (List.nodup_dedup _)).2 fun k => ?_
    rw [mem_keys_coalesce_iff, List.mem_dedup]
  have hlen := hperm.length_eq
  rw [List.length_map] at hlen
  rw [hlen, ← List.length_map key]
  constructor
  · intro h
    rw [← (List.dedup_sublist (ms.map key)).eq_of_length h]
    exact List.nodup_dedup _
  · intro h
    rw [h.dedup]

/-- Changes of which those of one row are one change may come in any order. -/
theorem coalesce_perm {ms ms' : List Mutation} (hperm : ms.Perm ms')
    (hagree : ∀ m ∈ ms, ∀ m' ∈ ms, m.key = m'.key → m = m') : coalesce ms = coalesce ms' := by
  refine coalesce_eq_iff.2 fun k => ?_
  cases hlast : last? ms k with
  | none =>
    cases hlast' : last? ms' k with
    | none => rfl
    | some m' =>
      obtain ⟨hm', rfl⟩ := mem_and_key_of_last? hlast'
      obtain ⟨m, hm⟩ := exists_last? (hperm.mem_iff.2 hm')
      rw [hlast] at hm
      cases hm
  | some m =>
    obtain ⟨hm, rfl⟩ := mem_and_key_of_last? hlast
    obtain ⟨m', hlast'⟩ := exists_last? (hperm.mem_iff.1 hm)
    obtain ⟨hm', hkey⟩ := mem_and_key_of_last? hlast'
    rw [hlast', hagree m hm m' (hperm.mem_iff.2 hm') hkey.symm]

/-- The change that comes last is kept. -/
theorem last?_concat (ms : List Mutation) (m : Mutation) : last? (ms ++ [m]) m.key = some m := by
  simp [last?]

end Mutation

end KeyedStream
