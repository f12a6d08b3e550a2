import Mathlib
import KeyedStream.Proofs.Render

/-!
# What an answer says of the touched states

For each touched state, in the order of the names, the answer of a subject has the last change of
each row that the state changes, in the order of the rows' keys (`Mutation.LastChanges`). No other
list of rows is that (`Mutation.lastChanges_iff`), so an answer is determined by its subject, and so
is the failure where there is none (`Subject.encode_last_changes`).
-/

namespace KeyedStream

namespace Mutation

variable {ms rows : List Mutation}

/-- The last changes of the rows that are changed, in the order of the rows' keys. -/
structure LastChanges (ms rows : List Mutation) : Prop where
  ascending : (rows.map key).Pairwise (· < ·)
  keys : ∀ k, k ∈ rows.map key ↔ k ∈ ms.map key
  last : ∀ m ∈ rows, ∃ before after, ms = before ++ m :: after ∧ ∀ m' ∈ after, m'.key ≠ m.key

/-- The last change of a row is one after which the row is not changed. -/
theorem last?_key_eq_some_iff {m : Mutation} :
    last? ms m.key = some m ↔
      ∃ before after, ms = before ++ m :: after ∧ ∀ m' ∈ after, m'.key ≠ m.key := by
  constructor
  · intro hlast
    induction ms using List.reverseRecOn with
    | nil => cases hlast
    | append_singleton ms x ih =>
      by_cases hx : x.key = m.key
      · rw [← hx, last?_concat] at hlast
        exact ⟨ms, [], by rw [Option.some.inj hlast], by simp⟩
      · have hskip : last? (ms ++ [x]) m.key = last? ms m.key := by simp [last?, hx]
        obtain ⟨before, after, rfl, hafter⟩ := ih (hskip ▸ hlast)
        refine ⟨before, after ++ [x], by simp, fun m' hm' => ?_⟩
        rcases List.mem_append.1 hm' with hm' | hm'
        · exact hafter m' hm'
        · rwa [List.mem_singleton.1 hm']
  · rintro ⟨before, after, rfl, hafter⟩
    have hnone : after.filter (fun m' => m'.key = m.key) = [] := by simpa using hafter
    simp [last?, List.filter_append, hnone]

theorem lastChanges_coalesce (ms : List Mutation) : LastChanges ms (coalesce ms) where
  ascending := by
    rw [keys_coalesce]
    exact (byRow ms).ascending
  keys _ := mem_keys_coalesce_iff
  last _ hm := last?_key_eq_some_iff.1 (mem_coalesce_iff.1 hm)

/-- There is one list of the last changes only. -/
theorem lastChanges_iff : LastChanges ms rows ↔ rows = coalesce ms := by
  refine ⟨fun h => ?_, fun h => h ▸ lastChanges_coalesce ms⟩
  -- a list that ascends is determined by its members, and these are the last changes in both
  have hcoalesce := lastChanges_coalesce ms
  have hsame : ∀ m, m ∈ rows ↔ m ∈ coalesce ms := by
    intro m
    rw [mem_coalesce_iff]
    refine ⟨fun hm => last?_key_eq_some_iff.2 (h.last m hm), fun hlast => ?_⟩
    have hkey : m.key ∈ rows.map key := (h.keys _).2 (List.mem_map_of_mem (mem_and_key_of_last? hlast).1)
    obtain ⟨m', hm', hm'key⟩ := List.mem_map.1 hkey
    have hlast' := last?_key_eq_some_iff.2 (h.last m' hm')
    rw [hm'key, hlast] at hlast'
    rwa [Option.some.inj hlast']
  have hnodup : ∀ {l : List Mutation}, (l.map key).Pairwise (· < ·) → l.Nodup := by
    intro l hl
    refine List.Nodup.of_map key (hl.imp fun hlt heq => ?_)
    exact KeyOrder.irrefl _ (heq ▸ hlt)
  have hperm := (List.perm_ext_iff_of_nodup (hnodup h.ascending) (hnodup hcoalesce.ascending)).2 hsame
  have hanti : ∀ m m' : Mutation, m ∈ rows → m' ∈ coalesce ms → m.key < m'.key → m'.key < m.key →
      m = m' :=
    fun _ _ _ _ hlt hgt => absurd (KeyOrder.trans hlt hgt) (KeyOrder.irrefl _)
  exact hperm.eq_of_pairwise hanti (List.pairwise_map.1 h.ascending)
    (List.pairwise_map.1 hcoalesce.ascending)

end Mutation

namespace Subject

variable {κ : Type} {Item : κ → Type} {s : Subject Item}

/-- What an answer has under the name of a touched state: the last changes of the changes that the
state renders. -/
def Shows (s : Subject Item) (n : Wire.StateMutationNamespace) : Prop :=
  ∃ r item ms rows, s.used.get? n.name = some r ∧ s.loaded.get? n.name = some item ∧
    r item = .ok ms ∧ n.mutations = rows.map Mutation.toWire ∧ Mutation.LastChanges ms rows

theorem shows_iff_renders {use : String × Renderer Item} (huse : use ∈ s.used.entries)
    {n : Wire.StateMutationNamespace} : s.Renders use n ↔ n.name = use.1 ∧ s.Shows n := by
  obtain ⟨name, r⟩ := use
  have hused : s.used.get? name = some r := (Ordered.get?_eq_some_iff _).2 huse
  constructor
  · rintro ⟨ms, hms, rfl⟩
    obtain ⟨item, hitem, hr⟩ := renderUse_eq_ok_iff.1 hms
    exact ⟨rfl, r, item, ms, _, hused, hitem, hr, rfl, Mutation.lastChanges_coalesce ms⟩
  · rintro ⟨hname, r', item, ms, rows, hused', hitem, hr, hmutations, hrows⟩
    obtain ⟨name', mutations⟩ := n
    obtain rfl : name' = name := hname
    obtain rfl : r = r' := Option.some.inj (hused.symm.trans hused')
    refine ⟨ms, renderUse_eq_ok_iff.2 ⟨item, hitem, hr⟩, ?_⟩
    rw [show mutations = rows.map Mutation.toWire from hmutations, Mutation.lastChanges_iff.1 hrows,
      rowsOf]

/-- An answer has what the touched states show, by name. -/
theorem forall₂_renders_iff {ns : List Wire.StateMutationNamespace} :
    List.Forall₂ s.Renders s.used.entries ns ↔ ns.map (·.name) = s.used.keys ∧ ∀ n ∈ ns, s.Shows n := by
  constructor
  · intro h
    refine ⟨names_of_renders h, fun n hn => ?_⟩
    obtain ⟨use, huse, hrenders⟩ := exists_mem_of_forall₂ h.flip hn
    exact ((shows_iff_renders huse).1 hrenders).2
  · rintro ⟨hnames, hshows⟩
    have hmatch : List.Forall₂ (fun n (use : String × Renderer Item) => n.name = use.1) ns
        s.used.entries := by
      have heq : List.Forall₂ (· = ·) (ns.map (·.name)) (s.used.entries.map Prod.fst) := by
        rw [List.forall₂_eq_eq_eq]
        exact hnames
      exact List.forall₂_map_right_iff.1 (List.forall₂_map_left_iff.1 heq)
    have hrenders : ∀ p ∈ ns.zip s.used.entries, s.Renders p.2 p.1 := fun p hp =>
      (shows_iff_renders (List.of_mem_zip hp).2).2
        ⟨(List.forall₂_iff_zip.1 hmatch).2 hp, hshows _ (List.of_mem_zip hp).1⟩
    exact (List.forall₂_iff_zip.2 ⟨hmatch.length_eq, hrenders _⟩).flip

/-- An answer is determined by its subject. -/
theorem encode_eq_ok_iff_shows {result : Wire.KeyResult} :
    s.encode = .ok result ↔ result.key = s.key ∧ result.newTimers = s.timers.map .ofInstant ∧
      result.stateMutationNamespaces.map (·.name) = s.used.keys ∧
      ∀ n ∈ result.stateMutationNamespaces, s.Shows n := by
  obtain ⟨key, newTimers, ns⟩ := result
  rw [encode_eq_ok_iff, ← forall₂_renders_iff]
  simp only [Wire.KeyResult.mk.injEq]
  constructor
  · rintro ⟨_, hns, rfl, rfl, rfl⟩
    exact ⟨rfl, rfl, hns⟩
  · rintro ⟨rfl, rfl, hns⟩
    exact ⟨ns, hns, rfl, rfl, rfl⟩

/-- The timers that are set are listed in the answer, and change nothing else of it. -/
theorem encode_foldl_setTimer (s : Subject Item) (ts : List Instant) :
    (ts.foldl setTimer s).encode =
      s.encode.map fun r => { r with newTimers := r.newTimers ++ ts.map .ofInstant } := by
  have hfold : ts.foldl setTimer s = { s with timers := s.timers ++ ts } := by
    induction ts generalizing s with
    | nil => simp
    | cons t ts ih => simp [ih, setTimer]
  have hns : ({ s with timers := s.timers ++ ts } : Subject Item).namespaces s.used.entries =
      s.namespaces s.used.entries := by
    -- what a state renders does not depend on the timers
    rw [namespaces_eq_mapM, namespaces_eq_mapM]
    rfl
  rw [hfold, encode, hns, encode]
  cases s.namespaces s.used.entries with
  | error e => rfl
  | ok ns => simp [bind, Except.bind, pure, Except.pure, Except.map]

/-- **The answer of a subject.** It has one entry for each touched state, in the order of the names,
and in it the last change of each row that the state changes, in the order of the rows' keys; the
timers are in the order in which they were set. There is none if a touched state is not loaded or
does not render, and the first such state by name is the one that the error names. -/
theorem encode_last_changes (s : Subject Item) (ts : List Instant) :
    (∀ result, (ts.foldl setTimer s).encode = .ok result ↔
      result.key = s.key ∧ result.newTimers = (s.timers ++ ts).map .ofInstant ∧
      result.stateMutationNamespaces.map (·.name) = s.used.keys ∧
      ∀ n ∈ result.stateMutationNamespaces, s.Shows n) ∧
    s.used.keys.Pairwise (· < ·) ∧
    ((∃ e, (ts.foldl setTimer s).encode = .error e) ↔
      ∃ name r, s.used.get? name = some r ∧ (s.loaded.get? name = none ∨
        ∃ item cause, s.loaded.get? name = some item ∧ r item = .error cause)) ∧
    ∀ e, (ts.foldl setTimer s).encode = .error e ↔
      ∃ name r cause, s.used.get? name = some r ∧ s.Unrendered name r cause ∧
        e = .internal ("failed to get mutations for state " ++ name ++ ": " ++ cause.message) ∧
        ∀ name' r', name' < name → s.used.get? name' = some r' →
          ∃ item ms, s.loaded.get? name' = some item ∧ r' item = .ok ms := by
  refine ⟨fun result => ?_, s.used.ascending, ?_, fun e => ?_⟩
  · rw [encode_foldl_setTimer, map_eq_ok_iff]
    simp only [encode_eq_ok_iff_shows]
    constructor
    · rintro ⟨answer, ⟨hkey, htimers, hns⟩, rfl⟩
      exact ⟨hkey, by rw [htimers, List.map_append], hns⟩
    · rintro ⟨hkey, htimers, hns⟩
      refine ⟨{ result with newTimers := s.timers.map .ofInstant }, ⟨hkey, rfl, hns⟩, ?_⟩
      rw [← List.map_append, ← htimers]
  · simp only [encode_foldl_setTimer, map_eq_error_iff, exists_encode_eq_error_iff, exists_and_left,
      exists_unrendered_iff]
  · rw [encode_foldl_setTimer, map_eq_error_iff, encode_eq_error_iff]
    simp only [renderUse_eq_ok_iff, renderError, exists_comm (α := List Mutation)]

end Subject

end KeyedStream
