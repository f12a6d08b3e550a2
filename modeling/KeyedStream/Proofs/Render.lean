import Mathlib
import KeyedStream.Proofs.Coalesce
import KeyedStream.Proofs.Pairing
import KeyedStream.Subject

/-!
# The answer of a subject

An answer has, for each state that was touched, its name and its coalesced changes, in the order of
the names (`namespaces_eq_ok_iff`). So a state may be rendered in any way that leaves the same
changes once they are coalesced (`encode_keeping_of_coalesce`). There is no answer if a touched state
does not render, and the first one by name says why (`encode_eq_error_iff`).
-/

namespace KeyedStream

namespace Ordered

variable {κ ν : Type} [LT κ] [DecidableLT κ] [DecidableEq κ]

theorem mem_put_self (k : κ) (v : ν) (l : List (κ × ν)) : (k, v) ∈ put k v l := by
  induction l with
  | nil => simp [put]
  | cons e r ih =>
    rw [put]
    split
    · simp
    · split
      · simp
      · exact List.mem_cons_of_mem _ ih

theorem mem_put_of_mem_put {k : κ} {v v' : ν} {l : List (κ × ν)} {e : κ × ν} (h : e ∈ put k v' l) :
    e = (k, v') ∨ e ∈ put k v l := by
  induction l with
  | nil => exact .inl (by simpa [put] using h)
  | cons a r ih =>
    rw [put] at h ⊢
    split at h
    · next hlt =>
      rw [if_pos hlt]
      exact (List.mem_cons.1 h).imp_right (List.mem_cons_of_mem _)
    · next hlt =>
      split at h
      · next heq =>
        rw [if_neg hlt, if_pos heq]
        exact (List.mem_cons.1 h).imp_right (List.mem_cons_of_mem _)
      · next hne =>
        rw [if_neg hlt, if_neg hne]
        rcases List.mem_cons.1 h with rfl | h
        · exact .inr List.mem_cons_self
        · exact (ih h).imp_right (List.mem_cons_of_mem _)

/-- Two values that are put under one key come to the same place. -/
theorem forall₂_put {ρ : Type} {R : κ × ν → ρ → Prop} {k : κ} {v v' : ν}
    (hR : ∀ x, R (k, v) x → R (k, v') x) {l : List (κ × ν)} {xs : List ρ}
    (h : List.Forall₂ R (put k v l) xs) : List.Forall₂ R (put k v' l) xs := by
  induction l generalizing xs with
  | nil =>
    obtain ⟨x, xs, hx, hrest, rfl⟩ := List.forall₂_cons_left_iff.1 h
    exact .cons (hR x hx) hrest
  | cons e r ih =>
    rw [put] at h ⊢
    split at h
    · next hlt =>
      obtain ⟨x, xs, hx, hrest, rfl⟩ := List.forall₂_cons_left_iff.1 h
      rw [if_pos hlt]
      exact .cons (hR x hx) hrest
    · next hlt =>
      split at h
      · next heq =>
        obtain ⟨x, xs, hx, hrest, rfl⟩ := List.forall₂_cons_left_iff.1 h
        rw [if_neg hlt, if_pos heq]
        exact .cons (hR x hx) hrest
      · next hne =>
        obtain ⟨x, xs, hx, hrest, rfl⟩ := List.forall₂_cons_left_iff.1 h
        rw [if_neg hlt, if_neg hne]
        exact .cons hx (ih hrest)

omit [DecidableLT κ] [DecidableEq κ] in
/-- The entries before a key are those whose keys come before it. -/
theorem mem_before_iff [KeyOrder κ] {m : Ordered κ ν} {before after : List (κ × ν)} {k : κ} {v : ν}
    (hsplit : m.entries = before ++ (k, v) :: after) {e : κ × ν} :
    e ∈ before ↔ e ∈ m.entries ∧ e.1 < k := by
  have hascending := List.pairwise_map.1 m.ascending
  rw [hsplit, List.pairwise_append, List.pairwise_cons] at hascending
  obtain ⟨-, ⟨hafter, -⟩, hbefore⟩ := hascending
  rw [hsplit, List.mem_append, List.mem_cons]
  constructor
  · intro he
    exact ⟨.inl he, hbefore e he (k, v) List.mem_cons_self⟩
  · rintro ⟨he | rfl | he, hlt⟩
    · exact he
    · exact absurd hlt (KeyOrder.irrefl _)
    · exact absurd (KeyOrder.trans hlt (hafter e he)) (KeyOrder.irrefl _)

end Ordered

namespace Subject

variable {κ : Type} {Item : κ → Type}

/-- The rows that the changes of a state come to in an answer. -/
def rowsOf (ms : List Mutation) : List Wire.StateMutation := (Mutation.coalesce ms).map Mutation.toWire

theorem toWire_injective : Function.Injective Mutation.toWire := by
  intro m m' h
  cases m <;> cases m' <;> simp_all [Mutation.toWire]

theorem rowsOf_inj {ms ms' : List Mutation} :
    rowsOf ms = rowsOf ms' ↔ Mutation.coalesce ms = Mutation.coalesce ms' :=
  toWire_injective.list_map.eq_iff

/-- What an answer has for a touched state. -/
def Renders (s : Subject Item) (e : String × Renderer Item) (n : Wire.StateMutationNamespace) : Prop :=
  ∃ ms, s.renderUse e.1 e.2 = .ok ms ∧ n = { name := e.1, mutations := rowsOf ms }

theorem namespaces_eq_mapM (s : Subject Item) (used : List (String × Renderer Item)) :
    s.namespaces used = used.mapM fun e =>
      (s.renderUse e.1 e.2).map fun ms => { name := e.1, mutations := rowsOf ms } := by
  induction used with
  | nil => rfl
  | cons e used ih =>
    rw [namespaces, List.mapM_cons, ih]
    cases s.renderUse e.1 e.2 <;> rfl

theorem namespaces_eq_ok_iff {s : Subject Item} {used : List (String × Renderer Item)}
    {ns : List Wire.StateMutationNamespace} :
    s.namespaces used = .ok ns ↔ List.Forall₂ s.Renders used ns := by
  rw [namespaces_eq_mapM, mapM_eq_ok_iff]
  simp only [map_eq_ok_iff]
  rfl

/-- The names of the states that were touched are those of the changes. -/
theorem names_of_renders {s : Subject Item} {used : List (String × Renderer Item)}
    {ns : List Wire.StateMutationNamespace} (h : List.Forall₂ s.Renders used ns) :
    ns.map (·.name) = used.map Prod.fst := by
  induction h with
  | nil => rfl
  | cons hrender _ ih =>
    obtain ⟨ms, -, rfl⟩ := hrender
    rw [List.map_cons, List.map_cons, ih]

theorem encode_eq_ok_iff {s : Subject Item} {result : Wire.KeyResult} :
    s.encode = .ok result ↔ ∃ ns, List.Forall₂ s.Renders s.used.entries ns ∧
      result = { key := s.key, newTimers := s.timers.map .ofInstant, stateMutationNamespaces := ns } := by
  rw [encode]
  simp only [bind_eq_ok_iff, pure_eq_ok_iff, namespaces_eq_ok_iff]
  simp only [eq_comm]

/-! ## Subjects that do not render -/

/-- Why a touched state has no changes to show. -/
inductive Unrendered (s : Subject Item) (name : String) (r : Renderer Item) : Error → Prop
  | notLoaded (hnone : s.loaded.get? name = none) :
    Unrendered s name r (.internal ("state " ++ name ++ " was used but never loaded"))
  | failed {item : AnyItem Item} {e : Error} (hitem : s.loaded.get? name = some item)
    (hfails : r item = .error e) : Unrendered s name r e

theorem unrendered_of_none {s : Subject Item} {name : String} (h : s.loaded.get? name = none)
    (r : Renderer Item) (e : Error) :
    s.Unrendered name r e ↔ e = .internal ("state " ++ name ++ " was used but never loaded") := by
  constructor
  · rintro (_ | ⟨hitem, -⟩)
    · rfl
    · rw [h] at hitem
      cases hitem
  · rintro rfl
    exact .notLoaded h

theorem unrendered_of_some {s : Subject Item} {name : String} {item : AnyItem Item}
    (h : s.loaded.get? name = some item) (r : Renderer Item) (e : Error) :
    s.Unrendered name r e ↔ r item = .error e := by
  constructor
  · rintro (hnone | ⟨hitem, hfails⟩)
    · rw [h] at hnone
      cases hnone
    · rw [h] at hitem
      cases hitem
      exact hfails
  · exact .failed h

theorem exists_unrendered_iff {s : Subject Item} {name : String} {r : Renderer Item} :
    (∃ cause, s.Unrendered name r cause) ↔ s.loaded.get? name = none ∨
      ∃ item cause, s.loaded.get? name = some item ∧ r item = .error cause := by
  cases h : s.loaded.get? name with
  | none => simp [unrendered_of_none h]
  | some item => simp [unrendered_of_some h]

theorem renderUse_eq_ok_iff {s : Subject Item} {name : String} {r : Renderer Item}
    {ms : List Mutation} :
    s.renderUse name r = .ok ms ↔ ∃ item, s.loaded.get? name = some item ∧ r item = .ok ms := by
  rw [renderUse]
  cases s.loaded.get? name with
  | none => simp
  | some item => cases h : r item <;> simp [h]

theorem renderUse_eq_error_iff {s : Subject Item} {name : String} {r : Renderer Item} {e : Error} :
    s.renderUse name r = .error e ↔ ∃ cause, s.Unrendered name r cause ∧ e = renderError name cause := by
  rw [renderUse]
  cases h : s.loaded.get? name with
  | none => simp [unrendered_of_none h, eq_comm]
  | some item => cases hr : r item <;> simp [unrendered_of_some h, hr, eq_comm]

/-- Of the touched states that do not render, the first one by name says why there is no answer. -/
theorem encode_eq_error_iff {s : Subject Item} {e : Error} :
    s.encode = .error e ↔ ∃ name r cause, s.used.get? name = some r ∧ s.Unrendered name r cause ∧
      e = renderError name cause ∧ ∀ name' r', name' < name → s.used.get? name' = some r' →
        ∃ ms, s.renderUse name' r' = .ok ms := by
  have hfirst : s.encode = .error e ↔ ∃ before use after, s.used.entries = before ++ use :: after ∧
      (∀ b ∈ before, ∃ ms, s.renderUse b.1 b.2 = .ok ms) ∧ s.renderUse use.1 use.2 = .error e := by
    rw [encode, bind_eq_error_iff, namespaces_eq_mapM, mapM_eq_error_iff]
    simp only [map_eq_error_iff, exists_map_eq_ok_iff]
    refine or_iff_left ?_
    rintro ⟨ns, -, ⟨⟩⟩
  rw [hfirst]
  constructor
  · rintro ⟨before, ⟨name, r⟩, after, hsplit, hbefore, hfails⟩
    obtain ⟨cause, hcause, rfl⟩ := renderUse_eq_error_iff.1 hfails
    have hmem : (name, r) ∈ s.used.entries := by rw [hsplit]; simp
    refine ⟨name, r, cause, (Ordered.get?_eq_some_iff _).2 hmem, hcause, rfl, fun name' r' hlt hget => ?_⟩
    exact hbefore (name', r') ((Ordered.mem_before_iff hsplit).2 ⟨(Ordered.get?_eq_some_iff _).1 hget, hlt⟩)
  · rintro ⟨name, r, cause, hget, hcause, rfl, hrendered⟩
    obtain ⟨before, after, hsplit⟩ := List.append_of_mem ((Ordered.get?_eq_some_iff _).1 hget)
    refine ⟨before, (name, r), after, hsplit, fun use huse => ?_,
      renderUse_eq_error_iff.2 ⟨cause, hcause, rfl⟩⟩
    obtain ⟨hmem, hlt⟩ := (Ordered.mem_before_iff hsplit).1 huse
    exact hrendered use.1 use.2 hlt ((Ordered.get?_eq_some_iff _).2 hmem)

/-- There is no answer just if there is a touched state that has no changes to show. -/
theorem exists_encode_eq_error_iff {s : Subject Item} : (∃ e, s.encode = .error e) ↔
    ∃ name r cause, s.used.get? name = some r ∧ s.Unrendered name r cause := by
  constructor
  · rintro ⟨e, he⟩
    obtain ⟨name, r, cause, hused, hcause, -⟩ := encode_eq_error_iff.1 he
    exact ⟨name, r, cause, hused, hcause⟩
  · rintro ⟨name, r, cause, hused, hcause⟩
    cases hencode : s.encode with
    | error e => exact ⟨e, rfl⟩
    | ok result =>
      obtain ⟨ns, hns, -⟩ := encode_eq_ok_iff.1 hencode
      obtain ⟨n, -, ms, hms, -⟩ := exists_mem_of_forall₂ hns ((Ordered.get?_eq_some_iff _).1 hused)
      rw [show s.renderUse name r = .error _ from renderUse_eq_error_iff.2 ⟨cause, hcause, rfl⟩] at hms
      cases hms

/-- The subject with a state under a name, and a way to render it. -/
def keeping (s : Subject Item) (name : String) (item : AnyItem Item) (r : Renderer Item) :
    Subject Item :=
  (s.registerUse name r).store name item

variable {s : Subject Item} {name : String} {item : AnyItem Item} {r r' : Renderer Item}

theorem renderUse_keeping {ms : List Mutation} (h : r item = .ok ms) (r₀ : Renderer Item) :
    (s.keeping name item r₀).renderUse name r = .ok ms := by
  simp [renderUse, keeping, store, h]

/-- An answer does not fail when a state is rendered in another way that does not fail. -/
theorem exists_encode_keeping (r' : Renderer Item) {ms' : List Mutation} (hr' : r' item = .ok ms')
    {result : Wire.KeyResult} (hok : (s.keeping name item r).encode = .ok result) :
    ∃ answer, (s.keeping name item r').encode = .ok answer := by
  obtain ⟨ns, hrenders, rfl⟩ := encode_eq_ok_iff.1 hok
  have hall : ∀ e ∈ (s.keeping name item r').used.entries, ∃ n, (s.keeping name item r').Renders e n := by
    intro e he
    rcases Ordered.mem_put_of_mem_put (v := r) he with rfl | he
    · exact ⟨_, ms', renderUse_keeping hr' r', rfl⟩
    · obtain ⟨n, -, hn⟩ := exists_mem_of_forall₂ hrenders he
      exact ⟨n, hn⟩
  obtain ⟨ns', hrenders'⟩ := exists_forall₂ hall
  exact ⟨_, encode_eq_ok_iff.2 ⟨ns', hrenders', rfl⟩⟩

/-- A state may be rendered in any way that leaves the same changes. -/
theorem encode_keeping_of_coalesce {ms ms' : List Mutation} (hr : r item = .ok ms)
    (hr' : r' item = .ok ms') (hsame : Mutation.coalesce ms = Mutation.coalesce ms')
    {result : Wire.KeyResult} (hok : (s.keeping name item r).encode = .ok result) :
    (s.keeping name item r').encode = .ok result := by
  obtain ⟨ns, hrenders, rfl⟩ := encode_eq_ok_iff.1 hok
  refine encode_eq_ok_iff.2 ⟨ns, ?_, rfl⟩
  have hswap : ∀ n, (s.keeping name item r').Renders (name, r) n →
      (s.keeping name item r').Renders (name, r') n := by
    rintro n ⟨ms₁, hms₁, rfl⟩
    rw [renderUse_keeping hr r'] at hms₁
    cases hms₁
    exact ⟨ms', renderUse_keeping hr' r', by rw [rowsOf, rowsOf, hsame]⟩
  exact Ordered.forall₂_put hswap hrenders

/-- An answer has one list of changes under the name of a state, and it is of that state. -/
theorem mutations_of_encode_keeping {result : Wire.KeyResult}
    (hok : (s.keeping name item r).encode = .ok result) :
    ∃ ms, r item = .ok ms ∧ (∃ n ∈ result.stateMutationNamespaces, n.name = name) ∧
      ∀ n ∈ result.stateMutationNamespaces, n.name = name → n.mutations = rowsOf ms := by
  obtain ⟨ns, hrenders, rfl⟩ := encode_eq_ok_iff.1 hok
  have hmem : (name, r) ∈ (s.keeping name item r).used.entries :=
    Ordered.mem_put_self name r s.used.entries
  obtain ⟨n, hn, ms, hms, hname⟩ := exists_mem_of_forall₂ hrenders hmem
  have hrow : r item = .ok ms := by
    cases hr : r item with
    | ok ms' => rwa [renderUse_keeping hr r] at hms
    | error e => simp [renderUse, keeping, store, hr] at hms
  refine ⟨ms, hrow, ⟨n, hn, by rw [hname]⟩, fun n' hn' hname' => ?_⟩
  -- the names of the states that were touched differ, so it can only be this one
  obtain ⟨⟨name₁, r₁⟩, hmem₁, ms₁, hms₁, rfl⟩ := exists_mem_of_forall₂ hrenders.flip hn'
  obtain rfl : name₁ = name := hname'
  have hr₁ : r₁ = r := by
    have hget := (Ordered.get?_eq_some_iff _).2 hmem₁
    rw [(Ordered.get?_eq_some_iff _).2 hmem] at hget
    exact (Option.some.inj hget).symm
  rw [hr₁, renderUse_keeping hrow r] at hms₁
  cases hms₁
  rfl

end Subject

end KeyedStream
