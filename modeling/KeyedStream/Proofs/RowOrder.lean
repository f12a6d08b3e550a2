import Mathlib
import KeyedStream.Proofs.Coalesce
import KeyedStream.Proofs.Render
import KeyedStream.Proofs.Scalar
import KeyedStream.State.Map

/-!
# Rows of a table in any order

The edits of a table are listed in no particular order, and coalescing is meant to hide it. It does
so just if edited keys of one stored form ask for the same change, and each edited key has a row of
its own just if no two of them have one stored form (`encode_in_any_order`). Keys of most types
always have different forms; a key in a leap second and the key one second later have the same
(`encode_depends_on_order`).
-/

namespace KeyedStream

/-! ## Rendered edits -/

namespace MapState

theorem render_eq_ok_iff {κ ν : Type} {codec : MapCodec κ ν} {es : List (κ × Update ν)}
    {ms : List Mutation} :
    render codec es = .ok ms ↔ List.Forall₂ (fun e m => mutation codec e = .ok m) es ms :=
  mapM_eq_ok_iff

/-- The change of an edit is of the row of its key. -/
theorem encode_key_of_mutation {κ ν : Type} {codec : MapCodec κ ν} {e : κ × Update ν} {m : Mutation}
    (h : mutation codec e = .ok m) : codec.key.encode e.1 = .ok m.key := by
  obtain ⟨k, u⟩ := e
  rw [mutation, bind_eq_ok_iff] at h
  obtain ⟨row, hrow, h⟩ := h
  rw [liftCodec_eq_ok_iff] at hrow
  cases u with
  | delete =>
    rw [← pure_eq_ok_iff.1 h]
    exact hrow
  | put v =>
    obtain ⟨payload, -, h⟩ := bind_eq_ok_iff.1 h
    rw [← pure_eq_ok_iff.1 h]
    exact hrow

/-- Edits in another order are rendered as the changes in another order. -/
theorem render_perm {κ ν : Type} {codec : MapCodec κ ν} {es es' : List (κ × Update ν)}
    {ms : List Mutation} (hperm : es'.Perm es) (h : render codec es = .ok ms) :
    ∃ ms', render codec es' = .ok ms' ∧ ms.Perm ms' := by
  obtain ⟨ms', hms', hperm'⟩ := List.perm_comp_forall₂ hperm (render_eq_ok_iff.1 h)
  exact ⟨ms', render_eq_ok_iff.2 hms', hperm'.symm⟩

/-! ## Keys that have one stored form -/

variable {k v : ScalarType} {width : IntWidth} {s : MapState k.Carrier v.Carrier}

/-- No two edited keys have one stored form. -/
def Apart (s : MapState k.Carrier v.Carrier) : Prop :=
  s.updates.keys.Pairwise fun a b => ¬ k.Alike a b

/-- Edited keys of one stored form ask for the same change. -/
def Agree (s : MapState k.Carrier v.Carrier) : Prop :=
  ∀ e ∈ s.updates.entries, ∀ e' ∈ s.updates.entries, k.Alike e.1 e'.1 →
    mutation s.codec e = mutation s.codec e'

/-- Keys of all types but these have stored forms of their own. -/
theorem apart_of_notMem (hk : k ∉ [.float32, .float64, .instant]) (s : MapState k.Carrier v.Carrier) :
    s.Apart := by
  have hdiffer : s.updates.keys.Pairwise (· ≠ ·) := s.updates.nodup
  refine hdiffer.imp fun hne halike => hne ?_
  cases k with
  | float32 => simp at hk
  | float64 => simp at hk
  | instant => simp at hk
  | _ => exact halike

theorem key_eq_iff_of_mutation (hcodec : s.codec = .scalar k v width) {e e' : k.Carrier × Update v.Carrier}
    {m m' : Mutation} (hm : mutation s.codec e = .ok m) (hm' : mutation s.codec e' = .ok m') :
    m.key = m'.key ↔ k.Alike e.1 e'.1 := by
  have hkey := encode_key_of_mutation hm
  have hkey' := encode_key_of_mutation hm'
  rw [hcodec] at hkey hkey'
  exact ScalarType.encode_eq_iff hkey hkey'

theorem apart_iff_nodup (hcodec : s.codec = .scalar k v width) {ms : List Mutation}
    (h : s.mutations = .ok ms) : s.Apart ↔ (ms.map Mutation.key).Nodup := by
  rw [Apart, Assoc.keys, List.pairwise_map, List.Nodup, List.pairwise_map]
  refine pairwise_iff_of_forall₂ ?_ (render_eq_ok_iff.1 h)
  intro e e' m m' hm hm'
  exact not_congr (key_eq_iff_of_mutation hcodec hm hm').symm

/-- Edits of one stored form that ask for the same change may come in any order. -/
theorem coalesce_of_agree (hcodec : s.codec = .scalar k v width) (hagree : s.Agree)
    {es : List (k.Carrier × Update v.Carrier)} (hperm : es.Perm s.updates.entries) {ms : List Mutation}
    (h : s.mutations = .ok ms) :
    ∃ ms', render s.codec es = .ok ms' ∧ Mutation.coalesce ms = Mutation.coalesce ms' := by
  obtain ⟨ms', hms', hperm'⟩ := render_perm hperm h
  refine ⟨ms', hms', Mutation.coalesce_perm hperm' fun m hm m' hm' hkey => ?_⟩
  have hmatch := (render_eq_ok_iff.1 h).flip
  obtain ⟨e, he, hem⟩ := exists_mem_of_forall₂ hmatch hm
  obtain ⟨e', he', hem'⟩ := exists_mem_of_forall₂ hmatch hm'
  have hsame := hagree e he e' he' ((key_eq_iff_of_mutation hcodec hem hem').1 hkey)
  rw [show mutation s.codec e = .ok m from hem, show mutation s.codec e' = .ok m' from hem'] at hsame
  exact Except.ok.inj hsame

/-- There is an order in which a given edit comes last, and is the one that counts for its row. -/
theorem exists_order_ending {κ ν : Type} {codec : MapCodec κ ν} {es : List (κ × Update ν)}
    {e : κ × Update ν} (he : e ∈ es) {ms : List Mutation} (h : render codec es = .ok ms) :
    ∃ es' ms' m, es'.Perm es ∧ render codec es' = .ok ms' ∧ mutation codec e = .ok m ∧
      Mutation.last? ms' m.key = some m := by
  obtain ⟨before, after, rfl⟩ := List.mem_iff_append.1 he
  have hperm : (before ++ after ++ [e]).Perm (before ++ e :: after) := by
    rw [List.append_assoc]
    exact List.perm_append_comm.append_left before
  obtain ⟨ms', hms', -⟩ := render_perm hperm h
  obtain ⟨front, m, rfl, -, hm⟩ := forall₂_concat_right (render_eq_ok_iff.1 hms').flip
  exact ⟨_, _, m, hperm, hms', hm, Mutation.last?_concat front m⟩

/-! ## Answers -/

theorem agree_of_apart (h : s.Apart) : s.Agree := by
  intro e he e' he' halike
  by_cases hkey : e.1 = e'.1
  · rw [List.inj_on_of_nodup_map s.updates.nodup he he' hkey]
  · have hmem : e.1 ∈ s.updates.keys := List.mem_map_of_mem he
    have hmem' : e'.1 ∈ s.updates.keys := List.mem_map_of_mem he'
    have hsymm : Std.Symm fun a b => ¬ k.Alike a b := ⟨fun a b hab hba => hab (ScalarType.alike_symm hba)⟩
    exact absurd halike (h.forall hmem hmem' hkey)

variable {κ : Type} {Item : κ → Type} {sub : Subject Item} {name : String} {item : AnyItem Item}

/-- **When the order of the edits is hidden.** A subject keeps a table of scalars, among other
states, and its answer lists the edits of the table in some order. Each edited key has a row of its
own just if no two edited keys have one stored form. The answer is the same for all orders just if
edited keys of one stored form ask for the same change. Both hold of keys that are no floating-point
numbers and no instants. -/
theorem encode_in_any_order (hcodec : s.codec = .scalar k v width) {result : Wire.KeyResult}
    (hok : (sub.keeping name item fun _ => s.mutations).encode = .ok result) :
    (∀ es, es.Perm s.updates.entries → ∃ answer,
        (sub.keeping name item fun _ => render s.codec es).encode = .ok answer ∧
        (∃ n ∈ answer.stateMutationNamespaces, n.name = name) ∧
        ∀ n ∈ answer.stateMutationNamespaces, n.name = name →
          (n.mutations.length = s.updates.size ↔ s.Apart)) ∧
      ((∀ es, es.Perm s.updates.entries →
        (sub.keeping name item fun _ => render s.codec es).encode = .ok result) ↔ s.Agree) ∧
      (k ∉ [.float32, .float64, .instant] → s.Apart ∧ s.Agree) := by
  obtain ⟨ms, hms, -⟩ := Subject.mutations_of_encode_keeping hok
  refine ⟨fun es hperm => ?_, ⟨fun hall e he e' he' halike => ?_, fun hagree es hperm => ?_⟩,
    fun hk => ⟨apart_of_notMem hk s, agree_of_apart (apart_of_notMem hk s)⟩⟩
  · obtain ⟨ms', hms', hperm'⟩ := render_perm hperm hms
    obtain ⟨answer, hanswer⟩ :=
      Subject.exists_encode_keeping (fun _ => render s.codec es) hms' hok
    obtain ⟨ms₁, hms₁, hsome, hrows⟩ := Subject.mutations_of_encode_keeping hanswer
    cases hms'.symm.trans hms₁
    refine ⟨answer, hanswer, hsome, fun n hn hname => ?_⟩
    have hsize : s.updates.size = ms'.length := by
      rw [Assoc.size, (render_eq_ok_iff.1 hms).length_eq, hperm'.length_eq]
    rw [hrows n hn hname, Subject.rowsOf, List.length_map, hsize, Mutation.length_coalesce_eq_iff,
      apart_iff_nodup hcodec hms, (hperm'.map Mutation.key).nodup_iff]
  · obtain ⟨es₁, ms₁, m₁, hperm₁, hms₁, hm₁, hlast₁⟩ := exists_order_ending he hms
    obtain ⟨es₂, ms₂, m₂, hperm₂, hms₂, hm₂, hlast₂⟩ := exists_order_ending he' hms
    obtain ⟨ms₁', hms₁', ⟨n, hn, hname⟩, hrows₁⟩ :=
      Subject.mutations_of_encode_keeping (hall es₁ hperm₁)
    obtain ⟨ms₂', hms₂', -, hrows₂⟩ := Subject.mutations_of_encode_keeping (hall es₂ hperm₂)
    cases hms₁.symm.trans hms₁'
    cases hms₂.symm.trans hms₂'
    have hsame : Mutation.coalesce ms₁ = Mutation.coalesce ms₂ := by
      rw [← Subject.rowsOf_inj, ← hrows₁ n hn hname, ← hrows₂ n hn hname]
    have hkey := (key_eq_iff_of_mutation hcodec hm₁ hm₂).2 halike
    rw [← hkey, ← Mutation.coalesce_eq_iff.1 hsame, hlast₁] at hlast₂
    rw [hm₁, hm₂, Option.some.inj hlast₂]
  · obtain ⟨ms', hms', hsame⟩ := coalesce_of_agree hcodec hagree hperm hms
    exact Subject.encode_keeping_of_coalesce hms hms' hsame hok

/-- A key in a leap second. -/
def leapKey : Instant := ⟨59, 1500000000, by decide⟩

/-- The key one second later. -/
def nextKey : Instant := ⟨60, 500000000, by decide⟩

/-- A table in which both keys were edited. -/
def leapTable : MapState ScalarType.instant.Carrier ScalarType.int64.Carrier :=
  ((MapState.new "m" (.scalar .instant .int64 .w64)).set leapKey (1 : Int64)).set nextKey (2 : Int64)

/-- A subject without other states. -/
def leapSubject : Subject (fun _ : Unit => Unit) := { key := [], timestamp := .epoch }

/-- The answer with one row, in which a value is put. -/
def leapAnswer (value : Bytes) : Wire.KeyResult where
  key := []
  stateMutationNamespaces :=
    [{ name := "m", mutations := [⟨some (.put ⟨[8, 60, 16, 128, 202, 181, 238, 1], value⟩)⟩] }]

theorem encode_in_any_order_leap : ¬ leapTable.Apart ∧ ¬ leapTable.Agree := by
  obtain ⟨hrows, horders, -⟩ := @encode_in_any_order .instant .int64 .w64 leapTable Unit
    (fun _ => Unit) leapSubject "m" ⟨(), ()⟩ rfl (leapAnswer [8, 2]) rfl
  constructor
  · intro hapart
    obtain ⟨answer, hanswer, -, hall⟩ := hrows _ (List.Perm.refl _)
    obtain rfl : leapAnswer [8, 2] = answer := Except.ok.inj hanswer
    exact absurd ((hall _ List.mem_cons_self rfl).2 hapart) (by decide)
  · intro hagree
    exact absurd (horders.2 hagree _ (List.reverse_perm _)) (by decide)

/-- Two keys were edited, and one row is written: with the one value or the other, as the edits are
listed in one order or the other. -/
theorem encode_depends_on_order :
    leapTable.updates.keys = [leapKey, nextKey] ∧
      (leapSubject.keeping "m" ⟨(), ()⟩ fun _ =>
        render leapTable.codec leapTable.updates.entries).encode = .ok (leapAnswer [8, 2]) ∧
      (leapSubject.keeping "m" ⟨(), ()⟩ fun _ =>
        render leapTable.codec leapTable.updates.entries.reverse).encode = .ok (leapAnswer [8, 1]) :=
  ⟨rfl, rfl, rfl⟩

end MapState

end KeyedStream
