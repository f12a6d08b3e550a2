import Mathlib
import KeyedStream.Proofs.Delivery

/-!
# Subjects in their places

A batch keeps its subjects in a list, finds them through an index, and hands the rows that were
delivered for a key over to its subject when the key first comes up. `Batch.Holds` relates the three
to the keys that have come up and to what has been made of the subject of each. A call for a subject
hands out what is held for its key, and whatever is put back, the relation goes on to hold
(`Batch.Holds.call`). So it does after any history of visits, and the index always leads to the
subject of its key (`Batch.subjects_in_places`).
-/

namespace KeyedStream

section Distinct

variable {α : Type} [BEq α] [LawfulBEq α] {l : List α} {a : α}

theorem eraseDups_concat_of_mem (h : a ∈ l) : (l ++ [a]).eraseDups = l.eraseDups := by
  simp [List.eraseDups_append, List.removeAll, h]

theorem eraseDups_concat_of_notMem (h : a ∉ l) : (l ++ [a]).eraseDups = l.eraseDups ++ [a] := by
  simp [List.eraseDups_append, List.eraseDups_cons, List.removeAll, h]

theorem nodup_eraseDups (l : List α) : l.eraseDups.Nodup := by
  induction l using List.reverseRecOn with
  | nil => exact List.nodup_nil
  | append_singleton l a ih =>
    by_cases h : a ∈ l
    · rw [eraseDups_concat_of_mem h]
      exact ih
    · rw [eraseDups_concat_of_notMem h, ← List.concat_eq_append, List.nodup_concat]
      exact ⟨fun hmem => h (List.mem_eraseDups.1 hmem), ih⟩

end Distinct

variable {κ : Type} {Item : κ → Type}

namespace Batch

/-! ## What a batch holds -/

/-- For each of some keys the batch holds a subject, in the place of the key and where the index says.
The rows of the other keys are still there. A key that has not come up has the subject that it would
begin with. -/
structure Holds (keyStates : List Wire.KeyState) (keys : List Bytes)
    (subject : Bytes → Subject Item) (b : Batch Item) : Prop where
  subjects : b.subjects = keys.map subject
  index : ∀ key place, b.index.get? key = some place ↔ keys[place]? = some key
  rows : ∀ key, key ∉ keys → b.rows.get? key = (new keyStates : Batch Item).rows.get? key
  fresh : ∀ key, key ∉ keys → subject key = .initial keyStates key

/-- The keys that have come up, once a key comes up. -/
def comeUp (keys : List Bytes) (key : Bytes) : List Bytes :=
  if key ∈ keys then keys else keys ++ [key]

theorem comeUp_of_mem {keys : List Bytes} {key : Bytes} (h : key ∈ keys) : comeUp keys key = keys :=
  if_pos h

theorem comeUp_of_notMem {keys : List Bytes} {key : Bytes} (h : key ∉ keys) :
    comeUp keys key = keys ++ [key] := if_neg h

theorem mem_comeUp {keys : List Bytes} {key key' : Bytes} :
    key' ∈ comeUp keys key ↔ key' ∈ keys ∨ key' = key := by
  by_cases h : key ∈ keys
  · rw [comeUp_of_mem h]
    constructor
    · exact .inl
    · rintro (hmem | rfl) <;> assumption
  · simp [comeUp_of_notMem h]

variable {keyStates : List Wire.KeyState} {keys : List Bytes} {subject : Bytes → Subject Item}
  {b : Batch Item} {key : Bytes} {place : Nat}

theorem holds_new (keyStates : List Wire.KeyState) :
    (new keyStates : Batch Item).Holds keyStates [] (.initial keyStates) where
  subjects := rfl
  index key place := by simp [new]
  rows _ _ := rfl
  fresh _ _ := rfl

namespace Holds

theorem size_eq (hb : b.Holds keyStates keys subject) : b.size = keys.length := by
  rw [size, hb.subjects, List.length_map]

/-- Every key has one place. -/
theorem place_unique (hb : b.Holds keyStates keys subject) {i j : Nat} (hi : keys[i]? = some key)
    (hj : keys[j]? = some key) : i = j :=
  Option.some.inj (((hb.index key i).2 hi).symm.trans ((hb.index key j).2 hj))

theorem getElem?_subjects (hb : b.Holds keyStates keys subject) (hp : keys[place]? = some key) :
    b.subjects[place]? = some (subject key) := by
  rw [hb.subjects, List.getElem?_map, hp, Option.map_some]

theorem find?_of_getElem? (hb : b.Holds keyStates keys subject) (hp : keys[place]? = some key) :
    b.find? key = some (place, subject key) := by
  simp [find?, (hb.index key place).2 hp, hb.getElem?_subjects hp]

theorem get?_index_of_notMem (hb : b.Holds keyStates keys subject) (hk : key ∉ keys) :
    b.index.get? key = none := by
  cases hget : b.index.get? key with
  | none => rfl
  | some place => exact absurd (List.mem_of_getElem? ((hb.index key place).1 hget)) hk

theorem find?_of_notMem (hb : b.Holds keyStates keys subject) (hk : key ∉ keys) :
    b.find? key = none := by
  simp [find?, hb.get?_index_of_notMem hk]

/-! ## Calls for subjects -/

/-- A key that has come up is answered from its place, at the new time. -/
theorem subjectFor_of_getElem? (hb : b.Holds keyStates keys subject) (hp : keys[place]? = some key)
    (t : Instant) : b.subjectFor key t =
      (place, { subject key with timestamp := t }, b.put place { subject key with timestamp := t }) := by
  simp only [subjectFor, hb.find?_of_getElem? hp]

/-- A key that has not come up is answered by a new subject in the last place, which is given the rows
that were delivered. -/
theorem subjectFor_of_notMem (hb : b.Holds keyStates keys subject) (hk : key ∉ keys) (t : Instant) :
    b.subjectFor key t =
      (keys.length, { subject key with timestamp := t }, (b.create key t).2) := by
  simp only [subjectFor, hb.find?_of_notMem hk, hb.size_eq, create, hb.rows key hk, hb.fresh key hk,
    Subject.initial, get?_rows_new]

/-- A subject that is put back replaces the one in its place. -/
theorem put (hb : b.Holds keyStates keys subject) (hp : keys[place]? = some key) (s : Subject Item) :
    (b.put place s).Holds keyStates keys (Function.update subject key s) where
  subjects := by
    apply List.ext_getElem?
    intro i
    rw [Batch.put, List.getElem?_set, hb.subjects, List.getElem?_map, List.getElem?_map,
      List.length_map]
    by_cases hi : place = i
    · subst hi
      have hlt : place < keys.length := (List.getElem?_eq_some_iff.1 hp).1
      rw [if_pos rfl, if_pos hlt, hp, Option.map_some, Function.update_self]
    · rw [if_neg hi]
      cases hk : keys[i]? with
      | none => rfl
      | some key' =>
        have hne : key' ≠ key := fun e => hi (hb.place_unique hp (e ▸ hk))
        rw [Option.map_some, Option.map_some, Function.update_of_ne hne]
  index := hb.index
  rows := hb.rows
  fresh key' hk := by
    have hne : key' ≠ key := fun e => hk (e ▸ List.mem_of_getElem? hp)
    rw [Function.update_of_ne hne, hb.fresh key' hk]

/-- A new key comes in the last place, and the others stay in theirs. -/
theorem create (hb : b.Holds keyStates keys subject) (hk : key ∉ keys) (t : Instant) :
    (b.create key t).2.Holds keyStates (keys ++ [key])
      (Function.update subject key { subject key with timestamp := t }) where
  subjects := by
    have hold : ∀ key' ∈ keys,
        subject key' = Function.update subject key { subject key with timestamp := t } key' := by
      intro key' hkey'
      have hne : key' ≠ key := fun e => hk (e ▸ hkey')
      rw [Function.update_of_ne hne]
    rw [List.map_append, List.map_singleton, Function.update_self, ← List.map_congr_left hold,
      ← hb.subjects]
    simp only [Batch.create, hb.rows key hk, hb.fresh key hk, Subject.initial, get?_rows_new]
  index key' place' := by
    have hlength : b.subjects.length = keys.length := hb.size_eq
    simp only [Batch.create, hlength, Assoc.get?_insert]
    by_cases hkey : key' = key
    · -- the new key is behind all others, and nowhere else
      subst hkey
      rw [if_pos rfl, Option.some.injEq, List.getElem?_append]
      constructor
      · rintro rfl
        simp
      · intro hget
        split at hget
        · exact absurd (List.mem_of_getElem? hget) hk
        · have hlt := (List.getElem?_eq_some_iff.1 hget).1
          rw [List.length_singleton] at hlt
          omega
    · rw [if_neg hkey, hb.index, List.getElem?_append]
      split
      · rfl
      · next hge =>
        rw [List.getElem?_eq_none (Nat.le_of_not_lt hge)]
        constructor
        · rintro ⟨⟩
        · intro hget
          exact absurd (List.mem_singleton.1 (List.mem_of_getElem? hget)) hkey
  rows key' hk' := by
    rw [List.mem_append, not_or, List.mem_singleton] at hk'
    simp only [Batch.create, Assoc.get?_erase, if_neg hk'.2]
    exact hb.rows key' hk'.1
  fresh key' hk' := by
    rw [List.mem_append, not_or, List.mem_singleton] at hk'
    rw [Function.update_of_ne hk'.2, hb.fresh key' hk'.1]

/-- **A call for a subject** hands out what is held for its key, at the time of the call, and whatever
is put back is then held for it. -/
theorem call (hb : b.Holds keyStates keys subject) (key : Bytes) (t : Instant) :
    ∃ place b', b.subjectFor key t = (place, { subject key with timestamp := t }, b') ∧
      ∀ s, (b'.put place s).Holds keyStates (comeUp keys key) (Function.update subject key s) := by
  by_cases hk : key ∈ keys
  · obtain ⟨place, hp⟩ := List.mem_iff_getElem?.1 hk
    rw [comeUp_of_mem hk]
    refine ⟨place, _, hb.subjectFor_of_getElem? hp t, fun s => ?_⟩
    have hput := (hb.put hp { subject key with timestamp := t }).put hp s
    rwa [Function.update_idem] at hput
  · have hp : (keys ++ [key])[keys.length]? = some key := by simp
    rw [comeUp_of_notMem hk]
    refine ⟨keys.length, _, hb.subjectFor_of_notMem hk t, fun s => ?_⟩
    have hput := (hb.create hk t).put hp s
    rwa [Function.update_idem] at hput

/-- Only a key that has not come up takes rows away, and only its own. -/
theorem get?_rows_subjectFor (hb : b.Holds keyStates keys subject) (key key' : Bytes) (t : Instant) :
    (b.subjectFor key t).2.2.rows.get? key' =
      if key' = key ∧ key ∉ keys then none else b.rows.get? key' := by
  by_cases hk : key ∈ keys
  · obtain ⟨place, hp⟩ := List.mem_iff_getElem?.1 hk
    rw [hb.subjectFor_of_getElem? hp, if_neg fun h => h.2 hk]
    rfl
  · rw [hb.subjectFor_of_notMem hk]
    simp [Batch.create, hk]

end Holds

end Batch

/-! ## Visits -/

/-- A call for the subject of a key, and what is made of the subject before the next call. -/
structure Visit {κ : Type} (Item : κ → Type) where
  key : Bytes
  timestamp : Instant
  edit : Subject Item → Subject Item

namespace Visit

/-- The keys that are visited, in the order in which they first come up. -/
def keys (past : List (Visit Item)) : List Bytes := (past.map key).eraseDups

/-- A subject after a visit to it: the time is the visit's own. -/
def apply (s : Subject Item) (v : Visit Item) : Subject Item := v.edit { s with timestamp := v.timestamp }

/-- The subject of a key after visits: it begins with the rows that were delivered for the key and goes
through the visits to its own key, one after the other. -/
def subject (keyStates : List Wire.KeyState) (past : List (Visit Item)) (key : Bytes) : Subject Item :=
  (past.filter fun v => v.key = key).foldl apply (.initial keyStates key)

theorem keys_concat (past : List (Visit Item)) (v : Visit Item) :
    keys (past ++ [v]) = Batch.comeUp (keys past) v.key := by
  rw [keys, List.map_append, List.map_singleton]
  by_cases h : v.key ∈ past.map key
  · have hkeys : v.key ∈ keys past := List.mem_eraseDups.2 h
    rw [eraseDups_concat_of_mem h, Batch.comeUp_of_mem hkeys, keys]
  · have hkeys : v.key ∉ keys past := fun hmem => h (List.mem_eraseDups.1 hmem)
    rw [eraseDups_concat_of_notMem h, Batch.comeUp_of_notMem hkeys, keys]

theorem subject_concat (keyStates : List Wire.KeyState) (past : List (Visit Item)) (v : Visit Item) :
    subject keyStates (past ++ [v]) =
      Function.update (subject keyStates past) v.key (apply (subject keyStates past v.key) v) := by
  funext key
  by_cases hk : key = v.key
  · subst hk
    simp [subject]
  · have hk' : ¬ v.key = key := fun e => hk e.symm
    simp [subject, hk, hk']

/-- The subject of a key is left alone by visits to other keys. -/
theorem subject_append (keyStates : List Wire.KeyState) (past : List (Visit Item))
    {later : List (Visit Item)} {key : Bytes} (h : ∀ v ∈ later, v.key ≠ key) :
    subject keyStates (past ++ later) key = subject keyStates past key := by
  have hnil : (later.filter fun v => v.key = key) = [] := by
    rw [List.filter_eq_nil_iff]
    intro v hv hkey
    exact h v hv (of_decide_eq_true hkey)
  rw [subject, List.filter_append, hnil, List.append_nil, subject]

/-- Edits that leave the key of a subject alone leave each subject with its key. -/
theorem key_subject {past : List (Visit Item)} (h : ∀ v ∈ past, ∀ s, (v.edit s).key = s.key)
    (keyStates : List Wire.KeyState) (key : Bytes) : (subject keyStates past key).key = key := by
  induction past using List.reverseRecOn with
  | nil => rfl
  | append_singleton past v ih =>
    have hpast := ih fun v hv => h v (List.mem_append_left _ hv)
    rw [subject_concat]
    by_cases hk : key = v.key
    · subst hk
      rw [Function.update_self, apply, h v (by simp)]
      exact hpast
    · rw [Function.update_of_ne hk, hpast]

end Visit

namespace Batch

/-- The batch after a visit. -/
def visit (b : Batch Item) (v : Visit Item) : Batch Item :=
  let (place, s, b) := b.subjectFor v.key v.timestamp
  b.put place (v.edit s)

/-- A new batch after visits, one after the other. -/
def visited (keyStates : List Wire.KeyState) (past : List (Visit Item)) : Batch Item :=
  past.foldl visit (new keyStates)

theorem visited_concat (keyStates : List Wire.KeyState) (past : List (Visit Item)) (v : Visit Item) :
    visited keyStates (past ++ [v]) = (visited keyStates past).visit v := by
  simp [visited]

/-- After visits the batch holds, for each key that was visited, what the visits made of its subject. -/
theorem holds_visited (keyStates : List Wire.KeyState) (past : List (Visit Item)) :
    (visited keyStates past).Holds keyStates (Visit.keys past) (Visit.subject keyStates past) := by
  induction past using List.reverseRecOn with
  | nil => exact holds_new keyStates
  | append_singleton past v ih =>
    obtain ⟨place, b', hcall, hput⟩ := ih.call v.key v.timestamp
    rw [visited_concat, Visit.keys_concat, Visit.subject_concat, visit, hcall]
    exact hput _

/-- The rows of a key that was visited are gone. -/
theorem get?_rows_visited (keyStates : List Wire.KeyState) (past : List (Visit Item)) {key : Bytes}
    (hk : key ∈ Visit.keys past) : (visited keyStates past).rows.get? key = none := by
  induction past using List.reverseRecOn with
  | nil => cases hk
  | append_singleton past v ih =>
    rw [visited_concat, visit]
    refine ((holds_visited keyStates past).get?_rows_subjectFor v.key key v.timestamp).trans ?_
    rw [Visit.keys_concat, mem_comeUp] at hk
    by_cases hpast : key ∈ Visit.keys past
    · rw [ih hpast, ite_self]
    · have hnew : key = v.key := hk.resolve_left hpast
      rw [if_pos ⟨hnew, hnew ▸ hpast⟩]

/-- Keys that have come up keep their places. -/
theorem get?_index_append (keyStates : List Wire.KeyState) (past later : List (Visit Item))
    {key : Bytes} {place : Nat} (h : (visited keyStates past).index.get? key = some place) :
    (visited keyStates (past ++ later)).index.get? key = some place := by
  induction later using List.reverseRecOn with
  | nil => rwa [List.append_nil]
  | append_singleton later v ih =>
    have hp := ((holds_visited keyStates (past ++ later)).index key place).1 ih
    rw [← List.append_assoc]
    refine ((holds_visited keyStates _).index key place).2 ?_
    rw [Visit.keys_concat]
    by_cases hk : v.key ∈ Visit.keys (past ++ later)
    · rwa [comeUp_of_mem hk]
    · have hlt := (List.getElem?_eq_some_iff.1 hp).1
      rwa [comeUp_of_notMem hk, List.getElem?_append_left hlt]

theorem size_visited (keyStates : List Wire.KeyState) (past : List (Visit Item)) :
    (visited keyStates past).size = (past.map Visit.key).toFinset.card := by
  have hsame : (past.map Visit.key).toFinset = (Visit.keys past).toFinset := by
    ext key
    rw [List.mem_toFinset, List.mem_toFinset, Visit.keys, List.mem_eraseDups]
  rw [(holds_visited keyStates past).size_eq, hsame]
  exact (List.toFinset_card_of_nodup (nodup_eraseDups _)).symm

/-- The subjects have distinct keys, the index leads to the place of each and to no other, and rows are
left over only for keys that have no subject. -/
structure Consistent (b : Batch Item) : Prop where
  nodup : (b.subjects.map Subject.key).Nodup
  index : ∀ key place, b.index.get? key = some place ↔
    (b.subjects.map Subject.key)[place]? = some key
  rows : ∀ key, (b.rows.get? key).isSome → key ∉ b.subjects.map Subject.key

theorem consistent_visited (keyStates : List Wire.KeyState) {past : List (Visit Item)}
    (h : ∀ v ∈ past, ∀ s, (v.edit s).key = s.key) : (visited keyStates past).Consistent := by
  have hb := holds_visited keyStates past
  have hkeys : (visited keyStates past).subjects.map Subject.key = Visit.keys past := by
    rw [hb.subjects, List.map_map]
    exact List.map_id'' (Visit.key_subject h keyStates) _
  refine ⟨?_, fun key place => ?_, fun key hrows hk => ?_⟩
  · rw [hkeys]
    exact nodup_eraseDups _
  · rw [hkeys]
    exact hb.index key place
  · rw [hkeys] at hk
    rw [get?_rows_visited keyStates past hk] at hrows
    cases hrows

/-- **Subjects keep their places.** After any visits the subjects are those of the keys that were
visited, in the order in which they first came up; each began with the rows that were delivered for its
key and went through the visits to its own key, each at its own time. The rows of the other keys are
still there. The index leads to the place of each visited key and to no other, never out of the list,
and a key keeps its place for good. A call for a key that has a place hands out the subject there, with
nothing changed but its time, and puts it back; visits to other keys leave it alone. Unless an edit
changes the key of a subject itself, the subjects have the keys under which they are found. -/
theorem subjects_in_places (keyStates : List Wire.KeyState) (past : List (Visit Item)) :
    ((∀ v ∈ past, ∀ s, (v.edit s).key = s.key) → (visited keyStates past).Consistent) ∧
    (visited keyStates past).subjects = (Visit.keys past).map (Visit.subject keyStates past) ∧
    (∀ key, (visited keyStates past).rows.get? key = if key ∈ Visit.keys past then none else
      (lastDelivery? keyStates key).map fun s => namedRows s.stateEntryNamespaces) ∧
    (∀ key place, (visited keyStates past).index.get? key = some place ↔
      (Visit.keys past)[place]? = some key) ∧
    (∀ key place, (visited keyStates past).index.get? key = some place →
      place < (visited keyStates past).size ∧
      ∀ later, (visited keyStates (past ++ later)).index.get? key = some place) ∧
    (∀ key place, (visited keyStates past).index.get? key = some place →
      ∃ s, (visited keyStates past).subjects[place]? = some s ∧
        s = Visit.subject keyStates past key ∧
        (∀ t, (visited keyStates past).subjectFor key t = (place, { s with timestamp := t },
          (visited keyStates past).put place { s with timestamp := t })) ∧
        ∀ later, (∀ v ∈ later, v.key ≠ key) →
          (visited keyStates (past ++ later)).subjects[place]? = some s) ∧
    (visited keyStates past).size = (past.map Visit.key).toFinset.card := by
  have hb := holds_visited keyStates past
  refine ⟨fun h => consistent_visited keyStates h, hb.subjects, fun key => ?_, hb.index,
    fun key place hindex => ⟨?_, fun later => get?_index_append keyStates past later hindex⟩,
    fun key place hindex => ?_, size_visited keyStates past⟩
  · split
    · next hk => exact get?_rows_visited keyStates past hk
    · next hk => rw [hb.rows key hk, get?_rows_new]
  · rw [hb.size_eq]
    exact (List.getElem?_eq_some_iff.1 ((hb.index key place).1 hindex)).1
  · have hp := (hb.index key place).1 hindex
    refine ⟨_, hb.getElem?_subjects hp, rfl, hb.subjectFor_of_getElem? hp, fun later hlater => ?_⟩
    have hlast := holds_visited keyStates (past ++ later)
    have hp' := (hlast.index key place).1 (get?_index_append keyStates past later hindex)
    rw [hlast.getElem?_subjects hp', Visit.subject_append keyStates past hlater]

/-- A key that comes back in between finds its timer; the second of two deliveries is left over. -/
example :
    let past : List (Visit fun _ : Unit => Unit) :=
      [⟨[1], .epoch, (·.setTimer .epoch)⟩, ⟨[2], .epoch, id⟩, ⟨[1], .epoch, (·.addSinkRequest "s" [7])⟩]
    let b := visited [{ key := [2] }, { key := [3] }] past
    b.subjects.map (fun s => (s.key, s.timers, s.sinkRequests)) =
        [([1], [.epoch], [⟨"s", [7]⟩]), ([2], [], [])] ∧
      b.index.get? [2] = some 1 ∧ b.rows.keys = [[3]] := by
  decide

end Batch

end KeyedStream
