import Mathlib
import KeyedStream.Proofs.MapState

/-!
# What was done to a table

A history lists what was done to a new table, the newest first, loads that failed included. On its
own it says what there is to see under a key: the last edit that was recorded (`edit?`), and where
there is none, what the last load that succeeded found (`loaded?`). Each step keeps a table to its
history (`MapState.holds_step`), so that after all of them its look-ups, its listings and its size
are those of the history (`MapState.after_history`).
-/

namespace KeyedStream

/-- What is done to a table. -/
inductive TableStep (κ ν : Type) where
  | load (rows : List StateEntry)
  | set (k : κ) (v : ν)
  | delete (k : κ)

/-- The entry that a row stands for. -/
def MapCodec.entry {κ ν : Type} (codec : MapCodec κ ν) (row : StateEntry) :
    Except CodecError (κ × ν) := do
  let k ← codec.key.decode row.key
  let v ← codec.value.decode row.value
  return (k, v)

namespace TableStep

variable {κ ν : Type}

/-- The entries that a step loads, if it is a load that succeeds. -/
def entries? (codec : MapCodec κ ν) : TableStep κ ν → Option (List (κ × ν))
  | load rows => (rows.mapM codec.entry).toOption
  | set _ _ | delete _ => none

/-- What is seen of a loaded value through an edit. -/
def through (edit : Option (Update ν)) (loaded : Option ν) : Option ν :=
  match edit with
  | some (.put v) => some v
  | some .delete => none
  | none => loaded

variable [DecidableEq κ]

/-- What the last load that succeeded found under a key: of several rows, the last. -/
def loaded? (codec : MapCodec κ ν) (past : List (TableStep κ ν)) (k : κ) : Option ν :=
  ((((past.findSome? (entries? codec)).getD []).filter fun e => e.1 = k).getLast?).map Prod.snd

/-- The last edit of a key that was recorded. That a key is taken away is recorded only if there is
something to see under it at the time. -/
def edit? (codec : MapCodec κ ν) : List (TableStep κ ν) → κ → Option (Update ν)
  | [], _ => none
  | .load _ :: past, k => edit? codec past k
  | .set k' v :: past, k => if k = k' then some (.put v) else edit? codec past k
  | .delete k' :: past, k =>
    if k = k' ∧ (through (edit? codec past k) (loaded? codec past k)).isSome then some .delete
    else edit? codec past k

/-- What there is to see under a key. -/
def seen? (codec : MapCodec κ ν) (past : List (TableStep κ ν)) (k : κ) : Option ν :=
  through (edit? codec past k) (loaded? codec past k)

end TableStep

namespace MapState

open TableStep

variable {κ ν : Type} [DecidableEq κ] {codec : MapCodec κ ν} {past : List (TableStep κ ν)}
  {s : MapState κ ν}

/-- A table after one more step. A load that fails leaves it as it was. -/
def step (s : MapState κ ν) : TableStep κ ν → MapState κ ν
  | .load rows => (s.load rows).toOption.getD s
  | .set k v => s.set k v
  | .delete k => s.delete k

/-- The table that a history leads to. -/
def after (name : String) (codec : MapCodec κ ν) : List (TableStep κ ν) → MapState κ ν
  | [] => .new name codec
  | op :: past => (after name codec past).step op

/-! ## Loads -/

theorem readRows_eq (codec : MapCodec κ ν) (rows : List StateEntry) (m : Assoc κ ν) :
    readRows codec rows m =
      (liftCodec (rows.mapM codec.entry)).map fun es =>
        es.foldl (fun m e => m.insert e.1 e.2) m := by
  induction rows generalizing m with
  | nil => rfl
  | cons row rows ih =>
    rw [readRows, List.mapM_cons, MapCodec.entry]
    cases codec.key.decode row.key with
    | error e => rfl
    | ok k =>
      cases codec.value.decode row.value with
      | error e => rfl
      | ok v =>
        refine (ih (m.insert k v)).trans ?_
        cases rows.mapM codec.entry <;> rfl

/-- A load fails with the first row that cannot be read, and else replaces what was loaded. -/
theorem load_eq_map (s : MapState κ ν) (rows : List StateEntry) :
    s.load rows = (liftCodec (rows.mapM s.codec.entry)).map fun es =>
      s.rebased (.ofList es) := by
  rw [load_eq, readRows_eq]
  cases rows.mapM s.codec.entry <;> rfl

/-! ## Steps -/

/-- A table that holds what its history says. -/
structure Holds (codec : MapCodec κ ν) (past : List (TableStep κ ν)) (s : MapState κ ν) : Prop where
  codec_eq : s.codec = codec
  baseline : ∀ k, s.baseline.get? k = loaded? codec past k
  updates : ∀ k, s.updates.get? k = edit? codec past k
  counted : s.Counted

theorem holds_new (name : String) (codec : MapCodec κ ν) : Holds codec [] (.new name codec) where
  codec_eq := rfl
  baseline _ := rfl
  updates _ := rfl
  counted := rfl

theorem Holds.get? (h : Holds codec past s) (k : κ) : s.get? k = seen? codec past k := by
  rw [seen?, ← h.updates, ← h.baseline]
  rfl

theorem Holds.contains (h : Holds codec past s) (k : κ) :
    s.contains k = (seen? codec past k).isSome := by
  rw [MapState.contains, h.get?]

theorem holds_load (h : Holds codec past s) (rows : List StateEntry) :
    Holds codec (.load rows :: past) (s.step (.load rows)) := by
  rw [step, load_eq_map, h.codec_eq]
  cases hrows : rows.mapM codec.entry with
  | error e =>
    have hnone : entries? codec (.load rows : TableStep κ ν) = none := by
      rw [entries?, hrows]
      rfl
    refine ⟨h.codec_eq, fun k => ?_, h.updates, h.counted⟩
    rw [loaded?, List.findSome?_cons, hnone]
    exact h.baseline k
  | ok es =>
    have hsome : entries? codec (.load rows : TableStep κ ν) = some es := by
      rw [entries?, hrows]
      rfl
    refine ⟨h.codec_eq, fun k => ?_, h.updates, (card_visible _).symm⟩
    rw [loaded?, List.findSome?_cons, hsome]
    exact Assoc.get?_ofList es k

theorem holds_set (h : Holds codec past s) (k : κ) (v : ν) :
    Holds codec (.set k v :: past) (s.step (.set k v)) where
  codec_eq := h.codec_eq
  baseline := h.baseline
  updates k' := by
    rw [edit?, ← h.updates]
    exact Assoc.get?_insert s.updates k k' (.put v)
  counted := counted_set h.counted k v

theorem holds_delete (h : Holds codec past s) (k : κ) :
    Holds codec (.delete k :: past) (s.step (.delete k)) := by
  refine ⟨?_, ?_, fun k' => ?_, counted_delete h.counted k⟩
  · rw [step, delete]
    split <;> exact h.codec_eq
  · rw [step, delete]
    split <;> exact h.baseline
  · have hseen : (through (edit? codec past k') (loaded? codec past k')).isSome = s.contains k' :=
      (h.contains k').symm
    rw [edit?, hseen, ← h.updates, step, delete]
    by_cases hk : s.contains k = true
    · rw [if_pos hk, Assoc.get?_insert]
      by_cases hsame : k' = k
      · rw [if_pos hsame, if_pos ⟨hsame, hsame ▸ hk⟩]
      · rw [if_neg hsame, if_neg fun hboth => hsame hboth.1]
    · rw [if_neg hk, if_neg]
      rintro ⟨rfl, hcontains⟩
      exact hk hcontains

theorem holds_step (h : Holds codec past s) : ∀ op, Holds codec (op :: past) (s.step op)
  | .load rows => holds_load h rows
  | .set k v => holds_set h k v
  | .delete k => holds_delete h k

theorem holds_after (name : String) (codec : MapCodec κ ν) (past : List (TableStep κ ν)) :
    Holds codec past (after name codec past) := by
  induction past with
  | nil => exact holds_new name codec
  | cons op past ih => exact holds_step ih op

/-! ## Listings -/

/-- A listing of a table. What was loaded comes first, and what was added after it, each in no
particular order. -/
def Lists (s : MapState κ ν) (l : List (κ × ν)) : Prop :=
  ∃ (base : List (κ × ν)) (edits : List (κ × Update ν)), base.Perm s.baseline.entries ∧
    edits.Perm s.updates.entries ∧ l = base.filterMap s.ofBaseline ++ edits.filterMap s.added

theorem lists_all (s : MapState κ ν) : s.Lists s.all :=
  ⟨_, _, .refl _, .refl _, rfl⟩

theorem Lists.perm {l : List (κ × ν)} (h : s.Lists l) : l.Perm s.all := by
  obtain ⟨base, edits, hbase, hedits, rfl⟩ := h
  exact (hbase.filterMap _).append (hedits.filterMap _)

/-- A listing has the keys that were loaded before those that were not. -/
theorem Lists.exists_append {l : List (κ × ν)} (h : s.Lists l) : ∃ old new, l = old ++ new ∧
    (∀ e ∈ old, s.baseline.contains e.1 = true) ∧ ∀ e ∈ new, s.baseline.contains e.1 = false := by
  obtain ⟨base, edits, hbase, hedits, rfl⟩ := h
  refine ⟨_, _, rfl, fun e he => ?_, fun e he => ?_⟩
  · obtain ⟨⟨k, v⟩, hmem, hof⟩ := List.mem_filterMap.1 he
    rw [fst_of_ofBaseline hof, Assoc.contains, Option.isSome_iff_exists]
    exact ⟨v, (Assoc.get?_eq_some_iff _).2 (hbase.mem_iff.1 hmem)⟩
  · obtain ⟨e', -, hadded⟩ := List.mem_filterMap.1 he
    exact (added_eq_some_iff.1 hadded).2

/-! ## Whole histories -/

/-- **A table shows what its history says**, whatever was loaded and edited, and in whatever order.
Under a key there is the last recorded edit, and else what was loaded. A listing has each key to be
seen just once, with what is looked up under it, and has the keys that were loaded first. The size
counts its entries, and is not zero when a key is taken away. -/
theorem after_history (name : String) (codec : MapCodec κ ν) (past : List (TableStep κ ν)) :
    (∀ k, (after name codec past).get? k = seen? codec past k ∧
      (after name codec past).contains k = (seen? codec past k).isSome) ∧
    (after name codec past).Lists (after name codec past).all ∧
    (∀ l, (after name codec past).Lists l →
      (l.map Prod.fst).Nodup ∧ (∀ k v, (k, v) ∈ l ↔ seen? codec past k = some v) ∧
      (∃ old new, l = old ++ new ∧ (∀ e ∈ old, (loaded? codec past e.1).isSome = true) ∧
        ∀ e ∈ new, loaded? codec past e.1 = none ∧ edit? codec past e.1 = some (.put e.2)) ∧
      (after name codec past).size = l.length ∧
      ((after name codec past).isEmpty = true ↔ l.length = 0)) ∧
    ∀ k, (after name codec past).contains k = true →
      ((after name codec past).delete k).size + 1 = (after name codec past).size := by
  have h := holds_after name codec past
  refine ⟨fun k => ⟨h.get? k, h.contains k⟩, lists_all _, fun l hl => ?_, fun k hk => ?_⟩
  · have hseen : ∀ k v, (k, v) ∈ l ↔ seen? codec past k = some v := by
      intro k v
      rw [hl.perm.mem_iff, mem_all_iff, h.get?]
    have hsize : (after name codec past).size = l.length := by
      rw [hl.perm.length_eq, ← card_visible]
      exact h.counted
    refine ⟨(hl.perm.map Prod.fst).nodup_iff.2 (nodup_keys_all _), hseen, ?_, hsize, ?_⟩
    · obtain ⟨old, new, hsplit, hold, hnew⟩ := hl.exists_append
      refine ⟨old, new, hsplit, fun e he => ?_, fun e he => ?_⟩
      · rw [← h.baseline]
        exact hold e he
      · have hnone : loaded? codec past e.1 = none := by
          rw [← h.baseline]
          simpa [Assoc.contains] using hnew e he
        have hmem : e ∈ l := by
          rw [hsplit]
          exact List.mem_append_right old he
        have hget := mem_all_iff.1 (hl.perm.mem_iff.1 hmem)
        rcases get?_eq_some_iff.1 hget with hput | ⟨-, hbase⟩
        · exact ⟨hnone, (h.updates e.1).symm.trans hput⟩
        · rw [h.baseline, hnone] at hbase
          cases hbase
    · rw [isEmpty, decide_eq_true_iff, hsize]
  · have hvisible := mem_visible_iff.2 hk
    have hcounted := h.counted
    have hcard := Finset.card_pos.2 ⟨k, hvisible⟩
    rw [Counted] at hcounted
    rw [delete, if_pos hk]
    simp only
    omega

/-- A key that was taken away stays away when it is loaded once more. -/
example :
    let s := after "counts" ⟨.raw, .raw⟩ [.load [⟨[1], [5]⟩], .delete [1], .load [⟨[1], [4]⟩]]
    s.get? [1] = none ∧ s.size = 0 := by
  decide

end MapState

end KeyedStream
