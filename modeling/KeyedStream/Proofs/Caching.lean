import Mathlib
import KeyedStream.Proofs.Render
import KeyedStream.Script.Item

/-!
# States that are kept with a subject

A callback asks a subject for its states through specs and edits what it is handed. Several specs may
share a name, of one type or of several, and their loads may fail. What a call comes to is told by the
calls before it: as long as the loads under a name have failed it loads (`Subject.Unloaded`), and the
first load that succeeds is kept, with every edit since then through a spec of its type
(`Subject.Keeps`). One step keeps a subject to its history (`Subject.held_step`), so the subject after
a callback is as its history says (`Subject.held_of_keeps`), each call is answered from it
(`Subject.Answers`), and only a kept state's own changes may fail to render
(`Subject.states_kept`).
-/

namespace KeyedStream

variable {κ : Type} {Item : κ → Type}

/-! ## Single calls -/

namespace StateSpec

theorem cast?_self [DecidableEq κ] (k : κ) (x : Item k) : cast? k (⟨k, x⟩ : AnyItem Item) = some x := by
  simp [cast?]

variable [DecidableEq κ] {k : κ} {spec : StateSpec Item k} {s : Subject Item} {x : Item k}

theorem renderer_self (spec : StateSpec Item k) (x : Item k) :
    spec.renderer ⟨k, x⟩ = spec.mutationsOf x := by
  rw [renderer, cast?_self]

theorem kept_of_get? (spec : StateSpec Item k) (h : s.loaded.get? spec.id = some ⟨k, x⟩) :
    spec.kept s = .ok x := by
  simp [kept, h, cast?_self]

/-! ### Loads that have effects -/

/-- The state of a subject, where the load is an action that may have effects of its own. -/
def stateForM {m : Type → Type} [Monad m] (spec : StateSpec Item k)
    (load : List StateEntry → m (Except Error (Item k))) (s : Subject Item) :
    m (Except Error (Item k) × Subject Item) :=
  (spec.stateForBy load).on s

theorem stateFor_eq_stateForM (spec : StateSpec Item k) (s : Subject Item) :
    spec.stateFor s = (spec.stateForM (m := Id) (fun rows => pure (spec.load rows)) s).run := rfl

/-- What is handed out after a load, and the subject then. -/
def settled (spec : StateSpec Item k) (s : Subject Item) :
    Except Error (Item k) → Except Error (Item k) × Subject Item
  | .error e => (.error (.stateLoad spec.id e), s)
  | .ok x => (.ok x, (s.registerUse spec.id spec.renderer).store spec.id ⟨k, x⟩)

section Lawful

variable {m : Type → Type} [Monad m] [LawfulMonad m]
  {load : List StateEntry → m (Except Error (Item k))}

/-- What is kept is not loaded again. -/
theorem stateForM_of_some {item : AnyItem Item} (h : s.loaded.get? spec.id = some item) :
    spec.stateForM load s = pure (spec.kept s, s) := by
  have hloaded : s.loaded.contains spec.id = true := by rw [Assoc.contains, h, Option.isSome_some]
  simp [stateForM, stateForBy, hloaded]

/-- **A state that is not kept is loaded once**, and kept if the load succeeds. -/
theorem stateForM_of_none (h : s.loaded.get? spec.id = none) :
    spec.stateForM load s = spec.settled s <$> load (s.entries spec.id) := by
  have hloaded : ¬ s.loaded.contains spec.id = true := by simp [Assoc.contains, h]
  rw [map_eq_pure_bind]
  simp only [stateForM, stateForBy, InPlaceT.on_bind, InPlaceT.on_get, pure_bind, if_neg hloaded,
    InPlaceT.on_liftM, bind_assoc]
  refine bind_congr fun loaded => ?_
  cases loaded with
  | error e => simp [settled, Except.mapError]
  | ok x =>
    have hkept : ((s.registerUse spec.id spec.renderer).store spec.id ⟨k, x⟩).loaded.get? spec.id =
        some ⟨k, x⟩ := (Assoc.get?_insert _ _ _ _).trans (if_pos rfl)
    simp [settled, Except.mapError, kept_of_get? spec hkept]

end Lawful

/-! ### Loads that have none -/

theorem stateFor_of_some {item : AnyItem Item} (h : s.loaded.get? spec.id = some item) :
    spec.stateFor s = (spec.kept s, s) :=
  (stateFor_eq_stateForM spec s).trans (congrArg Id.run (stateForM_of_some h))

theorem stateFor_of_none (h : s.loaded.get? spec.id = none) :
    spec.stateFor s = spec.settled s (spec.load (s.entries spec.id)) :=
  (stateFor_eq_stateForM spec s).trans (congrArg Id.run (stateForM_of_none h))

theorem stateFor_of_get? (h : s.loaded.get? spec.id = some ⟨k, x⟩) : spec.stateFor s = (.ok x, s) := by
  rw [stateFor_of_some h, kept_of_get? spec h]

/-- A state of another type is not handed out, and stays. -/
theorem stateFor_of_ne {k' : κ} {x' : Item k'} (h : s.loaded.get? spec.id = some ⟨k', x'⟩)
    (hne : k' ≠ k) : spec.stateFor s = (.error (typeMismatch spec.id), s) := by
  have hcast : cast? k (⟨k', x'⟩ : AnyItem Item) = none := by simp [cast?, hne]
  rw [stateFor_of_some h, kept, h, Option.bind_some, hcast]

theorem stateFor_of_load_error (hnew : s.loaded.get? spec.id = none) {e : Error}
    (h : spec.load (s.entries spec.id) = .error e) :
    spec.stateFor s = (.error (.stateLoad spec.id e), s) := by
  rw [stateFor_of_none hnew, h, settled]

theorem stateFor_of_load (hnew : s.loaded.get? spec.id = none)
    (h : spec.load (s.entries spec.id) = .ok x) :
    spec.stateFor s = (.ok x, (s.registerUse spec.id spec.renderer).store spec.id ⟨k, x⟩) := by
  rw [stateFor_of_none hnew, h, settled]

/-- A call that hands out no state leaves the subject as it was. -/
theorem stateFor_snd_of_error {e : Error} (h : (spec.stateFor s).1 = .error e) :
    (spec.stateFor s).2 = s := by
  cases hloaded : s.loaded.get? spec.id with
  | some item => rw [stateFor_of_some hloaded]
  | none =>
    cases hload : spec.load (s.entries spec.id) with
    | error e => rw [stateFor_of_load_error hloaded hload]
    | ok x =>
      rw [stateFor_of_load hloaded hload] at h
      cases h

/-! ### Loads that are noted -/

/-- A load that notes the rows that it is given. -/
def notedLoad (spec : StateSpec Item k) (rows : List StateEntry) :
    StateM (List (List StateEntry)) (Except Error (Item k)) := do
  modify (· ++ [rows])
  return spec.load rows

theorem run_stateForM_of_some {item : AnyItem Item} (h : s.loaded.get? spec.id = some item)
    (notes : List (List StateEntry)) :
    (spec.stateForM spec.notedLoad s).run notes = (spec.stateFor s, notes) := by
  rw [stateForM_of_some h, stateFor_of_some h]
  rfl

theorem run_stateForM_of_none (h : s.loaded.get? spec.id = none) (notes : List (List StateEntry)) :
    (spec.stateForM spec.notedLoad s).run notes =
      (spec.stateFor s, notes ++ [s.entries spec.id]) := by
  rw [stateForM_of_none h, stateFor_of_none h]
  rfl

end StateSpec

/-! ## Steps of a callback -/

/-- A call for a state through a spec, and the edits that are made of the state that it hands out. -/
structure StateCall {κ : Type} (Item : κ → Type) where
  kind : κ
  spec : StateSpec Item kind
  edit : Item kind → Item kind

/-- The name under which a call asks for a state. -/
def StateCall.id (c : StateCall Item) : String := c.spec.id

/-- What is done with a subject while callbacks run: they ask for states, set timers and add sink
requests, and each event comes at a time of its own. -/
inductive SubjectStep {κ : Type} (Item : κ → Type) where
  | use (c : StateCall Item)
  | setTimer (t : Instant)
  | addSinkRequest (id : String) (payload : Bytes)
  | comeTo (t : Instant)

variable [DecidableEq κ]

/-- What a step makes of the state of type `k` that is kept under a name: a call for it, through a
spec of this type, edits it. -/
def SubjectStep.edit (name : String) {k : κ} : SubjectStep Item → Item k → Item k
  | use c, x => if h : c.id = name ∧ c.kind = k then h.2 ▸ c.edit (h.2 ▸ x) else x
  | setTimer _, x | addSinkRequest _ _, x | comeTo _, x => x

/-- The subject after a call, and after the edits of the state if it is handed out. -/
def StateCall.run (c : StateCall Item) (s : Subject Item) : Subject Item :=
  match c.spec.stateFor s with
  | (.error _, s) => s
  | (.ok x, s) => c.spec.put s (c.edit x)

namespace Subject

/-- A subject after one more step. -/
def step (s : Subject Item) : SubjectStep Item → Subject Item
  | .use c => c.run s
  | .setTimer t => s.setTimer t
  | .addSinkRequest id payload => s.addSinkRequest id payload
  | .comeTo t => { s with timestamp := t }

/-- The subject that a history of steps leads to, the newest step first. -/
def after (s₀ : Subject Item) : List (SubjectStep Item) → Subject Item
  | [] => s₀
  | op :: past => (s₀.after past).step op

/-- What a subject has under a name: how to render a state, and the state. -/
def held (s : Subject Item) (name : String) : Option (Renderer Item) × Option (AnyItem Item) :=
  (s.used.get? name, s.loaded.get? name)

end Subject

namespace StateCall

variable {c : StateCall Item} {s : Subject Item}

theorem run_of_get? {x : Item c.kind} (h : s.loaded.get? c.id = some ⟨c.kind, x⟩) :
    c.run s = s.store c.id ⟨c.kind, c.edit x⟩ := by
  rw [run, StateSpec.stateFor_of_get? h]
  rfl

theorem run_of_ne {k : κ} {x : Item k} (h : s.loaded.get? c.id = some ⟨k, x⟩) (hne : k ≠ c.kind) :
    c.run s = s := by
  rw [run, StateSpec.stateFor_of_ne h hne]

theorem run_of_load_error (hnew : s.loaded.get? c.id = none) {e : Error}
    (h : c.spec.load (s.entries c.id) = .error e) : c.run s = s := by
  rw [run, StateSpec.stateFor_of_load_error hnew h]

theorem run_of_load (hnew : s.loaded.get? c.id = none) {x : Item c.kind}
    (h : c.spec.load (s.entries c.id) = .ok x) :
    c.run s = ((s.registerUse c.id c.spec.renderer).store c.id ⟨c.kind, x⟩).store c.id
      ⟨c.kind, c.edit x⟩ := by
  rw [run, StateSpec.stateFor_of_load hnew h]
  rfl

/-- All that a call may do to a subject: nothing, put a state in the place of the one that is kept,
or keep one. -/
theorem run_cases (c : StateCall Item) (s : Subject Item) :
    c.run s = s ∨ (∃ x, c.run s = s.store c.id ⟨c.kind, x⟩) ∨
    ∃ x x', c.run s = ((s.registerUse c.id c.spec.renderer).store c.id ⟨c.kind, x⟩).store c.id
      ⟨c.kind, x'⟩ := by
  cases hloaded : s.loaded.get? c.id with
  | some item =>
    obtain ⟨k, x⟩ := item
    by_cases hk : k = c.kind
    · subst hk
      exact .inr (.inl ⟨_, run_of_get? hloaded⟩)
    · exact .inl (run_of_ne hloaded hk)
  | none =>
    cases hload : c.spec.load (s.entries c.id) with
    | error e => exact .inl (run_of_load_error hloaded hload)
    | ok x => exact .inr (.inr ⟨_, _, run_of_load hloaded hload⟩)

end StateCall

namespace Subject

variable {s s₀ : Subject Item} {past later earlier : List (SubjectStep Item)} {name : String}
  {c : StateCall Item}

theorem entries_step (s : Subject Item) (op : SubjectStep Item) (name : String) :
    (s.step op).entries name = s.entries name := by
  cases op with
  | setTimer t => rfl
  | addSinkRequest id payload => rfl
  | comeTo t => rfl
  | use c =>
    obtain h | ⟨x, h⟩ | ⟨x, x', h⟩ := c.run_cases s <;> rw [step, h] <;> rfl

/-- The rows of a subject stay those that were delivered. -/
theorem entries_after (s₀ : Subject Item) (past : List (SubjectStep Item)) (name : String) :
    (s₀.after past).entries name = s₀.entries name := by
  induction past with
  | nil => rfl
  | cons op past ih => rw [after, entries_step, ih]

/-- A call concerns its own name only. -/
theorem held_use_of_ne (h : c.id ≠ name) (s : Subject Item) :
    (s.step (.use c)).held name = s.held name := by
  obtain hrun | ⟨x, hrun⟩ | ⟨x, x', hrun⟩ := c.run_cases s <;>
    simp [step, hrun, held, store, registerUse, h.symm]

/-- **One step.** It leaves the state that is kept under a name, but for its edits, and the way in
which it is rendered. -/
theorem held_step {r : Option (Renderer Item)} {k : κ} {x : Item k}
    (h : s.held name = (r, some ⟨k, x⟩)) (op : SubjectStep Item) :
    (s.step op).held name = (r, some ⟨k, op.edit name x⟩) := by
  cases op with
  | setTimer t => exact h
  | addSinkRequest id payload => exact h
  | comeTo t => exact h
  | use c =>
    by_cases hname : c.id = name
    · subst hname
      obtain ⟨hused, hloaded⟩ := Prod.mk.inj h
      by_cases hkind : c.kind = k
      · subst hkind
        rw [step, StateCall.run_of_get? hloaded]
        simp [held, store, hused, SubjectStep.edit]
      · rw [step, StateCall.run_of_ne hloaded (Ne.symm hkind)]
        simpa [SubjectStep.edit, hkind] using h
    · rw [held_use_of_ne hname, h]
      simp [SubjectStep.edit, hname]

/-! ## What a history says -/

/-- All loads under a name have failed. -/
def Unloaded (s₀ : Subject Item) (past : List (SubjectStep Item)) (name : String) : Prop :=
  ∀ c, .use c ∈ past → c.id = name → ∃ e, c.spec.load (s₀.entries name) = .error e

/-- A state with the edits that a history makes of it. -/
def edited (name : String) {k : κ} (x : Item k) (later : List (SubjectStep Item)) : Item k :=
  later.foldr (SubjectStep.edit name) x

/-- Under a name, call `c` was the first whose load succeeded, and since then the edits have made `y`
of what it loaded. -/
def Keeps (s₀ : Subject Item) (past : List (SubjectStep Item)) (name : String) (c : StateCall Item)
    (y : Item c.kind) : Prop :=
  ∃ later earlier x, past = later ++ .use c :: earlier ∧ c.id = name ∧ s₀.Unloaded earlier name ∧
    c.spec.load (s₀.entries name) = .ok x ∧ y = edited name (c.edit x) later

omit [DecidableEq κ] in
theorem unloaded_cons_iff {op : SubjectStep Item} : s₀.Unloaded (op :: past) name ↔
    (∀ c, op = .use c → c.id = name → ∃ e, c.spec.load (s₀.entries name) = .error e) ∧
      s₀.Unloaded past name := by
  simp only [Unloaded, List.mem_cons]
  constructor
  · intro h
    exact ⟨fun c hop => h c (.inl hop.symm), fun c hmem => h c (.inr hmem)⟩
  · rintro ⟨hop, hpast⟩ c (hc | hmem)
    · exact hop c hc.symm
    · exact hpast c hmem

/-- Under a name the loads have failed, or a state is kept. -/
theorem unloaded_or_keeps (s₀ : Subject Item) (past : List (SubjectStep Item)) (name : String) :
    s₀.Unloaded past name ∨ ∃ c y, s₀.Keeps past name c y := by
  induction past with
  | nil => exact .inl (by simp [Unloaded])
  | cons op past ih =>
    rcases ih with hun | ⟨c, y, later, earlier, x, rfl, hname, hun, hload, rfl⟩
    · -- the newest step is the first load to succeed, or it changes nothing
      by_cases hfirst : ∃ c x, op = .use c ∧ c.id = name ∧ c.spec.load (s₀.entries name) = .ok x
      · obtain ⟨c, x, rfl, hname, hload⟩ := hfirst
        exact .inr ⟨c, _, [], past, x, rfl, hname, hun, hload, rfl⟩
      · refine .inl (unloaded_cons_iff.2 ⟨fun c hop hname => ?_, hun⟩)
        cases hload : c.spec.load (s₀.entries name) with
        | error e => exact ⟨e, rfl⟩
        | ok x => exact absurd ⟨c, x, hop, hname, hload⟩ hfirst
    · exact .inr ⟨c, _, op :: later, earlier, x, rfl, hname, hun, hload, rfl⟩

/-- Loads that fail change nothing under a name under which nothing is kept. -/
theorem held_after_of_unloaded (hnew : s₀.loaded.get? name = none) (h : s₀.Unloaded past name) :
    (s₀.after past).held name = s₀.held name := by
  induction past with
  | nil => rfl
  | cons op past ih =>
    obtain ⟨hop, hpast⟩ := unloaded_cons_iff.1 h
    have hheld := ih hpast
    cases op with
    | setTimer t => exact hheld
    | addSinkRequest id payload => exact hheld
    | comeTo t => exact hheld
    | use c =>
      by_cases hname : c.id = name
      · obtain ⟨e, he⟩ := hop c rfl hname
        subst hname
        have hnone : (s₀.after past).loaded.get? c.id = none := (congrArg Prod.snd hheld).trans hnew
        rw [after, step, StateCall.run_of_load_error hnone (by rw [entries_after, he])]
        exact hheld
      · rw [after, held_use_of_ne hname, hheld]

/-- **Nothing is kept** under a name as long as the loads fail. -/
theorem held_of_unloaded (hnew : s₀.held name = (none, none)) (h : s₀.Unloaded past name) :
    (s₀.after past).held name = (none, none) := by
  rw [held_after_of_unloaded (congrArg Prod.snd hnew) h, hnew]

/-- **What is kept** under a name is the first state that was loaded, with its edits, and it is
rendered by the spec that loaded it. -/
theorem held_of_keeps (hnew : s₀.held name = (none, none)) {y : Item c.kind}
    (h : s₀.Keeps past name c y) :
    (s₀.after past).held name = (some c.spec.renderer, some ⟨c.kind, y⟩) := by
  obtain ⟨later, earlier, x, rfl, rfl, hun, hload, rfl⟩ := h
  -- the state is loaded when nothing is kept under its name, and each later step keeps it
  induction later with
  | nil =>
    have hnone := (Prod.mk.inj (held_of_unloaded hnew hun)).2
    rw [List.nil_append, after, step, StateCall.run_of_load hnone (by rw [entries_after, hload])]
    simp [held, store, registerUse, edited]
  | cons op later ih => exact held_step ih op

/-- What a call answers after a history, and the rows that it loads from. -/
inductive Answers (s₀ : Subject Item) (past : List (SubjectStep Item)) (c : StateCall Item) :
    Except Error (Item c.kind) → List (List StateEntry) → Prop
  | loadFailed {e : Error} (hun : s₀.Unloaded past c.id)
    (hload : c.spec.load (s₀.entries c.id) = .error e) :
    Answers s₀ past c (.error (.stateLoad c.id e)) [s₀.entries c.id]
  | loaded {x : Item c.kind} (hun : s₀.Unloaded past c.id)
    (hload : c.spec.load (s₀.entries c.id) = .ok x) : Answers s₀ past c (.ok x) [s₀.entries c.id]
  | kept {c₀ : StateCall Item} {y : Item c₀.kind} (hkeeps : s₀.Keeps past c.id c₀ y)
    (hkind : c₀.kind = c.kind) : Answers s₀ past c (.ok (hkind ▸ y)) []
  | otherType {c₀ : StateCall Item} {y : Item c₀.kind} (hkeeps : s₀.Keeps past c.id c₀ y)
    (hkind : c₀.kind ≠ c.kind) :
    Answers s₀ past c (.error (.internal ("state " ++ c.id ++ " is cached with a different type"))) []

section New

variable (hnew : ∀ name, s₀.held name = (none, none))

include hnew

theorem get?_of_unloaded (h : s₀.Unloaded past name) :
    (s₀.after past).used.get? name = none ∧ (s₀.after past).loaded.get? name = none :=
  Prod.mk.inj (held_of_unloaded (hnew name) h)

theorem get?_of_keeps {y : Item c.kind} (h : s₀.Keeps past name c y) :
    (s₀.after past).used.get? name = some c.spec.renderer ∧
      (s₀.after past).loaded.get? name = some ⟨c.kind, y⟩ :=
  Prod.mk.inj (held_of_keeps (hnew name) h)

/-- **One call.** It loads only if nothing is kept under its name, and once. -/
theorem answers_stateFor (past : List (SubjectStep Item)) (c : StateCall Item) :
    ∃ loads, s₀.Answers past c (c.spec.stateFor (s₀.after past)).1 loads ∧
      ∀ notes, (c.spec.stateForM c.spec.notedLoad (s₀.after past)).run notes =
        (c.spec.stateFor (s₀.after past), notes ++ loads) := by
  rcases s₀.unloaded_or_keeps past c.id with hun | ⟨c₀, y, hkeeps⟩
  · have hnone := (get?_of_unloaded hnew hun).2
    refine ⟨[s₀.entries c.id], ?_, fun notes => ?_⟩
    · cases hload : c.spec.load (s₀.entries c.id) with
      | error e =>
        rw [StateSpec.stateFor_of_load_error hnone (by rw [entries_after]; exact hload)]
        exact .loadFailed hun hload
      | ok x =>
        rw [StateSpec.stateFor_of_load hnone (by rw [entries_after]; exact hload)]
        exact .loaded hun hload
    · rw [StateSpec.run_stateForM_of_none hnone, entries_after]
      rfl
  · have hkept := (get?_of_keeps hnew hkeeps).2
    refine ⟨[], ?_, fun notes => by rw [StateSpec.run_stateForM_of_some hkept, List.append_nil]⟩
    by_cases hkind : c₀.kind = c.kind
    · have hcast : (⟨c₀.kind, y⟩ : AnyItem Item) = ⟨c.kind, hkind ▸ y⟩ := Sigma.ext hkind (by simp)
      rw [StateSpec.stateFor_of_get? (hcast ▸ hkept)]
      exact .kept hkeeps hkind
    · rw [StateSpec.stateFor_of_ne hkept hkind]
      exact .otherType hkeeps hkind

theorem get?_used_after_iff {r : Renderer Item} :
    (s₀.after past).used.get? name = some r ↔
      ∃ c y, s₀.Keeps past name c y ∧ r = c.spec.renderer := by
  constructor
  · intro hused
    rcases s₀.unloaded_or_keeps past name with hun | ⟨c, y, hkeeps⟩
    · rw [(get?_of_unloaded hnew hun).1] at hused
      cases hused
    · rw [(get?_of_keeps hnew hkeeps).1] at hused
      exact ⟨c, y, hkeeps, (Option.some.inj hused).symm⟩
  · rintro ⟨c, y, hkeeps, rfl⟩
    exact (get?_of_keeps hnew hkeeps).1

theorem mem_keys_after_iff :
    name ∈ (s₀.after past).used.keys ↔ name ∈ (s₀.after past).loaded.keys := by
  rw [Ordered.mem_keys_iff, Assoc.mem_keys_iff]
  rcases s₀.unloaded_or_keeps past name with hun | ⟨c, y, hkeeps⟩
  · obtain ⟨hused, hloaded⟩ := get?_of_unloaded hnew hun
    simp [hused, hloaded]
  · obtain ⟨hused, hloaded⟩ := get?_of_keeps hnew hkeeps
    simp [hused, hloaded]

/-- A state that is kept renders just if its own changes do. -/
theorem unrendered_after_iff {y : Item c.kind}
    (h : s₀.Keeps past name c y) {cause : Error} :
    (s₀.after past).Unrendered name c.spec.renderer cause ↔ c.spec.mutationsOf y = .error cause := by
  rw [unrendered_of_some (get?_of_keeps hnew h).2, StateSpec.renderer_self]

theorem renderUse_after_eq_ok_iff {y : Item c.kind}
    (h : s₀.Keeps past name c y) {ms : List Mutation} :
    (s₀.after past).renderUse name c.spec.renderer = .ok ms ↔ c.spec.mutationsOf y = .ok ms := by
  rw [renderUse_eq_ok_iff, (get?_of_keeps hnew h).2]
  simp [StateSpec.renderer_self]

/-- **The answer.** It fails only as the changes of a state that is kept fail to render. -/
theorem encode_after_eq_error_iff {e : Error} :
    (s₀.after past).encode = .error e ↔ ∃ name c y cause, s₀.Keeps past name c y ∧
      c.spec.mutationsOf y = .error cause ∧ e = renderError name cause ∧
      ∀ name' c' y', name' < name → s₀.Keeps past name' c' y' →
        ∃ ms, c'.spec.mutationsOf y' = .ok ms := by
  rw [encode_eq_error_iff]
  constructor
  · rintro ⟨name, r, cause, hused, hcause, he, hbefore⟩
    obtain ⟨c, y, hkeeps, rfl⟩ := (get?_used_after_iff hnew).1 hused
    refine ⟨name, c, y, cause, hkeeps, (unrendered_after_iff hnew hkeeps).1 hcause, he, ?_⟩
    intro name' c' y' hlt hkeeps'
    obtain ⟨ms, hms⟩ := hbefore name' _ hlt ((get?_used_after_iff hnew).2 ⟨c', y', hkeeps', rfl⟩)
    exact ⟨ms, (renderUse_after_eq_ok_iff hnew hkeeps').1 hms⟩
  · rintro ⟨name, c, y, cause, hkeeps, hcause, he, hbefore⟩
    refine ⟨name, c.spec.renderer, cause, (get?_used_after_iff hnew).2 ⟨c, y, hkeeps, rfl⟩,
      (unrendered_after_iff hnew hkeeps).2 hcause, he, ?_⟩
    intro name' r' hlt hused'
    obtain ⟨c', y', hkeeps', rfl⟩ := (get?_used_after_iff hnew).1 hused'
    obtain ⟨ms, hms⟩ := hbefore name' c' y' hlt hkeeps'
    exact ⟨ms, (renderUse_after_eq_ok_iff hnew hkeeps').2 hms⟩

/-- There is an answer just if each state that is kept renders its changes. -/
theorem exists_encode_after_eq_ok_iff :
    (∃ result, (s₀.after past).encode = .ok result) ↔
      ∀ name c y, s₀.Keeps past name c y → ∃ ms, c.spec.mutationsOf y = .ok ms := by
  constructor
  · rintro ⟨result, hok⟩ name c y hkeeps
    cases hms : c.spec.mutationsOf y with
    | ok ms => exact ⟨ms, rfl⟩
    | error cause =>
      obtain ⟨e, he⟩ := exists_encode_eq_error_iff.2 ⟨name, _, cause,
        (get?_used_after_iff hnew).2 ⟨c, y, hkeeps, rfl⟩, (unrendered_after_iff hnew hkeeps).2 hms⟩
      rw [hok] at he
      cases he
  · intro hrenders
    cases hencode : (s₀.after past).encode with
    | ok result => exact ⟨result, rfl⟩
    | error e =>
      obtain ⟨name, c, y, cause, hkeeps, hcause, -⟩ := (encode_after_eq_error_iff hnew).1 hencode
      obtain ⟨ms, hms⟩ := hrenders name c y hkeeps
      rw [hcause] at hms
      cases hms

end New

/-- **States are kept.** After any steps on a new subject, the states that were touched are those that
are kept, each with all its edits and rendered by the spec that loaded it. A call loads only if
nothing is kept under its name; else it hands out what is kept if that has its type, and it never
changes anything if it fails. There is an answer just if each kept state renders its changes, and the
first by name that does not says why there is none. -/
theorem states_kept (s₀ : Subject Item) (hused : s₀.used = .empty) (hloaded : s₀.loaded = .empty)
    (past : List (SubjectStep Item)) :
    (∀ name, name ∈ (s₀.after past).used.keys ↔ name ∈ (s₀.after past).loaded.keys) ∧
    (∀ name, s₀.Unloaded past name ∧ (s₀.after past).loaded.get? name = none ∨
      ∃ c y, s₀.Keeps past name c y ∧ (s₀.after past).loaded.get? name = some ⟨c.kind, y⟩ ∧
        (s₀.after past).used.get? name = some c.spec.renderer ∧
        c.spec.renderer ⟨c.kind, y⟩ = c.spec.mutationsOf y) ∧
    (∀ c : StateCall Item, (∃ loads, s₀.Answers past c (c.spec.stateFor (s₀.after past)).1 loads ∧
        ∀ notes, (c.spec.stateForM c.spec.notedLoad (s₀.after past)).run notes =
          (c.spec.stateFor (s₀.after past), notes ++ loads)) ∧
      ∀ e, (c.spec.stateFor (s₀.after past)).1 = .error e →
        (c.spec.stateFor (s₀.after past)).2 = s₀.after past) ∧
    ((∃ result, (s₀.after past).encode = .ok result) ↔
      ∀ name c y, s₀.Keeps past name c y → ∃ ms, c.spec.mutationsOf y = .ok ms) ∧
    ∀ e, (s₀.after past).encode = .error e ↔ ∃ name c y cause, s₀.Keeps past name c y ∧
      c.spec.mutationsOf y = .error cause ∧
      e = .internal ("failed to get mutations for state " ++ name ++ ": " ++ cause.message) ∧
      ∀ name' c' y', name' < name → s₀.Keeps past name' c' y' →
        ∃ ms, c'.spec.mutationsOf y' = .ok ms := by
  have hnew : ∀ name, s₀.held name = (none, none) := fun name => by simp [held, hused, hloaded]
  refine ⟨fun name => mem_keys_after_iff hnew, fun name => ?_, fun c => ?_,
    exists_encode_after_eq_ok_iff hnew, fun e => encode_after_eq_error_iff hnew⟩
  · rcases s₀.unloaded_or_keeps past name with hun | ⟨c, y, hkeeps⟩
    · exact .inl ⟨hun, (get?_of_unloaded hnew hun).2⟩
    · obtain ⟨hused, hloaded⟩ := get?_of_keeps hnew hkeeps
      exact .inr ⟨c, y, hkeeps, hloaded, hused, c.spec.renderer_self y⟩
  · exact ⟨answers_stateFor hnew past c, fun e => StateSpec.stateFor_snd_of_error⟩

/-- A call for a state "total", with an edit of what it hands out. -/
def sampleCall (shape : Script.Shape) (edit : Script.Item shape.kind → Script.Item shape.kind) :
    StateCall Script.Item where
  kind := shape.kind
  spec := (⟨"total", "total", shape⟩ : Script.Declaration).spec
  edit := edit

/-- A call for a recorder "total", to which a change is pushed. -/
def samplePush (failLoad : Bool) (m : Mutation) : StateCall Script.Item :=
  sampleCall (.recorder .get failLoad) fun (r : Script.Recorder) => { r with pushed := r.pushed ++ [m] }

/-- A load that fails, one that succeeds, a call of another type, and one that edits what is kept. -/
def samplePast : List (SubjectStep Script.Item) :=
  [.use (samplePush true (.delete [2])), .use (sampleCall (.value .raw .w64) id), .setTimer .epoch,
    .use (samplePush false (.put [1] [7])), .use (samplePush true (.delete [3]))]

def sampleSubject : Subject Script.Item := { key := [5], timestamp := .epoch }

def sampleKept : Script.Item .recorder :=
  ({ name := "total", pushed := [.put [1] [7], .delete [2]] } : Script.Recorder)

theorem states_kept_sample :
    sampleSubject.used = .empty ∧ sampleSubject.loaded = .empty ∧
      sampleSubject.Answers samplePast (samplePush true (.delete [3])) (.ok sampleKept) [] ∧
      sampleSubject.Answers samplePast (sampleCall (.value .raw .w64) id)
        (.error (.internal "state total is cached with a different type")) [] := by
  obtain ⟨-, -, hcalls, -⟩ := states_kept sampleSubject rfl rfl samplePast
  obtain ⟨loads, hpush, hnotes⟩ := (hcalls (samplePush true (.delete [3]))).1
  obtain ⟨loads', hother, hnotes'⟩ := (hcalls (sampleCall (.value .raw .w64) id)).1
  obtain rfl : [] = loads := congrArg Prod.snd (hnotes [])
  obtain rfl : [] = loads' := congrArg Prod.snd (hnotes' [])
  exact ⟨rfl, rfl, hpush, hother⟩

end Subject

end KeyedStream
