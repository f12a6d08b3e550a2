import Mathlib
import KeyedStream.Proofs.Caching
import KeyedStream.Proofs.Store

/-!
# States that mirror stored rows

A state is loaded from the rows of its name, worked on in memory, and rendered when the batch is
done. A `Mirror` says what its operations would do on the rows themselves, and a program of
operations then has two readings: it runs on the states of a subject (`Program.run`), or every
operation reads and writes the store at once (`Program.effect`). An operation on rows that cannot be
read answers nothing, and it is left to the program what to make of that. `Holds` relates a subject to the
store that it stands for. One operation keeps it (`Holds.perform`), so a whole program does
(`Holds.run_program`), and the answer of a subject is what brings the store up to date
(`Holds.encode`).
-/

namespace KeyedStream

/-! ## Mirrors -/

/-- A declared state, the operations on it, and what they come to on stored rows. -/
structure Mirror {κ : Type} (Item : κ → Type) where
  kind : κ
  spec : StateSpec Item kind
  Op : Type
  Reply : Op → Type
  /-- An operation on the state in memory. -/
  run : (op : Op) → Item kind → Reply op × Item kind
  /-- What an operation answers from the rows. -/
  reply : (op : Op) → Table → Reply op
  /-- The rows that an operation leaves. -/
  write : Op → Table → Table
  /-- The tables that belong under the name of the state. -/
  Valid : Table → Prop
  /-- The tables whose rows can all be read. -/
  Readable : Table → Prop
  /-- A state that was loaded from one table and edited stands for another table. -/
  Stands : Item kind → Table → Table → Prop
  stands_of_load {rows : List StateEntry} {n : Table} {x : Item kind} (hvalid : Valid n)
    (hlists : Table.Lists rows n) (hload : spec.load rows = .ok x) : Stands x n n
  load_of_readable {rows : List StateEntry} {n : Table} (hvalid : Valid n)
    (hlists : Table.Lists rows n) (hread : Readable n) : ∃ x, spec.load rows = .ok x
  stands_run {x : Item kind} {n₀ n : Table} (op : Op) (h : Stands x n₀ n) :
    (run op x).1 = reply op n ∧ Stands (run op x).2 n₀ (write op n)
  render_of_stands {x : Item kind} {n₀ n : Table} (h : Stands x n₀ n) :
    ∃ ms, spec.mutationsOf x = .ok ms ∧ Mutation.changes ms n₀ = n
  valid_of_stands {x : Item kind} {n₀ n : Table} (h : Stands x n₀ n) : Valid n
  readable_of_stands {x : Item kind} {n₀ n : Table} (h : Stands x n₀ n) : Readable n

variable {κ : Type} {Item : κ → Type}

/-- The name of a declared state. -/
def Mirror.id (m : Mirror Item) : String := m.spec.id

/-- An operation on the state of a subject, which is loaded first if need be. -/
def Mirror.perform [DecidableEq κ] (m : Mirror Item) (op : m.Op) (s : Subject Item) :
    Except Error (m.Reply op) × Subject Item :=
  match m.spec.stateFor s with
  | (.error e, s) => (.error e, s)
  | (.ok x, s) =>
    let (r, x) := m.run op x
    (.ok r, m.spec.put s x)

/-! ## Programs -/

/-- What a callback does: operations on declared states, timers and sink requests, each step
depending on the answers so far. An operation on a state that cannot be loaded has no answer. -/
inductive Program {κ : Type} {Item : κ → Type} {ρ : Type} (states : ρ → Mirror Item) where
  | done
  | fail (e : Error)
  | setTimer (t : Instant) (next : Program states)
  | addSink (id : String) (payload : Bytes) (next : Program states)
  | perform (a : ρ) (op : (states a).Op) (next : Option ((states a).Reply op) → Program states)

/-- What programs come to without a subject: the store that they leave, and their requests. -/
structure Effect where
  store : Store
  timers : List Instant := []
  sinkRequests : List Wire.SinkRequest := []

/-- One effect and the next one, which started from its store. -/
def Effect.andThen (e e' : Effect) : Effect where
  store := e'.store
  timers := e.timers ++ e'.timers
  sinkRequests := e.sinkRequests ++ e'.sinkRequests

namespace Program

variable {ρ : Type} {states : ρ → Mirror Item}

/-- Runs a program on a subject. -/
def run [DecidableEq κ] : Program states → Subject Item → Except Error Unit × Subject Item
  | done, s => (.ok (), s)
  | fail e, s => (.error e, s)
  | setTimer t next, s => next.run (s.setTimer t)
  | addSink id payload next, s => next.run (s.addSinkRequest id payload)
  | perform a op next, s =>
    match (states a).perform op s with
    | (.error _, s) => (next none).run s
    | (.ok r, s) => (next (some r)).run s

open Classical in
/-- Runs a program on a store, up to its end if it does not fail. -/
noncomputable def effect : Program states → Store → Option Effect
  | done, σ => some { store := σ }
  | fail _, _ => none
  | setTimer t next, σ => (next.effect σ).map fun e => { e with timers := t :: e.timers }
  | addSink id payload next, σ =>
    (next.effect σ).map fun e => { e with sinkRequests := ⟨id, payload⟩ :: e.sinkRequests }
  | perform a op next, σ =>
    if (states a).Readable (σ (states a).id) then
      (next (some ((states a).reply op (σ (states a).id)))).effect
        (σ.set (states a).id ((states a).write op (σ (states a).id)))
    else (next none).effect σ

/-- Runs programs on a store, one after the other. -/
noncomputable def effects : List (Program states) → Store → Option Effect
  | [], σ => some { store := σ }
  | p :: ps, σ => (p.effect σ).bind fun e => (effects ps e.store).map e.andThen

theorem effects_append (ps qs : List (Program states)) (σ : Store) :
    effects (ps ++ qs) σ = (effects ps σ).bind fun e => (effects qs e.store).map e.andThen := by
  induction ps generalizing σ with
  | nil =>
    rw [List.nil_append, effects, Option.bind_some]
    cases effects qs σ with
    | none => rfl
    | some e => simp [Effect.andThen]
  | cons p ps ih =>
    rw [List.cons_append, effects, effects]
    cases p.effect σ with
    | none => rfl
    | some e =>
      rw [Option.bind_some, Option.bind_some, ih]
      cases effects ps e.store with
      | none => rfl
      | some e₁ =>
        rw [Option.bind_some, Option.map_some, Option.bind_some, Option.map_map]
        simp only [Effect.andThen]
        cases effects qs e₁.store with
        | none => rfl
        | some e₂ =>
          simp only [Option.map_some, Function.comp_apply, Effect.andThen, List.append_assoc]

theorem effects_concat (ps : List (Program states)) (p : Program states) (σ : Store) :
    effects (ps ++ [p]) σ = (effects ps σ).bind fun e => (p.effect e.store).map e.andThen := by
  have hone : ∀ σ, effects [p] σ = p.effect σ := by
    intro σ
    rw [effects]
    cases p.effect σ with
    | none => rfl
    | some e => simp [effects, Effect.andThen]
  rw [effects_append]
  simp only [hone]

end Program

/-! ## Subjects that stand for stores -/

/-- A subject to which the rows of `σ₀` were delivered, and which stands for `σ`: its touched states
do, and the rows of the others are those that were delivered. -/
structure Holds [DecidableEq κ] {ρ : Type} (states : ρ → Mirror Item) (σ₀ : Store) (s : Subject Item)
    (σ : Store) : Prop where
  lists : ∀ a, Table.Lists (s.entries (states a).id) (σ₀ (states a).id)
  valid : ∀ a, (states a).Valid (σ₀ (states a).id)
  untouched : ∀ name, s.used.get? name = none → s.loaded.get? name = none ∧ σ name = σ₀ name
  touched : ∀ name r, s.used.get? name = some r → ∃ a x, (states a).id = name ∧
    r = (states a).spec.renderer ∧ s.loaded.get? name = some ⟨(states a).kind, x⟩ ∧
    (states a).Stands x (σ₀ name) (σ name)

theorem get?_loaded_store (s : Subject Item) (m : Mirror Item) (x : Item m.kind) (name : String) :
    (s.store m.id ⟨m.kind, x⟩).loaded.get? name =
      if name = m.id then some ⟨m.kind, x⟩ else s.loaded.get? name :=
  Assoc.get?_insert _ _ _ _

namespace Holds

variable [DecidableEq κ] {ρ : Type} {states : ρ → Mirror Item} {σ₀ σ : Store} {s : Subject Item}

/-- What a subject stands for does not depend on its time, timers and requests. -/
theorem of_same (h : Holds states σ₀ s σ) {s' : Subject Item} (hrows : s'.rows = s.rows)
    (hused : s'.used = s.used) (hloaded : s'.loaded = s.loaded) : Holds states σ₀ s' σ where
  lists a := by
    have hentries : s'.entries (states a).id = s.entries (states a).id := by
      rw [Subject.entries, Subject.entries, hrows]
    rw [hentries]
    exact h.lists a
  valid := h.valid
  untouched name hname := by
    rw [hloaded]
    exact h.untouched name (hused ▸ hname)
  touched name r hname := by
    rw [hloaded]
    exact h.touched name r (hused ▸ hname)

/-- A touched state stands for the rows under its name. -/
theorem stands (hinj : Function.Injective fun a => (states a).id) (h : Holds states σ₀ s σ) {a : ρ}
    {r : Renderer Item} (hused : s.used.get? (states a).id = some r) :
    ∃ x, s.loaded.get? (states a).id = some ⟨(states a).kind, x⟩ ∧
      (states a).Stands x (σ₀ (states a).id) (σ (states a).id) := by
  obtain ⟨a', x, hid, -, hloaded, hstands⟩ := h.touched _ r hused
  obtain rfl := hinj hid
  exact ⟨x, hloaded, hstands⟩

/-- The subject after an edit stands for the store after the write. -/
theorem put (h : Holds states σ₀ s σ) {a : ρ} {x : Item (states a).kind} {n : Table}
    (hused : s.used.get? (states a).id = some (states a).spec.renderer)
    (hstands : (states a).Stands x (σ₀ (states a).id) n) :
    Holds states σ₀ (s.store (states a).id ⟨(states a).kind, x⟩) (σ.set (states a).id n) where
  lists := h.lists
  valid := h.valid
  untouched name hname := by
    have hne : name ≠ (states a).id := by
      rintro rfl
      rw [show s.used.get? (states a).id = none from hname] at hused
      cases hused
    obtain ⟨hloaded, hrows⟩ := h.untouched name hname
    exact ⟨by rw [get?_loaded_store, if_neg hne, hloaded], by rw [Store.set_of_ne hne, hrows]⟩
  touched name r hname := by
    by_cases heq : name = (states a).id
    · subst heq
      have hr : r = (states a).spec.renderer := by
        rw [show s.used.get? (states a).id = some r from hname] at hused
        exact Option.some.inj hused
      exact ⟨a, x, rfl, hr, by rw [get?_loaded_store, if_pos rfl], by rwa [Store.set_self]⟩
    · obtain ⟨a', x', hid, hr, hloaded, hstands'⟩ := h.touched name r hname
      exact ⟨a', x', hid, hr, by rw [get?_loaded_store, if_neg heq, hloaded],
        by rwa [Store.set_of_ne heq]⟩

/-- The subject after a state was loaded stands for the same store. -/
theorem load (h : Holds states σ₀ s σ) {a : ρ} {x : Item (states a).kind}
    (hused : s.used.get? (states a).id = none)
    (hload : (states a).spec.load (s.entries (states a).id) = .ok x) :
    Holds states σ₀ ((s.registerUse (states a).id (states a).spec.renderer).store (states a).id
      ⟨(states a).kind, x⟩) σ where
  lists := h.lists
  valid := h.valid
  untouched name hname := by
    rw [Subject.registerUse, Subject.store, Ordered.get?_insert] at hname
    by_cases heq : name = (states a).id
    · rw [if_pos heq] at hname
      cases hname
    · rw [if_neg heq] at hname
      obtain ⟨hloaded, hrows⟩ := h.untouched name hname
      exact ⟨by rw [get?_loaded_store, if_neg heq]; exact hloaded, hrows⟩
  touched name r hname := by
    rw [Subject.registerUse, Subject.store, Ordered.get?_insert] at hname
    by_cases heq : name = (states a).id
    · subst heq
      rw [if_pos rfl] at hname
      have hstands := (states a).stands_of_load (h.valid a) (h.lists a) hload
      refine ⟨a, x, rfl, (Option.some.inj hname).symm, by rw [get?_loaded_store, if_pos rfl], ?_⟩
      rw [(h.untouched _ hused).2]
      exact hstands
    · rw [if_neg heq] at hname
      obtain ⟨a', x', hid, hr, hloaded, hstands⟩ := h.touched name r hname
      exact ⟨a', x', hid, hr, by rw [get?_loaded_store, if_neg heq]; exact hloaded, hstands⟩

/-- Once its state is there, an operation goes through. -/
theorem perform_of_stands {s₁ : Subject Item} (h : Holds states σ₀ s₁ σ) {a : ρ}
    {x : Item (states a).kind} (op : (states a).Op)
    (hused : s₁.used.get? (states a).id = some (states a).spec.renderer)
    (hstands : (states a).Stands x (σ₀ (states a).id) (σ (states a).id))
    (hfor : (states a).spec.stateFor s = (.ok x, s₁)) :
    (states a).Readable (σ (states a).id) ∧ ∃ s',
      (states a).perform op s = (.ok ((states a).reply op (σ (states a).id)), s') ∧
      Holds states σ₀ s' (σ.set (states a).id ((states a).write op (σ (states a).id))) ∧
      s'.key = s₁.key ∧ s'.timers = s₁.timers ∧ s'.sinkRequests = s₁.sinkRequests := by
  obtain ⟨hreply, hstands'⟩ := (states a).stands_run op hstands
  refine ⟨(states a).readable_of_stands hstands, _, ?_, h.put hused hstands', rfl, rfl, rfl⟩
  rw [Mirror.perform, hfor, ← hreply]
  rfl

/-- **One operation.** If the rows of its state can be read, the operation answers in memory what it
answers from the rows, and the subject then stands for the store that was written; otherwise it
fails and leaves the subject as it was. -/
theorem perform (hinj : Function.Injective fun a => (states a).id) (h : Holds states σ₀ s σ) (a : ρ)
    (op : (states a).Op) :
    (¬ (states a).Readable (σ (states a).id) ∧
        ∃ e, (states a).perform op s = (.error e, s)) ∨
      ((states a).Readable (σ (states a).id) ∧ ∃ s',
        (states a).perform op s = (.ok ((states a).reply op (σ (states a).id)), s') ∧
        Holds states σ₀ s' (σ.set (states a).id ((states a).write op (σ (states a).id))) ∧
        s'.key = s.key ∧ s'.timers = s.timers ∧ s'.sinkRequests = s.sinkRequests) := by
  cases hused : s.used.get? (states a).id with
  | some r =>
    obtain ⟨x, hloaded, hstands⟩ := h.stands hinj hused
    obtain ⟨a', x', hid, rfl, -, -⟩ := h.touched _ r hused
    obtain rfl := hinj hid
    exact .inr (h.perform_of_stands op hused hstands (StateSpec.stateFor_of_get? hloaded))
  | none =>
    obtain ⟨hnew, hrows⟩ := h.untouched _ hused
    cases hload : (states a).spec.load (s.entries (states a).id) with
    | error e =>
      refine .inl ⟨fun hread => ?_, .stateLoad (states a).id e, ?_⟩
      · rw [hrows] at hread
        obtain ⟨x, hx⟩ := (states a).load_of_readable (h.valid a) (h.lists a) hread
        rw [hload] at hx
        cases hx
      · rw [Mirror.perform, StateSpec.stateFor_of_load_error hnew hload]
        rfl
    | ok x =>
      have hstands : (states a).Stands x (σ₀ (states a).id) (σ (states a).id) := by
        rw [hrows]
        exact (states a).stands_of_load (h.valid a) (h.lists a) hload
      have hused₁ : ((s.registerUse (states a).id (states a).spec.renderer).store (states a).id
          ⟨(states a).kind, x⟩).used.get? (states a).id = some (states a).spec.renderer :=
        (Ordered.get?_insert _ _ _ _).trans (if_pos rfl)
      exact .inr ((h.load hused hload).perform_of_stands op hused₁ hstands
        (StateSpec.stateFor_of_load hnew hload))

/-- **A program.** It comes through on a subject just if it does on the store that the subject stands
for, with the same requests, and leaves a subject that stands for the store that it leaves. -/
theorem run_program (hinj : Function.Injective fun a => (states a).id) (p : Program states)
    (h : Holds states σ₀ s σ) :
    (p.effect σ = none ∧ ∃ e s', p.run s = (.error e, s')) ∨
      ∃ e s', p.effect σ = some e ∧ p.run s = (.ok (), s') ∧ Holds states σ₀ s' e.store ∧
        s'.key = s.key ∧ s'.timers = s.timers ++ e.timers ∧
        s'.sinkRequests = s.sinkRequests ++ e.sinkRequests := by
  induction p generalizing s σ with
  | done => exact .inr ⟨{ store := σ }, s, rfl, rfl, h, rfl, by simp, by simp⟩
  | fail e => exact .inl ⟨rfl, e, s, rfl⟩
  | setTimer t next ih =>
    have hset : Holds states σ₀ (s.setTimer t) σ := h.of_same rfl rfl rfl
    rcases ih hset with ⟨hnone, hrun⟩ | ⟨e, s', heffect, hrun, h', hkey, htimers, hsinks⟩
    · exact .inl ⟨by rw [Program.effect, hnone]; rfl, hrun⟩
    · refine .inr ⟨{ e with timers := t :: e.timers }, s', by rw [Program.effect, heffect]; rfl, hrun,
        h', hkey, ?_, hsinks⟩
      rw [htimers, Subject.setTimer, List.append_assoc, List.singleton_append]
  | addSink id payload next ih =>
    have hadd : Holds states σ₀ (s.addSinkRequest id payload) σ := h.of_same rfl rfl rfl
    rcases ih hadd with ⟨hnone, hrun⟩ | ⟨e, s', heffect, hrun, h', hkey, htimers, hsinks⟩
    · exact .inl ⟨by rw [Program.effect, hnone]; rfl, hrun⟩
    · refine .inr ⟨{ e with sinkRequests := ⟨id, payload⟩ :: e.sinkRequests }, s',
        by rw [Program.effect, heffect]; rfl, hrun, h', hkey, htimers, ?_⟩
      rw [hsinks, Subject.addSinkRequest, List.append_assoc, List.singleton_append]
  | perform a op next ih =>
    rcases h.perform hinj a op with ⟨hread, e, hperform⟩ |
      ⟨hread, s₁, hperform, h₁, hkey₁, htimers₁, hsinks₁⟩
    · rw [Program.effect, if_neg hread, Program.run, hperform]
      exact ih none h
    · rw [Program.effect, if_pos hread, Program.run, hperform, ← hkey₁, ← htimers₁, ← hsinks₁]
      exact ih _ h₁

/-- The rows that a subject stands for belong under their names. -/
theorem valid_store (h : Holds states σ₀ s σ) (hinj : Function.Injective fun a => (states a).id)
    (a : ρ) : (states a).Valid (σ (states a).id) := by
  cases hused : s.used.get? (states a).id with
  | none =>
    rw [(h.untouched _ hused).2]
    exact h.valid a
  | some r =>
    obtain ⟨x, -, hstands⟩ := h.stands hinj hused
    exact (states a).valid_of_stands hstands

/-- **The answer.** It brings the rows that were delivered to what the subject stands for. -/
theorem encode (h : Holds states σ₀ s σ) :
    ∃ result, s.encode = .ok result ∧ result.newTimers = s.timers.map .ofInstant ∧
      result.stateMutationNamespaces.foldl Store.change σ₀ = σ := by
  have hrender : ∀ e ∈ s.used.entries, ∃ n, s.Renders e n := by
    rintro ⟨name, r⟩ hmem
    obtain ⟨a, x, rfl, rfl, hloaded, hstands⟩ :=
      h.touched name r ((Ordered.get?_eq_some_iff _).2 hmem)
    obtain ⟨ms, hms, -⟩ := (states a).render_of_stands hstands
    refine ⟨_, ms, ?_, rfl⟩
    simp only [Subject.renderUse, hloaded, StateSpec.renderer_self, hms]
  obtain ⟨ns, hns⟩ := exists_forall₂ hrender
  refine ⟨_, Subject.encode_eq_ok_iff.2 ⟨ns, hns, rfl⟩, rfl, ?_⟩
  have hnames := Subject.names_of_renders hns
  funext name
  cases hused : s.used.get? name with
  | none =>
    have hnot : name ∉ ns.map (·.name) := by
      rw [hnames]
      intro hin
      obtain ⟨⟨name', r⟩, he, rfl⟩ := List.mem_map.1 hin
      rw [show s.used.get? name' = some r from (Ordered.get?_eq_some_iff _).2 he] at hused
      cases hused
    rw [Store.foldl_change_of_notMem hnot, (h.untouched name hused).2]
  | some r =>
    obtain ⟨n, hn, ms, hms, rfl⟩ := exists_mem_of_forall₂ hns ((Ordered.get?_eq_some_iff _).1 hused)
    obtain ⟨a, x, rfl, rfl, hloaded, hstands⟩ := h.touched name r hused
    obtain ⟨ms', hms', hchanges⟩ := (states a).render_of_stands hstands
    simp only [Subject.renderUse, hloaded, StateSpec.renderer_self, hms',
      Except.ok.injEq] at hms
    subst hms
    have hnodup : (ns.map (·.name)).Nodup := by
      rw [hnames]
      exact s.used.nodup_keys
    refine (Store.foldl_change_of_mem hnodup hn σ₀).trans ?_
    rw [foldl_change_rowsOf, hchanges]

end Holds

end KeyedStream
