import Mathlib
import KeyedStream.Proofs.Caching
import KeyedStream.Proofs.TableHistory

/-!
# States that are edited in place

A state is loaded, a subject asked for a state and a sink asked for a delivery in place: by a
procedure of several steps, each of which may change something or fail, and what was changed before a
failure is not taken back (`InPlace`). Still a procedure that fails leaves things as they were
(`MapState.loadInPlace_on`, `ValueState.loadInPlace_on`, `StateSpec.stateFor_of_load_error`,
`Sink.collectWith_eq`). So a failure is as if nothing had been tried, and the next try starts anew
(`failures_leave_no_trace`).
-/

namespace KeyedStream

/-! ## Tables -/

/-- Why a row cannot be read: its key, or else its value, stands for nothing. -/
inductive MapCodec.Rejects {κ ν : Type} (codec : MapCodec κ ν) (row : StateEntry) : CodecError → Prop
  | key {e : CodecError} (hkey : codec.key.decode row.key = .error e) : Rejects codec row e
  | value {k : κ} {e : CodecError} (hkey : codec.key.decode row.key = .ok k)
    (hvalue : codec.value.decode row.value = .error e) : Rejects codec row e

theorem MapCodec.entry_eq_error_iff {κ ν : Type} {codec : MapCodec κ ν} {row : StateEntry}
    {e : CodecError} : codec.entry row = .error e ↔ codec.Rejects row e := by
  rw [entry]
  constructor
  · intro h
    rcases bind_eq_error_iff.1 h with hkey | ⟨k, hkey, hrest⟩
    · exact .key hkey
    · rcases bind_eq_error_iff.1 hrest with hvalue | ⟨v, -, hdone⟩
      · exact .value hkey hvalue
      · cases hdone
  · rintro (hkey | ⟨hkey, hvalue⟩)
    · rw [hkey]
      rfl
    · rw [hkey, hvalue]
      rfl

theorem MapCodec.exists_entry_eq_ok_iff {κ ν : Type} {codec : MapCodec κ ν} {row : StateEntry} :
    (∃ x, codec.entry row = .ok x) ↔ ∀ e, ¬ codec.Rejects row e := by
  simp only [← entry_eq_error_iff]
  cases codec.entry row <;> simp

namespace MapState

variable {κ ν : Type} [DecidableEq κ]

/-- **A load in place** leaves the table that is loaded, or the table as it was. -/
theorem loadInPlace_on (rows : List StateEntry) (s : MapState κ ν) :
    (loadInPlace rows).on s =
      match s.load rows with
      | .ok s' => (.ok (), s')
      | .error e => (.error e, s) := by
  rw [load_eq, loadInPlace_on_eq]
  cases readRows s.codec rows .empty <;> rfl

/-- A load of rows of which some cannot be read fails with the first such row. -/
theorem exists_load_eq_error {s : MapState κ ν} {rows : List StateEntry}
    (h : ∃ row ∈ rows, ∃ cause, s.codec.Rejects row cause) :
    ∃ before row later cause, rows = before ++ row :: later ∧
      (∀ r ∈ before, ∀ cause, ¬ s.codec.Rejects r cause) ∧ s.codec.Rejects row cause ∧
      s.load rows = .error (.codec cause) := by
  cases hrows : rows.mapM s.codec.entry with
  | ok es =>
    obtain ⟨row, hrow, cause, hrejects⟩ := h
    obtain ⟨x, -, hx⟩ := exists_mem_of_forall₂ (mapM_eq_ok_iff.1 hrows) hrow
    exact absurd hrejects (MapCodec.exists_entry_eq_ok_iff.1 ⟨x, hx⟩ cause)
  | error cause =>
    obtain ⟨before, row, later, hsplit, hbefore, hrow⟩ := mapM_eq_error_iff.1 hrows
    refine ⟨before, row, later, cause, hsplit, fun r hr => ?_, MapCodec.entry_eq_error_iff.1 hrow, ?_⟩
    · exact MapCodec.exists_entry_eq_ok_iff.1 (hbefore r hr)
    · rw [load_eq_map, hrows]
      rfl

/-- **A load that fails** fails with the first row that cannot be read, and the table is as it was. -/
theorem loadInPlace_on_of_rejects {s : MapState κ ν} {rows : List StateEntry}
    (h : ∃ row ∈ rows, ∃ cause, s.codec.Rejects row cause) :
    ∃ before row later cause, rows = before ++ row :: later ∧
      (∀ r ∈ before, ∀ cause, ¬ s.codec.Rejects r cause) ∧ s.codec.Rejects row cause ∧
      s.load rows = .error (.codec cause) ∧
      (loadInPlace rows).on s = (.error (.codec cause), s) ∧ s.step (.load rows) = s := by
  obtain ⟨before, row, later, cause, hsplit, hbefore, hrow, hload⟩ := exists_load_eq_error h
  refine ⟨before, row, later, cause, hsplit, hbefore, hrow, hload, ?_, ?_⟩
  · rw [loadInPlace_on, hload]
  · rw [step, hload]
    rfl

end MapState

/-! ## Values -/

namespace ValueState

variable {α : Type}

/-- **A load in place** leaves the state that is loaded, or the state as it was. -/
theorem loadInPlace_on (rows : List StateEntry) (s : ValueState α) :
    (loadInPlace rows).on s =
      match s.load rows with
      | .ok s' => (.ok (), s')
      | .error e => (.error e, s) := by
  cases rows with
  | nil => rfl
  | cons row rest =>
    by_cases hempty : row.value = []
    · rw [load_cons_empty s rest hempty, loadInPlace, hempty]
      rfl
    · rw [load_cons s rest hempty, loadInPlace_on_cons s rest hempty]
      cases liftCodec (s.codec.decode row.value) <;> rfl

/-- A load fails just if there is something in the first row, and it cannot be read. -/
theorem load_eq_error_iff {s : ValueState α} {rows : List StateEntry} {e : Error} :
    s.load rows = .error e ↔ ∃ row rest cause, rows = row :: rest ∧ row.value ≠ [] ∧
      s.codec.decode row.value = .error cause ∧ e = .codec cause := by
  constructor
  · intro h
    cases rows with
    | nil => cases h
    | cons row rest =>
      by_cases hempty : row.value = []
      · rw [load_cons_empty s rest hempty] at h
        cases h
      · rw [load_cons s rest hempty] at h
        cases hdecode : s.codec.decode row.value with
        | ok v =>
          rw [hdecode] at h
          cases h
        | error cause =>
          rw [hdecode] at h
          cases h
          exact ⟨row, rest, cause, rfl, hempty, hdecode, rfl⟩
  · rintro ⟨row, rest, cause, rfl, hvalue, hdecode, rfl⟩
    rw [load_cons s rest hvalue, hdecode]
    rfl

end ValueState

/-! ## Subjects -/

namespace StateSpec

variable {κ : Type} [DecidableEq κ] {Item : κ → Type} {k : κ}

variable {spec : StateSpec Item k} {s : Subject Item}

/-- As long as the loads under its name fail, each call for a state loads anew. -/
theorem run_stateForM_after (hnew : s.loaded.get? spec.id = none) {later : List (SubjectStep Item)}
    (hlater : s.Unloaded later spec.id) (notes : List (List StateEntry)) :
    (spec.stateForM spec.notedLoad (s.after later)).run notes =
        (spec.stateFor (s.after later), notes ++ [s.entries spec.id]) ∧
      ∀ x, spec.load (s.entries spec.id) = .ok x → (spec.stateFor (s.after later)).1 = .ok x := by
  have hnone : (s.after later).loaded.get? spec.id = none :=
    (congrArg Prod.snd (Subject.held_after_of_unloaded hnew hlater)).trans hnew
  refine ⟨?_, fun x hx => ?_⟩
  · rw [run_stateForM_of_none hnone, Subject.entries_after]
  · rw [stateFor_of_load hnone (by rw [Subject.entries_after, hx])]

end StateSpec

/-! ## Failures -/

/-- **Failures leave no trace.** A table of whose rows some cannot be read is not loaded: the load
fails with the first such row, and with its key before its value, and the table is as it was, with its
edits. So is a value whose row cannot be read, a subject that is asked for a state that cannot be
loaded (until one can be, each call for it loads anew) and one that is asked to deliver a value
that has no stored form. -/
theorem failures_leave_no_trace :
    (∀ (κ ν : Type) [DecidableEq κ] (s : MapState κ ν) (rows : List StateEntry),
      (∃ row ∈ rows, ∃ cause, s.codec.Rejects row cause) →
        ∃ before row later cause, rows = before ++ row :: later ∧
          (∀ r ∈ before, ∀ cause, ¬ s.codec.Rejects r cause) ∧ s.codec.Rejects row cause ∧
          s.load rows = .error (.codec cause) ∧
          (MapState.loadInPlace rows).on s = (.error (.codec cause), s) ∧
          s.step (.load rows) = s) ∧
    (∀ (α : Type) (s : ValueState α) (rows : List StateEntry) (e : Error),
      (s.load rows = .error e ↔ ∃ row rest cause, rows = row :: rest ∧ row.value ≠ [] ∧
        s.codec.decode row.value = .error cause ∧ e = .codec cause) ∧
      (s.load rows = .error e → (ValueState.loadInPlace rows).on s = (.error e, s))) ∧
    (∀ (κ : Type) [DecidableEq κ] (Item : κ → Type) (k : κ) (spec : StateSpec Item k)
      (s : Subject Item) (e : Error), s.loaded.get? spec.id = none →
        spec.load (s.entries spec.id) = .error e →
      spec.stateFor s = (.error (.stateLoad spec.id e), s) ∧
      spec.stateForInPlace.on s = (.error (.stateLoad spec.id e), s) ∧
      ∀ (later : List (SubjectStep Item)) (c : StateCall Item), c.id = spec.id →
        s.Unloaded later spec.id → ∀ notes,
        (c.spec.stateForM c.spec.notedLoad ((spec.stateFor s).2.after later)).run notes =
          (c.spec.stateFor ((spec.stateFor s).2.after later), notes ++ [s.entries spec.id]) ∧
        ∀ x, c.spec.load (s.entries spec.id) = .ok x →
          (c.spec.stateFor ((spec.stateFor s).2.after later)).1 = .ok x) ∧
    ∀ (κ α : Type) (Item : κ → Type) (sink : Sink) (codec : ValueCodec α) (v : α) (s : Subject Item)
      (cause : CodecError), codec.encode v = .error cause →
      sink.collectWith codec s v = (.error (.codec cause), s) ∧
      (sink.collectWithInPlace codec v).on s = (.error (.codec cause), s) := by
  refine ⟨fun κ ν _ s rows => MapState.loadInPlace_on_of_rejects, fun α s rows e => ?_,
    fun κ _ Item k spec s e hnew hload => ?_, fun κ α Item sink codec v s cause hencode => ?_⟩
  · exact ⟨ValueState.load_eq_error_iff, fun hload => by rw [ValueState.loadInPlace_on, hload]⟩
  · have hcall := StateSpec.stateFor_of_load_error hnew hload
    refine ⟨hcall, hcall, fun later c hname hlater notes => ?_⟩
    have hid : c.spec.id = spec.id := hname
    rw [hcall, ← hid]
    rw [← hid] at hnew hlater
    exact StateSpec.run_stateForM_after hnew hlater notes
  · have hcall : sink.collectWith codec s v = (.error (.codec cause), s) := by
      rw [Sink.collectWith_eq, hencode]
      rfl
    exact ⟨hcall, hcall⟩

end KeyedStream
