import Mathlib
import KeyedStream.Proofs.History

/-!
# What a handler is asked

A handler can be recorded: it answers as before, and notes beside what it keeps what it was asked,
with the context, in the order in which it was asked. Nothing else changes: a history of calls, and
records that are keyed, are the same when they are recorded, and the notes are those of the calls
and of the records (`Handler.Runs.recorded`, `Handler.KeysAll.recorded`).
-/

namespace KeyedStream

/-- What a handler is asked. -/
inductive Asked where
  | record (c : Context) (record : Bytes)
  | event (c : Context) (e : KeyedEvent)
  | timer (c : Context) (t : Instant)
deriving DecidableEq

/-- What a call asks of a handler. -/
def Handler.Call.asked (c : Context) : Handler.Call → Asked
  | event e => .event c e
  | timer _ t => .timer c t

variable {κ ω : Type} {Item : κ → Type}

namespace World

/-- A world with notes beside what the handler keeps. -/
def noting (w : World ω) (notes : List Asked) : World (ω × List Asked) :=
  { tokens := w.tokens, own := (w.own, notes) }

/-- A world without its notes. -/
def unnoted (w : World (ω × List Asked)) : World ω := { tokens := w.tokens, own := w.own.1 }

def notes (w : World (ω × List Asked)) : List Asked := w.own.2

/-- A new context is the same with notes. -/
theorem newContext_noting (w : World ω) (notes : List Asked) :
    (w.noting notes).newContext = (w.newContext.1, w.newContext.2.noting notes) := rfl

theorem noting_inj {w w' : World ω} {notes notes' : List Asked}
    (hsame : w.noting notes = w'.noting notes') : w = w' ∧ notes = notes' := by
  obtain ⟨_, _⟩ := w
  obtain ⟨_, _⟩ := w'
  simp only [noting, mk.injEq, Prod.mk.injEq] at hsame ⊢
  exact ⟨⟨hsame.1, hsame.2.1⟩, hsame.2.2⟩

end World

namespace Handler

/-- A callback that notes what it is asked. -/
def record (asked : Asked) (f : Callback ω Item) : Callback (ω × List Asked) Item := fun s w =>
  let (r, s, w') := f s w.unnoted
  (r, s, w'.noting (w.notes ++ [asked]))

/-- The handler that notes what it is asked. -/
def recorded (h : Handler ω Item) : Handler (ω × List Asked) Item where
  keyEvent c record w :=
    let (r, w') := h.keyEvent c record w.unnoted
    (r, w'.noting (w.notes ++ [.record c record]))
  operator :=
    { onEvent := fun c e => record (.event c e) (h.operator.onEvent c e)
      onTimerExpired := fun c t => record (.timer c t) (h.operator.onTimerExpired c t) }

variable {h : Handler ω Item} {c : Context} {keyStates : List Wire.KeyState}

/-! ## Calls -/

theorem callback_recorded (call : Call) (s : Subject Item) (w : World ω) (notes : List Asked) :
    h.recorded.callback c call s (w.noting notes) =
      ((h.callback c call s w).1, (h.callback c call s w).2.1,
        (h.callback c call s w).2.2.noting (notes ++ [call.asked c])) := by
  cases call <;> rfl

/-- A call runs on the subject of its key as it does when nothing is noted. -/
theorem run_recorded (call : Call) (b : Batch Item) (w : World ω) (notes : List Asked) :
    h.recorded.run c call b (w.noting notes) =
      ((h.run c call b w).1, (h.run c call b w).2.1,
        (h.run c call b w).2.2.noting (notes ++ [call.asked c])) := by
  simp only [run, callback_recorded]

/-- A history and the same one recorded: the same calls, and so far the same subjects. -/
structure Recording (h : Handler ω Item) (c : Context) (keyStates : List Wire.KeyState)
    (past : List (Ran ω)) (past' : List (Ran (ω × List Asked))) : Prop where
  calls : past'.map Ran.call = past.map Ran.call
  subjects : ∀ key, h.recorded.subjectOf c keyStates past' key = h.subjectOf c keyStates past key

namespace Recording

variable {past : List (Ran ω)} {past' : List (Ran (ω × List Asked))}

theorem length_eq (hrec : Recording h c keyStates past past') : past'.length = past.length := by
  simpa using congrArg List.length hrec.calls

theorem keysOf_eq (hrec : Recording h c keyStates past past') : keysOf past' = keysOf past := by
  have hkeys := congrArg (List.map Call.key) hrec.calls
  rw [List.map_map, List.map_map] at hkeys
  exact congrArg List.eraseDups hkeys

theorem outcome_eq (hrec : Recording h c keyStates past past') (call : Call) (w : World ω)
    (notes : List Asked) :
    h.recorded.outcome c keyStates past' call (w.noting notes) =
      ((h.outcome c keyStates past call w).1, (h.outcome c keyStates past call w).2.1,
        (h.outcome c keyStates past call w).2.2.noting (notes ++ [call.asked c])) := by
  rw [outcome, hrec.subjects, callback_recorded]
  rfl

theorem concat (hrec : Recording h c keyStates past past') (call : Call) (w : World ω)
    (notes : List Asked) :
    Recording h c keyStates (past ++ [⟨call, w⟩]) (past' ++ [⟨call, w.noting notes⟩]) where
  calls := by rw [List.map_append, List.map_append, hrec.calls]; rfl
  subjects key := by
    rw [subjectOf_concat, subjectOf_concat, hrec.outcome_eq, hrec.subjects]

end Recording

/-- **Calls run as they do when nothing is noted**, and what is noted are the calls. -/
theorem Runs.recorded {w₀ w : World ω} {past : List (Ran ω)} (hruns : h.Runs c keyStates w₀ past w)
    (notes : List Asked) :
    ∃ past', Recording h c keyStates past past' ∧
      h.recorded.Runs c keyStates (w₀.noting notes) past'
        (w.noting (notes ++ (past.map Ran.call).map (Call.asked c))) := by
  induction hruns with
  | start => exact ⟨[], ⟨rfl, fun _ => rfl⟩, by simpa using Runs.start⟩
  | @call past w w' call s hpast hgoes hcall ih =>
    obtain ⟨past', hrec, hruns'⟩ := ih
    refine ⟨_, hrec.concat call w (notes ++ (past.map Ran.call).map (Call.asked c)), ?_⟩
    rw [List.map_append, List.map_append, ← List.append_assoc]
    refine .call (s := s) hruns' hgoes ?_
    rw [hrec.outcome_eq, hcall]
    rfl

/-! ## Records -/

/-- From a world, records are keyed one after the other, and leave a world: before none of them the
request had been given up, and all have their events. -/
inductive KeysAll (h : Handler ω Item) (c : Context) :
    World ω → List Bytes → List (List KeyedEvent) → World ω → Prop
  | nil (w : World ω) : KeysAll h c w [] [] w
  | cons {w w₁ w₂ : World ω} {record : Bytes} {records : List Bytes} {events : List KeyedEvent}
    {results : List (List KeyedEvent)} (hgoes : w.isCancelled c.token = false)
    (hkey : h.keyEvent c record w = (.ok events, w₁)) (hrest : KeysAll h c w₁ records results w₂) :
    KeysAll h c w (record :: records) (events :: results) w₂

theorem keyEvent_recorded (bytes : Bytes) (w : World ω) (notes : List Asked) :
    h.recorded.keyEvent c bytes (w.noting notes) =
      ((h.keyEvent c bytes w).1, (h.keyEvent c bytes w).2.noting (notes ++ [.record c bytes])) := rfl

/-- **Records are keyed as they are when nothing is noted**, and what is noted are the records. -/
theorem KeysAll.recorded {w w' : World ω} {records : List Bytes} {results : List (List KeyedEvent)}
    (hkeys : h.KeysAll c w records results w') (notes : List Asked) :
    h.recorded.KeysAll c (w.noting notes) records results
      (w'.noting (notes ++ records.map (.record c))) := by
  induction hkeys generalizing notes with
  | nil => simpa using KeysAll.nil _
  | @cons w w₁ _ bytes records _ _ hgoes hkey _ ih =>
    rw [List.map_cons, List.append_cons]
    refine .cons hgoes ?_ (ih (notes ++ [.record c bytes]))
    rw [keyEvent_recorded, hkey]

end Handler

end KeyedStream
