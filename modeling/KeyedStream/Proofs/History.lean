import Mathlib
import KeyedStream.Dispatch
import KeyedStream.Proofs.Places

/-!
# Batches key by key

What a batch of calls comes to, told without a batch: a history lists the calls that ran, each with
the world in which it ran, and the subject of a key is the fold of the callbacks of exactly its own
calls (`subjectOf`). `Runs` steps through the calls in the order in which they arrive; a callback
works on what the history says of its key, whatever came in between on other keys.

`subjectOf_concat` and `keysOf_concat` say what one more call changes: the subject of its key only,
and the list of keys only if its key is new.
-/

namespace KeyedStream

/-- What an event of a request asks for. Without a time of its own it happens at the epoch. -/
inductive Asks : Wire.Event → Handler.Call → Prop
  | event {e : Wire.KeyedEvent} {t : Instant} (ht : Wire.Timestamp.instant? e.timestamp = some t) :
    Asks ⟨some (.keyedEvent e)⟩ (.event ⟨e.key, t, e.value⟩)
  | timer {e : Wire.TimerExpired} {t : Instant} (ht : Wire.Timestamp.instant? e.timestamp = some t) :
    Asks ⟨some (.timerExpired e)⟩ (.timer e.key t)

theorem ofWire_eq_ok_iff {position : Nat} {e : Wire.Event} {call : Handler.Call} :
    Handler.Call.ofWire position e = .ok call ↔ Asks e call := by
  constructor
  · intro h
    obtain ⟨_ | e | e⟩ := e
    · simp [Handler.Call.ofWire] at h
    · simp only [Handler.Call.ofWire, KeyedEvent.ofWire] at h
      cases ht : Wire.Timestamp.instant? e.timestamp with
      | none => simp [ht, Except.map] at h
      | some t =>
        simp only [ht, Except.map, Except.ok.injEq] at h
        exact h ▸ .event ht
    · simp only [Handler.Call.ofWire] at h
      cases ht : Wire.Timestamp.instant? e.timestamp with
      | none => simp [ht] at h
      | some t =>
        simp only [ht, Except.ok.injEq] at h
        exact h ▸ .timer ht
  · rintro (ht | ht)
    · simp [Handler.Call.ofWire, KeyedEvent.ofWire, ht, Except.map]
    · simp [Handler.Call.ofWire, ht]

/-- A call that ran, and the world in which it ran. -/
structure Ran (ω : Type) where
  call : Handler.Call
  world : World ω

/-- The key on whose subject the call ran. -/
def Ran.key {ω : Type} (r : Ran ω) : Bytes := r.call.key

variable {κ ω : Type} {Item : κ → Type}

/-- The keys of a history, in the order in which they first came up. -/
def keysOf (past : List (Ran ω)) : List Bytes := (past.map Ran.key).eraseDups

theorem mem_keysOf {past : List (Ran ω)} {key : Bytes} :
    key ∈ keysOf past ↔ ∃ r ∈ past, r.key = key := by
  simp [keysOf, List.mem_eraseDups]

theorem keysOf_concat (past : List (Ran ω)) (call : Handler.Call) (w : World ω) :
    keysOf (past ++ [⟨call, w⟩]) =
      if call.key ∈ keysOf past then keysOf past else keysOf past ++ [call.key] := by
  have happend : keysOf (past ++ [⟨call, w⟩]) = (past.map Ran.key ++ [call.key]).eraseDups := by
    rw [keysOf, List.map_append]
    rfl
  rw [happend]
  by_cases h : call.key ∈ past.map Ran.key
  · have hkeys : call.key ∈ keysOf past := List.mem_eraseDups.2 h
    rw [eraseDups_concat_of_mem h, if_pos hkeys, keysOf]
  · have hkeys : call.key ∉ keysOf past := fun hmem => h (List.mem_eraseDups.1 hmem)
    rw [eraseDups_concat_of_notMem h, if_neg hkeys, keysOf]

namespace Handler

/-- The subject of a call that is about to run: the time is the call's own. -/
def prepare (s : Subject Item) (call : Call) : Subject Item := { s with timestamp := call.timestamp }

/-- The subject after a callback on it. -/
def after (h : Handler ω Item) (c : Context) (s : Subject Item) (r : Ran ω) : Subject Item :=
  (h.callback c r.call (prepare s r.call) r.world).2.1

/-- The subject of a key after a history: from the rows that were delivered for the key, the
callbacks of the key's own calls, one after the other. -/
def subjectOf (h : Handler ω Item) (c : Context) (keyStates : List Wire.KeyState)
    (past : List (Ran ω)) (key : Bytes) : Subject Item :=
  (past.filter fun r => r.key = key).foldl (h.after c) (.initial keyStates key)

/-- What the callback of a call comes to after a history. -/
def outcome (h : Handler ω Item) (c : Context) (keyStates : List Wire.KeyState)
    (past : List (Ran ω)) (call : Call) (w : World ω) : Except Halt Unit × Subject Item × World ω :=
  h.callback c call (prepare (h.subjectOf c keyStates past call.key) call) w

/-- From a world `w₀`, the calls of a history run to their ends and leave a world: before none of
them the request had been given up, and none of the callbacks failed. -/
inductive Runs (h : Handler ω Item) (c : Context) (keyStates : List Wire.KeyState) (w₀ : World ω) :
    List (Ran ω) → World ω → Prop
  | start : Runs h c keyStates w₀ [] w₀
  | call {past : List (Ran ω)} {w w' : World ω} {call : Call} {s : Subject Item}
    (hpast : Runs h c keyStates w₀ past w) (hgoes : w.isCancelled c.token = false)
    (hcall : h.outcome c keyStates past call w = (.ok (), s, w')) :
    Runs h c keyStates w₀ (past ++ [⟨call, w⟩]) w'

variable (h : Handler ω Item) (c : Context) (keyStates : List Wire.KeyState)

theorem subjectOf_concat (past : List (Ran ω)) (call : Call) (w : World ω) (key : Bytes) :
    h.subjectOf c keyStates (past ++ [⟨call, w⟩]) key =
      if key = call.key then (h.outcome c keyStates past call w).2.1
      else h.subjectOf c keyStates past key := by
  unfold subjectOf
  rw [List.filter_append, List.foldl_append]
  by_cases hk : key = call.key
  · subst hk
    simp [Ran.key, after, outcome, subjectOf]
  · have hk' : ¬ call.key = key := fun e => hk e.symm
    simp [Ran.key, hk, hk']

/-- A key that has not come up has only its rows. -/
theorem subjectOf_of_notMem {past : List (Ran ω)} {key : Bytes} (hk : key ∉ keysOf past) :
    h.subjectOf c keyStates past key = .initial keyStates key := by
  have hnil : (past.filter fun r => r.key = key) = [] := by
    rw [List.filter_eq_nil_iff]
    intro r hr hrk
    exact hk (mem_keysOf.2 ⟨r, hr, of_decide_eq_true hrk⟩)
  rw [subjectOf, hnil, List.foldl_nil]

end Handler

end KeyedStream
