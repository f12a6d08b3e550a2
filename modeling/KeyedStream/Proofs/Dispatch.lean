import Mathlib
import KeyedStream.Proofs.History
import KeyedStream.Proofs.Pairing
import KeyedStream.Script.Handler

/-!
# Dispatch, key by key

`Tracks` says what a batch holds after a history: the subject of each key, in the order of the keys,
and the rows of the other keys. As every call for a subject leaves subjects in their places
(`Batch.Holds.call`), one call keeps this (`run_tracks`), so a whole batch comes to what its keys come to
one by one (`processEventBatch_keywise`).
-/

namespace KeyedStream

namespace Handler

variable {κ ω : Type} {Item : κ → Type}

/-! ## What a batch holds -/

/-- After a history the batch holds the subject of each key, where the index says, and the rows of
the keys that have not come up. -/
structure Tracks (h : Handler ω Item) (c : Context) (keyStates : List Wire.KeyState)
    (past : List (Ran ω)) (b : Batch Item) : Prop where
  subjects : b.subjects = (keysOf past).map (h.subjectOf c keyStates past)
  index : ∀ key place, b.index.get? key = some place ↔ (keysOf past)[place]? = some key
  rows : ∀ key, key ∉ keysOf past →
    b.rows.get? key = (Batch.new keyStates : Batch Item).rows.get? key

variable {h : Handler ω Item} {c : Context} {keyStates : List Wire.KeyState} {past : List (Ran ω)}
  {b : Batch Item} {call : Call}

theorem tracks_new : Tracks h c keyStates [] (.new keyStates) where
  subjects := rfl
  index key place := by simp [keysOf, Batch.new]
  rows _ _ := rfl

/-- What a batch holds after a history, told for its keys and subjects. -/
theorem Tracks.holds (ht : Tracks h c keyStates past b) :
    b.Holds keyStates (keysOf past) (h.subjectOf c keyStates past) where
  subjects := ht.subjects
  index := ht.index
  rows := ht.rows
  fresh _ hk := subjectOf_of_notMem h c keyStates hk

theorem tracks_of_holds (hb : b.Holds keyStates (keysOf past) (h.subjectOf c keyStates past)) :
    Tracks h c keyStates past b where
  subjects := hb.subjects
  index := hb.index
  rows := hb.rows

/-! ## Calls -/

/-- **One call.** Its callback runs on the subject that the history gives its key, and the batch
then holds what the longer history says. -/
theorem run_tracks (ht : Tracks h c keyStates past b) (call : Call) (w : World ω) :
    ∃ b', h.run c call b w =
        ((h.outcome c keyStates past call w).1, b', (h.outcome c keyStates past call w).2.2) ∧
      Tracks h c keyStates (past ++ [⟨call, w⟩]) b' := by
  obtain ⟨place, b', hcall, hput⟩ := ht.holds.call call.key call.timestamp
  have hkeys : keysOf (past ++ [⟨call, w⟩]) = Batch.comeUp (keysOf past) call.key :=
    keysOf_concat past call w
  have hsubjects : h.subjectOf c keyStates (past ++ [⟨call, w⟩]) =
      Function.update (h.subjectOf c keyStates past) call.key
        (h.outcome c keyStates past call w).2.1 := by
    funext key
    rw [subjectOf_concat, Function.update_apply]
  refine ⟨b'.put place (h.outcome c keyStates past call w).2.1, ?_, tracks_of_holds ?_⟩
  · simp only [run, hcall]
    rfl
  · rw [hkeys, hsubjects]
    exact hput _

/-! ## Lists of events -/

theorem runEvents_append (es fs : List Wire.Event) (position : Nat) (b : Batch Item) (w : World ω) :
    h.runEvents c position (es ++ fs) b w =
      match h.runEvents c position es b w with
      | (.ok b, w) => h.runEvents c (position + es.length) fs b w
      | (.error halt, w) => (.error halt, w) := by
  induction es generalizing position b w with
  | nil => rfl
  | cons e es ih =>
    simp only [List.cons_append, runEvents, List.length_cons]
    split
    · rfl
    · split
      · rfl
      · split
        · rfl
        · rw [ih, Nat.add_assoc, Nat.add_comm 1]

/-- Events whose calls run to their ends leave the batch that their history describes. -/
theorem runEvents_of_runs {w w' : World ω} (hruns : h.Runs c keyStates w past w') :
    ∀ events, List.Forall₂ Asks events (past.map Ran.call) →
      ∃ b, h.runEvents c 0 events (.new keyStates) w = (.ok b, w') ∧ Tracks h c keyStates past b := by
  induction hruns with
  | start =>
    intro events hevents
    rw [List.map_nil, List.forall₂_nil_right_iff] at hevents
    exact ⟨.new keyStates, by rw [hevents, runEvents], tracks_new⟩
  | @call past w₁ w₂ call s hpast hgoes hcall ih =>
    intro events hevents
    rw [List.map_append, List.map_singleton] at hevents
    obtain ⟨es, e, rfl, hes, he⟩ := forall₂_concat_right hevents
    obtain ⟨b, hrun, ht⟩ := ih es hes
    obtain ⟨b', hstep, ht'⟩ := run_tracks ht call w₁
    refine ⟨b', ?_, ht'⟩
    rw [runEvents_append, hrun]
    simp only [runEvents, hgoes, Bool.false_eq_true, if_false, ofWire_eq_ok_iff.2 he, hstep, hcall]

/-- Events that are handled to the end have a history, and leave the batch that it describes. -/
theorem runs_of_runEvents {w₀ w w' : World ω} {b b' : Batch Item} {position : Nat}
    {events : List Wire.Event} (hpast : h.Runs c keyStates w₀ past w) (ht : Tracks h c keyStates past b)
    (hrun : h.runEvents c position events b w = (.ok b', w')) :
    ∃ rest, List.Forall₂ Asks events (rest.map Ran.call) ∧
      h.Runs c keyStates w₀ (past ++ rest) w' ∧ Tracks h c keyStates (past ++ rest) b' := by
  induction events generalizing position past b w with
  | nil =>
    simp only [runEvents, Prod.mk.injEq, Except.ok.injEq] at hrun
    obtain ⟨rfl, rfl⟩ := hrun
    exact ⟨[], .nil, by rwa [List.append_nil], by rwa [List.append_nil]⟩
  | cons e events ih =>
    rw [runEvents] at hrun
    split at hrun
    · simp at hrun
    · next hgoes =>
      cases hcall : Call.ofWire position e with
      | error err => simp [hcall] at hrun
      | ok call =>
        obtain ⟨b₁, hstep, ht₁⟩ := run_tracks ht call w
        rw [hcall] at hrun
        simp only [hstep] at hrun
        cases hout : h.outcome c keyStates past call w with
        | mk r sw =>
          obtain ⟨s, w₁⟩ := sw
          rw [hout] at hrun
          cases r with
          | error halt => simp at hrun
          | ok u =>
            have hpast₁ := Runs.call hpast (by simpa using hgoes) hout
            obtain ⟨rest, hrest, hruns, ht'⟩ := ih hpast₁ ht₁ hrun
            rw [List.append_assoc] at hruns ht'
            exact ⟨⟨call, w⟩ :: rest, .cons (ofWire_eq_ok_iff.1 hcall) hrest, hruns, ht'⟩

/-! ## Answers -/

end Handler

/-- The answer of a batch is made of the results of all subjects, if all of them render. -/
theorem Batch.collect_eq_mapM {κ : Type} {Item : κ → Type} (subjects : List (Subject Item)) :
    Batch.collect subjects = (subjects.mapM Subject.encode).map fun results =>
      { keyResults := results, sinkRequests := subjects.flatMap (·.sinkRequests) } := by
  induction subjects with
  | nil => rfl
  | cons s rest ih =>
    rw [collect, List.mapM_cons, ih]
    cases s.encode with
    | error e => rfl
    | ok r => cases rest.mapM Subject.encode <;> rfl

theorem Batch.collect_eq_ok_iff {κ : Type} {Item : κ → Type} (subjects : List (Subject Item))
    (response : Wire.ProcessEventBatchResponse) :
    Batch.collect subjects = .ok response ↔
      ∃ results, List.Forall₂ (fun s r => s.encode = .ok r) subjects results ∧
        response = { keyResults := results, sinkRequests := subjects.flatMap (·.sinkRequests) } := by
  rw [collect_eq_mapM, map_eq_ok_iff]
  simp only [mapM_eq_ok_iff]

namespace Handler

variable {κ ω : Type} {Item : κ → Type}

/-- When a batch is answered, and what with. -/
theorem processEventBatch_eq_ok_iff {h : Handler ω Item} {c : Context}
    {request : Wire.ProcessEventBatchRequest} {w w' : World ω}
    {response : Wire.ProcessEventBatchResponse} :
    h.processEventBatch c request w = (.ok response, w') ↔
      ∃ watermark past results, Wire.Timestamp.instant? request.watermark = some watermark ∧
        List.Forall₂ Asks request.events (past.map Ran.call) ∧
        h.Runs (c.withWatermark watermark) request.keyStates w past w' ∧
        List.Forall₂
          (fun key r =>
            (h.subjectOf (c.withWatermark watermark) request.keyStates past key).encode = .ok r)
          (keysOf past) results ∧
        response =
          { keyResults := results
            sinkRequests := (keysOf past).flatMap fun key =>
              (h.subjectOf (c.withWatermark watermark) request.keyStates past key).sinkRequests } := by
  constructor
  · intro hok
    rw [processEventBatch] at hok
    cases hwatermark : Wire.Timestamp.instant? request.watermark with
    | none => simp [hwatermark] at hok
    | some watermark =>
      rw [hwatermark] at hok
      simp only at hok
      split at hok
      · simp at hok
      · next b w₁ hrun =>
        obtain ⟨past, hevents, hruns, ht⟩ := runs_of_runEvents .start tracks_new hrun
        rw [List.nil_append] at hruns ht
        cases hresponse : b.response with
        | error e => simp [hresponse] at hok
        | ok answer =>
          simp only [hresponse, Prod.mk.injEq, Except.ok.injEq] at hok
          obtain ⟨rfl, rfl⟩ := hok
          rw [Batch.response, ht.subjects, Batch.collect_eq_ok_iff] at hresponse
          obtain ⟨results, hresults, rfl⟩ := hresponse
          rw [List.forall₂_map_left_iff] at hresults
          exact ⟨watermark, past, results, rfl, hevents, hruns, hresults, by rw [List.flatMap_map]⟩
  · rintro ⟨watermark, past, results, hwatermark, hevents, hruns, hresults, rfl⟩
    obtain ⟨b, hrun, ht⟩ := runEvents_of_runs hruns request.events hevents
    have hresponse : b.response = .ok
        { keyResults := results
          sinkRequests := (keysOf past).flatMap fun key =>
            (h.subjectOf (c.withWatermark watermark) request.keyStates past key).sinkRequests } := by
      rw [Batch.response, ht.subjects, Batch.collect_eq_ok_iff]
      exact ⟨results, List.forall₂_map_left_iff.2 hresults, by rw [List.flatMap_map]⟩
    simp only [processEventBatch, hwatermark, hrun, hresponse]

/-- **Batches are answered key by key.** Let the events ask for the calls of a history whose
callbacks all run to their ends, and let every subject render. Then the batch is answered, with one
result for each key in the order in which the keys first come up: what the key's subject renders
to, which started from the last rows delivered for the key and went through the callbacks of the
key's own calls, each at the time of its call and under the watermark of the request. The sink
requests are those of the subjects, in the same order of keys. -/
theorem processEventBatch_keywise (h : Handler ω Item) (c : Context)
    (request : Wire.ProcessEventBatchRequest) {w w' : World ω} {watermark : Instant}
    {past : List (Ran ω)} (hwatermark : Wire.Timestamp.instant? request.watermark = some watermark)
    (hevents : List.Forall₂ Asks request.events (past.map Ran.call))
    (hruns : h.Runs (c.withWatermark watermark) request.keyStates w past w')
    (hrenders : ∀ key ∈ keysOf past, ∃ r,
      (h.subjectOf (c.withWatermark watermark) request.keyStates past key).encode = .ok r) :
    (∃ results, h.processEventBatch c request w =
        (.ok { keyResults := results
               sinkRequests := (keysOf past).flatMap fun key =>
                 (h.subjectOf (c.withWatermark watermark) request.keyStates past key).sinkRequests },
          w') ∧
      List.Forall₂
        (fun key r =>
          (h.subjectOf (c.withWatermark watermark) request.keyStates past key).encode = .ok r)
        (keysOf past) results) ∧
    ∀ key name, (Subject.initial request.keyStates key : Subject Item).entries name =
      deliveredRows request.keyStates key name := by
  refine ⟨?_, Subject.entries_initial request.keyStates⟩
  obtain ⟨results, hresults⟩ := exists_forall₂ hrenders
  exact ⟨results, processEventBatch_eq_ok_iff.2
    ⟨watermark, past, results, hwatermark, hevents, hruns, hresults, rfl⟩, hresults⟩

/-! ### Two keys, interleaved -/

/-- The handler echoes events, but on the value 11 it looks at its rows and sets a timer. -/
def sampleHandler : Handler Script.Trace Script.Item :=
  ({ onValue := [([11], [.stateEntries "s", .timerAfter 1])] } : Script.Play).handler

/-- Two events of a key, a timer of another key in between, and two deliveries for the first. The
second event is earlier than the first. -/
def sampleRequest : Wire.ProcessEventBatchRequest where
  events := [⟨some (.keyedEvent { key := [1], value := [10] })⟩,
    ⟨some (.timerExpired { key := [2], timestamp := some ⟨5, 0⟩ })⟩,
    ⟨some (.keyedEvent { key := [1], timestamp := some ⟨-7, 0⟩, value := [11] })⟩]
  keyStates := [{ key := [1], stateEntryNamespaces := [{ name := "s", entries := [⟨[0], [0]⟩] }] },
    { key := [1], stateEntryNamespaces :=
      [{ name := "s", entries := [⟨[0], [1]⟩] }, { name := "s", entries := [⟨[0], [2]⟩] }] }]

/-- A context under which nothing was cancelled. -/
def sampleContext : Context := ⟨.epoch, ⟨0, []⟩⟩

/-- The time of the timer. -/
def sampleTime : Instant := ⟨5, 0, by decide⟩

/-- The calls of the request: the timer is noted by the handler, so the last event finds the world
changed. -/
def sampleHistory : List (Ran Script.Trace) :=
  [⟨.event ⟨[1], .epoch, [10]⟩, { own := [] }⟩,
    ⟨.timer [2] sampleTime, { own := [] }⟩,
    ⟨.event ⟨[1], ⟨-7, 0, by decide⟩, [11]⟩, { own := [.timer sampleTime] }⟩]

/-- What the handler has noted when the batch is done: the rows were those of the last list of the
last delivery. -/
def sampleEnd : World Script.Trace where
  own := [.step (.ok .nothing), .step (.ok (.entries [⟨[0], [2]⟩])), .timer sampleTime]

theorem processEventBatch_keywise_sample :
    sampleHandler.Runs sampleContext sampleRequest.keyStates { own := [] } sampleHistory sampleEnd ∧
      sampleHandler.processEventBatch sampleContext sampleRequest { own := [] } =
        (.ok { keyResults := [{ key := [1], newTimers := [⟨-6, 0⟩] }, { key := [2] }]
               sinkRequests := [⟨"echo", [10]⟩] }, sampleEnd) := by
  have hruns : sampleHandler.Runs sampleContext sampleRequest.keyStates { own := [] } sampleHistory
      sampleEnd :=
    .call (.call (.call .start rfl rfl : Runs _ _ _ _ (sampleHistory.take 1) _) rfl rfl :
      Runs _ _ _ _ (sampleHistory.take 2) _) rfl rfl
  obtain ⟨⟨results, hok, hresults⟩, -⟩ := processEventBatch_keywise sampleHandler sampleContext
    sampleRequest rfl (.cons (.event rfl) (.cons (.timer rfl) (.cons (.event rfl) .nil))) hruns
    (by
      intro key hkey
      have hkeys : key ∈ [[1], [2]] := hkey
      simp only [List.mem_cons, List.not_mem_nil, or_false] at hkeys
      obtain rfl | rfl := hkeys
      · exact ⟨_, rfl⟩
      · exact ⟨_, rfl⟩)
  have hkeys : keysOf sampleHistory = [[1], [2]] := by decide
  rw [hkeys] at hresults
  obtain ⟨r₁, _, h₁, hrest, rfl⟩ := List.forall₂_cons_left_iff.1 hresults
  obtain ⟨r₂, _, h₂, hnil, rfl⟩ := List.forall₂_cons_left_iff.1 hrest
  obtain rfl := List.forall₂_nil_left_iff.1 hnil
  obtain rfl : _ = r₁ := Except.ok.inj h₁
  obtain rfl : _ = r₂ := Except.ok.inj h₂
  exact ⟨hruns, hok⟩

end Handler

end KeyedStream
