import Mathlib
import KeyedStream.Proofs.Dispatch
import KeyedStream.Proofs.Recorded
import KeyedStream.Proofs.Render

/-!
# The first failure ends a batch

Events are visited in the order in which they come, and the first one that fails ends the batch
(`Handler.Stops`): none of the callbacks after it runs, and its failure is all of the answer. If none
fails, the batch is answered by what its subjects render to, or by the failure of the first subject
that does not render (`Handler.ProcessEnds`). Records are keyed in the same way (`Handler.KeyEnds`).

What the handler is asked until then is part of the telling. `Handler.batches_end` says that the
telling is complete: batches end in these ways only, each in the way that is told of it.
-/

namespace KeyedStream

/-- A subject that does not render is an internal error. -/
theorem Subject.encode_eq_error {κ : Type} {Item : κ → Type} {s : Subject Item} {e : Error}
    (h : s.encode = .error e) : ∃ message, e = .internal message := by
  obtain ⟨name, r, cause, -, -, rfl, -⟩ := encode_eq_error_iff.1 h
  exact ⟨_, rfl⟩

/-- A batch is not answered if one of its subjects does not render, and the first one says why. -/
theorem Batch.collect_eq_error_iff {κ : Type} {Item : κ → Type} {subjects : List (Subject Item)}
    {e : Error} :
    Batch.collect subjects = .error e ↔ ∃ before s after, subjects = before ++ s :: after ∧
      (∀ b ∈ before, ∃ r, b.encode = .ok r) ∧ s.encode = .error e := by
  rw [collect_eq_mapM, map_eq_error_iff, mapM_eq_error_iff]

namespace Handler

variable {κ ω : Type} {Item : κ → Type} {h : Handler ω Item} {c : Context}
  {keyStates : List Wire.KeyState}

/-! ## Events -/

/-- Why the event that comes after a history ends its batch: the calls that it still ran, what the
batch comes to, and the world that is left. -/
inductive Stops (h : Handler ω Item) (c : Context) (keyStates : List Wire.KeyState)
    (past : List (Ran ω)) (e : Wire.Event) (w : World ω) : List Call → Halt → World ω → Prop
  | cancelled (hgone : w.isCancelled c.token = true) :
    Stops h c keyStates past e w [] (.failed .cancelled) w
  | noPayload (hgoes : w.isCancelled c.token = false) (he : e.payload = none) :
    Stops h c keyStates past e w []
      (.failed (.badRequest ("event " ++ toString past.length ++ " has no payload"))) w
  | eventTime {ke : Wire.KeyedEvent} (hgoes : w.isCancelled c.token = false)
    (he : e.payload = some (.keyedEvent ke)) (ht : Wire.Timestamp.instant? ke.timestamp = none) :
    Stops h c keyStates past e w []
      (.failed (.badRequest "keyed event timestamp out of range")) w
  | timerTime {t : Wire.TimerExpired} (hgoes : w.isCancelled c.token = false)
    (he : e.payload = some (.timerExpired t)) (ht : Wire.Timestamp.instant? t.timestamp = none) :
    Stops h c keyStates past e w [] (.failed (.badRequest "timer timestamp out of range")) w
  | callback {call : Call} {halt : Halt} {s : Subject Item} {w' : World ω}
    (hgoes : w.isCancelled c.token = false) (hasks : Asks e call)
    (hcall : h.outcome c keyStates past call w = (.error halt, s, w')) :
    Stops h c keyStates past e w [call] halt w'

/-- The next event ends the batch, or its call runs to its end. -/
theorem stops_or_runs (h : Handler ω Item) (c : Context) (keyStates : List Wire.KeyState)
    (past : List (Ran ω)) (e : Wire.Event) (w : World ω) :
    (∃ own halt w', h.Stops c keyStates past e w own halt w') ∨
      ∃ call s w', w.isCancelled c.token = false ∧ Asks e call ∧
        h.outcome c keyStates past call w = (.ok (), s, w') := by
  have hcall : ∀ call, w.isCancelled c.token = false → Asks e call →
      (∃ own halt w', h.Stops c keyStates past e w own halt w') ∨
        ∃ call s w', w.isCancelled c.token = false ∧ Asks e call ∧
          h.outcome c keyStates past call w = (.ok (), s, w') := by
    intro call hgoes hasks
    rcases houtcome : h.outcome c keyStates past call w with ⟨halt | _, s, w'⟩
    · exact .inl ⟨_, _, _, .callback hgoes hasks houtcome⟩
    · exact .inr ⟨call, s, w', hgoes, hasks, houtcome⟩
  cases hgoes : w.isCancelled c.token with
  | true => exact .inl ⟨_, _, _, .cancelled hgoes⟩
  | false =>
    rw [hgoes] at hcall
    obtain ⟨_ | ke | t⟩ := e
    · exact .inl ⟨_, _, _, .noPayload hgoes rfl⟩
    · cases ht : Wire.Timestamp.instant? ke.timestamp with
      | none => exact .inl ⟨_, _, _, .eventTime hgoes rfl ht⟩
      | some time => exact hcall _ rfl (.event ht)
    · cases ht : Wire.Timestamp.instant? t.timestamp with
      | none => exact .inl ⟨_, _, _, .timerTime hgoes rfl ht⟩
      | some time => exact hcall _ rfl (.timer ht)

/-- The events of a batch run to the end, or up to one that stops it. -/
theorem exists_runs (h : Handler ω Item) (c : Context) (keyStates : List Wire.KeyState) (w : World ω)
    (events : List Wire.Event) :
    ∃ es past w₁, List.Forall₂ Asks es (past.map Ran.call) ∧ h.Runs c keyStates w past w₁ ∧
      (events = es ∨ ∃ e rest own halt w', events = es ++ e :: rest ∧
        h.Stops c keyStates past e w₁ own halt w') := by
  induction events using List.reverseRecOn with
  | nil => exact ⟨[], [], w, .nil, .start, .inl rfl⟩
  | append_singleton events e ih =>
    obtain ⟨es, past, w₁, hasks, hruns, rfl | ⟨e', rest, own, halt, w', rfl, hstops⟩⟩ := ih
    · rcases stops_or_runs h c keyStates past e w₁ with
        ⟨own, halt, w', hstops⟩ | ⟨call, s, w', hgoes, hcall, houtcome⟩
      · exact ⟨events, past, w₁, hasks, hruns, .inr ⟨e, [], own, halt, w', rfl, hstops⟩⟩
      · refine ⟨events ++ [e], past ++ [⟨call, w₁⟩], w', ?_, hruns.call hgoes houtcome, .inl rfl⟩
        rw [List.map_append]
        exact List.rel_append hasks (.cons hcall .nil)
    · refine ⟨es, past, w₁, hasks, hruns, .inr ⟨e', rest ++ [e], own, halt, w', ?_, hstops⟩⟩
      rw [List.append_assoc, List.cons_append]

theorem runEvents_of_stops {w w₁ w' : World ω} {past : List (Ran ω)} {es rest : List Wire.Event}
    {e : Wire.Event} {own : List Call} {halt : Halt}
    (hasks : List.Forall₂ Asks es (past.map Ran.call)) (hruns : h.Runs c keyStates w past w₁)
    (hstops : h.Stops c keyStates past e w₁ own halt w') :
    h.runEvents c 0 (es ++ e :: rest) (.new keyStates) w = (.error halt, w') := by
  obtain ⟨b, hrun, ht⟩ := runEvents_of_runs hruns es hasks
  have hlen : es.length = past.length := by simpa using hasks.length_eq
  rw [runEvents_append, hrun]
  simp only [runEvents, Nat.zero_add, hlen]
  cases hstops with
  | cancelled hgone => simp [hgone]
  | noPayload hgoes he => simp [hgoes, Call.ofWire, he]
  | eventTime hgoes he ht => simp [hgoes, Call.ofWire, he, KeyedEvent.ofWire, ht, Except.map]
  | timerTime hgoes he ht => simp [hgoes, Call.ofWire, he, ht]
  | @callback call _ s _ hgoes hcall houtcome =>
    obtain ⟨b', hstep, -⟩ := run_tracks ht call w₁
    rw [houtcome] at hstep
    simp [hgoes, ofWire_eq_ok_iff.2 hcall, hstep]

theorem Stops.recorded {past : List (Ran ω)} {past' : List (Ran (ω × List Asked))} {e : Wire.Event}
    {w w' : World ω} {own : List Call} {halt : Halt} (hrec : Recording h c keyStates past past')
    (hstops : h.Stops c keyStates past e w own halt w') (notes : List Asked) :
    h.recorded.Stops c keyStates past' e (w.noting notes) own halt
      (w'.noting (notes ++ own.map (Call.asked c))) := by
  cases hstops with
  | cancelled hgone =>
    rw [List.map_nil, List.append_nil]
    exact .cancelled hgone
  | noPayload hgoes he =>
    rw [List.map_nil, List.append_nil, ← hrec.length_eq]
    exact .noPayload hgoes he
  | eventTime hgoes he ht =>
    rw [List.map_nil, List.append_nil]
    exact .eventTime hgoes he ht
  | timerTime hgoes he ht =>
    rw [List.map_nil, List.append_nil]
    exact .timerTime hgoes he ht
  | @callback call _ s _ hgoes hasks hcall =>
    refine .callback (s := s) hgoes hasks ?_
    rw [hrec.outcome_eq, hcall]
    rfl

/-! ## Batches of events -/

/-- How a batch of events ends: what its handler was asked, what the batch comes to, and the world
that is left. -/
inductive ProcessEnds (h : Handler ω Item) (c : Context) (request : Wire.ProcessEventBatchRequest)
    (w : World ω) : List Asked → Except Halt Wire.ProcessEventBatchResponse → World ω → Prop
  | badWatermark (hwatermark : Wire.Timestamp.instant? request.watermark = none) :
    ProcessEnds h c request w [] (.error (.failed (.badRequest "watermark out of range"))) w
  /-- Events whose calls ran to their ends, and one that ends the batch. -/
  | stopped {watermark : Instant} {past : List (Ran ω)} {es rest : List Wire.Event}
    {e : Wire.Event} {w₁ w' : World ω} {own : List Call} {halt : Halt}
    (hwatermark : Wire.Timestamp.instant? request.watermark = some watermark)
    (hevents : request.events = es ++ e :: rest)
    (hasks : List.Forall₂ Asks es (past.map Ran.call))
    (hruns : h.Runs (c.withWatermark watermark) request.keyStates w past w₁)
    (hstops : h.Stops (c.withWatermark watermark) request.keyStates past e w₁ own halt w') :
    ProcessEnds h c request w
      ((past.map Ran.call ++ own).map (Call.asked (c.withWatermark watermark))) (.error halt) w'
  /-- All calls ran to their ends, and all subjects render. -/
  | answered {watermark : Instant} {past : List (Ran ω)} {w' : World ω}
    {results : List Wire.KeyResult}
    (hwatermark : Wire.Timestamp.instant? request.watermark = some watermark)
    (hasks : List.Forall₂ Asks request.events (past.map Ran.call))
    (hruns : h.Runs (c.withWatermark watermark) request.keyStates w past w')
    (hresults : List.Forall₂
      (fun key r =>
        (h.subjectOf (c.withWatermark watermark) request.keyStates past key).encode = .ok r)
      (keysOf past) results) :
    ProcessEnds h c request w ((past.map Ran.call).map (Call.asked (c.withWatermark watermark)))
      (.ok { keyResults := results
             sinkRequests := (keysOf past).flatMap fun key =>
               (h.subjectOf (c.withWatermark watermark) request.keyStates past key).sinkRequests })
      w'
  /-- All calls ran to their ends, and the subject of a key is the first that does not render. -/
  | unrendered {watermark : Instant} {past : List (Ran ω)} {w' : World ω} {key : Bytes}
    {before after : List Bytes} {message : String}
    (hwatermark : Wire.Timestamp.instant? request.watermark = some watermark)
    (hasks : List.Forall₂ Asks request.events (past.map Ran.call))
    (hruns : h.Runs (c.withWatermark watermark) request.keyStates w past w')
    (hkeys : keysOf past = before ++ key :: after)
    (hbefore : ∀ k ∈ before, ∃ r,
      (h.subjectOf (c.withWatermark watermark) request.keyStates past k).encode = .ok r)
    (hkey : (h.subjectOf (c.withWatermark watermark) request.keyStates past key).encode =
      .error (.internal message)) :
    ProcessEnds h c request w ((past.map Ran.call).map (Call.asked (c.withWatermark watermark)))
      (.error (.failed (.internal message))) w'

theorem ProcessEnds.processEventBatch_eq {request : Wire.ProcessEventBatchRequest} {w w' : World ω}
    {asked : List Asked} {result : Except Halt Wire.ProcessEventBatchResponse}
    (hends : h.ProcessEnds c request w asked result w') :
    h.processEventBatch c request w = (result, w') := by
  cases hends with
  | badWatermark hwatermark => simp [processEventBatch, hwatermark]
  | stopped hwatermark hevents hasks hruns hstops =>
    simp only [processEventBatch, hwatermark, hevents, runEvents_of_stops hasks hruns hstops]
  | answered hwatermark hasks hruns hresults =>
    exact processEventBatch_eq_ok_iff.2 ⟨_, _, _, hwatermark, hasks, hruns, hresults, rfl⟩
  | @unrendered _ _ _ _ _ _ message hwatermark hasks hruns hkeys hbefore hkey =>
    obtain ⟨b, hrun, ht⟩ := runEvents_of_runs hruns request.events hasks
    have hresponse : b.response = .error (.internal message) := by
      rw [Batch.response, ht.subjects, Batch.collect_eq_error_iff, hkeys, List.map_append,
        List.map_cons]
      exact ⟨_, _, _, rfl, List.forall_mem_map.2 hbefore, hkey⟩
    simp only [processEventBatch, hwatermark, hrun, hresponse]

theorem exists_processEnds (h : Handler ω Item) (c : Context)
    (request : Wire.ProcessEventBatchRequest) (w : World ω) :
    ∃ asked result w', h.ProcessEnds c request w asked result w' := by
  cases hwatermark : Wire.Timestamp.instant? request.watermark with
  | none => exact ⟨_, _, _, .badWatermark hwatermark⟩
  | some watermark =>
    obtain ⟨es, past, w₁, hasks, hruns, hdone | ⟨e, rest, own, halt, w', hevents, hstops⟩⟩ :=
      exists_runs h (c.withWatermark watermark) request.keyStates w request.events
    · rw [← hdone] at hasks
      cases hcollect : Batch.collect ((keysOf past).map
        (h.subjectOf (c.withWatermark watermark) request.keyStates past)) with
      | ok response =>
        obtain ⟨results, hresults, -⟩ := (Batch.collect_eq_ok_iff _ _).1 hcollect
        rw [List.forall₂_map_left_iff] at hresults
        exact ⟨_, _, _, .answered hwatermark hasks hruns hresults⟩
      | error err =>
        obtain ⟨before, s, after, hsplit, hbefore, hs⟩ := Batch.collect_eq_error_iff.1 hcollect
        obtain ⟨message, rfl⟩ := Subject.encode_eq_error hs
        obtain ⟨keys, others, hkeys, rfl, hothers⟩ := List.map_eq_append_iff.1 hsplit
        obtain ⟨key, after, rfl, rfl, -⟩ := List.map_eq_cons_iff.1 hothers
        exact ⟨_, _, _, .unrendered hwatermark hasks hruns hkeys
          (fun k hk => hbefore _ (List.mem_map_of_mem hk)) hs⟩
    · exact ⟨_, _, _, .stopped hwatermark hevents hasks hruns hstops⟩

/-- A batch of events ends in the same way when what its handler is asked is noted. -/
theorem ProcessEnds.recorded {request : Wire.ProcessEventBatchRequest} {w w' : World ω}
    {asked : List Asked} {result : Except Halt Wire.ProcessEventBatchResponse}
    (hends : h.ProcessEnds c request w asked result w') (notes : List Asked) :
    h.recorded.ProcessEnds c request (w.noting notes) asked result (w'.noting (notes ++ asked)) := by
  cases hends with
  | badWatermark hwatermark =>
    rw [List.append_nil]
    exact .badWatermark hwatermark
  | @stopped watermark past _ _ _ _ _ own _ hwatermark hevents hasks hruns hstops =>
    obtain ⟨past', hrec, hruns'⟩ := hruns.recorded notes
    have hstops' := hstops.recorded hrec
      (notes ++ (past.map Ran.call).map (Call.asked (c.withWatermark watermark)))
    rw [List.append_assoc, ← List.map_append] at hstops'
    have hends' := ProcessEnds.stopped hwatermark hevents (hrec.calls ▸ hasks) hruns' hstops'
    rwa [hrec.calls] at hends'
  | answered hwatermark hasks hruns hresults =>
    obtain ⟨past', hrec, hruns'⟩ := hruns.recorded notes
    have hends' := ProcessEnds.answered hwatermark (hrec.calls ▸ hasks) hruns' (by
      simp only [hrec.keysOf_eq, hrec.subjects]
      exact hresults)
    simp only [hrec.keysOf_eq, hrec.subjects, hrec.calls] at hends'
    exact hends'
  | unrendered hwatermark hasks hruns hkeys hbefore hkey =>
    obtain ⟨past', hrec, hruns'⟩ := hruns.recorded notes
    have hends' := ProcessEnds.unrendered hwatermark (hrec.calls ▸ hasks) hruns'
      (hrec.keysOf_eq.trans hkeys) (by simpa only [hrec.subjects] using hbefore)
      ((congrArg Subject.encode (hrec.subjects _)).trans hkey)
    rwa [hrec.calls] at hends'

/-- A batch of events is dispatched as it is when nothing is noted. -/
theorem exists_asked_of_processEventBatch (h : Handler ω Item) (c : Context)
    (request : Wire.ProcessEventBatchRequest) (w : World ω) :
    ∃ asked, ∀ notes, h.recorded.processEventBatch c request (w.noting notes) =
      ((h.processEventBatch c request w).1,
        (h.processEventBatch c request w).2.noting (notes ++ asked)) := by
  obtain ⟨asked, result, w', hends⟩ := exists_processEnds h c request w
  refine ⟨asked, fun notes => ?_⟩
  rw [hends.processEventBatch_eq, (hends.recorded notes).processEventBatch_eq]

/-! ## Batches of records -/

/-- How a batch of records ends: what its handler was asked, what the batch comes to, and the world
that is left. -/
inductive KeyEnds (h : Handler ω Item) (c : Context) (request : Wire.KeyEventBatchRequest)
    (w : World ω) : List Asked → Except Halt Wire.KeyEventBatchResponse → World ω → Prop
  /-- Before a record the request had been given up. -/
  | cancelled {done rest : List Bytes} {record : Bytes} {results : List (List KeyedEvent)}
    {w' : World ω} (hvalues : request.values = done ++ record :: rest)
    (hkeys : h.KeysAll c w done results w') (hgone : w'.isCancelled c.token = true) :
    KeyEnds h c request w (done.map (.record c)) (.error (.failed .cancelled)) w'
  /-- A record has no events, but a failure. -/
  | failed {done rest : List Bytes} {record : Bytes} {results : List (List KeyedEvent)}
    {w₁ w' : World ω} {e : Error} (hvalues : request.values = done ++ record :: rest)
    (hkeys : h.KeysAll c w done results w₁) (hgoes : w₁.isCancelled c.token = false)
    (hkey : h.keyEvent c record w₁ = (.error e, w')) :
    KeyEnds h c request w ((done ++ [record]).map (.record c)) (.error (.failed e)) w'
  /-- All records have their events. -/
  | answered {results : List (List KeyedEvent)} {w' : World ω}
    (hkeys : h.KeysAll c w request.values results w') :
    KeyEnds h c request w (request.values.map (.record c))
      (.ok ⟨results.map fun events => ⟨events.map KeyedEvent.toWire⟩⟩) w'

theorem keyRecords_of_keysAll {w w₁ : World ω} {done : List Bytes}
    {results : List (List KeyedEvent)} (hkeys : h.KeysAll c w done results w₁) (rest : List Bytes) :
    h.keyRecords c (done ++ rest) w =
      ((h.keyRecords c rest w₁).1.map fun others =>
        (results.map fun events => ⟨events.map KeyedEvent.toWire⟩) ++ others,
        (h.keyRecords c rest w₁).2) := by
  induction hkeys with
  | nil w =>
    rw [List.nil_append]
    rcases h.keyRecords c rest w with ⟨_ | _, _⟩ <;> rfl
  | @cons w w₁ w₂ record done _ _ hgoes hkey _ ih =>
    rw [List.cons_append, keyRecords, hgoes, hkey]
    simp only [Bool.false_eq_true, if_false, ih]
    rcases h.keyRecords c rest w₂ with ⟨_ | _, _⟩ <;> rfl

/-- The records of a batch are keyed to the end, or up to one that is not. -/
theorem exists_keysAll (h : Handler ω Item) (c : Context) (w : World ω) (records : List Bytes) :
    ∃ done results w₁, h.KeysAll c w done results w₁ ∧
      (records = done ∨ ∃ record rest, records = done ++ record :: rest ∧
        (w₁.isCancelled c.token = true ∨
          w₁.isCancelled c.token = false ∧ ∃ e w', h.keyEvent c record w₁ = (.error e, w'))) := by
  induction records generalizing w with
  | nil => exact ⟨[], [], w, .nil w, .inl rfl⟩
  | cons record records ih =>
    cases hgoes : w.isCancelled c.token with
    | true => exact ⟨[], [], w, .nil w, .inr ⟨record, records, rfl, .inl hgoes⟩⟩
    | false =>
      rcases hkey : h.keyEvent c record w with ⟨e | events, w₁⟩
      · exact ⟨[], [], w, .nil w, .inr ⟨record, records, rfl, .inr ⟨hgoes, e, w₁, hkey⟩⟩⟩
      · obtain ⟨done, results, w₂, hkeys, hend⟩ := ih w₁
        refine ⟨record :: done, events :: results, w₂, .cons hgoes hkey hkeys, ?_⟩
        rcases hend with rfl | ⟨record', rest, rfl, hend⟩
        · exact .inl rfl
        · exact .inr ⟨record', rest, rfl, hend⟩

theorem KeyEnds.keyEventBatch_eq {request : Wire.KeyEventBatchRequest} {w w' : World ω}
    {asked : List Asked} {result : Except Halt Wire.KeyEventBatchResponse}
    (hends : h.KeyEnds c request w asked result w') : h.keyEventBatch c request w = (result, w') := by
  cases hends with
  | @cancelled _ rest record _ _ hvalues hkeys hgone =>
    have hstop : h.keyRecords c (record :: rest) w' = (.error .cancelled, w') := by
      rw [keyRecords, hgone, if_pos rfl]
    rw [keyEventBatch, hvalues, keyRecords_of_keysAll hkeys, hstop]
    rfl
  | @failed _ rest record _ w₁ _ e hvalues hkeys hgoes hkey =>
    have hstop : h.keyRecords c (record :: rest) w₁ = (.error e, w') := by
      simp [keyRecords, hgoes, hkey]
    rw [keyEventBatch, hvalues, keyRecords_of_keysAll hkeys, hstop]
    rfl
  | @answered results _ hkeys =>
    have hall := keyRecords_of_keysAll hkeys []
    rw [List.append_nil] at hall
    simp [keyEventBatch, hall, keyRecords, Except.map]

theorem exists_keyEnds (h : Handler ω Item) (c : Context) (request : Wire.KeyEventBatchRequest)
    (w : World ω) : ∃ asked result w', h.KeyEnds c request w asked result w' := by
  obtain ⟨done, results, w₁, hkeys, rfl | ⟨record, rest, hvalues, hgone | ⟨hgoes, e, w', hkey⟩⟩⟩ :=
    exists_keysAll h c w request.values
  · exact ⟨_, _, _, .answered hkeys⟩
  · exact ⟨_, _, _, .cancelled hvalues hkeys hgone⟩
  · exact ⟨_, _, _, .failed hvalues hkeys hgoes hkey⟩

/-- A batch of records ends in the same way when what its handler is asked is noted. -/
theorem KeyEnds.recorded {request : Wire.KeyEventBatchRequest} {w w' : World ω} {asked : List Asked}
    {result : Except Halt Wire.KeyEventBatchResponse}
    (hends : h.KeyEnds c request w asked result w') (notes : List Asked) :
    h.recorded.KeyEnds c request (w.noting notes) asked result (w'.noting (notes ++ asked)) := by
  cases hends with
  | cancelled hvalues hkeys hgone => exact .cancelled hvalues (hkeys.recorded notes) hgone
  | @failed done _ _ _ _ _ _ hvalues hkeys hgoes hkey =>
    refine .failed hvalues (hkeys.recorded notes) hgoes ?_
    rw [keyEvent_recorded, hkey, List.map_append, List.append_assoc, List.map_singleton]
  | answered hkeys => exact .answered (hkeys.recorded notes)

/-- A batch of records is dispatched as it is when nothing is noted. -/
theorem exists_asked_of_keyEventBatch (h : Handler ω Item) (c : Context)
    (request : Wire.KeyEventBatchRequest) (w : World ω) :
    ∃ asked, ∀ notes, h.recorded.keyEventBatch c request (w.noting notes) =
      ((h.keyEventBatch c request w).1,
        (h.keyEventBatch c request w).2.noting (notes ++ asked)) := by
  obtain ⟨asked, result, w', hends⟩ := exists_keyEnds h c request w
  refine ⟨asked, fun notes => ?_⟩
  rw [hends.keyEventBatch_eq, (hends.recorded notes).keyEventBatch_eq]

/-! ## The telling is complete -/

/-- A telling that is borne out by a computation, plain and noted, and that tells some way in which
it ends, tells the way in which it ends. -/
theorem told_iff {α : Type} {Ends : List Asked → α → World ω → Prop} {plain : α × World ω}
    {noted : α × World (ω × List Asked)}
    (hends : ∀ {asked result w'}, Ends asked result w' →
      plain = (result, w') ∧ noted = (result, w'.noting asked))
    (hexists : ∃ asked result w', Ends asked result w') (asked : List Asked) (result : α)
    (w' : World ω) :
    Ends asked result w' ↔ plain = (result, w') ∧ noted = (result, w'.noting asked) := by
  refine ⟨hends, ?_⟩
  rintro ⟨-, hnoted⟩
  obtain ⟨asked₁, result₁, w₁, hends₁⟩ := hexists
  have hnoted₁ := (hends hends₁).2
  rw [hnoted] at hnoted₁
  obtain ⟨rfl, hsame⟩ := Prod.mk.inj hnoted₁
  obtain ⟨rfl, rfl⟩ := World.noting_inj hsame
  exact hends₁

/-- **A batch ends at the first failure, or with all of its answer.** The ways that are told are the
ways in which batches end, with what their handlers are asked until then and no more. The calls of a
batch of events have the watermark of the batch in their context, and its token; the context that
the batch was given keeps its own watermark, and records are keyed under it as it is. -/
theorem batches_end (h : Handler ω Item) (c : Context) (w : World ω) :
    (∀ request asked result w', h.ProcessEnds c request w asked result w' ↔
      h.processEventBatch c request w = (result, w') ∧
        h.recorded.processEventBatch c request (w.noting []) = (result, w'.noting asked)) ∧
    ∀ request asked result w', h.KeyEnds c request w asked result w' ↔
      h.keyEventBatch c request w = (result, w') ∧
        h.recorded.keyEventBatch c request (w.noting []) = (result, w'.noting asked) := by
  constructor
  · intro request
    refine told_iff (fun hends => ⟨hends.processEventBatch_eq, ?_⟩) (exists_processEnds h c request w)
    exact (hends.recorded []).processEventBatch_eq
  · intro request
    refine told_iff (fun hends => ⟨hends.keyEventBatch_eq, ?_⟩) (exists_keyEnds h c request w)
    exact (hends.recorded []).keyEventBatch_eq

end Handler

end KeyedStream
