import Mathlib
import KeyedStream.Proofs.Checks

/-!
# Calls in flight

While a batch is dispatched, the deadline of its call may pass at any moment. `Stage` cuts a dispatch
at every point at which that can happen: before a check, between the check and the call of the
handler that it lets through, during that call, and when the result is there but not yet sent. A
`Flight` is a call at a stage, and `Flight.Step` is what may happen next: the dispatch goes on, its
result is sent, or the deadline passes.

Events are handled by the call itself, and dropped with it. Records are keyed on a thread of their
own, which goes on when the call is given up.

A dispatch that is not overtaken goes one way (`Advances.total`), and comes to what `dispatch` says,
having asked the handler the same (`advances_dispatch`). A flight is answered by that result, or its
deadline passed before (`exists_of_answer`).
-/

namespace KeyedStream

variable {κ ω : Type} {Item : κ → Type}

/-! ## Stages -/

/-- How far a single call of the handler has come: its check has passed, or it runs. -/
inductive Phase where
  | checked | running
deriving DecidableEq, Repr

/-- How far a dispatch has come. -/
inductive Stage {κ : Type} (Item : κ → Type) where
  /-- The check before the next record is to be made. -/
  | records (results : List Wire.KeyEventResult) (left : List Bytes)
  | record (phase : Phase) (results : List Wire.KeyEventResult) (record : Bytes) (left : List Bytes)
  /-- The check before the next event is to be made. -/
  | events (position : Nat) (left : List Wire.Event) (b : Batch Item)
  /-- The position is that of the events that are left. -/
  | event (phase : Phase) (call : Handler.Call) (position : Nat) (left : List Wire.Event)
    (b : Batch Item)
  /-- The dispatch has come to a result, or waits for something that never comes. -/
  | ended (result : Except Halt Bytes)

namespace Stage

/-- The next stage of a dispatch that goes on. -/
def next? (h : Handler ω Item) (c : Context) : Stage Item → World ω → Option (Stage Item × World ω)
  | records results [], w =>
    some (ended (.ok (Wire.KeyEventBatchResponse.layout.encode ⟨results⟩)), w)
  | records results (bytes :: left), w =>
    if w.isCancelled c.token then some (ended (.error (.failed .cancelled)), w)
    else some (record .checked results bytes left, w)
  | record .checked results bytes left, w => some (record .running results bytes left, w)
  | record .running results bytes left, w =>
    match h.keyEvent c bytes w with
    | (.error e, w) => some (ended (.error (.failed e)), w)
    | (.ok keyed, w) => some (records (results ++ [⟨keyed.map KeyedEvent.toWire⟩]) left, w)
  | events _ [] b, w =>
    match b.response with
    | .ok response =>
      some (ended (.ok (Wire.ProcessEventBatchResponse.layout.encode response)), w)
    | .error e => some (ended (.error (.failed e)), w)
  | events position (e :: left) b, w =>
    if w.isCancelled c.token then some (ended (.error (.failed .cancelled)), w)
    else
      match Handler.Call.ofWire position e with
      | .error e => some (ended (.error (.failed e)), w)
      | .ok call => some (event .checked call (position + 1) left b, w)
  | event .checked call position left b, w => some (event .running call position left b, w)
  | event .running call position left b, w =>
    match h.run c call b w with
    | (.error halt, _, w) => some (ended (.error halt), w)
    | (.ok (), b, w) => some (events position left b, w)
  | ended _, _ => none

/-- What the handler is asked on the way to the next stage. -/
def asks (c : Context) : Stage Item → List Asked
  | record .checked _ bytes _ => [.record c bytes]
  | event .checked call _ _ _ => [call.asked c]
  | _ => []

/-- The procedure whose loop a stage is in. -/
def procedure? : Stage Item → Option Procedure
  | records .. | record .. => some .keyEvents
  | events .. | event .. => some .processEvents
  | ended _ => none

/-- What goes on when the call is given up: events are dropped with it, but not records. -/
def orphan? (s : Stage Item) : Option (Stage Item) :=
  if s.procedure? = some .processEvents then none else some s

/-- Whether a callback on a subject runs, which can be given up half-way. -/
def inCallback : Stage Item → Bool
  | event .running .. => true
  | _ => false

/-- What a dispatch does on the way to its next stage: it ends without asking the handler, a check
passes, a call begins, or a call comes back. -/
inductive Goes (h : Handler ω Item) (c : Context) :
    Stage Item → World ω → Stage Item → World ω → Prop
  | ends (s : Stage Item) (result : Except Halt Bytes) (w : World ω) : Goes h c s w (ended result) w
  | checksRecord {results : List Wire.KeyEventResult} {bytes : Bytes} {left : List Bytes}
    {w : World ω} (hgoes : w.isCancelled c.token = false) :
    Goes h c (records results (bytes :: left)) w (record .checked results bytes left) w
  | asksRecord (results : List Wire.KeyEventResult) (bytes : Bytes) (left : List Bytes)
    (w : World ω) :
    Goes h c (record .checked results bytes left) w (record .running results bytes left) w
  | failsRecord {results : List Wire.KeyEventResult} {bytes : Bytes} {left : List Bytes}
    {w w' : World ω} {e : Error} (hkey : h.keyEvent c bytes w = (.error e, w')) :
    Goes h c (record .running results bytes left) w (ended (.error (.failed e))) w'
  | keysRecord {results : List Wire.KeyEventResult} {bytes : Bytes} {left : List Bytes}
    {w w' : World ω} {keyed : List KeyedEvent} (hkey : h.keyEvent c bytes w = (.ok keyed, w')) :
    Goes h c (record .running results bytes left) w
      (records (results ++ [⟨keyed.map KeyedEvent.toWire⟩]) left) w'
  | checksEvent {position : Nat} {e : Wire.Event} {left : List Wire.Event} {b : Batch Item}
    {w : World ω} {call : Handler.Call} (hgoes : w.isCancelled c.token = false)
    (hcall : Handler.Call.ofWire position e = .ok call) :
    Goes h c (events position (e :: left) b) w (event .checked call (position + 1) left b) w
  | asksEvent (call : Handler.Call) (position : Nat) (left : List Wire.Event) (b : Batch Item)
    (w : World ω) :
    Goes h c (event .checked call position left b) w (event .running call position left b) w
  | haltsEvent {call : Handler.Call} {position : Nat} {left : List Wire.Event} {b b' : Batch Item}
    {w w' : World ω} {halt : Halt} (hrun : h.run c call b w = (.error halt, b', w')) :
    Goes h c (event .running call position left b) w (ended (.error halt)) w'
  | runsEvent {call : Handler.Call} {position : Nat} {left : List Wire.Event} {b b' : Batch Item}
    {w w' : World ω} (hrun : h.run c call b w = (.ok (), b', w')) :
    Goes h c (event .running call position left b) w (events position left b') w'

variable {h : Handler ω Item} {c : Context} {s s' : Stage Item} {w w' : World ω}

theorem goes_of_next? (hnext : s.next? h c w = some (s', w')) : Goes h c s w s' w' := by
  unfold next? at hnext
  split at hnext
  case h_1 => cases hnext; exact .ends _ _ _
  case h_2 =>
    split at hnext
    · cases hnext; exact .ends _ _ _
    case isFalse hgoes => cases hnext; exact .checksRecord (Bool.eq_false_iff.2 hgoes)
  case h_3 => cases hnext; exact .asksRecord _ _ _ _
  case h_4 =>
    split at hnext
    case h_1 hkey => cases hnext; exact .failsRecord hkey
    case h_2 hkey => cases hnext; exact .keysRecord hkey
  case h_5 => split at hnext <;> cases hnext <;> exact .ends _ _ _
  case h_6 =>
    split at hnext
    · cases hnext; exact .ends _ _ _
    case isFalse hgoes =>
      split at hnext
      · cases hnext; exact .ends _ _ _
      case h_2 hcall => cases hnext; exact .checksEvent (Bool.eq_false_iff.2 hgoes) hcall
  case h_7 => cases hnext; exact .asksEvent _ _ _ _ _
  case h_8 =>
    split at hnext
    case h_1 hrun => cases hnext; exact .haltsEvent hrun
    case h_2 hrun => cases hnext; exact .runsEvent hrun
  case h_9 => cases hnext

/-- A dispatch stays in its loop until it ends. -/
theorem procedure?_of_next? {p : Procedure} (hnext : s.next? h c w = some (s', w'))
    (hloop : s'.procedure? = some p) : s.procedure? = some p := by
  cases goes_of_next? hnext <;> first | exact hloop | cases hloop

/-- Once its token is cancelled, a dispatch goes on to nothing that would ask the handler. -/
theorem asks_of_cancelled (hgone : w.isCancelled c.token = true)
    (hnext : s.next? h c w = some (s', w')) : s'.asks c = [] := by
  cases goes_of_next? hnext with
  | checksRecord hgoes => rw [hgone] at hgoes; cases hgoes
  | checksEvent hgoes => rw [hgone] at hgoes; cases hgoes
  | _ => rfl

end Stage

/-- The procedure that a batch is a request of. -/
def BatchRequest.procedure : BatchRequest → Procedure
  | keyEvents _ => .keyEvents
  | processEvents _ => .processEvents

/-- The context that a batch is handled in, and the stage at which its dispatch begins. -/
def BatchRequest.begin (c : Context) : BatchRequest → Context × Stage Item
  | keyEvents request => (c, .records [] request.values)
  | processEvents request =>
    match Wire.Timestamp.instant? request.watermark with
    | none => (c, .ended (.error (.failed (.badRequest "watermark out of range"))))
    | some watermark =>
      (c.withWatermark watermark, .events 0 request.events (.new request.keyStates))

/-! ## Flights -/

/-- A call in flight: what is still to be done for it, if anything is, what its handler was asked, and
its answer, if it has one. -/
structure Flight {κ : Type} (ω : Type) (Item : κ → Type) where
  context : Context
  limit : Option Span
  stage : Option (Stage Item)
  world : World ω
  asked : List Asked := []
  answer : Option Rpc.Response := none

namespace Flight

/-- A call whose batch was accepted, in a context of its own. -/
def start (batch : BatchRequest) (limit : Option Span) (w : World ω) : Flight ω Item :=
  let (context, stage) := batch.begin w.newContext.1
  { context, limit, stage := some stage, world := w.newContext.2 }

/-- The dispatch goes on to its next stage. -/
def advance? (h : Handler ω Item) (f : Flight ω Item) : Option (Flight ω Item) :=
  f.stage.bind fun s => (s.next? h f.context f.world).map fun n =>
    { f with stage := some n.1, world := n.2, asked := f.asked ++ s.asks f.context }

/-- The deadline passes, and is the answer. A callback that runs is given up wherever it is, so that
nothing is known of the world but that the token is cancelled. -/
inductive Expires : Flight ω Item → Flight ω Item → Prop
  | intro {f : Flight ω Item} {span : Span} {s : Stage Item} {w : World ω}
    (hopen : f.answer = none) (hlimit : f.limit = some span) (hstage : f.stage = some s)
    (hworld : s.inCallback = true ∨ w = f.world) :
    Expires f { f with stage := s.orphan?, world := w.cancel f.context.token,
                       answer := some (.ofError (.deadlineExceeded span)) }

/-- What may happen next to a call. -/
inductive Step (h : Handler ω Item) : Flight ω Item → Flight ω Item → Prop
  | advance {f g : Flight ω Item} (hnext : f.advance? h = some g) : Step h f g
  | respond {f : Flight ω Item} {result : Except Halt Bytes} {resp : Rpc.Response} {w : World ω}
    (hopen : f.answer = none) (hended : f.stage = some (.ended result))
    (hend : Handler.callEnd f.context result f.world = (some resp, w)) :
    Step h f { f with stage := none, world := w, answer := some resp }
  | expire {f g : Flight ω Item} (hexpires : Expires f g) : Step h f g

/-- What may become of a call, however its dispatch and its deadline are interleaved. -/
abbrev Steps (h : Handler ω Item) : Flight ω Item → Flight ω Item → Prop :=
  Relation.ReflTransGen (Step h)

/-- What becomes of a call that is not overtaken, up to the end of its dispatch. -/
abbrev Advances (h : Handler ω Item) : Flight ω Item → Flight ω Item → Prop :=
  Relation.ReflTransGen fun f g => f.advance? h = some g

variable {h : Handler ω Item} {f g : Flight ω Item}

/-! ## One way ahead -/

theorem advance?_eq_some_iff :
    f.advance? h = some g ↔ ∃ s s' w, f.stage = some s ∧ s.next? h f.context f.world = some (s', w) ∧
      g = { f with stage := some s', world := w, asked := f.asked ++ s.asks f.context } := by
  simp only [advance?, Option.bind_eq_some_iff, Option.map_eq_some_iff, Prod.exists]
  constructor
  · rintro ⟨s, hs, s', w, hnext, rfl⟩
    exact ⟨s, s', w, hs, hnext, rfl⟩
  · rintro ⟨s, s', w, hs, hnext, rfl⟩
    exact ⟨s, hs, s', w, hnext, rfl⟩

theorem advance?_of_ended {result : Except Halt Bytes} (hended : f.stage = some (.ended result)) :
    f.advance? h = none := by
  rw [advance?, hended]
  rfl

theorem Advances.steps (hf : Advances h f g) : Steps h f g :=
  Relation.ReflTransGen.mono (fun _ _ => .advance) f g hf

/-- Of two flights that have come from the same, one is ahead of the other. -/
theorem Advances.total {start : Flight ω Item} (hf : Advances h start f) (hg : Advances h start g) :
    Advances h f g ∨ Advances h g f :=
  Relation.ReflTransGen.total_of_right_unique
    (fun _ _ _ hnext hnext' => Option.some.inj (hnext.symm.trans hnext')) hf hg

/-- A flight whose dispatch has come to a result stays where it is. -/
theorem Advances.eq_of_ended {result : Except Halt Bytes} (hended : f.stage = some (.ended result))
    (hf : Advances h f g) : g = f := by
  rcases Relation.ReflTransGen.cases_head hf with rfl | ⟨_, hnext, -⟩
  · rfl
  · rw [advance?_of_ended hended] at hnext
    cases hnext

theorem Advances.asked_prefix (hf : Advances h f g) : f.asked <+: g.asked := by
  induction hf with
  | refl => exact List.prefix_rfl
  | tail _ hnext ih =>
    obtain ⟨s, s', w, -, -, rfl⟩ := advance?_eq_some_iff.1 hnext
    exact ih.trans (List.prefix_append _ _)

/-- What a dispatch keeps of its call: the context, the limit and that it is not answered. -/
theorem Advances.keeps (hf : Advances h f g) :
    g.context = f.context ∧ g.limit = f.limit ∧ g.answer = f.answer ∧
      (f.stage.isSome = true → g.stage.isSome = true) := by
  induction hf with
  | refl => exact ⟨rfl, rfl, rfl, id⟩
  | tail _ hnext ih =>
    obtain ⟨s, s', w, -, -, rfl⟩ := advance?_eq_some_iff.1 hnext
    exact ⟨ih.1, ih.2.1, ih.2.2.1, fun _ => rfl⟩

/-! ## The way ahead leads to the result of the dispatch -/

theorem Advances.head {s s' : Stage Item} {w : World ω} {asked : List Asked}
    (hstage : f.stage = some s) (hnext : s.next? h f.context f.world = some (s', w))
    (hasked : f.asked ++ s.asks f.context = asked)
    (hrest : Advances h { f with stage := some s', world := w, asked := asked } g) :
    Advances h f g := by
  subst hasked
  exact Relation.ReflTransGen.head (advance?_eq_some_iff.2 ⟨s, s', w, hstage, hnext, rfl⟩) hrest

section Loops

variable (c : Context) (limit : Option Span) (answer : Option Rpc.Response)

/-- Records that are left are keyed one after the other, up to the first failure. -/
theorem advances_records {left : List Bytes} {results : List Wire.KeyEventResult} {w : World ω}
    {asked : List Asked} {r : Except Error (List Wire.KeyEventResult)}
    {w' : World (ω × List Asked)}
    (hkeys : h.recorded.keyRecords c left (w.noting asked) = (r, w')) :
    Advances h ⟨c, limit, some (.records results left), w, asked, answer⟩
      ⟨c, limit, some (.ended ((r.map fun more => Wire.KeyEventBatchResponse.layout.encode
        ⟨results ++ more⟩).mapError .failed)), w'.unnoted, w'.notes, answer⟩ := by
  induction left generalizing results w asked r with
  | nil =>
    cases hkeys
    refine .head rfl rfl (List.append_nil _) ?_
    rw [Except.map, List.append_nil]
    exact .refl
  | cons bytes left ih =>
    rw [Handler.keyRecords] at hkeys
    split at hkeys
    case isTrue hgone =>
      cases hkeys
      exact .head rfl (if_pos hgone) (List.append_nil _) .refl
    case isFalse hgoes =>
      -- the check passes, the handler is asked, and it answers
      refine .head rfl (if_neg hgoes) (List.append_nil _) (.head rfl rfl rfl ?_)
      rw [Handler.keyEvent_recorded] at hkeys
      rcases hkey : h.keyEvent c bytes w with ⟨e | keyed, w₁⟩
      · have hnext : (.record .running results bytes left : Stage Item).next? h c w =
            some (.ended (.error (.failed e)), w₁) := by rw [Stage.next?, hkey]
        rw [hkey] at hkeys
        cases hkeys
        exact .head rfl hnext (List.append_nil _) .refl
      · have hnext : (.record .running results bytes left : Stage Item).next? h c w =
            some (.records (results ++ [⟨keyed.map KeyedEvent.toWire⟩]) left, w₁) := by
          rw [Stage.next?, hkey]
        refine .head rfl hnext (List.append_nil _) ?_
        rw [hkey] at hkeys
        rcases hrest : h.recorded.keyRecords c left (w₁.noting (asked ++ [.record c bytes])) with
          ⟨e | more, w₂⟩
        · simp only [hrest] at hkeys
          cases hkeys
          exact ih hrest
        · simp only [hrest] at hkeys
          cases hkeys
          have hahead := @ih (results ++ [⟨keyed.map KeyedEvent.toWire⟩]) _ _ _ hrest
          simp only [List.append_assoc, List.singleton_append] at hahead
          exact hahead

/-- The result of events that were handled: the encoding of what their subjects come to. -/
def eventsEnd (r : Except Halt (Batch Item)) : Except Halt Bytes :=
  r.bind fun b => (b.response.map Wire.ProcessEventBatchResponse.layout.encode).mapError .failed

/-- Events that are left are handled one after the other, up to the first that ends the batch. -/
theorem advances_events {position : Nat} {left : List Wire.Event} {b : Batch Item} {w : World ω}
    {asked : List Asked} {r : Except Halt (Batch Item)} {w' : World (ω × List Asked)}
    (hruns : h.recorded.runEvents c position left b (w.noting asked) = (r, w')) :
    Advances h ⟨c, limit, some (.events position left b), w, asked, answer⟩
      ⟨c, limit, some (.ended (eventsEnd r)), w'.unnoted, w'.notes, answer⟩ := by
  induction left generalizing position b w asked with
  | nil =>
    cases hruns
    refine .head rfl ?_ (List.append_nil _) .refl
    simp only [Stage.next?, eventsEnd, Except.bind]
    rcases b.response with _ | _ <;> rfl
  | cons e left ih =>
    rw [Handler.runEvents] at hruns
    split at hruns
    case isTrue hgone =>
      cases hruns
      exact .head rfl (if_pos hgone) (List.append_nil _) .refl
    case isFalse hgoes =>
      have hchecked : (Stage.events position (e :: left) b).next? h c w =
          match Handler.Call.ofWire position e with
          | .error e => some (.ended (.error (.failed e)), w)
          | .ok call => some (.event .checked call (position + 1) left b, w) := if_neg hgoes
      cases hcall : Handler.Call.ofWire position e with
      | error e =>
        rw [hcall] at hruns hchecked
        cases hruns
        exact .head rfl hchecked (List.append_nil _) .refl
      | ok call =>
        rw [hcall] at hruns hchecked
        refine .head rfl hchecked (List.append_nil _) (.head rfl rfl rfl ?_)
        simp only [Handler.run_recorded] at hruns
        rcases hrun : h.run c call b w with ⟨halt | _, b₁, w₁⟩
        · have hnext : (Stage.event .running call (position + 1) left b).next? h c w =
              some (.ended (.error halt), w₁) := by rw [Stage.next?, hrun]
          rw [hrun] at hruns
          cases hruns
          exact .head rfl hnext (List.append_nil _) .refl
        · have hnext : (Stage.event .running call (position + 1) left b).next? h c w =
              some (.events (position + 1) left b₁, w₁) := by rw [Stage.next?, hrun]
          rw [hrun] at hruns
          exact .head rfl hnext (List.append_nil _) (ih hruns)

end Loops

/-- **A batch that is not overtaken is dispatched**: the flight comes to the result of the dispatch, in
the same world, and has asked the handler the same. -/
theorem advances_dispatch (h : Handler ω Item) (batch : BatchRequest) (limit : Option Span)
    (w : World ω) :
    ∃ f : Flight ω Item, Advances h (start batch limit w) f ∧
      f.stage = some (.ended
        (batch.dispatch h.recorded w.newContext.1 (w.newContext.2.noting [])).1) ∧
      f.world.noting f.asked =
        (batch.dispatch h.recorded w.newContext.1 (w.newContext.2.noting [])).2 := by
  cases batch with
  | keyEvents request =>
    refine ⟨_, advances_records _ limit none rfl, ?_⟩
    simp only [BatchRequest.dispatch, Handler.keyEventBatch]
    rcases h.recorded.keyRecords w.newContext.1 request.values (w.newContext.2.noting []) with
      ⟨_ | _, _⟩ <;> exact ⟨rfl, rfl⟩
  | processEvents request =>
    simp only [start, BatchRequest.begin, BatchRequest.dispatch, Handler.processEventBatch]
    cases hwatermark : Wire.Timestamp.instant? request.watermark with
    | none => exact ⟨_, .refl, rfl, rfl⟩
    | some watermark =>
      refine ⟨_, advances_events _ limit none rfl, ?_⟩
      simp only [eventsEnd]
      rcases h.recorded.runEvents (w.newContext.1.withWatermark watermark) 0 request.events
        (.new request.keyStates) (w.newContext.2.noting []) with ⟨halt | b, w'⟩
      · exact ⟨rfl, rfl⟩
      · simp only [Except.bind]
        rcases b.response with _ | _ <;> exact ⟨rfl, rfl⟩

section Batch

variable {batch : BatchRequest} {limit : Option Span} {w : World ω}

/-- Whatever its watermark, a batch is dispatched under the token of its call. -/
theorem token_of_advances (hf : Advances h (start batch limit w) f) :
    f.context.token = w.newContext.1.token := by
  rw [hf.keeps.1]
  cases batch with
  | keyEvents request => rfl
  | processEvents request =>
    simp only [start, BatchRequest.begin]
    cases Wire.Timestamp.instant? request.watermark <;> rfl

/-- A result that a flight has come to is that of the dispatch. -/
theorem dispatch_of_ended {result : Except Halt Bytes} (hf : Advances h (start batch limit w) f)
    (hended : f.stage = some (.ended result)) :
    batch.dispatch h.recorded w.newContext.1 (w.newContext.2.noting []) =
        (result, f.world.noting f.asked) ∧
      batch.dispatch h w.newContext.1 w.newContext.2 = (result, f.world) := by
  obtain ⟨e, he, hresult, hworld⟩ := advances_dispatch h batch limit w
  have hsame : e = f := by
    rcases hf.total he with hahead | hahead
    · exact hahead.eq_of_ended hended
    · exact (hahead.eq_of_ended hresult).symm
  subst hsame
  have hfst := Stage.ended.inj (Option.some.inj (hresult.symm.trans hended))
  obtain ⟨asked, hplain⟩ := batch.exists_asked h w.newContext.1 w.newContext.2
  rw [hplain] at hfst hworld ⊢
  obtain ⟨hsnd, rfl⟩ := World.noting_inj hworld
  exact ⟨by rw [hsnd, ← hfst], Prod.ext hfst hsnd.symm⟩

/-- Up to any point of the dispatch, the handler was asked what it is asked first. -/
theorem asked_prefix_of_advances (hf : Advances h (start batch limit w) f) :
    f.asked <+: (batch.dispatch h.recorded w.newContext.1 (w.newContext.2.noting [])).2.notes := by
  obtain ⟨e, he, hresult, hworld⟩ := advances_dispatch h batch limit w
  rw [← hworld]
  rcases hf.total he with hahead | hahead
  · exact hahead.asked_prefix
  · rw [hahead.eq_of_ended hresult]
    exact List.prefix_rfl

/-- The loop that a flight is in is that of its batch. -/
theorem loop_of_advances {p : Procedure} {s : Stage Item} (hf : Advances h (start batch limit w) f)
    (hstage : f.stage = some s) (hloop : s.procedure? = some p) : batch.procedure = p := by
  induction hf generalizing s with
  | refl =>
    cases batch with
    | keyEvents request =>
      cases hstage
      exact Option.some.inj hloop
    | processEvents request =>
      simp only [start, BatchRequest.begin] at hstage
      cases hwatermark : Wire.Timestamp.instant? request.watermark with
      | none =>
        rw [hwatermark] at hstage
        cases hstage
        cases hloop
      | some watermark =>
        rw [hwatermark] at hstage
        cases hstage
        exact Option.some.inj hloop
  | tail _ hnext ih =>
    obtain ⟨s₁, s₂, w₁, hbefore, hgoes, rfl⟩ := advance?_eq_some_iff.1 hnext
    obtain rfl := Option.some.inj hstage
    exact ih hbefore (Stage.procedure?_of_next? hgoes hloop)

end Batch

/-! ## How a flight is answered -/

/-- A flight that is not answered has only advanced. -/
theorem advances_of_open {start : Flight ω Item} (hsteps : Steps h start f) (hopen : f.answer = none) :
    Advances h start f := by
  induction hsteps with
  | refl => exact .refl
  | tail _ hstep ih =>
    cases hstep with
    | advance hnext =>
      obtain ⟨s, s', w, -, -, rfl⟩ := advance?_eq_some_iff.1 hnext
      exact (ih hopen).tail hnext
    | respond => cases hopen
    | expire hexpires =>
      cases hexpires
      cases hopen

/-- **A flight is answered in one of two ways**: its dispatch came to a result, which is the answer,
and nothing happens after that; or its deadline passed first. -/
theorem exists_of_answer {start : Flight ω Item} {resp : Rpc.Response} (hstart : start.answer = none)
    (hsteps : Steps h start g) (hanswer : g.answer = some resp) :
    (∃ f result, Advances h start f ∧ f.stage = some (.ended result) ∧ g.asked = f.asked ∧
      g.stage = none ∧ Handler.callEnd f.context result f.world = (some resp, g.world)) ∨
    ∃ f f', Advances h start f ∧ Expires f f' ∧ Steps h f' g := by
  induction hsteps with
  | refl => rw [hstart] at hanswer; cases hanswer
  | @tail f g hsteps hstep ih =>
    cases hstep with
    | advance hnext =>
      obtain ⟨s, s', w, hstage, -, rfl⟩ := advance?_eq_some_iff.1 hnext
      rcases ih hanswer with ⟨f₁, result, -, -, -, hnone, -⟩ | ⟨f₁, f₂, hf₁, hexpires, hlater⟩
      · rw [hnone] at hstage
        cases hstage
      · exact .inr ⟨f₁, f₂, hf₁, hexpires, hlater.tail (.advance hnext)⟩
    | @respond result _ w hopen hended hend =>
      cases hanswer
      exact .inl ⟨f, result, advances_of_open hsteps hopen, hended, rfl, rfl, hend⟩
    | expire hexpires =>
      have hopen : f.answer = none := by cases hexpires with | intro hopen => exact hopen
      exact .inr ⟨f, _, advances_of_open hsteps hopen, hexpires, .refl⟩

end Flight

end KeyedStream
