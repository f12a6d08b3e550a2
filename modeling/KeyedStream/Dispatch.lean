import KeyedStream.Batch
import KeyedStream.Handler

/-!
# Dispatch

How a handler answers a batch. Records are keyed, and events handled, in the order in which they
come; before each it is checked that the request was not given up. The first failure ends the batch
and is all of its answer.
-/

namespace KeyedStream.Handler

open Wire

variable {κ ω : Type} {Item : κ → Type}

/-! ## Raw records -/

def keyRecords (h : Handler ω Item) (c : Context) :
    List Bytes → World ω → Except Error (List KeyEventResult) × World ω
  | [], w => (.ok [], w)
  | record :: records, w =>
    if w.isCancelled c.token then (.error .cancelled, w)
    else
      match h.keyEvent c record w with
      | (.error e, w) => (.error e, w)
      | (.ok events, w) =>
        match keyRecords h c records w with
        | (.error e, w) => (.error e, w)
        | (.ok results, w) => (.ok (⟨events.map KeyedEvent.toWire⟩ :: results), w)

/-- Answers a batch of raw records: the keyed events of each, record by record. -/
def keyEventBatch (h : Handler ω Item) (c : Context) (request : KeyEventBatchRequest)
    (w : World ω) : Except Halt KeyEventBatchResponse × World ω :=
  match h.keyRecords c request.values w with
  | (.ok results, w) => (.ok ⟨results⟩, w)
  | (.error e, w) => (.error (.failed e), w)

/-! ## Events -/

/-- An event with its time: what is to be run, and on which key. -/
inductive Call where
  | event (e : KeyedEvent)
  | timer (key : Bytes) (t : Instant)
deriving DecidableEq

namespace Call

def key : Call → Bytes
  | event e => e.key
  | timer key _ => key

def timestamp : Call → Instant
  | event e => e.timestamp
  | timer _ t => t

/-- What the event at a position asks for. -/
def ofWire (position : Nat) (e : Wire.Event) : Except Error Call :=
  match e.payload with
  | some (.keyedEvent e) => (KeyedEvent.ofWire e).map event
  | some (.timerExpired t) =>
    match Timestamp.instant? t.timestamp with
    | some timestamp => .ok (timer t.key timestamp)
    | none => .error (.badRequest "timer timestamp out of range")
  | none => .error (.badRequest ("event " ++ toString position ++ " has no payload"))

end Call

def callback (h : Handler ω Item) (c : Context) : Call → Callback ω Item
  | .event e => h.operator.onEvent c e
  | .timer _ t => h.operator.onTimerExpired c t

/-- Runs a call on the subject of its key. -/
def run (h : Handler ω Item) (c : Context) (call : Call) (b : Batch Item) (w : World ω) :
    Except Halt Unit × Batch Item × World ω :=
  let (place, s, b) := b.subjectFor call.key call.timestamp
  let (r, s, w) := h.callback c call s w
  (r, b.put place s, w)

/-- Handles events from a position on. -/
def runEvents (h : Handler ω Item) (c : Context) :
    Nat → List Wire.Event → Batch Item → World ω → Except Halt (Batch Item) × World ω
  | _, [], b, w => (.ok b, w)
  | position, e :: events, b, w =>
    if w.isCancelled c.token then (.error (.failed .cancelled), w)
    else
      match Call.ofWire position e with
      | .error e => (.error (.failed e), w)
      | .ok call =>
        match h.run c call b w with
        | (.error halt, _, w) => (.error halt, w)
        | (.ok (), b, w) => runEvents h c (position + 1) events b w

/-- Answers a batch of events: the results of its keys. -/
def processEventBatch (h : Handler ω Item) (c : Context) (request : ProcessEventBatchRequest)
    (w : World ω) : Except Halt ProcessEventBatchResponse × World ω :=
  match Timestamp.instant? request.watermark with
  | none => (.error (.failed (.badRequest "watermark out of range")), w)
  | some watermark =>
    match h.runEvents (c.withWatermark watermark) 0 request.events (.new request.keyStates) w with
    | (.error halt, w) => (.error halt, w)
    | (.ok b, w) =>
      match b.response with
      | .ok response => (.ok response, w)
      | .error e => (.error (.failed e), w)

end KeyedStream.Handler
