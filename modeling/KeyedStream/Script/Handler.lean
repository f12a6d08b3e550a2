import KeyedStream.Script.Step
import KeyedStream.Text.Quoted
import KeyedStream.Text.Utf8

/-!
# Scripted handlers

A handler that is described by data: the states that it declares, the scripts that it runs on events
and timers, and the way it keys records. It keeps a trace of what its steps answered.
-/

namespace KeyedStream.Script

/-! ## Keying -/

/-- What a table says of a record. -/
inductive Entry where
  | events (es : List KeyedEvent)
  | fails (e : Error)
  | cancels
deriving DecidableEq

/-- How records are keyed. -/
inductive Keyer where
  /-- Key and value are the record. -/
  | echo
  /-- Key and value are what is left and right of the first colon. -/
  | colon
  /-- Each part between commas is the key and the value of an event. -/
  | split
  /-- A table says what becomes of a record. -/
  | table (entries : List (Bytes × Entry))
deriving DecidableEq

namespace Keyer

def atEpoch (key value : Bytes) : KeyedEvent := ⟨key, Instant.epoch, value⟩

def colonByte : UInt8 := 58

def commaByte : UInt8 := 44

def splitAtColon (record : Bytes) : Except Error (List KeyedEvent) :=
  match Text.Utf8.defect? record, Bytes.toText? record with
  | some d, _ => .error (.badRequest d.message)
  | none, none => .error (.badRequest "record is no text")
  | none, some text =>
    if record.contains colonByte then
      .ok [atEpoch (record.takeWhile (· ≠ colonByte)) ((record.dropWhile (· ≠ colonByte)).drop 1)]
    else .error (.badRequest ("record " ++ Text.quoted text ++ " has no key"))

def splitAtCommas (record : Bytes) : List Bytes :=
  record.foldr
    (fun b parts =>
      if b = commaByte then [] :: parts
      else
        match parts with
        | [] => [[b]]
        | p :: ps => (b :: p) :: ps)
    [[]]

def badRecord : Bytes := Bytes.ofText "bad"

def run {ω : Type} (k : Keyer) (c : Context) (record : Bytes) (w : World ω) :
    Except Error (List KeyedEvent) × World ω :=
  match k with
  | echo => (.ok [atEpoch record record], w)
  | colon => (splitAtColon record, w)
  | split =>
    if record = badRecord then (.error (.badRequest "bad record"), w)
    else (.ok ((splitAtCommas record).map fun p => atEpoch p p), w)
  | table entries =>
    match Assoc.find? record entries with
    | some (.events es) => (.ok es, w)
    | some (.fails e) => (.error e, w)
    | some .cancels => (.ok [], w.cancel c.token)
    | none => (.error (.badRequest "no such record"), w)

end Keyer

/-! ## Handlers -/

/-- What a scripted handler writes down: the answer of a step, or the time of a timer. -/
inductive Mark where
  | step (r : Except Error Answer)
  | timer (t : Instant)

/-- What a scripted handler has written down, the latest first. -/
abbrev Trace := List Mark

structure Play where
  states : List Declaration := []
  /-- The script of each event value. -/
  onValue : List (Bytes × List Step) := []
  /-- The script of timers. -/
  onTimer : List Step := []
  keyer : Keyer := .echo
  /-- Whether timers are ignored. -/
  untimed : Bool := false

namespace Play

def note (m : Mark) (w : World Trace) : World Trace := { w with own := m :: w.own }

/-- Runs a script up to its first failure. -/
def runScript (c : Context) : List Step → Callback Trace Item
  | [], s, w => (.ok (), s, w)
  | step :: steps, s, w =>
    match step.run c s w with
    | (.error .waiting, s, w) => (.error .waiting, s, w)
    | (.error (.failed e), s, w) => (.error (.failed e), s, note (.step (.error e)) w)
    | (.ok a, s, w) => runScript c steps s (note (.step (.ok a)) w)

/-- What happens on an event: its value's script, or a sink request with the value. -/
def onEvent (p : Play) (c : Context) (e : KeyedEvent) : Callback Trace Item := fun s w =>
  match Assoc.find? e.value p.onValue with
  | some script => runScript c script s w
  | none => (.ok (), s.addSinkRequest "echo" e.value, w)

/-- What happens on a timer: it is written down, and its script runs. -/
def onTimerExpired (p : Play) (c : Context) (t : Instant) : Callback Trace Item := fun s w =>
  runScript c p.onTimer s (note (.timer t) w)

def operator (p : Play) : OperatorHandler Trace Item :=
  if p.untimed then { onEvent := p.onEvent }
  else { onEvent := p.onEvent, onTimerExpired := p.onTimerExpired }

def handler (p : Play) : Handler Trace Item where
  keyEvent := p.keyer.run
  operator := p.operator

def stateNames (p : Play) : Ordered String String :=
  Ordered.ofList (p.states.map fun d => (d.label, d.id))

/-- The state of a name; of several, the one declared last. -/
def declaration? (p : Play) (name : String) : Option Declaration :=
  p.states.reverse.find? fun d => d.label = name

/-- What was written down, the earliest first. -/
def trace (w : World Trace) : List Mark := w.own.reverse

end Play

end KeyedStream.Script
