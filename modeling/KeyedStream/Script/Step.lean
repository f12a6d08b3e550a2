import KeyedStream.Handler
import KeyedStream.Script.Item

/-!
# Steps

A script is a list of steps, each of which asks its subject, its context or one of its states for
something, or changes it. A step gives an answer or fails; a failing step leaves its state as it
was.
-/

namespace KeyedStream.Script

inductive Answer where
  | nothing
  | bool (b : Bool)
  | count (n : Nat)
  | text (s : String)
  | bytes (b : Bytes)
  | value (t : ValueType) (v : t.Carrier)
  | pairs (k v : ScalarType) (es : List (k.Carrier × v.Carrier))
  | entries (rows : List StateEntry)
  | mutations (ms : List Mutation)
  | instant (t : Instant)
  | instants (ts : List Instant)
  | sinkRequests (rs : List Wire.SinkRequest)
  | keyResult (r : Wire.KeyResult)

/-! ## Steps on states -/

inductive ItemStep : ItemKind → Type where
  | read {t : ValueType} : ItemStep (.value t)
  | assign {t : ValueType} (v : t.Carrier) : ItemStep (.value t)
  | drop {t : ValueType} : ItemStep (.value t)
  | increment {t : ValueType} : ItemStep (.value t)
  | get {k v : ScalarType} (key : k.Carrier) : ItemStep (.map k v)
  | contains {k v : ScalarType} (key : k.Carrier) : ItemStep (.map k v)
  | set {k v : ScalarType} (key : k.Carrier) (value : v.Carrier) : ItemStep (.map k v)
  | incrementAt {k v : ScalarType} (key : k.Carrier) : ItemStep (.map k v)
  | delete {k v : ScalarType} (key : k.Carrier) : ItemStep (.map k v)
  | all {k v : ScalarType} : ItemStep (.map k v)
  | size {k v : ScalarType} : ItemStep (.map k v)
  | isEmpty {k v : ScalarType} : ItemStep (.map k v)
  | push (m : Mutation) : ItemStep .recorder
  | failMutations : ItemStep .recorder
  | loaded : ItemStep .recorder
  | text {k : ItemKind} : ItemStep k
  | load {k : ItemKind} (rows : List StateEntry) : ItemStep k
  | name {k : ItemKind} : ItemStep k
  | mutations {k : ItemKind} : ItemStep k

namespace ItemStep

/-- The entries of a table in the order of their keys. -/
def sortEntries (k v : ScalarType) (es : List (k.Carrier × v.Carrier)) :
    List (k.Carrier × v.Carrier) :=
  es.mergeSort fun a b => !k.before b.1 a.1

/-- Changes in the order of the keys of their rows. -/
def sortMutations (ms : List Mutation) : List Mutation := ms.mergeSort fun a b => !decide (b.key < a.key)

def runValue {t : ValueType} (s : ValueState t.Carrier) :
    ItemStep (.value t) → Except Error (Answer × ValueState t.Carrier)
  | .read => .ok (.value t s.value, s)
  | .assign v => .ok (.nothing, s.set v)
  | .drop => .ok (.nothing, s.drop)
  | .increment =>
    let v := t.next s.value
    .ok (.value t v, s.set v)
  | .text => .ok (.text (s.text t.text), s)
  | .load rows => do return (.nothing, ← s.load rows)
  | .name => .ok (.text s.name, s)
  | .mutations => do return (.mutations (sortMutations (← s.mutations)), s)

def runMap {k v : ScalarType} (s : MapState k.Carrier v.Carrier) :
    ItemStep (.map k v) → Except Error (Answer × MapState k.Carrier v.Carrier)
  | .get key =>
    match s.get? key with
    | some value => .ok (.value (.scalar v) value, s)
    | none => .ok (.nothing, s)
  | .contains key => .ok (.bool (s.contains key), s)
  | .set key value =>
    let s := s.set key value
    .ok (.count s.size, s)
  | .incrementAt key =>
    let value := v.next ((s.get? key).getD v.zero)
    .ok (.value (.scalar v) value, s.set key value)
  | .delete key =>
    let s := s.delete key
    .ok (.count s.size, s)
  | .all => .ok (.pairs k v (sortEntries k v s.all), s)
  | .size => .ok (.count s.size, s)
  | .isEmpty => .ok (.bool s.isEmpty, s)
  | .text => .ok (.text s.text, s)
  | .load rows => do return (.nothing, ← s.load rows)
  | .name => .ok (.text s.name, s)
  | .mutations => do return (.mutations (sortMutations (← s.mutations)), s)

def runRecorder (s : Recorder) : ItemStep .recorder → Except Error (Answer × Recorder)
  | .push m => .ok (.nothing, { s with pushed := s.pushed ++ [m] })
  | .failMutations => .ok (.nothing, { s with failing := true })
  | .loaded => .ok (.entries s.rows, s)
  | .text => .ok (.nothing, s)
  | .load rows => .ok (.nothing, { s with rows })
  | .name => .ok (.text s.name, s)
  | .mutations => do return (.mutations (sortMutations (← s.mutations)), s)

def run : (k : ItemKind) → ItemStep k → Item k → Except Error (Answer × Item k)
  | .value _, step, s => runValue s step
  | .map _ _, step, s => runMap s step
  | .recorder, step, s => runRecorder s step

/-- Runs steps on a state, one after the other; a failing step does not end them. -/
def runAll (k : ItemKind) : List (ItemStep k) → Item k → List (Except Error Answer)
  | [], _ => []
  | step :: steps, s =>
    match run k step s with
    | .ok (a, s) => .ok a :: runAll k steps s
    | .error e => .error e :: runAll k steps s

end ItemStep

/-! ## Steps of callbacks -/

inductive Step where
  | key
  | timestamp
  | timer (t : Instant)
  | timerAfter (seconds : Int)
  | timers
  | stateEntries (name : String)
  | sink (id : String) (payload : Bytes)
  | sinkWith (id : String) (t : ValueType) (width : IntWidth) (v : t.Carrier)
  | sinks
  /-- Renders a state by the given changes, or by failing. -/
  | registerUse (name : String) (ms : Option (List Mutation))
  | encode
  | subjectText
  | specText (d : Declaration)
  | watermark
  | cancel
  | isCancelled
  | fail (e : Error)
  | openState (d : Declaration)
  | onState (d : Declaration) (step : ItemStep d.kind)
  | waitCancelled

namespace Step

variable {ω : Type}

/-- Sets a timer some seconds after the time of the subject. -/
def timerAfterSeconds (seconds : Int) (s : Subject Item) : Except Error Unit × Subject Item :=
  match s.timestamp.addSeconds? seconds with
  | some t => (.ok (), s.setTimer t)
  | none => (.error (.handler "timer out of range"), s)

/-- How a state that a script registers itself is rendered. -/
def scriptedRenderer (ms : Option (List Mutation)) : Renderer Item := fun _ =>
  match ms with
  | some ms => .ok ms
  | none => .error (.internal "boom")

/-- Runs a step on the declared state of a subject, which is loaded on the first use. -/
def runOnState (d : Declaration) (step : ItemStep d.kind) (s : Subject Item) :
    Except Error Answer × Subject Item :=
  match d.spec.stateFor s with
  | (.error e, s) => (.error e, s)
  | (.ok state, s) =>
    match ItemStep.run d.kind step state with
    | .ok (a, state) => (.ok a, d.spec.put s state)
    | .error e => (.error e, s)

def silent {σ : Type} (r : Except Error Unit × σ) : Except Error Answer × σ :=
  (r.1.map fun _ => .nothing, r.2)

def runOnSubject (step : Step) (s : Subject Item) : Except Error Answer × Subject Item :=
  match step with
  | key => (.ok (.bytes s.key), s)
  | timestamp => (.ok (.instant s.timestamp), s)
  | timer t => (.ok .nothing, s.setTimer t)
  | timerAfter seconds => silent (timerAfterSeconds seconds s)
  | timers => (.ok (.instants s.timers), s)
  | stateEntries name => (.ok (.entries (s.entries name)), s)
  | sink id payload => (.ok .nothing, (Sink.mk id).collect s payload)
  | sinkWith id t width v => silent ((Sink.mk id).collectWith (t.codec width) s v)
  | sinks => (.ok (.sinkRequests s.sinkRequests), s)
  | registerUse name ms => (.ok .nothing, s.registerUse name (scriptedRenderer ms))
  | encode => (s.encode.map .keyResult, s)
  | subjectText => (.ok (.text s.text), s)
  | specText d =>
    match d.specText with
    | some text => (.ok (.text text), s)
    | none => (.ok .nothing, s)
  | fail e => (.error e, s)
  | openState d =>
    let (r, s) := d.spec.stateFor s
    (r.map fun _ => .nothing, s)
  | onState d step => runOnState d step s
  | watermark | cancel | isCancelled | waitCancelled => (.ok .nothing, s)

def run (c : Context) (step : Step) (s : Subject Item) (w : World ω) :
    Except Halt Answer × Subject Item × World ω :=
  match step with
  | watermark => (.ok (.instant c.watermark), s, w)
  | cancel => (.ok .nothing, s, w.cancel c.token)
  | isCancelled => (.ok (.bool (w.isCancelled c.token)), s, w)
  | waitCancelled =>
    (.error (if w.isCancelled c.token then .failed .cancelled else .waiting), s, w)
  | step =>
    let (r, s) := runOnSubject step s
    (r.mapError .failed, s, w)

/-- Runs steps one after the other; a failing step does not end them, one that waits does. -/
def runAll (c : Context) :
    List Step → Subject Item → World ω → List (Except Error Answer) × Subject Item × World ω
  | [], s, w => ([], s, w)
  | step :: steps, s, w =>
    match run c step s w with
    | (.error .waiting, s, w) => ([], s, w)
    | (.error (.failed e), s, w) =>
      let (rs, s, w) := runAll c steps s w
      (.error e :: rs, s, w)
    | (.ok a, s, w) =>
      let (rs, s, w) := runAll c steps s w
      (.ok a :: rs, s, w)

end Step

end KeyedStream.Script
