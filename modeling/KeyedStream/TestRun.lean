import KeyedStream.Pipe

/-!
# Test runs

A test run keys records and queues what comes of them for a companion program, starts the companion,
sends it the queue, and then serves the commands that it writes until it closes its output. How the
companion ends decides how the run ends. A record that cannot be keyed spoils the run: nothing is
queued after it, and the companion is not started.
-/

namespace KeyedStream

/-- A signal that ended a program, and whether the memory of the program was dumped. -/
structure Signal where
  number : Nat
  dumped : Bool := false
deriving DecidableEq, Repr

namespace Signal

/-- The names of the signals, from the first on. -/
def names : List String :=
  ["SIGHUP", "SIGINT", "SIGQUIT", "SIGILL", "SIGTRAP", "SIGABRT", "SIGBUS", "SIGFPE", "SIGKILL",
   "SIGUSR1", "SIGSEGV", "SIGUSR2", "SIGPIPE", "SIGALRM", "SIGTERM", "SIGSTKFLT", "SIGCHLD",
   "SIGCONT", "SIGSTOP", "SIGTSTP", "SIGTTIN", "SIGTTOU", "SIGURG", "SIGXCPU", "SIGXFSZ",
   "SIGVTALRM", "SIGPROF", "SIGWINCH", "SIGIO", "SIGPWR", "SIGSYS"]

/-- The name of a signal in brackets, if it has one. -/
def bracketedName (s : Signal) : String :=
  match s.number with
  | 0 => ""
  | n + 1 =>
    match names[n]? with
    | some name => " (" ++ name ++ ")"
    | none => ""

def text (s : Signal) : String :=
  "signal: " ++ toString s.number ++ s.bracketedName ++ (if s.dumped then " (core dumped)" else "")

end Signal

/-- How a companion program behaves: it reads up to the order to run, writes commands, closes its
output, reads the answers to the end, writes to its error output, and exits, unless a signal ends
it. -/
structure Companion where
  stdout : Bytes := []
  stderr : Bytes := []
  /-- The code that it exits with; its lowest byte counts. -/
  exitCode : Nat := 0
  /-- The signal that ends it before it can exit. -/
  signal : Option Signal := none
deriving DecidableEq, Repr

namespace Companion

def exitStatus (c : Companion) : Nat := c.exitCode % 256

/-- Whether a companion comes to its end by itself and without complaint. -/
def succeeds (c : Companion) : Bool := c.signal.isNone && c.exitStatus = 0

/-- What is said of how a companion ended. -/
def statusText (c : Companion) : String :=
  match c.signal with
  | some s => s.text
  | none => "exit status: " ++ toString c.exitStatus

end Companion

/-- A test run that is being prepared. -/
structure TestRun where
  /-- The queued commands. -/
  commands : List Bytes := []
  /-- Why a record could not be keyed. -/
  error : Option Error := none
  program : String := "reduction"
  args : List String := ["testrun"]
deriving DecidableEq

/-- How a test run ended. -/
structure TestRun.Outcome where
  result : Except Halt Unit
  /-- All that the companion read, if it came to its end. -/
  received : Option Bytes

namespace TestRun

variable {κ ω : Type} {Item : κ → Type}

def command (t : TestRun) (program : String) (args : List String) : TestRun :=
  { t with program, args }

def size (t : TestRun) : Nat := t.commands.length

def isEmpty (t : TestRun) : Bool := t.commands.isEmpty

/-- The queued form of a keyed event. -/
def eventCommand (e : KeyedEvent) : Bytes :=
  Wire.RunnerCommand.layout.encode (.addKeyedEvent e.toWire)

/-- Keys a record and queues its events. -/
def addRecord (h : Handler ω Item) (t : TestRun) (record : Bytes) (w : World ω) :
    TestRun × World ω :=
  match t.error with
  | some _ => (t, w)
  | none =>
    let (c, w) := w.newContext
    match h.keyEvent c record w with
    | (.ok events, w) => ({ t with commands := t.commands ++ events.map eventCommand }, w)
    | (.error e, w) =>
      ({ t with error := some (.handler ("failed to create keyed event: " ++ e.message)) }, w)

def addWatermark (t : TestRun) : TestRun :=
  match t.error with
  | some _ => t
  | none => { t with commands := t.commands ++ [Wire.RunnerCommand.layout.encode .addWatermark] }

/-- What is sent before the companion runs: the queue, and then the order to run. -/
def queue (t : TestRun) : List Bytes := t.commands ++ [Wire.RunnerCommand.layout.encode .run]

/-- How a companion that came to its end is reported. -/
def exitResult (c : Companion) : Except Halt Unit :=
  if c.succeeds then .ok () else .error (.failed (.command c.statusText c.stderr))

/-- Sends payloads one after the other, up to the first that cannot be written; what was written
before it stays. -/
def send : List Bytes → Output → Except Error Unit × Output
  | [], o => (.ok (), o)
  | p :: ps, o =>
    match o.writeFrame p with
    | (.ok (), o) => send ps o
    | (.error e, o) => (.error e, o)

/-- The exchange with a companion, which is sent the queue and has its commands served: how it ends,
all that is written by then, and the world after it. -/
def exchange (h : Handler ω Item) (t : TestRun) (companion : Companion) (w : World ω) :
    Except Halt Unit × Bytes × World ω :=
  match send t.queue {} with
  | (.error e, o) => (.error (.failed e), o.written, w)
  | (.ok (), o) =>
    let (c, w) := w.newContext
    let (result, o, w) := h.servePipe {} c { chunks := [companion.stdout] } o w
    (result, o.written, w)

/-- What is reported of an exchange. -/
def ended (companion : Companion) : Except Halt Unit × Bytes × World ω → Outcome × World ω
  | (.ok (), written, w) => (⟨exitResult companion, some written⟩, w)
  | (.error halt, _, w) => (⟨.error halt, none⟩, w)

/-- Runs a companion, and reports how the exchange with it ended. -/
def runCompanion (h : Handler ω Item) (t : TestRun) (companion : Companion) (w : World ω) :
    Outcome × World ω :=
  ended companion (exchange h t companion w)

/-- Runs a companion, if there is one to run. -/
def runStarted (h : Handler ω Item) (t : TestRun) (w : World ω) : Option Companion → Outcome × World ω
  | some companion => runCompanion h t companion w
  | none => (⟨.error (.failed (.io "No such file or directory (os error 2)")), none⟩, w)

/-- Starts the companion program, by an action that may have effects of its own, and runs it. -/
def runM {m : Type → Type} [Monad m] (h : Handler ω Item)
    (start : String → List String → m (Option Companion)) (t : TestRun) (w : World ω) :
    m (Outcome × World ω) :=
  match t.error with
  | some e => pure (⟨.error (.failed e), none⟩, w)
  | none => do return runStarted h t w (← start t.program t.args)

/-- Starts the companion program, where `find` says which programs there are, and runs it. -/
def run (h : Handler ω Item) (find : String → List String → Option Companion) (t : TestRun)
    (w : World ω) : Outcome × World ω :=
  Id.run (runM h (fun program args => pure (find program args)) t w)

theorem run_of_none (h : Handler ω Item) (find : String → List String → Option Companion)
    {t : TestRun} (herror : t.error = none) (w : World ω) :
    run h find t w = runStarted h t w (find t.program t.args) := by
  rw [run, runM, herror]
  rfl

/-- Keys records one after the other. -/
def addRecords (h : Handler ω Item) : TestRun → List Bytes → World ω → TestRun × World ω
  | t, [], w => (t, w)
  | t, record :: records, w =>
    let (t, w) := addRecord h t record w
    addRecords h t records w

/-- Keys records, advances the watermark once, and runs. -/
def runRecords (h : Handler ω Item) (find : String → List String → Option Companion)
    (records : List Bytes) (w : World ω) : Outcome × World ω :=
  let (t, w) := addRecords h {} records w
  run h find t.addWatermark w

end TestRun

end KeyedStream
