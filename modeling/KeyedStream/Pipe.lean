import KeyedStream.Dispatch
import KeyedStream.Frame.Buffer
import KeyedStream.Stream
import KeyedStream.Wire.Command

/-!
# Pipes

Commands come in frames on one stream, and each is answered by a frame on another, until the first
stream ends. It may only end between two frames. Any failure ends the pipe; the answers to the
commands before it have been written by then.
-/

namespace KeyedStream

structure PipeConfig where
  /-- The largest payload that is accepted. -/
  maxFrameSize : Nat := Frame.standardMax
deriving DecidableEq, Repr

namespace Handler

variable {κ ω : Type} {Item : κ → Type}

/-- The payload that answers a command. -/
def answer (h : Handler ω Item) (c : Context) (command : Wire.HandlerCommand) (w : World ω) :
    Except Halt Bytes × World ω :=
  match command.payload with
  | some (.keyEventBatch batch) =>
    let (r, w) := h.keyEventBatch c (batch.keyEventBatchRequest.getD {}) w
    (r.map Wire.KeyEventBatchResponse.layout.encode, w)
  | some (.processEventBatch batch) =>
    let (r, w) := h.processEventBatch c (batch.processEventBatchRequest.getD {}) w
    (r.map Wire.ProcessEventBatchResponse.layout.encode, w)
  | none => (.error (.failed (.badRequest "handler command has no payload")), w)

/-- Reads a command and writes its answer. -/
def servePayload (h : Handler ω Item) (c : Context) (payload : Bytes) (o : Output) (w : World ω) :
    Except Halt Unit × Output × World ω :=
  match Wire.HandlerCommand.layout.decode payload with
  | .error e => (.error (.failed (.decode e)), o, w)
  | .ok command =>
    match h.answer c command w with
    | (.error halt, w) => (.error halt, o, w)
    | (.ok response, w) =>
      match o.writeFrame response with
      | (.error e, o) => (.error (.failed e), o, w)
      | (.ok (), o) => (.ok (), o, w)

def servePayloads (h : Handler ω Item) (c : Context) :
    List Bytes → Output → World ω → Except Halt Unit × Output × World ω
  | [], o, w => (.ok (), o, w)
  | p :: ps, o, w =>
    match h.servePayload c p o w with
    | (.error halt, o, w) => (.error halt, o, w)
    | (.ok (), o, w) => servePayloads h c ps o w

/-- Whether a stream may end here. -/
def atEnd (b : FrameBuffer) : Except Halt Unit :=
  if b.isEmpty then .ok ()
  else .error (.failed (.protocol
    ("stream ended inside a frame (" ++ toString b.size ++ " bytes buffered)")))

/-- Serves what the reads of a stream hand out. A read without bytes is the end of the stream. -/
def serveReads (h : Handler ω Item) (c : Context) (failure : Option String) :
    List Bytes → FrameBuffer → Output → World ω → Except Halt Unit × Output × World ω
  | [], b, o, w =>
    match failure with
    | some message => (.error (.failed (.io message)), o, w)
    | none => (atEnd b, o, w)
  | data :: reads, b, o, w =>
    if data.isEmpty then (atEnd b, o, w)
    else
      match b.push data with
      | (.error e, _) => (.error (.failed e), o, w)
      | (.ok payloads, b) =>
        match h.servePayloads c payloads o w with
        | (.error halt, o, w) => (.error halt, o, w)
        | (.ok (), o, w) => serveReads h c failure reads b o w

/-- Serves the commands of a stream. -/
def servePipe (h : Handler ω Item) (config : PipeConfig) (c : Context) (i : Input) (o : Output)
    (w : World ω) : Except Halt Unit × Output × World ω :=
  h.serveReads c i.failure i.reads { max := config.maxFrameSize } o w

end Handler

end KeyedStream
