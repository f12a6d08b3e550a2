import KeyedStream.Dispatch
import KeyedStream.Rpc.ErrorBody
import KeyedStream.Rpc.Header

/-!
# Calls

Each of the two requests has a path, to which its message is posted. A call is checked before any of
the handler runs, and the first check that fails is its answer: the method, the size of the body,
the type of the body, the timeout, and the message itself. While the handler waits for something
that never comes, the deadline passes, if there is one.
-/

namespace KeyedStream

structure ServerConfig where
  /-- The address to listen on. -/
  addr : String := "0.0.0.0:8080"
  /-- The largest body that is accepted. -/
  maxMessageSize : Nat := 67108864
deriving DecidableEq, Repr

namespace Rpc

structure Request where
  method : String
  /-- What the call is for: a path, alone or behind a scheme and a host. -/
  target : String
  headers : Headers := []
  body : Bytes := []
deriving DecidableEq, Repr

/-- What an answer carries. -/
inductive Body where
  | none
  | text (s : String)
  | error (e : ErrorBody)
  | message (b : Bytes)
deriving DecidableEq, Repr

/-- The answer to a call. -/
structure Response where
  status : Nat
  body : Body
deriving DecidableEq, Repr

namespace Response

def contentType (r : Response) : Option String :=
  match r.body with
  | .none => none
  | .text _ => some "text/plain; charset=utf-8"
  | .error _ => some "application/json"
  | .message _ => some protoType

/-- The answer to a call that failed. -/
def ofError (e : Error) : Response :=
  let (status, body) := ErrorBody.ofError e
  ⟨status, .error body⟩

def tooLarge : Response := ⟨413, .text "Failed to buffer the request body: length limit exceeded"⟩

def unsupportedType (contentType : String) : Response :=
  ⟨415, .error { code := .invalidArgument,
                 message := "unsupported content type " ++ Text.quoted contentType ++
                   ", expected " ++ protoType }⟩

def notFound : Response := ⟨404, .none⟩

def methodNotAllowed : Response := ⟨405, .none⟩

end Response

/-- Checks a call that carries a message: what it says, and how long it may take. -/
def accept {μ : Type} (layout : Proto.Layout μ) (config : ServerConfig) (r : Request) :
    Except Response (μ × Option Span) :=
  if config.maxMessageSize < r.body.length then .error .tooLarge
  else if !isProto (contentType r.headers) then
    .error (.unsupportedType (contentType r.headers))
  else
    match timeout r.headers with
    | .error e => .error (.ofError e)
    | .ok limit =>
      match layout.decode r.body with
      | .error e => .error (.ofError (.decode e))
      | .ok m => .ok (m, limit)

variable {κ ω : Type} {Item : κ → Type}

/-- Runs a request in a context of its own, whose token is cancelled at the end. A request that
waits is ended by its deadline; without one it is never answered. -/
def withDeadline {α : Type} (limit : Option Span)
    (request : Context → World ω → Except Halt α × World ω) (w : World ω) :
    Option (Except Error α) × World ω :=
  let (c, w) := w.newContext
  match request c w with
  | (.ok a, w) => (some (.ok a), w.cancel c.token)
  | (.error (.failed e), w) => (some (.error e), w.cancel c.token)
  | (.error .waiting, w) =>
    match limit with
    | some span => (some (.error (.deadlineExceeded span)), w.cancel c.token)
    | none => (none, w)

/-- Answers a call that carries a message. -/
def serve {μ ρ : Type} (request : Proto.Layout μ) (response : Proto.Layout ρ)
    (answer : Context → μ → World ω → Except Halt ρ × World ω)
    (config : ServerConfig) (r : Request) (w : World ω) : Option Response × World ω :=
  match accept request config r with
  | .error rejection => (some rejection, w)
  | .ok (m, limit) =>
    let (result, w) := withDeadline limit (fun c w => answer c m w) w
    (result.map fun
      | .ok a => ⟨200, .message (response.encode a)⟩
      | .error e => .ofError e, w)

def keyEventBatchPath : String := "/handlerpb.Handler/KeyEventBatch"

def processEventBatchPath : String := "/handlerpb.Handler/ProcessEventBatch"

def healthPath : String := "/health"

/-- What follows the colon and the two slashes behind a scheme, if they are there. -/
def afterScheme? : List Char → Option (List Char)
  | [] => none
  | ':' :: '/' :: '/' :: rest => some rest
  | _ :: rest => afterScheme? rest

/-- Whether a character ends the path of a target: a query or a fragment follows it. -/
def endsPath (c : Char) : Bool := c = '?' || c = '#'

/-- The target of a call without its scheme and host; empty if it names neither these nor a path. -/
def Request.localTarget (r : Request) : List Char :=
  match r.target.toList with
  | '/' :: rest => '/' :: rest
  | cs =>
    match afterScheme? cs with
    | some rest => rest.dropWhile fun c => c ≠ '/' && !endsPath c
    | none => []

/-- The path of a call: what is asked for, without a query, which is not looked at. -/
def Request.path (r : Request) : String :=
  String.ofList (r.localTarget.takeWhile fun c => !endsPath c)

/-- Answers the question whether the server is there. -/
def health (method : String) : Response :=
  if method = "GET" then ⟨200, .text "ok"⟩
  else if method = "HEAD" then ⟨200, .text ""⟩
  else .methodNotAllowed

end Rpc

namespace Handler

open Rpc

variable {κ ω : Type} {Item : κ → Type}

def serveCall (h : Handler ω Item) (config : ServerConfig) (r : Request) (w : World ω) :
    Option Response × World ω :=
  if r.path = keyEventBatchPath then
    if r.method = "POST" then
      serve Wire.KeyEventBatchRequest.layout Wire.KeyEventBatchResponse.layout
        h.keyEventBatch config r w
    else (some .methodNotAllowed, w)
  else if r.path = processEventBatchPath then
    if r.method = "POST" then
      serve Wire.ProcessEventBatchRequest.layout Wire.ProcessEventBatchResponse.layout
        h.processEventBatch config r w
    else (some .methodNotAllowed, w)
  else if r.path = healthPath then (some (health r.method), w)
  else (some .notFound, w)

end Handler

end KeyedStream
