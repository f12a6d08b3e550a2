import Mathlib
import KeyedStream.Proofs.FirstFailure
import KeyedStream.Proofs.Messages
import KeyedStream.Proofs.Service
import KeyedStream.Rpc.Router

/-!
# One dispatch behind two transports

A batch is posted as it is, or wrapped in a command that goes through a pipe. Either way it is read
back and dispatched in a context of its own; `BatchRequest.dispatch` is what the transports have in
common. What each makes of a dispatch is a function of its result (`callEnd`, `pipeEnd`), and of
nothing else in the handler (`serveCall_of_posts`, `servePipe_of_sends`). So the transports agree on
the answer, on the failure and on what the handler is asked (`transports_agree`).
-/

namespace KeyedStream

open KeyedStream.Frame

/-- A batch that a handler can be given. -/
inductive BatchRequest where
  | keyEvents (request : Wire.KeyEventBatchRequest)
  | processEvents (request : Wire.ProcessEventBatchRequest)
deriving DecidableEq

namespace BatchRequest

/-- The body that a batch is posted as. -/
def body : BatchRequest → Bytes
  | keyEvents request => Wire.KeyEventBatchRequest.layout.encode request
  | processEvents request => Wire.ProcessEventBatchRequest.layout.encode request

/-- The path that a batch is posted to. -/
def path : BatchRequest → String
  | keyEvents _ => Rpc.keyEventBatchPath
  | processEvents _ => Rpc.processEventBatchPath

def command : BatchRequest → Wire.HandlerCommand
  | keyEvents request => .keyEventBatch request
  | processEvents request => .processEventBatch request

/-- The payload that a batch is sent as through a pipe. -/
def payload (r : BatchRequest) : Bytes := Wire.HandlerCommand.layout.encode r.command

variable {κ ω : Type} {Item : κ → Type}

/-- What the dispatcher comes to on a batch: the encoding of its answer, or why there is none. -/
def dispatch (h : Handler ω Item) (c : Context) : BatchRequest → World ω →
    Except Halt Bytes × World ω
  | keyEvents request, w =>
    ((h.keyEventBatch c request w).1.map Wire.KeyEventBatchResponse.layout.encode,
      (h.keyEventBatch c request w).2)
  | processEvents request, w =>
    ((h.processEventBatch c request w).1.map Wire.ProcessEventBatchResponse.layout.encode,
      (h.processEventBatch c request w).2)

/-! ## Encodings -/

theorem length_body_le (r : BatchRequest) : r.body.length ≤ r.payload.length := by
  -- the body is wrapped twice: in its batch, and that in the command
  have hwrapped : ∃ tag, r.payload = Proto.delimited tag (Proto.delimited 1 r.body ++ []) ++ [] := by
    cases r with
    | keyEvents request => exact ⟨1, rfl⟩
    | processEvents request => exact ⟨2, rfl⟩
  obtain ⟨tag, hpayload⟩ := hwrapped
  rw [List.append_nil, List.append_nil] at hpayload
  rw [hpayload]
  exact (Proto.length_le_length_delimited _ _).trans (Proto.length_le_length_delimited _ _)

theorem decode_payload {r : BatchRequest} (hlen : r.payload.length < 2 ^ 64) :
    Wire.HandlerCommand.layout.decode r.payload = .ok r.command :=
  Wire.HandlerCommand.lossless.decode_encode hlen

/-- A batch is dispatched as it is when nothing is noted. -/
theorem exists_asked (h : Handler ω Item) (c : Context) (r : BatchRequest) (w : World ω) :
    ∃ asked, r.dispatch h.recorded c (w.noting []) =
      ((r.dispatch h c w).1, (r.dispatch h c w).2.noting asked) := by
  cases r with
  | keyEvents request =>
    obtain ⟨asked, hnoted⟩ := Handler.exists_asked_of_keyEventBatch h c request w
    exact ⟨asked, by simp only [dispatch, hnoted []]; rfl⟩
  | processEvents request =>
    obtain ⟨asked, hnoted⟩ := Handler.exists_asked_of_processEventBatch h c request w
    exact ⟨asked, by simp only [dispatch, hnoted []]; rfl⟩

end BatchRequest

namespace Handler

open Rpc

variable {κ ω : Type} {Item : κ → Type} {h : Handler ω Item} {r : BatchRequest}

theorem answer_command (c : Context) (w : World ω) : h.answer c r.command w = r.dispatch h c w := by
  cases r <;> rfl

/-! ## Calls -/

/-- A call that posts a batch to its path, within the limit of a server and its own time. -/
structure Posts (config : ServerConfig) (call : Rpc.Request) (r : BatchRequest) : Prop where
  method : call.method = "POST"
  path : call.path = r.path
  type : isProto (contentType call.headers) = true
  unlimited : call.headers.find? timeoutHeader = none
  body : call.body = r.body
  fits : r.body.length ≤ config.maxMessageSize

/-- What a call is answered by, and what is left of the world: the context of the call is given up,
unless the handler is still waited for. -/
def callEnd (c : Context) : Except Halt Bytes → World ω → Option Response × World ω
  | .ok a, w => (some ⟨200, .message a⟩, w.cancel c.token)
  | .error (.failed e), w =>
    (some ⟨(ErrorBody.ofError e).1, .error (ErrorBody.ofError e).2⟩, w.cancel c.token)
  | .error .waiting, w => (none, w)

theorem serve_eq_callEnd {μ ρ : Type} {request : Proto.Layout μ} {response : Proto.Layout ρ}
    {config : ServerConfig} {call : Rpc.Request} {m : μ}
    (haccept : accept request config call = .ok (m, none))
    (answer : Context → μ → World ω → Except Halt ρ × World ω) (w : World ω) :
    serve request response answer config call w =
      callEnd w.newContext.1
        ((answer w.newContext.1 m w.newContext.2).1.map response.encode)
        (answer w.newContext.1 m w.newContext.2).2 := by
  rw [serve, haccept]
  simp only [withDeadline]
  rcases answer w.newContext.1 m w.newContext.2 with ⟨(_ | _) | _, _⟩ <;> rfl

/-- **A posted batch is dispatched**, and answered by what the dispatch comes to. -/
theorem serveCall_of_posts {config : ServerConfig} {call : Rpc.Request} (hposts : Posts config call r)
    (hlen : r.payload.length < 2 ^ 64) (w : World ω) :
    h.serveCall config call w =
      callEnd w.newContext.1 (r.dispatch h w.newContext.1 w.newContext.2).1
        (r.dispatch h w.newContext.1 w.newContext.2).2 := by
  have hbody : r.body.length < 2 ^ 64 := r.length_body_le.trans_lt hlen
  have haccept : ∀ {μ : Type} {layout : Proto.Layout μ} {m : μ},
      layout.decode r.body = .ok m → accept layout config call = .ok (m, none) := by
    intro μ layout m hdecode
    have hsize : ¬ config.maxMessageSize < r.body.length := Nat.not_lt.2 hposts.fits
    simp only [accept, hposts.body, if_neg hsize, hposts.type, timeout, hposts.unlimited, hdecode,
      Bool.not_true, Bool.false_eq_true, if_false]
  cases r with
  | keyEvents request =>
    have hpath : call.path = keyEventBatchPath := hposts.path
    rw [serveCall, if_pos hpath, if_pos hposts.method]
    exact serve_eq_callEnd (haccept (Wire.KeyEventBatchRequest.lossless.decode_encode hbody)) _ w
  | processEvents request =>
    have hpath : call.path = processEventBatchPath := hposts.path
    have hother : processEventBatchPath ≠ keyEventBatchPath := by decide
    rw [serveCall, hpath, if_neg hother, if_pos rfl, if_pos hposts.method]
    exact serve_eq_callEnd (haccept (Wire.ProcessEventBatchRequest.lossless.decode_encode hbody)) _ w

/-! ## Pipes -/

/-- An input that is the frame of a batch, within the limit of a pipe, and ends after it. -/
structure Sends (config : PipeConfig) (i : Input) (r : BatchRequest) : Prop where
  reads : ∀ data ∈ i.reads, data ≠ []
  ends : i.failure = none
  bytes : i.bytes = frame r.payload
  fits : Fits config.maxFrameSize r.payload

/-- How a pipe ends after a batch, what is written by then, and what is left of the world: an answer
is written as one frame, unless it is too long for any. -/
def pipeEnd (o : Output) : Except Halt Bytes → World ω → Except Halt Unit × Output × World ω
  | .ok a, w =>
    if a.length < 256 ^ lengthSize then (.ok (), { o with written := o.written ++ frame a }, w)
    else
      (.error (.failed (.protocol ("payload size " ++ toString a.length ++
        " does not fit a 4-byte length prefix"))), o, w)
  | .error halt, w => (.error halt, o, w)

/-- **A batch that is sent is dispatched**, and the dispatch decides how the pipe ends. -/
theorem servePipe_of_sends {config : PipeConfig} {i : Input} {o : Output} (hsends : Sends config i r)
    (ho : o.capacity = none) (c : Context) (w : World ω) :
    h.servePipe config c i o w = pipeEnd o (r.dispatch h c w).1 (r.dispatch h c w).2 := by
  have hlen : r.payload.length < 2 ^ 64 := hsends.fits.2.trans (by decide)
  have hreply := replies_answer (h := h) (c := c) (w := w) (BatchRequest.decode_payload hlen)
  rw [answer_command] at hreply
  have hpipe : ∀ {rs result w'}, h.Serves c w [r.payload] rs result w' →
      h.servePipe config c i o w = (result.bind fun _ => ending [], o.emit rs, w') :=
    servePipe_of_serves hsends.reads hsends.ends ho (by simpa using hsends.fits) (incomplete_nil _)
      (by simpa using hsends.bytes)
  rcases hdispatch : r.dispatch h c w with ⟨halt | a, w'⟩ <;> rw [hdispatch] at hreply
  · rw [hpipe (.halted hreply), Output.emit_nil]
    rfl
  · by_cases hfits : a.length < 256 ^ lengthSize
    · rw [hpipe (.answered hreply hfits (.done w')), pipeEnd, if_pos hfits]
      simp [Except.bind, ending, Output.emit]
    · rw [hpipe (.tooLong hreply (if_neg hfits)), pipeEnd, if_neg hfits, Output.emit_nil]
      rfl

/-! ## Agreement -/

/-- **The transports agree.** A batch that is posted, and the same batch sent through a pipe in a
fresh context, are dispatched once each, and to the same effect: the handler is asked the same, and
what the dispatch comes to is the answer of the call and the end of the pipe. Only an answer that is
too long for the length of a frame gets through the call alone; the pipe says so and ends. -/
theorem transports_agree (h : Handler ω Item) (r : BatchRequest) {server : ServerConfig}
    {call : Rpc.Request} {pipe : PipeConfig} {i : Input} {o : Output} (hposts : Posts server call r)
    (hsends : Sends pipe i r) (ho : o.capacity = none) (w : World ω) :
    ∃ asked result w',
      r.dispatch h w.newContext.1 w.newContext.2 = (result, w') ∧
      r.dispatch h.recorded w.newContext.1 (w.newContext.2.noting []) = (result, w'.noting asked) ∧
      h.serveCall server call w = callEnd w.newContext.1 result w' ∧
      h.recorded.serveCall server call (w.noting []) =
        callEnd w.newContext.1 result (w'.noting asked) ∧
      h.servePipe pipe w.newContext.1 i o w.newContext.2 = pipeEnd o result w' ∧
      h.recorded.servePipe pipe w.newContext.1 i o (w.newContext.2.noting []) =
        pipeEnd o result (w'.noting asked) := by
  have hlen : r.payload.length < 2 ^ 64 := hsends.fits.2.trans (by decide)
  obtain ⟨asked, hnoted⟩ := r.exists_asked h w.newContext.1 w.newContext.2
  refine ⟨asked, (r.dispatch h w.newContext.1 w.newContext.2).1,
    (r.dispatch h w.newContext.1 w.newContext.2).2, rfl, hnoted, serveCall_of_posts hposts hlen w, ?_,
    servePipe_of_sends hsends ho _ _, ?_⟩
  · have hcall := serveCall_of_posts (h := h.recorded) hposts hlen (w.noting [])
    have hfresh : (w.noting []).newContext = (w.newContext.1, w.newContext.2.noting []) := rfl
    rwa [hfresh, hnoted] at hcall
  · rw [servePipe_of_sends hsends ho, hnoted]

/-! ### Every batch can be posted and sent -/

def protoHeaders : Headers := [("Content-Type", Bytes.ofText protoType)]

/-- A call that posts a batch. -/
def postOf (r : BatchRequest) : Rpc.Request where
  method := "POST"
  target := r.path
  headers := protoHeaders
  body := r.body

theorem posts_postOf {config : ServerConfig} (hfits : r.body.length ≤ config.maxMessageSize) :
    Posts config (postOf r) r where
  method := rfl
  path := by
    cases r <;>
      simp only [Rpc.Request.path, Rpc.Request.localTarget, postOf, BatchRequest.path] <;> decide
  type := by
    have htype : isProto (contentType protoHeaders) = true := by decide
    exact htype
  unlimited := by
    have hnone : protoHeaders.find? timeoutHeader = none := by decide
    exact hnone
  body := rfl
  fits := hfits

/-- A stream that sends a batch in one piece. -/
def streamOf (r : BatchRequest) : Input where
  chunks := [frame r.payload]

theorem sends_streamOf {config : PipeConfig} (hfits : Fits config.maxFrameSize r.payload) :
    Sends config (streamOf r) r where
  reads := by
    intro data hdata
    have hframe : frame r.payload ≠ [] := by
      rw [← List.length_pos_iff, length_frame, lengthSize]
      omega
    rw [Input.reads, streamOf, List.flatMap_singleton] at hdata
    exact ne_nil_of_mem_splitReads hframe hdata
  ends := rfl
  bytes := List.append_nil _
  fits := hfits

/-- A batch of an event, which is echoed, and of one that asks for nothing. -/
def sampleEvents : BatchRequest :=
  .processEvents { events := [⟨some (.keyedEvent { key := [1], value := [10] })⟩, {}] }

/-- The world before the batch. -/
def sampleStart : World Script.Trace := { own := [] }

/-- The first event is handled and the second one fails, on either way. -/
theorem transports_agree_sample :
    (sampleHandler.serveCall {} (postOf sampleEvents) sampleStart).1 =
        some ⟨400, .error ⟨.invalidArgument, "bad request: event 1 has no payload"⟩⟩ ∧
      (sampleHandler.servePipe {} sampleStart.newContext.1 (streamOf sampleEvents) {}
          sampleStart.newContext.2).1 =
        .error (.failed (.badRequest "event 1 has no payload")) ∧
      (sampleHandler.recorded.serveCall {} (postOf sampleEvents) (sampleStart.noting [])).2.notes =
        [.event sampleContext ⟨[1], .epoch, [10]⟩] ∧
      (sampleHandler.recorded.servePipe {} sampleStart.newContext.1 (streamOf sampleEvents) {}
          (sampleStart.newContext.2.noting [])).2.2.notes =
        [.event sampleContext ⟨[1], .epoch, [10]⟩] := by
  have hbody : sampleEvents.body.length ≤ 67108864 := by
    have hlen : sampleEvents.body.length = 12 := by decide
    omega
  have hpayload : Fits standardMax sampleEvents.payload := by
    have hlen : sampleEvents.payload.length = 16 := by decide
    rw [Fits, hlen, standardMax, lengthSize]
    omega
  obtain ⟨asked, result, w', hdispatch, hnoted, hcall, hnotedCall, hpipe, hnotedPipe⟩ :=
    transports_agree sampleHandler sampleEvents (posts_postOf hbody : Posts {} _ _)
      (sends_streamOf hpayload : Sends {} _ _) (rfl : Output.capacity {} = none) sampleStart
  have hfails : sampleEvents.dispatch sampleHandler.recorded sampleStart.newContext.1
      (sampleStart.newContext.2.noting []) =
        (.error (.failed (.badRequest "event 1 has no payload")),
          sampleStart.newContext.2.noting [.event sampleContext ⟨[1], .epoch, [10]⟩]) := rfl
  obtain ⟨rfl, hsame⟩ := Prod.mk.inj (hnoted.symm.trans hfails)
  obtain ⟨rfl, rfl⟩ := World.noting_inj hsame
  rw [hcall, hnotedCall, hpipe, hnotedPipe]
  exact ⟨rfl, rfl, rfl, rfl⟩

end Handler

end KeyedStream
