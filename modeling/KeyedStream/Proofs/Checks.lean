import Mathlib
import KeyedStream.Proofs.Headers
import KeyedStream.Proofs.Transports

/-!
# The checks of a call

A call to one of the two requests is checked in a fixed order (`Check`). It passes all checks and is
dispatched, in the time that its timeout header allows (`serveCall_of_passes`); or the first check that
it fails is its answer, and the handler is not asked at all (`exists_refusal`). What the headers must
be to pass is said by their grammars. `serveCall_checks` puts this together.
-/

namespace KeyedStream

/-- The two requests that batches are posted to. -/
inductive Procedure where
  | keyEvents | processEvents
deriving DecidableEq, Repr

namespace Procedure

def path : Procedure → String
  | keyEvents => "/handlerpb.Handler/KeyEventBatch"
  | processEvents => "/handlerpb.Handler/ProcessEventBatch"

/-- The batch that a body stands for. -/
def read (p : Procedure) (body : Bytes) : Except Proto.DecodeError BatchRequest :=
  match p with
  | keyEvents => (Wire.KeyEventBatchRequest.layout.decode body).map .keyEvents
  | processEvents => (Wire.ProcessEventBatchRequest.layout.decode body).map .processEvents

end Procedure

namespace Rpc

/-- The checks of a call, in the order in which they are made. -/
inductive Check where
  | method | size | type | timeout | body
deriving DecidableEq, Repr

namespace Check

variable {p : Procedure} {config : ServerConfig} {r : Request}

/-- The place of a check in the order. -/
def place : Check → Nat
  | method => 0
  | size => 1
  | type => 2
  | timeout => 3
  | body => 4

/-- What a check asks of a call. -/
def Passes (p : Procedure) (config : ServerConfig) (r : Request) : Check → Prop
  | method => r.method = "POST"
  | size => r.body.length ≤ config.maxMessageSize
  | type => ∃ value, r.headers.find? "content-type" = some value ∧ IsProtoType value
  | timeout => ∀ value, r.headers.find? "connect-timeout-ms" = some value → IsMillis value
  | body => ∃ batch, p.read r.body = .ok batch

/-- The first check that a call fails. -/
def FailsFirst (p : Procedure) (config : ServerConfig) (r : Request) (check : Check) : Prop :=
  ¬ check.Passes p config r ∧
    ∀ earlier : Check, earlier.place < check.place → earlier.Passes p config r

/-- What a call is answered by that fails a check. -/
inductive Refuses (p : Procedure) (r : Request) : Check → Response → Prop
  | method : Refuses p r .method ⟨405, .none⟩
  | size : Refuses p r .size ⟨413, .text "Failed to buffer the request body: length limit exceeded"⟩
  | type : Refuses p r .type ⟨415, .error ⟨.invalidArgument, "unsupported content type " ++
      Text.quoted (contentType r.headers) ++ ", expected " ++ "application/proto"⟩⟩
  | timeout {value : Bytes} (hvalue : r.headers.find? "connect-timeout-ms" = some value) :
      Refuses p r .timeout ⟨400, .error ⟨.invalidArgument,
        "bad request: " ++ ("invalid connect-timeout-ms header " ++ quotedHeader value)⟩⟩
  | body {e : Proto.DecodeError} (hread : p.read r.body = .error e) :
      Refuses p r .body ⟨400, .error ⟨.invalidArgument, "protobuf decode error: " ++ e.message⟩⟩

/-- A call passes all checks, or there is one that it fails first. -/
theorem passes_or_exists_failsFirst (p : Procedure) (config : ServerConfig) (r : Request) :
    (∀ check : Check, check.Passes p config r) ∨ ∃ check : Check, check.FailsFirst p config r := by
  by_cases hall : ∀ check : Check, check.Passes p config r
  · exact .inl hall
  · obtain ⟨failing, hfailing⟩ := not_forall.1 hall
    obtain ⟨check, hcheck, hfirst⟩ :=
      (measure place).wf.has_min {c | ¬ c.Passes p config r} ⟨failing, hfailing⟩
    exact .inr ⟨check, hcheck, fun earlier hlt => by_contra fun hnot => hfirst earlier hnot hlt⟩

end Check

open Check

variable {p : Procedure} {config : ServerConfig} {r : Request} {check : Check}

/-! ## Checks before the dispatch -/

section Accept

variable {μ : Type} {layout : Proto.Layout μ} {make : μ → BatchRequest}

/-- Behind the checks of the size and of the type, the timeout is read and then the body. -/
theorem accept_of_passes (hsize : Check.size.Passes p config r) (htype : Check.type.Passes p config r) :
    accept layout config r =
      match timeout r.headers with
      | .error e => .error (.ofError e)
      | .ok limit =>
        match layout.decode r.body with
        | .error e => .error (.ofError (.decode e))
        | .ok m => .ok (m, limit) := by
  rw [accept, if_neg (Nat.not_lt.2 hsize), isProto_contentType_iff.2 htype]
  rfl

variable (hread : p.read r.body = (layout.decode r.body).map make)

include hread

/-- A call that fails a check behind that of its method is refused by the first such. -/
theorem exists_accept_eq_error (hposted : check ≠ .method) (hfails : check.FailsFirst p config r) :
    ∃ resp, Refuses p r check resp ∧ accept layout config r = .error resp := by
  obtain ⟨hnot, hbefore⟩ := hfails
  cases check with
  | method => exact absurd rfl hposted
  | size => exact ⟨_, .size, if_pos (Nat.lt_of_not_le hnot)⟩
  | type =>
    have hsize : ¬ config.maxMessageSize < r.body.length := Nat.not_lt.2 (hbefore .size (by decide))
    have htype : isProto (contentType r.headers) = false := by
      rw [← Bool.not_eq_true, isProto_contentType_iff]
      exact hnot
    refine ⟨_, .type, ?_⟩
    rw [accept, if_neg hsize, htype]
    rfl
  | timeout =>
    obtain ⟨value, hvalue, hmillis⟩ : ∃ value, r.headers.find? "connect-timeout-ms" = some value ∧
        ¬ IsMillis value := by simpa [Passes] using hnot
    refine ⟨_, .timeout hvalue, ?_⟩
    rw [accept_of_passes (hbefore .size (by decide)) (hbefore .type (by decide)),
      timeout_of_not_millis hvalue hmillis]
    rfl
  | body =>
    cases hdecode : layout.decode r.body with
    | ok m => exact absurd ⟨make m, by rw [hread, hdecode]; rfl⟩ hnot
    | error e =>
      refine ⟨_, .body (e := e) (by rw [hread, hdecode]; rfl), ?_⟩
      rw [accept_of_passes (hbefore .size (by decide)) (hbefore .type (by decide)),
        timeout_of_millis (hbefore .timeout (by decide)), hdecode]
      rfl

/-- A call that passes all checks is accepted, with the time that its header allows. -/
theorem exists_accept_eq_ok (hpasses : ∀ check : Check, check.Passes p config r) :
    ∃ m, p.read r.body = .ok (make m) ∧ accept layout config r = .ok (m, limitOf r.headers) := by
  obtain ⟨batch, hbatch⟩ := hpasses .body
  cases hdecode : layout.decode r.body with
  | error e =>
    rw [hread, hdecode] at hbatch
    cases hbatch
  | ok m =>
    refine ⟨m, by rw [hread, hdecode]; rfl, ?_⟩
    rw [accept_of_passes (hpasses .size) (hpasses .type), timeout_of_millis (hpasses .timeout),
      hdecode]

end Accept

/-- What is accepted of a call to a procedure: its batch, and how long it may take. -/
def accepted (p : Procedure) (config : ServerConfig) (r : Request) :
    Except Response (BatchRequest × Option Span) :=
  match p with
  | .keyEvents =>
    (accept Wire.KeyEventBatchRequest.layout config r).map fun a => (.keyEvents a.1, a.2)
  | .processEvents =>
    (accept Wire.ProcessEventBatchRequest.layout config r).map fun a => (.processEvents a.1, a.2)

theorem exists_accepted_eq_error (hposted : check ≠ .method) (hfails : check.FailsFirst p config r) :
    ∃ resp, Refuses p r check resp ∧ accepted p config r = .error resp := by
  cases p with
  | keyEvents =>
    obtain ⟨resp, hrefuses, haccept⟩ := exists_accept_eq_error rfl hposted hfails
    exact ⟨resp, hrefuses, by rw [accepted, haccept]; rfl⟩
  | processEvents =>
    obtain ⟨resp, hrefuses, haccept⟩ := exists_accept_eq_error rfl hposted hfails
    exact ⟨resp, hrefuses, by rw [accepted, haccept]; rfl⟩

theorem exists_accepted_eq_ok (hpasses : ∀ check : Check, check.Passes p config r) :
    ∃ batch, p.read r.body = .ok batch ∧ accepted p config r = .ok (batch, limitOf r.headers) := by
  cases p with
  | keyEvents =>
    obtain ⟨m, hread, haccept⟩ := exists_accept_eq_ok rfl hpasses
    exact ⟨_, hread, by rw [accepted, haccept]; rfl⟩
  | processEvents =>
    obtain ⟨m, hread, haccept⟩ := exists_accept_eq_ok rfl hpasses
    exact ⟨_, hread, by rw [accepted, haccept]; rfl⟩

end Rpc

namespace Handler

open Rpc Rpc.Check

variable {κ ω : Type} {Item : κ → Type} {h : Handler ω Item} {p : Procedure} {config : ServerConfig}
  {r : Rpc.Request} {check : Check}

/-- What a batch is answered by that is dispatched within a limit of time, and the world after it. -/
def answerWithin (h : Handler ω Item) (limit : Option Span) (batch : BatchRequest) (w : World ω) :
    Option Response × World ω :=
  let (result, w) := withDeadline limit (fun c w => batch.dispatch h c w) w
  (result.map fun
    | .ok a => ⟨200, .message a⟩
    | .error e => .ofError e, w)

theorem serve_of_dispatch {μ ρ : Type} {request : Proto.Layout μ} {response : Proto.Layout ρ}
    {answer : Context → μ → World ω → Except Halt ρ × World ω} {make : μ → BatchRequest}
    (hdispatch : ∀ c m w,
      (make m).dispatch h c w = ((answer c m w).1.map response.encode, (answer c m w).2))
    (w : World ω) :
    serve request response answer config r w =
      match (accept request config r).map fun a => (make a.1, a.2) with
      | .error resp => (some resp, w)
      | .ok (batch, limit) => h.answerWithin limit batch w := by
  rw [serve]
  rcases accept request config r with _ | ⟨m, limit⟩
  · rfl
  · simp only [Except.map, answerWithin, withDeadline, hdispatch]
    rcases answer w.newContext.1 m w.newContext.2 with ⟨(_ | _) | _, _⟩
    · rfl
    · cases limit <;> rfl
    · rfl

/-- A call to a procedure is refused with the world as it was, or its batch is dispatched. -/
theorem serveCall_of_path (hpath : r.path = p.path) (w : World ω) :
    h.serveCall config r w =
      if r.method = "POST" then
        match accepted p config r with
        | .error resp => (some resp, w)
        | .ok (batch, limit) => h.answerWithin limit batch w
      else (some ⟨405, .none⟩, w) := by
  cases p with
  | keyEvents =>
    have hfirst : r.path = keyEventBatchPath := hpath
    have hdispatch : ∀ c m w, (BatchRequest.keyEvents m).dispatch h c w = ((h.keyEventBatch c m w).1.map
        Wire.KeyEventBatchResponse.layout.encode, (h.keyEventBatch c m w).2) := fun _ _ _ => rfl
    rw [serveCall, if_pos hfirst, accepted, serve_of_dispatch hdispatch]
    rfl
  | processEvents =>
    have hsecond : r.path = processEventBatchPath := hpath
    have hother : processEventBatchPath ≠ keyEventBatchPath := by decide
    have hdispatch : ∀ c m w, (BatchRequest.processEvents m).dispatch h c w =
        ((h.processEventBatch c m w).1.map Wire.ProcessEventBatchResponse.layout.encode,
          (h.processEventBatch c m w).2) := fun _ _ _ => rfl
    rw [serveCall, hsecond, if_neg hother, if_pos rfl, accepted, serve_of_dispatch hdispatch]
    rfl

/-- The first check that a call fails is its answer, by any handler, and the world stays as it was. -/
theorem exists_refusal (hpath : r.path = p.path) (hfails : check.FailsFirst p config r) :
    ∃ resp, Refuses p r check resp ∧ ∀ {κ ω : Type} {Item : κ → Type} (h : Handler ω Item)
      (w : World ω), h.serveCall config r w = (some resp, w) := by
  by_cases hposted : check = .method
  · subst hposted
    have hmethod : ¬ r.method = "POST" := hfails.1
    exact ⟨_, .method, fun h w => by rw [serveCall_of_path hpath, if_neg hmethod]⟩
  · have hplace : Check.method.place < check.place := by
      cases check <;> first | exact absurd rfl hposted | decide
    have hmethod : r.method = "POST" := hfails.2 .method hplace
    obtain ⟨resp, hrefuses, haccepted⟩ := exists_accepted_eq_error hposted hfails
    exact ⟨resp, hrefuses, fun h w => by rw [serveCall_of_path hpath, if_pos hmethod, haccepted]⟩

/-- A call that passes all checks is dispatched in the time that its header allows. -/
theorem serveCall_of_passes (hpath : r.path = p.path)
    (hpasses : ∀ check : Check, check.Passes p config r) :
    ∃ batch, p.read r.body = .ok batch ∧
      ∀ w : World ω, h.serveCall config r w = h.answerWithin (limitOf r.headers) batch w := by
  have hmethod : r.method = "POST" := hpasses .method
  obtain ⟨batch, hread, haccepted⟩ := exists_accepted_eq_ok hpasses
  exact ⟨batch, hread, fun w => by rw [serveCall_of_path hpath, if_pos hmethod, haccepted]⟩

/-- **The checks of a call come first, in their order.** The answer to a call that fails one is that
of the first that it fails, and nothing has been asked of the handler or changed in the world; a call
that passes them all is dispatched in exactly the time that its header allows. So whoever asks the
handler anything has passed. Content types and timeouts are accepted by their grammars, and the
number of a timeout always is one of 64 bits. -/
theorem serveCall_checks (h : Handler ω Item) (hpath : r.path = p.path) (w : World ω)
    (notes : List Asked) :
    (∀ check : Check, check.FailsFirst p config r → ∃ resp, Refuses p r check resp ∧
      h.serveCall config r w = (some resp, w) ∧
      h.recorded.serveCall config r (w.noting notes) = (some resp, w.noting notes)) ∧
    ((∀ check : Check, check.Passes p config r) → ∃ batch, p.read r.body = .ok batch ∧
      h.serveCall config r w = h.answerWithin (limitOf r.headers) batch w) ∧
    ((∀ check : Check, check.Passes p config r) ∨
      ∃ check : Check, check.FailsFirst p config r) ∧
    ((h.recorded.serveCall config r (w.noting notes)).2.notes ≠ notes →
      ∀ check : Check, check.Passes p config r) ∧
    (isProto (contentType r.headers) = true ↔ Check.type.Passes p config r) ∧
    (∀ limit, timeout r.headers = .ok limit ↔
      Check.timeout.Passes p config r ∧ limit = limitOf r.headers) ∧
    ∀ value, IsMillis value → decimal value < 2 ^ 64 := by
  refine ⟨fun check hfails => ?_, fun hpasses => ?_, passes_or_exists_failsFirst p config r,
    fun hnotes => ?_, isProto_contentType_iff, fun limit => ?_, fun value => decimal_lt⟩
  · -- the same refusal, whatever handler it is
    obtain ⟨resp, hrefuses, hcall⟩ := exists_refusal hpath hfails
    exact ⟨resp, hrefuses, hcall h w, hcall h.recorded (w.noting notes)⟩
  · obtain ⟨batch, hread, hcall⟩ := serveCall_of_passes (h := h) hpath hpasses
    exact ⟨batch, hread, hcall w⟩
  · rcases passes_or_exists_failsFirst p config r with hpasses | ⟨check, hfails⟩
    · exact hpasses
    · obtain ⟨resp, -, hcall⟩ := exists_refusal hpath hfails
      rw [hcall] at hnotes
      exact absurd rfl hnotes
  · exact timeout_eq_ok_iff

/-- A call with a type in another case, a timeout of eleven digits, and no message in it. -/
def faultyCall : Rpc.Request where
  method := "POST"
  target := "/handlerpb.Handler/ProcessEventBatch?n=1"
  headers := [("content-type", Bytes.ofText " Application/PROTO; a=b"),
    ("connect-timeout-ms", Bytes.ofText "12345678901")]
  body := [255]

/-- The timeout is what the answer is about. -/
theorem serveCall_checks_sample :
    sampleHandler.serveCall {} faultyCall sampleStart =
      (some ⟨400, .error ⟨.invalidArgument,
        "bad request: invalid connect-timeout-ms header \"12345678901\""⟩⟩, sampleStart) := by
  have hpath : faultyCall.path = Procedure.processEvents.path := by
    simp only [Rpc.Request.path, Rpc.Request.localTarget, faultyCall, Procedure.path]
    decide
  have hvalue : faultyCall.headers.find? "connect-timeout-ms" = some (Bytes.ofText "12345678901") := by
    decide
  have hfails : Check.timeout.FailsFirst .processEvents {} faultyCall := by
    refine ⟨fun hmillis => ?_, fun earlier hearlier => ?_⟩
    · have hlength := (hmillis _ hvalue).2.1
      exact absurd hlength (by decide)
    · cases earlier with
      | method => rfl
      | size => exact (by decide : [(255 : UInt8)].length ≤ 67108864)
      | type =>
        exact ⟨Bytes.ofText " Application/PROTO; a=b", by decide, by decide +kernel, [32],
          Bytes.ofText "Application/PROTO", [], by decide +kernel, by simp, by decide +kernel⟩
      | timeout => exact absurd hearlier (by decide)
      | body => exact absurd hearlier (by decide)
  obtain ⟨resp, hrefuses, hcall, -⟩ :=
    (serveCall_checks sampleHandler hpath sampleStart []).1 .timeout hfails
  cases hrefuses with
  | timeout h =>
    obtain rfl := Option.some.inj (h.symm.trans hvalue)
    have hquoted : quotedHeader (Bytes.ofText "12345678901") = "\"12345678901\"" := by decide +kernel
    rw [hcall, hquoted]
    rfl

end Handler

end KeyedStream
