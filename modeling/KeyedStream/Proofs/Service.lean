import Mathlib
import KeyedStream.Proofs.Stream
import KeyedStream.Pipe

/-!
# The service of a pipe

The reads of a pipe only matter through the bytes that they hand out, as long as no length above the
limit comes (`Handler.serveReads_append`): the payloads are served as a row. Each comes to the encoded
answer of the dispatcher or to a halt (`Handler.Replies`), and the first halt ends the service
(`Handler.Serves`). How far a row is served, and with which answers, is determined by the handler and
the world that it starts from (`Handler.exists_serves`, `Handler.Serves.unique`).
`Handler.servePipe_frames` puts this together, and says how a pipe ends when its input does.
-/

namespace KeyedStream

open KeyedStream.Frame

namespace Handler

variable {κ ω : Type} {Item : κ → Type} {h : Handler ω Item} {c : Context}

/-! ## Rows of payloads, and reads -/

theorem servePayloads_append (h : Handler ω Item) (c : Context) (ps qs : List Bytes) (o : Output)
    (w : World ω) :
    h.servePayloads c (ps ++ qs) o w =
      match h.servePayloads c ps o w with
      | (.error halt, o, w) => (.error halt, o, w)
      | (.ok (), o, w) => h.servePayloads c qs o w := by
  induction ps generalizing o w with
  | nil => rfl
  | cons p ps ih =>
    rw [List.cons_append, servePayloads, servePayloads]
    rcases h.servePayload c p o w with ⟨_ | _, o, w⟩
    · rfl
    · exact ih o w

/-- **Where a stream is cut does not matter** on the way through its frames: their payloads are
served as a row, and if all are answered, the reads that follow find the buffer as if all bytes had
come at once. -/
theorem serveReads_append (h : Handler ω Item) (c : Context) (failure : Option String)
    (more : List Bytes) {max : Nat} {reads : List Bytes} {front rest : Bytes} {ps : List Bytes}
    (o : Output) (w : World ω) (hreads : ∀ data ∈ reads, data ≠ []) (hfront : Incomplete max front)
    (hps : ∀ p ∈ ps, Fits max p) (hrest : Incomplete max rest)
    (hbytes : front ++ reads.flatten = ps.flatMap frame ++ rest) :
    h.serveReads c failure (reads ++ more) (.resting max front) o w =
      match h.servePayloads c ps o w with
      | (.error halt, o, w) => (.error halt, o, w)
      | (.ok (), o, w) => h.serveReads c failure more (.resting max rest) o w := by
  induction reads generalizing front ps o w with
  | nil =>
    rw [List.flatten_nil, List.append_nil] at hbytes
    obtain ⟨ps', hnil, hrest'⟩ :=
      @exists_append_of_frames max ps [] rest front hps (by simp) (.inl hfront) hbytes.symm
    obtain ⟨rfl, rfl⟩ := List.append_eq_nil_iff.1 hnil.symm
    rw [hrest', List.flatMap_nil, List.nil_append, List.nil_append, servePayloads]
  | cons data reads ih =>
    rw [List.flatten_cons] at hbytes
    obtain ⟨qs, ps', front', rfl, hpush, hfront', htail⟩ :=
      FrameBuffer.exists_push_resting hfront hps hrest hbytes
    have hdata : data.isEmpty = false := by
      simpa using hreads data List.mem_cons_self
    rw [List.cons_append, serveReads, hdata, servePayloads_append]
    simp only [Bool.false_eq_true, if_false, hpush]
    rcases h.servePayloads c qs o w with ⟨_ | _, o, w⟩
    · rfl
    · exact ih o w (fun d hd => hreads d (List.mem_cons_of_mem _ hd)) hfront'
        (fun p hp => hps p (List.mem_append_right qs hp)) htail

/-! ## One payload -/

/-- What a payload comes to: the encoded answer of the dispatcher, or why there is none. A command
that brings no request is taken for one that brings the request without fields. -/
inductive Replies (h : Handler ω Item) (c : Context) (w : World ω) (p : Bytes) :
    Except Halt Bytes → World ω → Prop where
  | undecodable {e : Proto.DecodeError} (hdecode : Wire.HandlerCommand.layout.decode p = .error e) :
      Replies h c w p (.error (.failed (.decode e))) w
  | noCommand (hdecode : Wire.HandlerCommand.layout.decode p = .ok ⟨none⟩) :
      Replies h c w p (.error (.failed (.badRequest "handler command has no payload"))) w
  | keyEventBatch {request : Option Wire.KeyEventBatchRequest}
      {r : Except Halt Wire.KeyEventBatchResponse} {w' : World ω}
      (hdecode : Wire.HandlerCommand.layout.decode p = .ok ⟨some (.keyEventBatch ⟨request⟩)⟩)
      (hrun : h.keyEventBatch c (request.getD {}) w = (r, w')) :
      Replies h c w p (r.map Wire.KeyEventBatchResponse.layout.encode) w'
  | processEventBatch {request : Option Wire.ProcessEventBatchRequest}
      {r : Except Halt Wire.ProcessEventBatchResponse} {w' : World ω}
      (hdecode : Wire.HandlerCommand.layout.decode p = .ok ⟨some (.processEventBatch ⟨request⟩)⟩)
      (hrun : h.processEventBatch c (request.getD {}) w = (r, w')) :
      Replies h c w p (r.map Wire.ProcessEventBatchResponse.layout.encode) w'

/-- A command comes to what the dispatcher answers. -/
theorem replies_answer {w : World ω} {p : Bytes} {command : Wire.HandlerCommand}
    (hdecode : Wire.HandlerCommand.layout.decode p = .ok command) :
    h.Replies c w p (h.answer c command w).1 (h.answer c command w).2 := by
  obtain ⟨_ | ⟨⟨request⟩⟩ | ⟨⟨request⟩⟩⟩ := command
  · exact .noCommand hdecode
  · exact .keyEventBatch hdecode rfl
  · exact .processEventBatch hdecode rfl

theorem exists_replies (h : Handler ω Item) (c : Context) (w : World ω) (p : Bytes) :
    ∃ r w', h.Replies c w p r w' := by
  cases hdecode : Wire.HandlerCommand.layout.decode p with
  | error e => exact ⟨_, _, .undecodable hdecode⟩
  | ok command => exact ⟨_, _, replies_answer hdecode⟩

theorem Replies.unique {w w₁ w₂ : World ω} {p : Bytes} {r₁ r₂ : Except Halt Bytes}
    (h₁ : h.Replies c w p r₁ w₁) (h₂ : h.Replies c w p r₂ w₂) : r₁ = r₂ ∧ w₁ = w₂ := by
  cases h₁ with
  | undecodable hdecode =>
    cases h₂ <;> simp_all
  | noCommand hdecode =>
    cases h₂ <;> simp_all
  | keyEventBatch hdecode hrun =>
    cases h₂ <;> simp_all
  | processEventBatch hdecode hrun =>
    cases h₂ <;> simp_all

/-- The answer to a payload is written as a frame, if it has one. -/
theorem servePayload_of_replies {w w' : World ω} {p : Bytes} {r : Except Halt Bytes}
    (hreply : h.Replies c w p r w') (o : Output) :
    h.servePayload c p o w =
      match r with
      | .error halt => (.error halt, o, w')
      | .ok response =>
        match o.writeFrame response with
        | (.error e, o) => (.error (.failed e), o, w')
        | (.ok (), o) => (.ok (), o, w') := by
  unfold servePayload
  cases hreply with
  | undecodable hdecode => rw [hdecode]
  | noCommand hdecode =>
    rw [hdecode]
    rfl
  | @keyEventBatch request r w' hdecode hrun =>
    rw [hdecode]
    simp only [answer, hrun]
    cases r <;> rfl
  | @processEventBatch request r w' hdecode hrun =>
    rw [hdecode]
    simp only [answer, hrun]
    cases r <;> rfl

/-! ## The service of a row -/

/-- How far a row of payloads is served: the answers that are written as frames, and how the service
ends. It ends at the first payload that comes to a halt, or to an answer that is too long for a
frame. -/
inductive Serves (h : Handler ω Item) (c : Context) :
    World ω → List Bytes → List Bytes → Except Halt Unit → World ω → Prop where
  | done (w : World ω) : Serves h c w [] [] (.ok ()) w
  | answered {w w₁ w₂ : World ω} {p r : Bytes} {ps rs : List Bytes} {result : Except Halt Unit}
      (hreply : h.Replies c w p (.ok r) w₁) (hfits : r.length < 256 ^ lengthSize)
      (hrest : Serves h c w₁ ps rs result w₂) : Serves h c w (p :: ps) (r :: rs) result w₂
  | halted {w w' : World ω} {p : Bytes} {ps : List Bytes} {halt : Halt}
      (hreply : h.Replies c w p (.error halt) w') : Serves h c w (p :: ps) [] (.error halt) w'
  | tooLong {w w' : World ω} {p r : Bytes} {ps : List Bytes} {e : Error}
      (hreply : h.Replies c w p (.ok r) w') (hlong : payloadLength r = .error e) :
      Serves h c w (p :: ps) [] (.error (.failed e)) w'

theorem payloadLength_eq_ok {r : Bytes} (hr : r.length < 256 ^ lengthSize) :
    payloadLength r = .ok r.length := if_pos hr

theorem exists_serves (h : Handler ω Item) (c : Context) (w : World ω) (ps : List Bytes) :
    ∃ rs result w', h.Serves c w ps rs result w' := by
  induction ps generalizing w with
  | nil => exact ⟨_, _, _, .done w⟩
  | cons p ps ih =>
    obtain ⟨halt | r, w₁, hreply⟩ := exists_replies h c w p
    · exact ⟨_, _, _, .halted hreply⟩
    · by_cases hfits : r.length < 256 ^ lengthSize
      · obtain ⟨rs, result, w₂, hrest⟩ := ih w₁
        exact ⟨_, _, _, .answered hreply hfits hrest⟩
      · exact ⟨_, _, _, .tooLong hreply (if_neg hfits)⟩

theorem Serves.unique {w w₁ w₂ : World ω} {ps rs₁ rs₂ : List Bytes} {r₁ r₂ : Except Halt Unit}
    (h₁ : h.Serves c w ps rs₁ r₁ w₁) (h₂ : h.Serves c w ps rs₂ r₂ w₂) :
    rs₁ = rs₂ ∧ r₁ = r₂ ∧ w₁ = w₂ := by
  induction h₁ generalizing rs₂ with
  | done w =>
    cases h₂
    exact ⟨rfl, rfl, rfl⟩
  | answered hreply hfits _ ih =>
    cases h₂ with
    | answered hreply' _ hrest =>
      obtain ⟨hr, rfl⟩ := hreply.unique hreply'
      obtain ⟨rfl, hend⟩ := ih hrest
      rw [Except.ok.inj hr]
      exact ⟨rfl, hend⟩
    | halted hreply' => cases (hreply.unique hreply').1
    | tooLong hreply' hlong =>
      rw [← Except.ok.inj (hreply.unique hreply').1, payloadLength_eq_ok hfits] at hlong
      cases hlong
  | halted hreply =>
    cases h₂ with
    | answered hreply' _ _ => cases (hreply.unique hreply').1
    | halted hreply' =>
      obtain ⟨hr, rfl⟩ := hreply.unique hreply'
      rw [Except.error.inj hr]
      exact ⟨rfl, rfl, rfl⟩
    | tooLong hreply' _ => cases (hreply.unique hreply').1
  | tooLong hreply hlong =>
    cases h₂ with
    | answered hreply' hfits _ =>
      rw [Except.ok.inj (hreply.unique hreply').1, payloadLength_eq_ok hfits] at hlong
      cases hlong
    | halted hreply' => cases (hreply.unique hreply').1
    | tooLong hreply' hlong' =>
      obtain ⟨hr, rfl⟩ := hreply.unique hreply'
      rw [Except.ok.inj hr, hlong'] at hlong
      rw [Except.error.inj hlong]
      exact ⟨rfl, rfl, rfl⟩

/-- Rows that are served one after the other are served as one. -/
theorem Serves.append {w w₁ w₂ : World ω} {ps qs rs rs' : List Bytes} {result : Except Halt Unit}
    (hfirst : h.Serves c w ps rs (.ok ()) w₁) (hrest : h.Serves c w₁ qs rs' result w₂) :
    h.Serves c w (ps ++ qs) (rs ++ rs') result w₂ := by
  generalize hok : (Except.ok () : Except Halt Unit) = first at hfirst
  induction hfirst with
  | done => exact hrest
  | answered hreply hfits _ ih => exact .answered hreply hfits (ih hrest hok)
  | halted => cases hok
  | tooLong => cases hok

theorem servePayloads_of_serves {w w' : World ω} {ps rs : List Bytes} {result : Except Halt Unit}
    (hserves : h.Serves c w ps rs result w') {o : Output} (ho : o.capacity = none) :
    h.servePayloads c ps o w = (result, o.emit rs, w') := by
  induction hserves generalizing o with
  | done => rw [servePayloads, Output.emit_nil]
  | @answered w w₁ w₂ p r ps rs result hreply hfits _ ih =>
    have hserve : h.servePayload c p o w = (.ok (), o.emit [r], w₁) := by
      simp only [servePayload_of_replies hreply, Output.writeFrame_of_unlimited ho hfits]
    rw [servePayloads, hserve]
    simp only
    rw [ih (by rw [Output.capacity_emit, ho]), ← Output.emit_append, List.singleton_append]
  | halted hreply =>
    rw [servePayloads, servePayload_of_replies hreply, Output.emit_nil]
  | @tooLong w w' p r ps e hreply hlong =>
    have hserve : h.servePayload c p o w = (.error (.failed e), o, w') := by
      simp only [servePayload_of_replies hreply, Output.writeFrame, hlong]
    rw [servePayloads, hserve, Output.emit_nil]

/-! ## The frames of a stream -/

/-- Bytes that begin a frame and are not all of it; if its length is complete, it is within a
limit. -/
def BeginsFrame (max : Nat) (tail : Bytes) : Prop :=
  ∃ p : Bytes, p.length < 256 ^ lengthSize ∧ tail <+: frame p ∧ tail ≠ frame p ∧
    (lengthSize ≤ tail.length → p.length ≤ max)

theorem BeginsFrame.incomplete {max : Nat} {tail : Bytes} (h : BeginsFrame max tail) :
    Incomplete max tail := by
  obtain ⟨p, hlt, ⟨more, hmore⟩, hproper, hmax⟩ := h
  intro n hn
  have hlen := decodeLength?_append hn more
  have hfits : Fits p.length p := ⟨Nat.le_refl _, hlt⟩
  have hframe := decodeLength?_frame hfits []
  rw [List.append_nil] at hframe
  rw [hmore, hframe] at hlen
  obtain rfl := Option.some.inj hlen
  have hlong : ¬ tail.length < lengthSize := by
    rw [← decodeLength?_eq_none_iff, hn]
    simp
  have hsize := congrArg List.length hmore
  rw [List.length_append, length_frame] at hsize
  have hpos : more ≠ [] := by
    rintro rfl
    rw [List.append_nil] at hmore
    exact hproper hmore
  have := List.length_pos_iff.2 hpos
  exact ⟨hmax (Nat.le_of_not_lt hlong), by omega⟩

/-- How a stream ends, once all its commands are answered: well if nothing follows the last frame,
and else with a count of the bytes that follow it, but for those of a length that is complete. -/
def ending (tail : Bytes) : Except Halt Unit :=
  if tail = [] then .ok ()
  else .error (.failed (.protocol ("stream ended inside a frame (" ++
    toString (if tail.length < 4 then tail.length else tail.length - 4) ++ " bytes buffered)")))

theorem atEnd_resting (max : Nat) (tail : Bytes) : atEnd (.resting max tail) = ending tail := by
  unfold atEnd ending
  rw [FrameBuffer.size_resting, FrameBuffer.pendingSize, lengthSize]
  by_cases htail : tail = []
  · rw [if_pos htail, if_pos (FrameBuffer.isEmpty_resting.2 htail)]
  · rw [if_neg htail, if_neg fun hempty => htail (FrameBuffer.isEmpty_resting.1 hempty)]

/-- Frames and the beginning of another one: the payloads are served as a row, and if all are
answered, what follows them decides how the pipe ends. -/
theorem servePipe_of_serves {config : PipeConfig} {i : Input} {o : Output} {w w' : World ω}
    {ps rs : List Bytes} {rest : Bytes} {result : Except Halt Unit}
    (hsome : ∀ data ∈ i.reads, data ≠ []) (hfailure : i.failure = none) (ho : o.capacity = none)
    (hps : ∀ p ∈ ps, Fits config.maxFrameSize p) (hrest : Incomplete config.maxFrameSize rest)
    (hbytes : i.bytes = ps.flatMap frame ++ rest) (hserves : h.Serves c w ps rs result w') :
    h.servePipe config c i o w = (result.bind fun _ => ending rest, o.emit rs, w') := by
  have hreads : [] ++ i.reads.flatten = ps.flatMap frame ++ rest := by
    rw [List.nil_append, i.flatten_reads, hbytes]
  have hloop := serveReads_append h c none [] o w hsome (incomplete_nil _) hps hrest hreads
  rw [List.append_nil, servePayloads_of_serves hserves ho] at hloop
  rw [servePipe, hfailure]
  refine hloop.trans ?_
  cases result with
  | ok =>
    simp only [serveReads, atEnd_resting]
    rfl
  | error halt => rfl

/-- **A pipe answers every command once and in order, however its input is cut.** It serves the
payloads whose frames make up the input, writes the frame of each answer, and stops where the service
does. When all are answered it ends well, or with an error that counts the bytes that follow the last
frame. -/
theorem servePipe_frames (h : Handler ω Item) (config : PipeConfig) (c : Context) {i : Input}
    {o : Output} (w : World ω) {ps : List Bytes} {tail : Bytes}
    (hsome : ∀ data ∈ i.reads, data ≠ []) (hfailure : i.failure = none) (ho : o.capacity = none)
    (hps : ∀ p ∈ ps, Fits config.maxFrameSize p)
    (htail : tail = [] ∨ BeginsFrame config.maxFrameSize tail)
    (hbytes : i.bytes = ps.flatMap frame ++ tail) :
    ∃ rs result w', h.Serves c w ps rs result w' ∧
      h.servePipe config c i o w =
        (result.bind fun _ => ending tail, { o with written := o.written ++ rs.flatMap frame }, w') := by
  obtain ⟨rs, result, w', hserves⟩ := exists_serves h c w ps
  have hrest : Incomplete config.maxFrameSize tail := by
    rcases htail with rfl | htail
    · exact incomplete_nil _
    · exact htail.incomplete
  exact ⟨rs, result, w', hserves, servePipe_of_serves hsome hfailure ho hps hrest hbytes hserves⟩

/-- A handler that keys no records and does nothing on events. -/
def idle : Handler Unit (fun _ : Empty => Unit) where
  keyEvent _ _ w := (.ok [], w)
  operator := { onEvent := fun _ _ => .nothing }

/-- The command to key one empty record. -/
def sampleCommand : Bytes := [10, 4, 10, 2, 10, 0]

/-- The answer of a handler that keys no records. -/
def sampleAnswer : Bytes := [10, 0]

/-- A stream of a command, a command without a request, and five bytes of a frame of nine, which is
cut inside the first length and inside the second command. -/
def unfinishedInput : Input where
  chunks := [[0, 0, 0], [6] ++ sampleCommand ++ [0, 0, 0, 2, 10], [0, 0, 0, 0, 9, 1]]

theorem servePipe_frames_sample :
    idle.servePipe ⟨50⟩ (.withCancellation ⟨0, []⟩) unfinishedInput {} { own := () } =
      (.error (.failed (.protocol "stream ended inside a frame (1 bytes buffered)")),
        { written := frame sampleAnswer ++ [0, 0, 0, 0] }, { own := () }) := by
  have hcommand : idle.Replies (.withCancellation ⟨0, []⟩) { own := () } sampleCommand
      (.ok sampleAnswer) { own := () } :=
    @Replies.keyEventBatch _ _ _ _ _ _ _ (some ⟨[[]]⟩) _ _ rfl rfl
  have hbare : idle.Replies (.withCancellation ⟨0, []⟩) { own := () } [10, 0] (.ok [])
      { own := () } :=
    @Replies.keyEventBatch _ _ _ _ _ _ _ none _ _ rfl rfl
  have htail : BeginsFrame 50 [0, 0, 0, 9, 1] :=
    ⟨List.replicate 9 1, by decide, by decide, by decide, by decide⟩
  obtain ⟨rs, result, w', hserves, hpipe⟩ := @servePipe_frames _ _ _ idle ⟨50⟩
    (.withCancellation ⟨0, []⟩) unfinishedInput {} { own := () } [sampleCommand, [10, 0]]
    [0, 0, 0, 9, 1] (by decide) rfl rfl (by simp [Fits, sampleCommand, lengthSize]) (.inr htail)
    (by decide)
  obtain ⟨rfl, rfl, rfl⟩ :=
    hserves.unique (.answered hcommand (by decide) (.answered hbare (by decide) (.done _)))
  exact hpipe

end Handler

end KeyedStream
