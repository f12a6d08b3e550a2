import Mathlib
import KeyedStream.Proofs.Flight

/-!
# A deadline only replaces the answer

A call with a timeout is admitted like the same call without it (`Rpc.refused_or_admitted`). Until its
deadline passes it goes the same way, so that its answer is the answer without a timeout, if the
dispatch is first; and if the deadline is, then a fixed text is all of the answer. After that, events
are not handled any more, and a record is keyed only if its check had passed before (`Flight.Late`).
`Handler.deadline_replaces_answer` puts this together.
-/

namespace KeyedStream

/-! ## Calls without their timeouts -/

namespace Rpc

/-- The call without a timeout. -/
def Request.untimed (r : Request) : Request :=
  { r with headers := r.headers.filter fun header => lower header.1 ≠ lower timeoutHeader }

variable {p : Procedure} {config : ServerConfig} {r : Request}

theorem find?_untimed {name : String} (hname : lower name ≠ lower timeoutHeader) :
    r.untimed.headers.find? name = r.headers.find? name := by
  rw [Headers.find?, Headers.find?, Request.untimed, List.find?_filter]
  congr 2
  funext header
  by_cases hsame : lower header.1 = lower name
  · simp [hsame, hname]
  · simp [hsame]

theorem timeout_untimed (r : Request) : timeout r.untimed.headers = .ok none := by
  have hnone : r.untimed.headers.find? timeoutHeader = none := by
    rw [Headers.find?, Request.untimed, Option.map_eq_none_iff, List.find?_eq_none]
    intro header hmem
    have hother := (List.mem_filter.1 hmem).2
    simpa using hother
  rw [timeout, hnone]

theorem contentType_untimed (r : Request) :
    contentType r.untimed.headers = contentType r.headers := by
  rw [contentType, find?_untimed (by decide), contentType]

/-- What is checked of a call with a valid timeout has nothing to do with its timeout. -/
theorem exists_accept_untimed {μ : Type} (layout : Proto.Layout μ) (config : ServerConfig)
    (htimeout : timeout r.headers = .ok (limitOf r.headers)) :
    ∃ checked : Except Response μ,
      accept layout config r = checked.map (fun m => (m, limitOf r.headers)) ∧
        accept layout config r.untimed = checked.map (fun m => (m, none)) := by
  have hbody : r.untimed.body = r.body := rfl
  simp only [accept, contentType_untimed, timeout_untimed, htimeout, hbody]
  split
  · exact ⟨.error _, rfl, rfl⟩
  · split
    · exact ⟨.error _, rfl, rfl⟩
    · rcases layout.decode r.body with e | m
      · exact ⟨.error _, rfl, rfl⟩
      · exact ⟨.ok m, rfl, rfl⟩

/-- What is admitted of a call to a procedure: a batch that was posted and accepted. -/
def admitted (p : Procedure) (config : ServerConfig) (r : Request) :
    Except Response (BatchRequest × Option Span) :=
  if r.method = "POST" then accepted p config r else .error ⟨405, .none⟩

/-- Each procedure accepts messages of one layout, which are its batches. -/
theorem exists_accepted_eq (p : Procedure) :
    ∃ (μ : Type) (layout : Proto.Layout μ) (make : μ → BatchRequest),
      (∀ m, (make m).procedure = p) ∧ ∀ (config : ServerConfig) (r : Request),
        accepted p config r = (accept layout config r).map fun a => (make a.1, a.2) := by
  cases p with
  | keyEvents =>
    exact ⟨_, Wire.KeyEventBatchRequest.layout, .keyEvents, fun _ => rfl, fun _ _ => rfl⟩
  | processEvents =>
    exact ⟨_, Wire.ProcessEventBatchRequest.layout, .processEvents, fun _ => rfl, fun _ _ => rfl⟩

theorem exists_admitted_untimed (p : Procedure) (config : ServerConfig)
    (htimeout : timeout r.headers = .ok (limitOf r.headers)) :
    ∃ checked : Except Response BatchRequest,
      admitted p config r = checked.map (fun batch => (batch, limitOf r.headers)) ∧
        admitted p config r.untimed = checked.map (fun batch => (batch, none)) := by
  have hmethod : r.untimed.method = r.method := rfl
  obtain ⟨μ, layout, make, -, haccepted⟩ := exists_accepted_eq p
  rw [admitted, admitted, hmethod, haccepted, haccepted]
  split
  · obtain ⟨checked, htimed, huntimed⟩ := exists_accept_untimed layout config htimeout
    refine ⟨checked.map make, ?_⟩
    rw [htimed, huntimed]
    rcases checked with _ | _ <;> exact ⟨rfl, rfl⟩
  · exact ⟨.error _, rfl, rfl⟩

theorem procedure_of_admitted {batch : BatchRequest} {limit : Option Span}
    (hadmitted : admitted p config r = .ok (batch, limit)) : batch.procedure = p := by
  obtain ⟨μ, layout, make, hmake, haccepted⟩ := exists_accepted_eq p
  rw [admitted, haccepted] at hadmitted
  split at hadmitted
  · obtain ⟨a, -, hsame⟩ := map_eq_ok_iff.1 hadmitted
    obtain ⟨rfl, -⟩ := Prod.mk.inj hsame
    exact hmake a.1
  · cases hadmitted

/-- A call with a valid timeout is refused as it is without, or its batch is admitted either way. -/
theorem refused_or_admitted (p : Procedure) (config : ServerConfig) {value : Bytes}
    (hvalue : r.headers.find? "connect-timeout-ms" = some value) (hmillis : IsMillis value) :
    (∃ resp, admitted p config r = .error resp ∧ admitted p config r.untimed = .error resp) ∨
      ∃ batch, admitted p config r = .ok (batch, some (.ofMillis (decimal value))) ∧
        admitted p config r.untimed = .ok (batch, none) := by
  have htimeout : timeout r.headers = .ok (limitOf r.headers) := by
    refine timeout_of_millis fun value' hvalue' => ?_
    obtain rfl := Option.some.inj (hvalue.symm.trans hvalue')
    exact hmillis
  have hlimit : limitOf r.headers = some (.ofMillis (decimal value)) := by rw [limitOf, hvalue]; rfl
  obtain ⟨checked, htimed, huntimed⟩ := exists_admitted_untimed p config htimeout
  rw [hlimit] at htimed
  rw [htimed, huntimed]
  rcases checked with resp | batch
  · exact .inl ⟨resp, rfl, rfl⟩
  · exact .inr ⟨batch, rfl, rfl⟩

end Rpc

namespace Handler

open Rpc

variable {κ ω : Type} {Item : κ → Type} {h : Handler ω Item} {p : Procedure} {config : ServerConfig}
  {r : Rpc.Request}

theorem serveCall_of_admitted (hpath : r.path = p.path) (w : World ω) :
    h.serveCall config r w =
      match admitted p config r with
      | .error resp => (some resp, w)
      | .ok (batch, limit) => h.answerWithin limit batch w := by
  rw [serveCall_of_path hpath, admitted]
  split <;> rfl

/-- Without a limit, the end of the dispatch is the end of the call. -/
theorem answerWithin_none (batch : BatchRequest) (w : World ω) :
    h.answerWithin none batch w =
      callEnd w.newContext.1 (batch.dispatch h w.newContext.1 w.newContext.2).1
        (batch.dispatch h w.newContext.1 w.newContext.2).2 := by
  simp only [answerWithin, withDeadline]
  rcases batch.dispatch h w.newContext.1 w.newContext.2 with ⟨(_ | _) | _, _⟩ <;> rfl

/-- A limit matters to a dispatch only if it waits for something that never comes. -/
theorem answerWithin_some (batch : BatchRequest) (span : Span) (w : World ω) :
    h.answerWithin (some span) batch w =
      if (batch.dispatch h w.newContext.1 w.newContext.2).1 = .error .waiting then
        (some (.ofError (.deadlineExceeded span)),
          (batch.dispatch h w.newContext.1 w.newContext.2).2.cancel w.newContext.1.token)
      else h.answerWithin none batch w := by
  simp only [answerWithin, withDeadline]
  rcases batch.dispatch h w.newContext.1 w.newContext.2 with ⟨(_ | _) | _, _⟩ <;> rfl

theorem callEnd_noting (c : Context) (result : Except Halt Bytes) (w : World ω)
    (notes : List Asked) :
    callEnd c result (w.noting notes) =
      ((callEnd c result w).1, (callEnd c result w).2.noting notes) := by
  rcases result with (_ | _) | _ <;> rfl

theorem notes_callEnd (c : Context) (result : Except Halt Bytes) (w : World (ω × List Asked)) :
    (callEnd c result w).2.notes = w.notes := by
  rcases result with (_ | _) | _ <;> rfl

/-- The end of a call has to do with its token only. -/
theorem callEnd_of_token {c c' : Context} (htoken : c'.token = c.token) (result : Except Halt Bytes)
    (w : World ω) : callEnd c' result w = callEnd c result w := by
  rcases result with (_ | _) | _ <;> simp only [callEnd, htoken]

end Handler

/-! ## After the deadline -/

/-- A token that is cancelled stays so while a record is keyed. Tokens can be looked at and cancelled,
and not more; so this holds of handlers that have nothing to do with tokens, and of those that have. -/
def Handler.KeepsCancelled {κ ω : Type} {Item : κ → Type} (h : Handler ω Item) : Prop :=
  ∀ (c : Context) (bytes : Bytes) (w : World ω) (t : Token), w.isCancelled t = true →
    (h.keyEvent c bytes w).2.isCancelled t = true

/-- A scripted handler keeps cancellations, also one that cancels on a record itself. -/
theorem Script.Play.keepsCancelled (play : Script.Play) : play.handler.KeepsCancelled := by
  intro c bytes w t hgone
  have hrun : (play.keyer.run c bytes w).2.isCancelled t = true := by
    cases play.keyer with
    | echo | colon => exact hgone
    | split =>
      rw [Keyer.run]
      split <;> exact hgone
    | table entries =>
      rw [Keyer.run]
      split
      case h_3 => exact Tokens.isCancelled_cancel_of _ _ _ hgone
      all_goals exact hgone
  exact hrun

variable {κ ω : Type} {Item : κ → Type} {h : Handler ω Item}

namespace Stage

variable {c : Context} {s s' : Stage Item} {w w' : World ω}

/-- Records are keyed under a token that stays cancelled. -/
theorem isCancelled_of_next? (hkeeps : h.KeepsCancelled) (hrecords : s.procedure? ≠ some .processEvents)
    (hgone : w.isCancelled c.token = true) (hnext : s.next? h c w = some (s', w')) :
    w'.isCancelled c.token = true := by
  cases goes_of_next? hnext with
  | @failsRecord _ bytes _ _ _ _ hkey =>
    have hkept := hkeeps c bytes w c.token hgone
    rwa [hkey] at hkept
  | @keysRecord _ bytes _ _ _ _ hkey =>
    have hkept := hkeeps c bytes w c.token hgone
    rwa [hkey] at hkept
  | haltsEvent => exact absurd rfl hrecords
  | runsEvent => exact absurd rfl hrecords
  | _ => exact hgone

theorem orphan?_eq_some_iff : s.orphan? = some s' ↔ s.procedure? ≠ some .processEvents ∧ s' = s := by
  rw [orphan?]
  split
  case isTrue h => simp [h]
  case isFalse h => simp [h, eq_comm]

end Stage

namespace Flight

variable {f g : Flight ω Item}

/-- What the handler is still asked, whatever happens: the call whose check has passed. -/
def owes (f : Flight ω Item) : List Asked :=
  match f.stage with
  | some s => s.asks f.context
  | none => []

/-- What holds of a flight from the moment on at which its deadline has passed. -/
structure Late (f g : Flight ω Item) : Prop where
  context : g.context = f.context
  answer : g.answer = f.answer
  cancelled : g.world.isCancelled f.context.token = true
  records : ∀ s, g.stage = some s → s.procedure? ≠ some .processEvents
  asked : g.asked = f.asked ∧ g.owes = f.owes ∨ g.asked = f.asked ++ f.owes ∧ g.owes = []

theorem Expires.late (hexpires : Expires f g) : Late g g := by
  cases hexpires with
  | @intro _ s w hopen hlimit hstage hworld =>
    refine ⟨rfl, rfl, Tokens.isCancelled_cancel_self _ _, fun s' hs' => ?_, .inl ⟨rfl, rfl⟩⟩
    obtain ⟨hrecords, rfl⟩ := Stage.orphan?_eq_some_iff.1 hs'
    exact hrecords

/-- **After its deadline, a flight may only ask what it owed at that moment.** -/
theorem Late.step {g' : Flight ω Item} (hkeeps : h.KeepsCancelled) (hanswer : f.answer ≠ none)
    (hlate : Late f g) (hstep : Step h g g') : Late f g' := by
  have hclosed : g.answer ≠ none := hlate.answer ▸ hanswer
  cases hstep with
  | respond hopen => exact absurd hopen hclosed
  | expire hexpires =>
    cases hexpires with
    | intro hopen => exact absurd hopen hclosed
  | advance hnext =>
    obtain ⟨s, s', w, hstage, hgoes, rfl⟩ := advance?_eq_some_iff.1 hnext
    have hgone : g.world.isCancelled g.context.token = true := hlate.context ▸ hlate.cancelled
    have howes : g.owes = s.asks g.context := by rw [owes, hstage]
    have hrecords := hlate.records s hstage
    refine ⟨hlate.context, hlate.answer, ?_, fun s₁ hs₁ hloop => ?_, .inr ⟨?_, ?_⟩⟩
    · rw [← hlate.context]
      exact Stage.isCancelled_of_next? hkeeps hrecords hgone hgoes
    · obtain rfl := Option.some.inj hs₁
      exact hrecords (Stage.procedure?_of_next? hgoes hloop)
    · -- what was owed is asked now, or was asked before
      rcases hlate.asked with ⟨hasked, hsame⟩ | ⟨hasked, hnone⟩
      · simp only [← howes, hasked, hsame]
      · simp only [← howes, hasked, hnone, List.append_nil]
    · exact Stage.asks_of_cancelled hgone hgoes

theorem Late.steps {g' : Flight ω Item} (hkeeps : h.KeepsCancelled) (hanswer : f.answer ≠ none)
    (hlate : Late f g) (hsteps : Steps h g g') : Late f g' := by
  induction hsteps with
  | refl => exact hlate
  | tail _ hstep ih => exact ih.step hkeeps hanswer hstep

/-! ## Before the deadline -/

/-- A call that is refused. It gets no context of its own, and nothing is done for it. -/
def refused (resp : Rpc.Response) (w : World ω) : Flight ω Item where
  context := w.newContext.1
  limit := none
  stage := none
  world := w
  answer := some resp

section Batch

variable {batch : BatchRequest} {limit : Option Span} {w : World ω} {result : Except Halt Bytes}

/-- A flight whose dispatch has come to a result stands where the same call without a limit ends. -/
theorem answerWithin_of_ended (hf : Advances h (start batch limit w) f)
    (hended : f.stage = some (.ended result)) :
    h.answerWithin none batch w = Handler.callEnd f.context result f.world ∧
      h.recorded.answerWithin none batch (w.noting []) =
        Handler.callEnd f.context result (f.world.noting f.asked) := by
  obtain ⟨hnoted, hplain⟩ := dispatch_of_ended hf hended
  have htoken := token_of_advances hf
  rw [Handler.answerWithin_none, Handler.answerWithin_none, World.newContext_noting, hnoted, hplain]
  exact ⟨(Handler.callEnd_of_token htoken _ _).symm, (Handler.callEnd_of_token htoken _ _).symm⟩

theorem asked_prefix_answerWithin (hf : Advances h (start batch limit w) f) :
    f.asked <+: (h.recorded.answerWithin none batch (w.noting [])).2.notes := by
  rw [Handler.answerWithin_none, World.newContext_noting, Handler.notes_callEnd]
  exact asked_prefix_of_advances hf

/-- Of all that may become of a batch, one is what the server makes of it. -/
theorem exists_steps_answerWithin (batch : BatchRequest) (span : Span) (w : World ω) :
    ∃ g : Flight ω Item, Steps h (start batch (some span) w) g ∧
      h.answerWithin (some span) batch w = (g.answer, g.world) ∧
      h.recorded.answerWithin (some span) batch (w.noting []) =
        (g.answer, g.world.noting g.asked) := by
  obtain ⟨f, hf, hended, -⟩ := advances_dispatch h batch (some span) w
  generalize (batch.dispatch h.recorded w.newContext.1 (w.newContext.2.noting [])).1 = result at hended
  have hopen : f.answer = none := hf.keeps.2.2.1
  have hlimit : f.limit = some span := hf.keeps.2.1
  obtain ⟨hnoted, hplain⟩ := dispatch_of_ended hf hended
  obtain ⟨hend, hnotedEnd⟩ := answerWithin_of_ended hf hended
  simp only [Handler.answerWithin_some, World.newContext_noting, hnoted, hplain, hend, hnotedEnd]
  rcases result with (e | _) | a
  · exact ⟨_, hf.steps.tail (.respond hopen hended rfl), rfl, rfl⟩
  · -- what is waited for never comes, so the deadline passes
    refine ⟨_, hf.steps.tail (.expire (.intro hopen hlimit hended (.inr rfl))), ?_, ?_⟩
    · rw [if_pos rfl, token_of_advances hf]
    · rw [if_pos rfl, token_of_advances hf]
      rfl
  · exact ⟨_, hf.steps.tail (.respond hopen hended rfl), rfl, rfl⟩

/-! ## Either way -/

/-- What the deadline sets, and what it leaves. -/
theorem Expires.sets {span : Span} (hexpires : Expires f g) (hlimit : f.limit = some span) :
    g.context = f.context ∧ g.asked = f.asked ∧
      g.answer = some (.ofError (.deadlineExceeded span)) := by
  cases hexpires with
  | intro hopen hlimit' hstage hworld =>
    obtain rfl := Option.some.inj (hlimit.symm.trans hlimit')
    exact ⟨rfl, rfl, rfl⟩

/-- What a flight owes when its deadline has passed: nothing, or to key a record whose check had passed
before. -/
theorem Expires.owes_eq (hexpires : Expires f g) :
    g.owes = [] ∨ ∃ results bytes left, f.stage = some (.record .checked results bytes left) ∧
      g.owes = [.record f.context bytes] := by
  cases hexpires with
  | @intro _ s w hopen hlimit hstage hworld =>
    cases s with
    | record phase results bytes left =>
      cases phase with
      | checked => exact .inr ⟨results, bytes, left, hstage, rfl⟩
      | running => exact .inl rfl
    | _ => exact .inl rfl

/-- **A batch under a limit is answered as it is without one, or by its deadline.** In the second case
nothing is asked of the handler after the deadline, except for a record whose check had passed. -/
theorem answered_or_expired {span : Span} {resp : Rpc.Response} (hkeeps : h.KeepsCancelled)
    (hsteps : Steps h (start batch (some span) w) g) (hanswer : g.answer = some resp) :
    (h.answerWithin none batch w = (some resp, g.world) ∧
      h.recorded.answerWithin none batch (w.noting []) = (some resp, g.world.noting g.asked)) ∨
    (resp = .ofError (.deadlineExceeded span) ∧ g.world.isCancelled w.newContext.1.token = true ∧
      ∃ f f', Steps h (start batch (some span) w) f ∧ Expires f f' ∧ Steps h f' g ∧
        f.asked <+: (h.recorded.answerWithin none batch (w.noting [])).2.notes ∧
        (g.asked = f.asked ∨ batch.procedure = .keyEvents ∧ ∃ results bytes left,
          f.stage = some (.record .checked results bytes left) ∧
            g.asked = f.asked ++ [.record f.context bytes])) := by
  rcases exists_of_answer rfl hsteps hanswer with
    ⟨f, result, hf, hended, hasked, -, hend⟩ | ⟨f, f', hf, hexpires, hlater⟩
  · obtain ⟨hplain, hnoted⟩ := answerWithin_of_ended hf hended
    rw [hplain, hnoted, Handler.callEnd_noting, hend, hasked]
    exact .inl ⟨rfl, rfl⟩
  · obtain ⟨hcontext, hasked, hexceeded⟩ := hexpires.sets (hf.keeps.2.1)
    have hlate := hexpires.late.steps hkeeps (by rw [hexceeded]; exact Option.some_ne_none _) hlater
    rw [hlate.answer, hexceeded] at hanswer
    have htoken : f'.context.token = w.newContext.1.token := by
      rw [hcontext, token_of_advances hf]
    refine .inr ⟨(Option.some.inj hanswer).symm, htoken ▸ hlate.cancelled, f, f', hf.steps, hexpires,
      hlater, asked_prefix_answerWithin hf, ?_⟩
    rcases hlate.asked with ⟨hsame, -⟩ | ⟨hmore, -⟩
    · exact .inl (hsame.trans hasked)
    · rcases hexpires.owes_eq with hnone | ⟨results, bytes, left, hstage, howes⟩
      · rw [hnone, List.append_nil] at hmore
        exact .inl (hmore.trans hasked)
      · rw [howes, hasked] at hmore
        exact .inr ⟨loop_of_advances hf hstage rfl, results, bytes, left, hstage, hmore⟩

end Batch

end Flight

namespace Handler

open Rpc Flight

variable {p : Procedure} {r : Rpc.Request}

/-- What may become of a call to a procedure: it is refused as soon as it comes, or a batch is
admitted, and its dispatch and its deadline are interleaved in some way. -/
def Becomes (h : Handler ω Item) (p : Procedure) (config : ServerConfig) (r : Rpc.Request)
    (w : World ω) (g : Flight ω Item) : Prop :=
  match admitted p config r with
  | .error resp => g = .refused resp w
  | .ok (batch, limit) => Steps h (.start batch limit w) g

/-- **A deadline only replaces the answer.** However the dispatch of a call and its deadline are
interleaved, the answer is that of the same call without a timeout, and the handler was asked the same
and left the same world; or the answer says that the deadline was exceeded, and nothing else. In the
second case the token of the call is cancelled. Until its deadline passed, the handler was asked what
it is asked first without a timeout; after that it was asked nothing more, unless the check of a record
had just passed, which then was the last that was keyed.

The deadline may pass wherever a call is not answered yet, and `serveCall` does one of the things that
may become of it. -/
theorem deadline_replaces_answer (hkeeps : h.KeepsCancelled) (config : ServerConfig)
    (hpath : r.path = p.path) {value : Bytes}
    (hvalue : r.headers.find? "connect-timeout-ms" = some value) (hmillis : IsMillis value)
    (w : World ω) :
    (∀ g resp, h.Becomes p config r w g → g.answer = some resp →
      (h.serveCall config r.untimed w = (some resp, g.world) ∧
        h.recorded.serveCall config r.untimed (w.noting []) =
          (some resp, g.world.noting g.asked)) ∨
      (resp = ⟨504, .error ⟨.deadlineExceeded,
          "deadline exceeded after " ++ (Span.ofMillis (decimal value)).text⟩⟩ ∧
        g.world.isCancelled w.newContext.1.token = true ∧
        ∃ f f', h.Becomes p config r w f ∧ Expires f f' ∧ Steps h f' g ∧
          f.asked <+: (h.recorded.serveCall config r.untimed (w.noting [])).2.notes ∧
          (g.asked = f.asked ∨ p = .keyEvents ∧ ∃ results bytes left,
            f.stage = some (.record .checked results bytes left) ∧
              g.asked = f.asked ++ [.record f.context bytes]))) ∧
    (∀ f, h.Becomes p config r w f → f.answer = none → ∃ f', Expires f f') ∧
    ∃ g, h.Becomes p config r w g ∧ h.serveCall config r w = (g.answer, g.world) ∧
      h.recorded.serveCall config r (w.noting []) = (g.answer, g.world.noting g.asked) := by
  rcases refused_or_admitted p config hvalue hmillis with
    ⟨resp, htimed, huntimed⟩ | ⟨batch, htimed, huntimed⟩
  · -- refused, with the timeout or without it
    simp only [Becomes, serveCall_of_admitted hpath, serveCall_of_admitted (r := r.untimed) hpath,
      htimed, huntimed]
    refine ⟨?_, ?_, .refused resp w, rfl, rfl, rfl⟩
    · rintro g resp' rfl hanswer
      cases hanswer
      exact .inl ⟨rfl, rfl⟩
    · rintro f rfl hopen
      cases hopen
  · have hprocedure : batch.procedure = p := procedure_of_admitted htimed
    simp only [Becomes, serveCall_of_admitted hpath, serveCall_of_admitted (r := r.untimed) hpath,
      htimed, huntimed]
    refine ⟨fun g resp hsteps hanswer => ?_, fun f hsteps hopen => ?_,
      exists_steps_answerWithin batch _ w⟩
    · rw [← hprocedure]
      exact answered_or_expired hkeeps hsteps hanswer
    · -- a call that is not answered has a stage, and its limit
      have hf := advances_of_open hsteps hopen
      obtain ⟨-, hlimit, -, hstage⟩ := hf.keeps
      obtain ⟨s, hs⟩ := Option.isSome_iff_exists.1 (hstage rfl)
      exact ⟨_, .intro hopen hlimit hs (.inr rfl)⟩

/-- A batch of two records. -/
def sampleRecords : BatchRequest := .keyEvents { values := [[1], [2]] }

/-- A call that posts it, and allows it a quarter of a second. -/
def timedCall : Rpc.Request :=
  { postOf sampleRecords with
    headers := protoHeaders ++ [("Connect-Timeout-Ms", Bytes.ofText "250")] }

/-- The answer without a timeout: each record is the key and the value of its event. -/
def sampleKeyed : Response where
  status := 200
  body := .message (Wire.KeyEventBatchResponse.layout.encode
    ⟨[⟨[⟨[1], some ⟨0, 0⟩, [1]⟩]⟩, ⟨[⟨[2], some ⟨0, 0⟩, [2]⟩]⟩]⟩)

def sampleExceeded : Response where
  status := 504
  body := .error ⟨.deadlineExceeded, "deadline exceeded after 250ms"⟩

/-- Both answers are possible, and no other. Where the deadline passes behind the check of the first
record, that record is still keyed, and the second one is not. -/
theorem deadline_replaces_answer_sample :
    (∃ g, sampleHandler.Becomes .keyEvents {} timedCall sampleStart g ∧
      g.answer = some sampleKeyed) ∧
    (∃ g, sampleHandler.Becomes .keyEvents {} timedCall sampleStart g ∧
      g.answer = some sampleExceeded ∧ g.asked = [.record sampleContext [1]] ∧
      g.stage = some (.ended (.error (.failed .cancelled)))) ∧
    ∀ g resp, sampleHandler.Becomes .keyEvents {} timedCall sampleStart g → g.answer = some resp →
      resp = sampleKeyed ∨ resp = sampleExceeded := by
  have hpath : timedCall.path = Procedure.keyEvents.path := rfl
  have hvalue : timedCall.headers.find? "connect-timeout-ms" = some (Bytes.ofText "250") := by decide
  have hmillis : IsMillis (Bytes.ofText "250") := ⟨by decide, by decide, by decide +kernel⟩
  have huntimed : (sampleHandler.serveCall {} timedCall.untimed sampleStart).1 = some sampleKeyed := rfl
  have hkeeps : sampleHandler.KeepsCancelled := Script.Play.keepsCancelled _
  obtain ⟨hanswers, -, g, hg, hserved, -⟩ :=
    deadline_replaces_answer hkeeps {} hpath hvalue hmillis sampleStart
  refine ⟨⟨g, hg, ?_⟩, ?_, fun g resp hg hanswer => ?_⟩
  · have hfst := congrArg Prod.fst hserved
    exact hfst.symm
  · have hchecked : Steps sampleHandler (start sampleRecords (some (.ofMillis 250)) sampleStart)
        ⟨sampleContext, some (.ofMillis 250), some (.record .checked [] [1] [[2]]),
          sampleStart.newContext.2, [], none⟩ := .single (.advance rfl)
    exact ⟨_, (((hchecked.tail (.expire (.intro rfl rfl rfl (.inr rfl)))).tail (.advance rfl)).tail
      (.advance rfl)).tail (.advance rfl), rfl, rfl, rfl⟩
  · rcases hanswers g resp hg hanswer with ⟨hsame, -⟩ | ⟨rfl, -⟩
    · rw [hsame] at huntimed
      exact .inl (Option.some.inj huntimed)
    · exact .inr rfl

end Handler

end KeyedStream
