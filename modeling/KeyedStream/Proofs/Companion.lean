import Mathlib
import KeyedStream.Proofs.Service
import KeyedStream.TestRun

/-!
# How the end of a companion is reported

A pipe ends well just if its input is a row of frames whose payloads are all answered
(`Handler.servePipe_of_answersAll`, `Handler.exists_answersAll`). A test run looks at how its
companion ended only after that. So a companion that fails is reported as such, with its status and
all of its error output, if everything that it wrote was answered; and else the run ends with what
went wrong on the pipe, whatever the status and the error output are
(`TestRun.run_of_failing_companion`, `TestRun.run_hides_status`).
-/

namespace KeyedStream

open KeyedStream.Frame

namespace Handler

variable {κ ω : Type} {Item : κ → Type} {h : Handler ω Item} {c : Context}

/-! ## Pipes that end well -/

/-- Bytes that are a row of frames whose payloads are all answered, and the answers to them. -/
def AnswersAll (h : Handler ω Item) (c : Context) (max : Nat) (w : World ω) (bytes : Bytes)
    (rs : List Bytes) (w' : World ω) : Prop :=
  ∃ ps, bytes = ps.flatMap frame ∧ (∀ p ∈ ps, Fits max p) ∧ h.Serves c w ps rs (.ok ()) w'

/-- A length above the limit does not let a pipe end well, wherever the reads are cut. -/
theorem serveReads_ne_ok_of_oversize {max n : Nat} {reads : List Bytes} {front rest : Bytes}
    {ps : List Bytes} {o : Output} {w : World ω} (hreads : ∀ data ∈ reads, data ≠ [])
    (hfront : Incomplete max front) (hps : ∀ p ∈ ps, Fits max p) (hrest : Oversize max n rest)
    (hbytes : front ++ reads.flatten = ps.flatMap frame ++ rest) :
    (h.serveReads c none reads (.resting max front) o w).1 ≠ .ok () := by
  induction reads generalizing front ps o w with
  | nil =>
    rw [List.flatten_nil, List.append_nil] at hbytes
    obtain ⟨ps', hnil, hrest'⟩ :=
      @exists_append_of_frames max ps [] rest front hps (by simp) (.inl hfront) hbytes.symm
    obtain ⟨-, rfl⟩ := List.append_eq_nil_iff.1 hnil.symm
    rw [List.flatMap_nil, List.nil_append] at hrest'
    have hwithin := (hfront n (hrest' ▸ hrest.1)).1
    have := hrest.2
    omega
  | cons data reads ih =>
    have hdata : data.isEmpty = false := by
      simpa using hreads data List.mem_cons_self
    obtain ⟨qs, front', hpush, hqs, hstuck⟩ := exists_frames max (front ++ data)
    rw [serveReads, hdata]
    simp only [Bool.false_eq_true, if_false]
    rcases hstuck with hfront' | ⟨m, hover⟩
    · rw [List.flatten_cons, ← List.append_assoc, hpush, List.append_assoc] at hbytes
      obtain ⟨ps', rfl, htail⟩ := exists_append_of_frames hqs hps (.inr ⟨n, hrest⟩) hbytes
      simp only [FrameBuffer.push_resting_frames hfront hqs hpush hfront']
      rcases h.servePayloads c qs o w with ⟨_ | _, o, w⟩
      · simp
      · exact ih (fun d hd => hreads d (List.mem_cons_of_mem _ hd)) hfront'
          (fun p hp => hps p (List.mem_append_right qs hp)) htail
    · simp only [FrameBuffer.push_resting_oversize hfront hqs hpush hover]
      simp

theorem servePipe_of_answersAll {config : PipeConfig} {i : Input} {o : Output} {w w' : World ω}
    {rs : List Bytes} (hsome : ∀ data ∈ i.reads, data ≠ []) (hfailure : i.failure = none)
    (ho : o.capacity = none) (hall : h.AnswersAll c config.maxFrameSize w i.bytes rs w') :
    h.servePipe config c i o w = (.ok (), o.emit rs, w') := by
  obtain ⟨ps, hbytes, hps, hserves⟩ := hall
  rw [← List.append_nil (ps.flatMap frame)] at hbytes
  exact servePipe_of_serves hsome hfailure ho hps (incomplete_nil _) hbytes hserves

/-- A pipe that ends well has answered all that its input holds. -/
theorem exists_answersAll {config : PipeConfig} {i : Input} {o o' : Output} {w w' : World ω}
    (hsome : ∀ data ∈ i.reads, data ≠ []) (hfailure : i.failure = none) (ho : o.capacity = none)
    (hpipe : h.servePipe config c i o w = (.ok (), o', w')) :
    ∃ rs, h.AnswersAll c config.maxFrameSize w i.bytes rs w' := by
  obtain ⟨ps, rest, hbytes, hps, hrest | ⟨n, hover⟩⟩ := exists_frames config.maxFrameSize i.bytes
  · obtain ⟨rs, result, w'', hserves⟩ := exists_serves h c w ps
    have hend := servePipe_of_serves hsome hfailure ho hps hrest hbytes hserves
    rw [hpipe, Prod.mk.injEq, Prod.mk.injEq] at hend
    obtain ⟨hend, -, rfl⟩ := hend
    cases result with
    | error halt => cases hend
    | ok =>
      obtain rfl : rest = [] := by
        by_contra hrest
        rw [Except.bind, ending, if_neg hrest] at hend
        cases hend
      rw [List.append_nil] at hbytes
      exact ⟨rs, ps, hbytes, hps, hserves⟩
  · have hreads : [] ++ i.reads.flatten = ps.flatMap frame ++ rest := by
      rw [List.nil_append, i.flatten_reads, hbytes]
    rw [servePipe, hfailure] at hpipe
    exact absurd (congrArg Prod.fst hpipe)
      (serveReads_ne_ok_of_oversize hsome (incomplete_nil _) hps hover hreads)

/-- A pipe that reads its bytes from one chunk ends well just if all that they hold is answered. -/
theorem servePipe_chunk_eq_ok_iff {config : PipeConfig} {bytes : Bytes} {o o' : Output}
    {w w' : World ω} (ho : o.capacity = none) :
    h.servePipe config c { chunks := [bytes] } o w = (.ok (), o', w') ↔
      ∃ rs, h.AnswersAll c config.maxFrameSize w bytes rs w' ∧ o' = o.emit rs := by
  have hbytes : (Input.mk [bytes] none).bytes = bytes := by simp [Input.bytes]
  by_cases hempty : bytes = []
  · -- the only read has no bytes, and is the end of the stream
    subst hempty
    have hpipe : h.servePipe config c { chunks := [[]] } o w = (.ok (), o, w) := rfl
    rw [hpipe]
    constructor
    · intro hsame
      cases hsame
      exact ⟨[], ⟨[], rfl, by simp, .done w⟩, by rw [Output.emit_nil]⟩
    · rintro ⟨rs, ⟨ps, hnil, -, hserves⟩, rfl⟩
      obtain rfl : ps = [] := by
        have hlength := length_le_length_frames ps
        rw [← hnil] at hlength
        simpa using hlength
      cases hserves
      rw [Output.emit_nil]
  · have hsome : ∀ data ∈ (Input.mk [bytes] none).reads, data ≠ [] := by
      intro data hdata
      rw [Input.reads, List.flatMap_singleton] at hdata
      exact ne_nil_of_mem_splitReads hempty hdata
    constructor
    · intro hpipe
      obtain ⟨rs, hall⟩ := exists_answersAll hsome rfl ho hpipe
      have hpipe' := servePipe_of_answersAll hsome rfl ho hall
      rw [hpipe, Prod.mk.injEq, Prod.mk.injEq] at hpipe'
      exact ⟨rs, hbytes ▸ hall, hpipe'.2.1⟩
    · rintro ⟨rs, hall, rfl⟩
      exact servePipe_of_answersAll hsome rfl ho (hbytes.symm ▸ hall)

end Handler

namespace TestRun

open Handler

variable {κ ω : Type} {Item : κ → Type} {h : Handler ω Item} {t : TestRun} {companion : Companion}

/-! ## Test runs -/

theorem send_eq_ok_iff {ps : List Bytes} {o o' : Output} (ho : o.capacity = none) :
    send ps o = (.ok (), o') ↔ (∀ p ∈ ps, p.length < 256 ^ lengthSize) ∧ o' = o.emit ps := by
  induction ps generalizing o with
  | nil => simp [send, eq_comm]
  | cons p ps ih =>
    rw [send, List.forall_mem_cons]
    by_cases hp : p.length < 256 ^ lengthSize
    · rw [Output.writeFrame_of_unlimited ho hp]
      have hemit : o.emit (p :: ps) = (o.emit [p]).emit ps := by
        rw [← Output.emit_append, List.singleton_append]
      rw [hemit, and_iff_right hp]
      exact ih (by rw [Output.capacity_emit, ho])
    · have hlong : payloadLength p = .error _ := if_neg hp
      simp [Output.writeFrame, hlong, hp]

/-- The queue can be sent, and all commands that the companion writes are answered. -/
def Completes (h : Handler ω Item) (t : TestRun) (stdout : Bytes) (w : World ω) (rs : List Bytes)
    (w' : World ω) : Prop :=
  (∀ p ∈ t.queue, p.length < 256 ^ lengthSize) ∧
    h.AnswersAll w.newContext.1 standardMax w.newContext.2 stdout rs w'

theorem runCompanion_of_completes {w w' : World ω} {rs : List Bytes}
    (hdone : Completes h t companion.stdout w rs w') :
    runCompanion h t companion w =
      (⟨exitResult companion, some ((t.queue ++ rs).flatMap frame)⟩, w') := by
  obtain ⟨hqueue, hall⟩ := hdone
  have hsend : send t.queue {} = (.ok (), ({} : Output).emit t.queue) :=
    (send_eq_ok_iff rfl).2 ⟨hqueue, rfl⟩
  have hpipe := (@servePipe_chunk_eq_ok_iff _ _ _ h _ {} companion.stdout
    (({} : Output).emit t.queue) _ _ w' rfl).2 ⟨rs, hall, rfl⟩
  simp only [runCompanion, exchange, hsend, hpipe, ended]
  rw [← Output.emit_append, Output.written_emit]
  rfl

/-- A run that is not completed ends with an error in which the end of the companion has no part. -/
theorem exists_halt_of_not_completes {stdout : Bytes} {w : World ω}
    (hopen : ∀ rs w', ¬ Completes h t stdout w rs w') :
    ∃ halt w', ∀ companion : Companion, companion.stdout = stdout →
      runCompanion h t companion w = (⟨.error halt, none⟩, w') := by
  rcases hsend : send t.queue {} with ⟨e | _, o⟩
  · refine ⟨.failed e, w, fun companion _ => ?_⟩
    simp only [runCompanion, exchange, hsend, ended]
  · obtain ⟨hqueue, rfl⟩ := (send_eq_ok_iff rfl).1 hsend
    rcases hpipe : h.servePipe {} w.newContext.1 { chunks := [stdout] } (({} : Output).emit t.queue)
      w.newContext.2 with ⟨halt | _, o, w'⟩
    · refine ⟨halt, w', ?_⟩
      rintro companion rfl
      simp only [runCompanion, exchange, hsend, hpipe, ended]
    · obtain ⟨rs, hall, -⟩ := (servePipe_chunk_eq_ok_iff rfl).1 hpipe
      exact absurd ⟨hqueue, hall⟩ (hopen rs w')

/-- **A companion that fails is reported as such only if all that it wrote was answered.** Then the
run fails with the companion's status and all of its error output. Else it fails with what went wrong
on the way, and neither the status nor the error output is looked at. -/
theorem run_of_failing_companion (h : Handler ω Item)
    (find : String → List String → Option Companion) (w : World ω) (herror : t.error = none)
    (hfind : find t.program t.args = some companion) (hfails : companion.succeeds = false) :
    (∀ rs w', Completes h t companion.stdout w rs w' →
      run h find t w =
        (⟨.error (.failed (.command companion.statusText companion.stderr)),
          some ((t.queue ++ rs).flatMap frame)⟩, w')) ∧
    ((∀ rs w', ¬ Completes h t companion.stdout w rs w') →
      ∃ halt w', ∀ find' companion', find' t.program t.args = some companion' →
        companion'.stdout = companion.stdout →
        run h find' t w = (⟨.error halt, none⟩, w')) := by
  constructor
  · intro rs w' hdone
    simp only [run_of_none h find herror, hfind, runStarted, runCompanion_of_completes hdone,
      exitResult, hfails]
    rfl
  · intro hopen
    obtain ⟨halt, w', hrun⟩ := exists_halt_of_not_completes hopen
    refine ⟨halt, w', fun find' companion' hfind' hstdout => ?_⟩
    simp only [run_of_none h find' herror, hfind', runStarted, hrun companion' hstdout]

/-- A companion that has one command answered, says `boom` and exits with 3. -/
def sampleCompanion : Companion where
  stdout := frame sampleCommand
  stderr := [98, 111, 111, 109]
  exitCode := 3

theorem run_of_failing_companion_sample :
    sampleCompanion.succeeds = false ∧
      (run idle (fun _ _ => some sampleCompanion) ({} : TestRun).addWatermark { own := () }).1 =
        ⟨.error (.failed (.command "exit status: 3" [98, 111, 111, 109])),
          some ([[18, 0], [26, 0], sampleAnswer].flatMap frame)⟩ := by
  have hreply : idle.Replies (World.newContext { own := () }).1 (World.newContext { own := () }).2
      sampleCommand (.ok sampleAnswer) _ :=
    @Replies.keyEventBatch _ _ _ _ _ _ _ (some ⟨[[]]⟩) _ _ rfl rfl
  have hdone : Completes idle ({} : TestRun).addWatermark sampleCompanion.stdout { own := () }
      [sampleAnswer] _ :=
    ⟨by decide, [sampleCommand], by decide, by simp [Fits, sampleCommand, standardMax, lengthSize],
      .answered hreply (by decide) (.done _)⟩
  have hrun := (run_of_failing_companion idle (fun _ _ => some sampleCompanion) { own := () } rfl rfl
    (by decide)).1 _ _ hdone
  exact ⟨by decide, congrArg Prod.fst hrun⟩

/-- A companion that stops inside a frame, says `boom` and exits with 3: the run tells of the frame,
and neither of the exit nor of what was said. -/
theorem run_hides_status :
    ∃ companion : Companion, companion.succeeds = false ∧
      (run idle (fun _ _ => some companion) {} { own := () }).1.result =
        .error (.failed (.protocol "stream ended inside a frame (2 bytes buffered)")) ∧
      (run idle (fun _ _ => some companion) {} { own := () }).1.result ≠
        .error (.failed (.command companion.statusText companion.stderr)) := by
  have hresult : (run idle (fun _ _ => some { sampleCompanion with stdout := [0, 0] }) {}
      { own := () }).1.result =
      .error (.failed (.protocol "stream ended inside a frame (2 bytes buffered)")) := rfl
  exact ⟨_, by decide, hresult, by simp [hresult]⟩

end TestRun

end KeyedStream
