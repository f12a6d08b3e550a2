import Mathlib
import KeyedStream.Proofs.Service

/-!
# What a pipe answers

The reads of a pipe only matter through the bytes that they hand out, as long as no length above the
limit comes (`serveReads_frames`). Before such a length they do matter: the commands that come in the
read which completes the length are lost, and only those whose frames end before it are answered
(`servePipe_oversize`). So all are answered just if that read holds nothing but bytes of the length,
and one stream is answered in different ways when it is cut in different ways
(`servePipe_depends_on_reads`).
-/

namespace KeyedStream

open KeyedStream.Frame

namespace Handler

variable {κ ω : Type} {Item : κ → Type} {h : Handler ω Item} {c : Context}

/-! ## Commands that are answered -/

/-- Payloads that are commands, the answers to them, and what they make of the world. -/
inductive Answers (h : Handler ω Item) (c : Context) :
    World ω → List Bytes → List Bytes → World ω → Prop where
  | nil (w : World ω) : Answers h c w [] [] w
  | cons {w w₁ w₂ : World ω} {p r : Bytes} {ps rs : List Bytes} {command : Wire.HandlerCommand}
      (hdecode : Wire.HandlerCommand.layout.decode p = .ok command)
      (hanswer : h.answer c command w = (.ok r, w₁)) (hfits : r.length < 256 ^ lengthSize)
      (hrest : Answers h c w₁ ps rs w₂) : Answers h c w (p :: ps) (r :: rs) w₂

theorem Answers.length_eq {w w' : World ω} {ps rs : List Bytes} (hans : Answers h c w ps rs w') :
    rs.length = ps.length := by
  induction hans with
  | nil => rfl
  | cons _ _ _ _ ih => rw [List.length_cons, List.length_cons, ih]

/-- Answers to commands that come one after the other are answers to the first and to the others. -/
theorem Answers.of_append {w w' : World ω} {ps qs rs : List Bytes}
    (hans : Answers h c w (ps ++ qs) rs w') :
    ∃ w₁, Answers h c w ps (rs.take ps.length) w₁ ∧ Answers h c w₁ qs (rs.drop ps.length) w' := by
  induction ps generalizing w rs with
  | nil => exact ⟨w, .nil w, hans⟩
  | cons p ps ih =>
    cases hans with
    | cons hdecode hanswer hfits hrest =>
      obtain ⟨w₁, hps, hqs⟩ := ih hrest
      exact ⟨w₁, .cons hdecode hanswer hfits hps, hqs⟩

/-- Commands that are answered are served to the end. -/
theorem Answers.serves {w w' : World ω} {ps rs : List Bytes} (hans : Answers h c w ps rs w') :
    h.Serves c w ps rs (.ok ()) w' := by
  induction hans with
  | nil w => exact .done w
  | @cons w w₁ _ p r _ _ command hdecode hanswer hfits _ ih =>
    have hreply : h.Replies c w p (.ok r) w₁ := by
      have hreply := @replies_answer _ _ _ h c w p command hdecode
      rw [hanswer] at hreply
      exact hreply
    exact .answered hreply hfits ih

/-! ## Reads -/

/-- **Where a stream is cut does not matter** while it is a row of commands that are answered, and
the beginning of a frame: the answers are written, and the reads that follow find the buffer as if
all bytes had come at once. -/
theorem serveReads_frames (failure : Option String) (more : List Bytes) {max : Nat}
    {reads : List Bytes} {front rest : Bytes} {ps rs : List Bytes} {o : Output} {w w' : World ω}
    (hreads : ∀ data ∈ reads, data ≠ []) (hfront : Incomplete max front)
    (hps : ∀ p ∈ ps, Fits max p) (hrest : Incomplete max rest)
    (hbytes : front ++ reads.flatten = ps.flatMap frame ++ rest)
    (hans : Answers h c w ps rs w') (ho : o.capacity = none) :
    h.serveReads c failure (reads ++ more) (.resting max front) o w =
      h.serveReads c failure more (.resting max rest) (o.emit rs) w' := by
  rw [serveReads_append h c failure more o w hreads hfront hps hrest hbytes,
    servePayloads_of_serves hans.serves ho]

/-! ## A length above the limit -/

/-- **What a length above the limit leaves of the commands before it.** Those whose frames end
before the last read are answered, the others are not looked at, and the pipe fails. All are
answered just if the last read has no byte of a command. -/
theorem servePipe_oversize (h : Handler ω Item) (config : PipeConfig) (c : Context) {i : Input}
    {o : Output} {w w' : World ω} {ps rs before : List Bytes} {last : Bytes} {n : Nat}
    (hreads : i.reads = before ++ [last]) (hsome : ∀ data ∈ i.reads, data ≠ [])
    (hps : ∀ p ∈ ps, p.length ≤ config.maxFrameSize) (hmax : config.maxFrameSize < n)
    (hn : n < 256 ^ lengthSize) (hbytes : i.bytes = ps.flatMap frame ++ encodeLength n)
    (hans : Answers h c w ps rs w') (ho : o.capacity = none) :
    ∃ w₁, Answers h c w (ps.take (countWithin before.flatten.length ps))
        (rs.take (countWithin before.flatten.length ps)) w₁ ∧
      h.servePipe config c i o w =
        (.error (.failed (FrameBuffer.tooLarge n config.maxFrameSize)),
          o.emit (rs.take (countWithin before.flatten.length ps)), w₁) ∧
      (o.emit (rs.take (countWithin before.flatten.length ps)) = o.emit rs ↔
        last.length ≤ lengthSize) := by
  have hfits : ∀ p ∈ ps, Fits config.maxFrameSize p := by
    intro p hp
    have := hps p hp
    exact ⟨this, by omega⟩
  have hover : Oversize config.maxFrameSize n (encodeLength n) := by
    have hlen := decodeLength?_encodeLength hn []
    rw [List.append_nil] at hlen
    exact ⟨hlen, hmax⟩
  have hcut : before.flatten ++ last = ps.flatMap frame ++ encodeLength n := by
    rw [← hbytes, ← i.flatten_reads, hreads, List.flatten_append, List.flatten_singleton]
  have hlast : last ≠ [] := hsome last (by simp [hreads])
  -- the reads before the last one are a row of frames and the beginning of another one
  obtain ⟨qs, ps', front, rfl, hbefore, hpart, htail⟩ := exists_cut hfits hover hlast hcut
  have hqs : ∀ p ∈ qs, Fits config.maxFrameSize p :=
    fun p hp => hfits p (List.mem_append_left ps' hp)
  have hps' : ∀ p ∈ ps', Fits config.maxFrameSize p :=
    fun p hp => hfits p (List.mem_append_right qs hp)
  have hcount : countWithin before.flatten.length (qs ++ ps') = qs.length := by
    rw [hbefore]
    exact countWithin_append hps' hpart htail
  obtain ⟨w₁, hserved, -⟩ := hans.of_append
  refine ⟨w₁, ?_, ?_, ?_⟩
  · rw [hcount, List.take_left]
    exact hserved
  · have hloop := serveReads_frames i.failure [last]
      (fun d hd => hsome d (by rw [hreads]; exact List.mem_append_left _ hd))
      (incomplete_nil config.maxFrameSize) hqs hpart hbefore hserved ho
    have hdata : last.isEmpty = false := by simpa using hlast
    rw [servePipe, hreads, hcount]
    refine hloop.trans ?_
    rw [serveReads, hdata]
    simp only [Bool.false_eq_true, if_false,
      FrameBuffer.push_resting_oversize hpart hps' htail hover]
  · have hsize := congrArg List.length hcut
    rw [List.length_append, List.length_append, length_encodeLength] at hsize
    have hfew := countWithin_le before.flatten.length (qs ++ ps')
    have hall := @countWithin_eq_length_iff before.flatten.length (qs ++ ps')
    rw [Output.emit_take_eq_iff, hans.length_eq]
    omega

theorem answers_sampleCommand {w : World Unit} {ps rs : List Bytes}
    (h : Answers idle (.withCancellation ⟨0, []⟩) { own := () } ps rs w) :
    Answers idle (.withCancellation ⟨0, []⟩) { own := () } (sampleCommand :: ps)
      (sampleAnswer :: rs) w := by
  have hdecode : Wire.HandlerCommand.layout.decode sampleCommand =
      .ok { payload := some (.keyEventBatch ⟨some ⟨[[]]⟩⟩) } := rfl
  exact .cons hdecode rfl (by decide) h

/-- A stream of two commands and a length of 100, which is cut inside the second command. -/
def sampleInput : Input where
  chunks := [frame sampleCommand ++ [0, 0, 0], [6] ++ sampleCommand ++ encodeLength 100]

theorem servePipe_oversize_sample :
    (idle.servePipe ⟨50⟩ (.withCancellation ⟨0, []⟩) sampleInput {} { own := () }).1 =
        .error (.failed (FrameBuffer.tooLarge 100 50)) ∧
      (idle.servePipe ⟨50⟩ (.withCancellation ⟨0, []⟩) sampleInput {} { own := () }).2.1 =
        ({} : Output).emit [sampleAnswer] ∧
      ({} : Output).emit [sampleAnswer] ≠ ({} : Output).emit [sampleAnswer, sampleAnswer] := by
  have hans := answers_sampleCommand (answers_sampleCommand (.nil { own := () }))
  obtain ⟨w₁, -, hpipe, hall⟩ := @servePipe_oversize _ _ _ idle ⟨50⟩
    (.withCancellation ⟨0, []⟩) sampleInput {} { own := () } { own := () }
    [sampleCommand, sampleCommand] [sampleAnswer, sampleAnswer] [frame sampleCommand ++ [0, 0, 0]]
    ([6] ++ sampleCommand ++ encodeLength 100) 100 rfl (by decide) (by decide) (by decide)
    (by decide) (by decide) hans rfl
  have hcount : countWithin [frame sampleCommand ++ [0, 0, 0]].flatten.length
      [sampleCommand, sampleCommand] = 1 := by decide
  rw [hcount] at hpipe hall
  refine ⟨by rw [hpipe], by rw [hpipe]; rfl, fun hsame => ?_⟩
  exact absurd (hall.1 hsame) (by decide)

/-- A command and a length above the limit, cut before the length or not at all: the command is
answered or not. -/
theorem servePipe_depends_on_reads :
    ∃ i j : Input, i.bytes = frame sampleCommand ++ encodeLength 100 ∧ j.bytes = i.bytes ∧
      (∀ data ∈ i.reads ++ j.reads, data ≠ []) ∧
      Answers idle (.withCancellation ⟨0, []⟩) { own := () } [sampleCommand] [sampleAnswer]
        { own := () } ∧
      (idle.servePipe ⟨50⟩ (.withCancellation ⟨0, []⟩) i {} { own := () }).2.1.written =
        frame sampleAnswer ∧
      (idle.servePipe ⟨50⟩ (.withCancellation ⟨0, []⟩) j {} { own := () }).2.1.written = [] := by
  refine ⟨⟨[frame sampleCommand, encodeLength 100], none⟩,
    ⟨[frame sampleCommand ++ encodeLength 100], none⟩, by decide, by decide, by decide,
    answers_sampleCommand (.nil _), by rfl, by rfl⟩

end Handler

end KeyedStream
