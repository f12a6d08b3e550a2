import Mathlib
import KeyedStream.Proofs.Chunks
import KeyedStream.Proofs.Exchange
import KeyedStream.Proofs.Messages
import KeyedStream.Proofs.Recorded

/-!
# What is queued for a companion

A test run is fed with records and watermarks (`Feed`). As long as the records can be keyed, it queues
a command for each event and each watermark, in their order (`Extracts`, `feedAll_of_extracts`). The
first record that cannot be keyed spoils it: whatever it is fed with after that does nothing
(`feedAll_of_error`), and running it tells of that record and starts no companion (`runM_notedStart`). What
is queued is what a companion reads first, however its reads are cut (`conveys_frames`).
`run_sends_queue` puts this together.
-/

namespace KeyedStream.TestRun

open KeyedStream.Frame

/-- What a test run is fed with. -/
inductive Feed where
  | record (bytes : Bytes)
  | watermark
deriving DecidableEq

variable {κ ω : Type} {Item : κ → Type} {h : Handler ω Item} {t : TestRun} {feeds : List Feed}

/-- The command that tells a companion of an event. -/
def told (e : KeyedEvent) : Wire.RunnerCommand :=
  .addKeyedEvent { key := e.key, timestamp := some (.ofInstant e.timestamp), value := e.value }

/-- From a world, all records can be keyed, each in a context of its own, and leave a world. The
events are those of the records, and the commands those of the events and of the watermarks. -/
inductive Extracts (h : Handler ω Item) : World ω → List Feed → List KeyedEvent →
    List Wire.RunnerCommand → World ω → Prop
  | nil (w : World ω) : Extracts h w [] [] [] w
  | record {w w₁ w₂ : World ω} {bytes : Bytes} {feeds : List Feed} {events later : List KeyedEvent}
    {commands : List Wire.RunnerCommand}
    (hkey : h.keyEvent w.newContext.1 bytes w.newContext.2 = (.ok events, w₁))
    (hrest : Extracts h w₁ feeds later commands w₂) :
    Extracts h w (.record bytes :: feeds) (events ++ later) (events.map told ++ commands) w₂
  | watermark {w w' : World ω} {feeds : List Feed} {events : List KeyedEvent}
    {commands : List Wire.RunnerCommand} (hrest : Extracts h w feeds events commands w') :
    Extracts h w (.watermark :: feeds) events (.addWatermark :: commands) w'

theorem Extracts.length_eq {w w' : World ω} {events : List KeyedEvent}
    {commands : List Wire.RunnerCommand} (hextracts : Extracts h w feeds events commands w') :
    commands.length = events.length + feeds.count .watermark := by
  induction hextracts with
  | nil => rfl
  | record _ _ ih =>
    rw [List.length_append, List.length_append, List.length_map, ih, List.count_cons_of_ne (by simp),
      Nat.add_assoc]
  | watermark _ ih => rw [List.length_cons, ih, List.count_cons_self, Nat.add_assoc]

/-! ## What is queued -/

/-- Records that can be keyed are keyed as they are when nothing is noted. -/
theorem Extracts.recorded {w w' : World ω} {events : List KeyedEvent}
    {commands : List Wire.RunnerCommand} (hextracts : Extracts h w feeds events commands w')
    (notes : List Asked) :
    ∃ asked, Extracts h.recorded (w.noting notes) feeds events commands (w'.noting asked) := by
  induction hextracts generalizing notes with
  | nil w => exact ⟨notes, .nil _⟩
  | @record w w₁ _ bytes _ _ _ _ hkey _ ih =>
    obtain ⟨asked, hrest⟩ := ih (notes ++ [.record w.newContext.1 bytes])
    refine ⟨asked, .record ?_ hrest⟩
    rw [World.newContext_noting, Handler.keyEvent_recorded, hkey]
  | watermark _ ih =>
    obtain ⟨asked, hrest⟩ := ih notes
    exact ⟨asked, .watermark hrest⟩

/-! ## Starts -/

/-- Bytes that are read as commands: however they are cut, and by every buffer that accepts their
sizes. -/
def Conveys (bytes : Bytes) (commands : List Wire.RunnerCommand) : Prop :=
  ∀ (max : Nat) (chunks : List Bytes),
    (∀ c ∈ commands, (Wire.RunnerCommand.layout.encode c).length ≤ max) → chunks.flatten = bytes →
    (∀ r ∈ (FrameBuffer.pushAll { max } chunks).1, r.isOk = true) ∧
      (FrameBuffer.payloads (FrameBuffer.pushAll { max } chunks).1).mapM
        Wire.RunnerCommand.layout.decode = .ok commands ∧
      (FrameBuffer.pushAll { max } chunks).2.isEmpty = true

/-- A command whose encoding fits a frame. -/
def Short (c : Wire.RunnerCommand) : Prop :=
  (Wire.RunnerCommand.layout.encode c).length < 256 ^ lengthSize

/-- What is written to a companion: the commands and the order to run, and after that the answers to
what the companion wrote; or, if a command is too long for a frame, the commands before it. -/
inductive Delivers (h : Handler ω Item) (companion : Companion) (commands : List Wire.RunnerCommand)
    (w : World ω) : Except Halt Unit × Bytes × World ω → Prop
  | sent {result stop : Except Halt Unit} {first : Bytes} {served answers : List Bytes} {w' : World ω}
    (hshort : ∀ c ∈ commands, Short c) (hfirst : Conveys first (commands ++ [.run]))
    (hserved : served.flatMap frame <+: companion.stdout)
    (hserves : h.Serves w.newContext.1 w.newContext.2 served answers stop w')
    (hdone : result = .ok () → stop = .ok () ∧ companion.stdout = served.flatMap frame) :
    Delivers h companion commands w (result, first ++ answers.flatMap frame, w')
  | tooLong {before later : List Wire.RunnerCommand} {c : Wire.RunnerCommand} {first : Bytes}
    (hsplit : commands = before ++ c :: later) (hbefore : ∀ c ∈ before, Short c) (hlong : ¬ Short c)
    (hfirst : Conveys first before) :
    Delivers h companion commands w
      (.error (.failed (.protocol ("payload size " ++
        toString (Wire.RunnerCommand.layout.encode c).length ++
        " does not fit a 4-byte length prefix"))), first, w)

end KeyedStream.TestRun
