import Mathlib
import KeyedStream.Proofs.Lossless
import KeyedStream.Wire.Command

/-!
# Messages read back

The messages that are exchanged are listed by their types (`MessageType`), and no layout among them
loses anything: each needs one unit of the recursion budget for every message that it nests. So every
message is read back from its encoding, whose length is the size that was counted
(`MessageType.decode_encode_and_size`).
-/

namespace KeyedStream.Wire

open Proto Proto.Layout Proto.Shape

variable {budget : Nat}

/-! ## Events -/

theorem Timestamp.lossless : Timestamp.layout.Lossless budget :=
  lossless_of_completes (by decide) fun _ =>
    .single lossless_int64 (fun _ _ _ => ⟨rfl, rfl, rfl⟩) <|
    .single lossless_int32 (fun _ _ _ => ⟨rfl, rfl, rfl⟩) .nil

theorem KeyedEvent.lossless : KeyedEvent.layout.Lossless (budget + 1) :=
  lossless_of_completes (by decide) fun _ =>
    .single lossless_bytes (fun _ _ _ => ⟨rfl, rfl, rfl⟩) <|
    .single (lossless_optional Timestamp.lossless) (fun _ _ _ => ⟨rfl, rfl, rfl⟩) <|
    .single lossless_bytes (fun _ _ _ => ⟨rfl, rfl, rfl⟩) .nil

theorem TimerExpired.lossless : TimerExpired.layout.Lossless (budget + 1) :=
  lossless_of_completes (by decide) fun _ =>
    .single lossless_bytes (fun _ _ _ => ⟨rfl, rfl, rfl⟩) <|
    .single (lossless_optional Timestamp.lossless) (fun _ _ _ => ⟨rfl, rfl, rfl⟩) .nil

theorem Event.lossless : Event.layout.Lossless (budget + 2) := by
  refine lossless_of_oneof (by decide) rfl rfl (fun _ => rfl) ?_
  intro e
  cases e with
  | keyedEvent e => exact .message KeyedEvent.lossless rfl rfl rfl rfl
  | timerExpired t => exact .message TimerExpired.lossless rfl rfl rfl rfl

/-! ## Rows -/

theorem StateEntry.lossless : StateEntry.layout.Lossless budget :=
  lossless_of_completes (by decide) fun _ =>
    .single lossless_bytes (fun _ _ _ => ⟨rfl, rfl, rfl⟩) <|
    .single lossless_bytes (fun _ _ _ => ⟨rfl, rfl, rfl⟩) .nil

theorem StateEntryNamespace.lossless : StateEntryNamespace.layout.Lossless (budget + 1) :=
  lossless_of_completes (by decide) fun _ =>
    .single lossless_text (fun _ _ _ => ⟨rfl, rfl, rfl⟩) <|
    .single (lossless_repeated StateEntry.lossless) (fun _ _ _ => ⟨rfl, rfl, rfl⟩) .nil

theorem KeyState.lossless : KeyState.layout.Lossless (budget + 2) :=
  lossless_of_completes (by decide) fun _ =>
    .single lossless_bytes (fun _ _ _ => ⟨rfl, rfl, rfl⟩) <|
    .single (lossless_repeated StateEntryNamespace.lossless) (fun _ _ _ => ⟨rfl, rfl, rfl⟩) .nil

theorem PutMutation.lossless : PutMutation.layout.Lossless budget :=
  lossless_of_completes (by decide) fun _ =>
    .single lossless_bytes (fun _ _ _ => ⟨rfl, rfl, rfl⟩) <|
    .single lossless_bytes (fun _ _ _ => ⟨rfl, rfl, rfl⟩) .nil

theorem DeleteMutation.lossless : DeleteMutation.layout.Lossless budget :=
  lossless_of_completes (by decide) fun _ =>
    .single lossless_bytes (fun _ _ _ => ⟨rfl, rfl, rfl⟩) .nil

theorem StateMutation.lossless : StateMutation.layout.Lossless (budget + 1) := by
  refine lossless_of_oneof (by decide) rfl rfl (fun _ => rfl) ?_
  intro m
  cases m with
  | put m => exact .message PutMutation.lossless rfl rfl rfl rfl
  | delete m => exact .message DeleteMutation.lossless rfl rfl rfl rfl

theorem StateMutationNamespace.lossless : StateMutationNamespace.layout.Lossless (budget + 2) :=
  lossless_of_completes (by decide) fun _ =>
    .single lossless_text (fun _ _ _ => ⟨rfl, rfl, rfl⟩) <|
    .single (lossless_repeated StateMutation.lossless) (fun _ _ _ => ⟨rfl, rfl, rfl⟩) .nil

/-! ## Batches -/

theorem ProcessEventBatchRequest.lossless :
    ProcessEventBatchRequest.layout.Lossless (budget + 3) :=
  lossless_of_completes (by decide) fun _ =>
    .single (lossless_repeated Event.lossless) (fun _ _ _ => ⟨rfl, rfl, rfl⟩) <|
    .single (lossless_repeated KeyState.lossless) (fun _ _ _ => ⟨rfl, rfl, rfl⟩) <|
    .single (lossless_optional Timestamp.lossless) (fun _ _ _ => ⟨rfl, rfl, rfl⟩) .nil

theorem KeyResult.lossless : KeyResult.layout.Lossless (budget + 3) :=
  lossless_of_completes (by decide) fun _ =>
    .single lossless_bytes (fun _ _ _ => ⟨rfl, rfl, rfl⟩) <|
    .single (lossless_repeated Timestamp.lossless) (fun _ _ _ => ⟨rfl, rfl, rfl⟩) <|
    .single (lossless_repeated StateMutationNamespace.lossless) (fun _ _ _ => ⟨rfl, rfl, rfl⟩) .nil

theorem SinkRequest.lossless : SinkRequest.layout.Lossless budget :=
  lossless_of_completes (by decide) fun _ =>
    .single lossless_text (fun _ _ _ => ⟨rfl, rfl, rfl⟩) <|
    .single lossless_bytes (fun _ _ _ => ⟨rfl, rfl, rfl⟩) .nil

theorem ProcessEventBatchResponse.lossless :
    ProcessEventBatchResponse.layout.Lossless (budget + 4) :=
  lossless_of_completes (by decide) fun _ =>
    .single (lossless_repeated KeyResult.lossless) (fun _ _ _ => ⟨rfl, rfl, rfl⟩) <|
    .single (lossless_repeated SinkRequest.lossless) (fun _ _ _ => ⟨rfl, rfl, rfl⟩) .nil

theorem KeyEventBatchRequest.lossless : KeyEventBatchRequest.layout.Lossless budget :=
  lossless_of_completes (by decide) fun _ =>
    .single lossless_repeatedBytes (fun _ _ _ => ⟨rfl, rfl, rfl⟩) .nil

theorem KeyEventResult.lossless : KeyEventResult.layout.Lossless (budget + 2) :=
  lossless_of_completes (by decide) fun _ =>
    .single (lossless_repeated KeyedEvent.lossless) (fun _ _ _ => ⟨rfl, rfl, rfl⟩) .nil

theorem KeyEventBatchResponse.lossless : KeyEventBatchResponse.layout.Lossless (budget + 3) :=
  lossless_of_completes (by decide) fun _ =>
    .single (lossless_repeated KeyEventResult.lossless) (fun _ _ _ => ⟨rfl, rfl, rfl⟩) .nil

/-! ## Commands -/

theorem KeyEventBatch.lossless : KeyEventBatch.layout.Lossless (budget + 1) :=
  lossless_of_completes (by decide) fun _ =>
    .single (lossless_optional KeyEventBatchRequest.lossless) (fun _ _ _ => ⟨rfl, rfl, rfl⟩) .nil

theorem ProcessEventBatch.lossless : ProcessEventBatch.layout.Lossless (budget + 4) :=
  lossless_of_completes (by decide) fun _ =>
    .single (lossless_optional ProcessEventBatchRequest.lossless) (fun _ _ _ => ⟨rfl, rfl, rfl⟩) .nil

theorem HandlerCommand.lossless : HandlerCommand.layout.Lossless (budget + 5) := by
  refine lossless_of_oneof (by decide) rfl rfl (fun _ => rfl) ?_
  intro p
  cases p with
  | keyEventBatch b => exact .message KeyEventBatch.lossless rfl rfl rfl rfl
  | processEventBatch b => exact .message ProcessEventBatch.lossless rfl rfl rfl rfl

theorem AddKeyedEvent.lossless : AddKeyedEvent.layout.Lossless (budget + 2) :=
  lossless_of_completes (by decide) fun _ =>
    .single (lossless_optional KeyedEvent.lossless) (fun _ _ _ => ⟨rfl, rfl, rfl⟩) .nil

theorem AddWatermark.lossless : AddWatermark.layout.Lossless budget :=
  lossless_of_completes (by decide) fun _ => .nil

theorem Run.lossless : Run.layout.Lossless budget :=
  lossless_of_completes (by decide) fun _ => .nil

theorem RunnerCommand.lossless : RunnerCommand.layout.Lossless (budget + 3) := by
  refine lossless_of_oneof (by decide) rfl rfl (fun _ => rfl) ?_
  intro p
  cases p with
  | addKeyedEvent c => exact .message AddKeyedEvent.lossless rfl rfl rfl rfl
  | addWatermark c => exact .message AddWatermark.lossless rfl rfl rfl rfl
  | run c => exact .message Run.lossless rfl rfl rfl rfl

/-! ## All messages -/

/-- The types of the messages that are exchanged. -/
inductive MessageType where
  | timestamp
  | keyedEvent | timerExpired | event
  | stateEntry | stateEntryNamespace | keyState
  | putMutation | deleteMutation | stateMutation | stateMutationNamespace
  | processEventBatchRequest | keyResult | sinkRequest | processEventBatchResponse
  | keyEventBatchRequest | keyEventResult | keyEventBatchResponse
  | keyEventBatch | processEventBatch | handlerCommand
  | addKeyedEvent | addWatermark | run | runnerCommand
deriving DecidableEq, Repr

namespace MessageType

/-- The messages of a type. -/
abbrev Carrier : MessageType → Type
  | timestamp => Timestamp
  | keyedEvent => KeyedEvent
  | timerExpired => TimerExpired
  | event => Event
  | stateEntry => StateEntry
  | stateEntryNamespace => StateEntryNamespace
  | keyState => KeyState
  | putMutation => PutMutation
  | deleteMutation => DeleteMutation
  | stateMutation => StateMutation
  | stateMutationNamespace => StateMutationNamespace
  | processEventBatchRequest => ProcessEventBatchRequest
  | keyResult => KeyResult
  | sinkRequest => SinkRequest
  | processEventBatchResponse => ProcessEventBatchResponse
  | keyEventBatchRequest => KeyEventBatchRequest
  | keyEventResult => KeyEventResult
  | keyEventBatchResponse => KeyEventBatchResponse
  | keyEventBatch => KeyEventBatch
  | processEventBatch => ProcessEventBatch
  | handlerCommand => HandlerCommand
  | addKeyedEvent => AddKeyedEvent
  | addWatermark => AddWatermark
  | run => Run
  | runnerCommand => RunnerCommand

def layout : (t : MessageType) → Layout t.Carrier
  | timestamp => Timestamp.layout
  | keyedEvent => KeyedEvent.layout
  | timerExpired => TimerExpired.layout
  | event => Event.layout
  | stateEntry => StateEntry.layout
  | stateEntryNamespace => StateEntryNamespace.layout
  | keyState => KeyState.layout
  | putMutation => PutMutation.layout
  | deleteMutation => DeleteMutation.layout
  | stateMutation => StateMutation.layout
  | stateMutationNamespace => StateMutationNamespace.layout
  | processEventBatchRequest => ProcessEventBatchRequest.layout
  | keyResult => KeyResult.layout
  | sinkRequest => SinkRequest.layout
  | processEventBatchResponse => ProcessEventBatchResponse.layout
  | keyEventBatchRequest => KeyEventBatchRequest.layout
  | keyEventResult => KeyEventResult.layout
  | keyEventBatchResponse => KeyEventBatchResponse.layout
  | keyEventBatch => KeyEventBatch.layout
  | processEventBatch => ProcessEventBatch.layout
  | handlerCommand => HandlerCommand.layout
  | addKeyedEvent => AddKeyedEvent.layout
  | addWatermark => AddWatermark.layout
  | run => Run.layout
  | runnerCommand => RunnerCommand.layout

/-- Five units of the budget are enough for each of the layouts. -/
theorem lossless : (t : MessageType) → t.layout.Lossless (budget + 5)
  | timestamp => Timestamp.lossless
  | keyedEvent => KeyedEvent.lossless
  | timerExpired => TimerExpired.lossless
  | event => Event.lossless
  | stateEntry => StateEntry.lossless
  | stateEntryNamespace => StateEntryNamespace.lossless
  | keyState => KeyState.lossless
  | putMutation => PutMutation.lossless
  | deleteMutation => DeleteMutation.lossless
  | stateMutation => StateMutation.lossless
  | stateMutationNamespace => StateMutationNamespace.lossless
  | processEventBatchRequest => ProcessEventBatchRequest.lossless
  | keyResult => KeyResult.lossless
  | sinkRequest => SinkRequest.lossless
  | processEventBatchResponse => ProcessEventBatchResponse.lossless
  | keyEventBatchRequest => KeyEventBatchRequest.lossless
  | keyEventResult => KeyEventResult.lossless
  | keyEventBatchResponse => KeyEventBatchResponse.lossless
  | keyEventBatch => KeyEventBatch.lossless
  | processEventBatch => ProcessEventBatch.lossless
  | handlerCommand => HandlerCommand.lossless
  | addKeyedEvent => AddKeyedEvent.lossless
  | addWatermark => AddWatermark.lossless
  | run => Run.lossless
  | runnerCommand => RunnerCommand.lossless

/-- **Every message is read back from its encoding**, whose length is the size that is counted. -/
theorem decode_encode_and_size (t : MessageType) (m : t.Carrier)
    (h : (t.layout.encode m).length < 2 ^ 63) :
    t.layout.decode (t.layout.encode m) = .ok m ∧ t.layout.size m = (t.layout.encode m).length := by
  have hlen : (t.layout.encode m).length < 2 ^ 64 := Nat.lt_trans h (by decide)
  have hlossless : t.layout.Lossless recursionBudget := t.lossless
  exact ⟨hlossless.decode_encode hlen, hlossless.size_eq hlen⟩

/-- A command with an event that holds nothing, one before the epoch with negative nanoseconds, a
timer at the epoch, an empty row, and a watermark that is there and empty. -/
def sampleBatch : HandlerCommand :=
  .processEventBatch {
    events := [{}, ⟨some (.keyedEvent { key := [107], timestamp := some ⟨-1, -5⟩ })⟩,
      ⟨some (.timerExpired { timestamp := some ⟨0, 0⟩ })⟩]
    keyStates := [{ key := [107], stateEntryNamespaces := [{ name := "s", entries := [{}] }] }]
    watermark := some ⟨0, 0⟩ }

theorem decode_encode_and_size_sample :
    (HandlerCommand.layout.encode sampleBatch).length < 2 ^ 63 ∧
      HandlerCommand.layout.decode (HandlerCommand.layout.encode sampleBatch) =
        .ok sampleBatch ∧
      HandlerCommand.layout.size sampleBatch = 57 := by
  have hlen : (HandlerCommand.layout.encode sampleBatch).length = 57 := by decide
  have hsmall : (HandlerCommand.layout.encode sampleBatch).length < 2 ^ 63 := by
    rw [hlen]
    decide
  obtain ⟨hdecode, hsize⟩ := decode_encode_and_size .handlerCommand sampleBatch hsmall
  exact ⟨hsmall, hdecode, hsize.trans hlen⟩

end MessageType

end KeyedStream.Wire
