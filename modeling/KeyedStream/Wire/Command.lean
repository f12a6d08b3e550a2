import KeyedStream.Wire.Batch

/-!
# Commands on a pipe

What a companion process asks of a handler, and what the handler asks of the companion in a test
run.
-/

namespace KeyedStream.Wire

open Proto

/-! ## Commands to the handler -/

/-- A command that carries a batch of raw records. -/
structure KeyEventBatch where
  keyEventBatchRequest : Option KeyEventBatchRequest := none
deriving DecidableEq

def KeyEventBatch.layout : Layout KeyEventBatch where
  name := "KeyEventBatch"
  empty := {}
  fields := [
    .single 1 (some "key_event_batch_request") (.optional KeyEventBatchRequest.layout)
      (·.keyEventBatchRequest) fun m v => { m with keyEventBatchRequest := v }]

/-- A command that carries a batch of events. -/
structure ProcessEventBatch where
  processEventBatchRequest : Option ProcessEventBatchRequest := none
deriving DecidableEq

def ProcessEventBatch.layout : Layout ProcessEventBatch where
  name := "ProcessEventBatch"
  empty := {}
  fields := [
    .single 1 (some "process_event_batch_request") (.optional ProcessEventBatchRequest.layout)
      (·.processEventBatchRequest) fun m v => { m with processEventBatchRequest := v }]

/-- What a command to the handler may be. -/
inductive HandlerPayload where
  | keyEventBatch (c : KeyEventBatch)
  | processEventBatch (c : ProcessEventBatch)
deriving DecidableEq

namespace HandlerPayload

def keyEventBatch? : HandlerPayload → Option KeyEventBatch
  | keyEventBatch c => some c
  | processEventBatch _ => none

def processEventBatch? : HandlerPayload → Option ProcessEventBatch
  | keyEventBatch _ => none
  | processEventBatch c => some c

end HandlerPayload

structure HandlerCommand where
  payload : Option HandlerPayload := none
deriving DecidableEq

namespace HandlerCommand

def layout : Layout HandlerCommand where
  name := "HandlerCommand"
  empty := {}
  fields := [
    .oneof "command" [
      .message 1 KeyEventBatch.layout .keyEventBatch (·.keyEventBatch?),
      .message 2 ProcessEventBatch.layout .processEventBatch (·.processEventBatch?)]
      (·.payload) fun m v => { m with payload := v }]

def keyEventBatch (r : KeyEventBatchRequest) : HandlerCommand := ⟨some (.keyEventBatch ⟨some r⟩)⟩

def processEventBatch (r : ProcessEventBatchRequest) : HandlerCommand :=
  ⟨some (.processEventBatch ⟨some r⟩)⟩

end HandlerCommand

/-! ## Commands to the companion -/

/-- A keyed event for the companion's queue. -/
structure AddKeyedEvent where
  keyedEvent : Option KeyedEvent := none
deriving DecidableEq

def AddKeyedEvent.layout : Layout AddKeyedEvent where
  name := "AddKeyedEvent"
  empty := {}
  fields := [
    .single 1 (some "keyed_event") (.optional KeyedEvent.layout) (·.keyedEvent)
      fun m v => { m with keyedEvent := v }]

/-- An advance of the watermark for the companion's queue. -/
structure AddWatermark where
deriving DecidableEq

def AddWatermark.layout : Layout AddWatermark where
  name := "AddWatermark"
  empty := {}
  fields := []

/-- The order to work off the queue. -/
structure Run where
deriving DecidableEq

def Run.layout : Layout Run where
  name := "Run"
  empty := {}
  fields := []

/-- What a command to the companion may be. -/
inductive RunnerPayload where
  | addKeyedEvent (c : AddKeyedEvent)
  | addWatermark (c : AddWatermark)
  | run (c : Run)
deriving DecidableEq

namespace RunnerPayload

def addKeyedEvent? : RunnerPayload → Option AddKeyedEvent
  | addKeyedEvent c => some c
  | addWatermark _ | run _ => none

def addWatermark? : RunnerPayload → Option AddWatermark
  | addWatermark c => some c
  | addKeyedEvent _ | run _ => none

def run? : RunnerPayload → Option Run
  | run c => some c
  | addKeyedEvent _ | addWatermark _ => none

end RunnerPayload

structure RunnerCommand where
  payload : Option RunnerPayload := none
deriving DecidableEq

namespace RunnerCommand

def layout : Layout RunnerCommand where
  name := "RunnerCommand"
  empty := {}
  fields := [
    .oneof "command" [
      .message 1 AddKeyedEvent.layout .addKeyedEvent (·.addKeyedEvent?),
      .message 2 AddWatermark.layout .addWatermark (·.addWatermark?),
      .message 3 Run.layout .run (·.run?)]
      (·.payload) fun m v => { m with payload := v }]

def addKeyedEvent (e : KeyedEvent) : RunnerCommand := ⟨some (.addKeyedEvent ⟨some e⟩)⟩

def addWatermark : RunnerCommand := ⟨some (.addWatermark {})⟩

def run : RunnerCommand := ⟨some (.run {})⟩

end RunnerCommand

end KeyedStream.Wire
