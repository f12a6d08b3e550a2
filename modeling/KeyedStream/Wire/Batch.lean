import KeyedStream.Wire.Event
import KeyedStream.Wire.Rows

/-!
# Batches on the wire

The two requests that a handler answers, and their answers: raw records to be keyed, and keyed
events to be processed with the stored rows of their keys.
-/

namespace KeyedStream.Wire

open Proto

/-- Events to be processed, the stored rows of their keys, and how far event time has come. -/
structure ProcessEventBatchRequest where
  events : List Event := []
  keyStates : List KeyState := []
  watermark : Option Timestamp := none
deriving DecidableEq

def ProcessEventBatchRequest.layout : Layout ProcessEventBatchRequest where
  name := "ProcessEventBatchRequest"
  empty := {}
  fields := [
    .single 1 (some "events") (.repeated Event.layout) (·.events) fun m v => { m with events := v },
    .single 2 (some "key_states") (.repeated KeyState.layout) (·.keyStates)
      fun m v => { m with keyStates := v },
    .single 3 (some "watermark") (.optional Timestamp.layout) (·.watermark)
      fun m v => { m with watermark := v }]

/-- What the events of a key came to: its new timers and the changes to its states. -/
structure KeyResult where
  key : Bytes := []
  newTimers : List Timestamp := []
  stateMutationNamespaces : List StateMutationNamespace := []
deriving DecidableEq

def KeyResult.layout : Layout KeyResult where
  name := "KeyResult"
  empty := {}
  fields := [
    .single 1 (some "key") .bytes (·.key) fun m v => { m with key := v },
    .single 2 (some "new_timers") (.repeated Timestamp.layout) (·.newTimers)
      fun m v => { m with newTimers := v },
    .single 3 (some "state_mutation_namespaces") (.repeated StateMutationNamespace.layout)
      (·.stateMutationNamespaces) fun m v => { m with stateMutationNamespaces := v }]

/-- A payload that is to be delivered to a sink. -/
structure SinkRequest where
  id : String := ""
  value : Bytes := []
deriving DecidableEq

def SinkRequest.layout : Layout SinkRequest where
  name := "SinkRequest"
  empty := {}
  fields := [
    .single 1 (some "id") .text (·.id) fun m v => { m with id := v },
    .single 2 (some "value") .bytes (·.value) fun m v => { m with value := v }]

structure ProcessEventBatchResponse where
  keyResults : List KeyResult := []
  sinkRequests : List SinkRequest := []
deriving DecidableEq

def ProcessEventBatchResponse.layout : Layout ProcessEventBatchResponse where
  name := "ProcessEventBatchResponse"
  empty := {}
  fields := [
    .single 1 (some "key_results") (.repeated KeyResult.layout) (·.keyResults)
      fun m v => { m with keyResults := v },
    .single 2 (some "sink_requests") (.repeated SinkRequest.layout) (·.sinkRequests)
      fun m v => { m with sinkRequests := v }]

structure KeyEventBatchRequest where
  values : List Bytes := []
deriving DecidableEq

def KeyEventBatchRequest.layout : Layout KeyEventBatchRequest where
  name := "KeyEventBatchRequest"
  empty := {}
  fields := [
    .single 1 (some "values") .repeatedBytes (·.values) fun m v => { m with values := v }]

structure KeyEventResult where
  events : List KeyedEvent := []
deriving DecidableEq

def KeyEventResult.layout : Layout KeyEventResult where
  name := "KeyEventResult"
  empty := {}
  fields := [
    .single 1 (some "events") (.repeated KeyedEvent.layout) (·.events)
      fun m v => { m with events := v }]

/-- The keyed events of raw records, record by record. -/
structure KeyEventBatchResponse where
  results : List KeyEventResult := []
deriving DecidableEq

def KeyEventBatchResponse.layout : Layout KeyEventBatchResponse where
  name := "KeyEventBatchResponse"
  empty := {}
  fields := [
    .single 1 (some "results") (.repeated KeyEventResult.layout) (·.results)
      fun m v => { m with results := v }]

end KeyedStream.Wire
