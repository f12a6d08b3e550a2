import KeyedStream.Wire.Timestamp

/-!
# Events on the wire

Keyed events, expired timers, and the entries of a batch, each of which is one of the two.
-/

namespace KeyedStream.Wire

open Proto

/-- A value under a key at a time. -/
structure KeyedEvent where
  key : Bytes := []
  timestamp : Option Timestamp := none
  value : Bytes := []
deriving DecidableEq

def KeyedEvent.layout : Layout KeyedEvent where
  name := "KeyedEvent"
  empty := {}
  fields := [
    .single 1 (some "key") .bytes (·.key) fun m v => { m with key := v },
    .single 2 (some "timestamp") (.optional Timestamp.layout) (·.timestamp)
      fun m v => { m with timestamp := v },
    .single 3 (some "value") .bytes (·.value) fun m v => { m with value := v }]

/-- A timer of a key that the watermark has passed. -/
structure TimerExpired where
  key : Bytes := []
  timestamp : Option Timestamp := none
deriving DecidableEq

def TimerExpired.layout : Layout TimerExpired where
  name := "TimerExpired"
  empty := {}
  fields := [
    .single 1 (some "key") .bytes (·.key) fun m v => { m with key := v },
    .single 2 (some "timestamp") (.optional Timestamp.layout) (·.timestamp)
      fun m v => { m with timestamp := v }]

/-- What an entry of a batch may hold. -/
inductive EventPayload where
  | keyedEvent (e : KeyedEvent)
  | timerExpired (t : TimerExpired)
deriving DecidableEq

namespace EventPayload

def keyedEvent? : EventPayload → Option KeyedEvent
  | keyedEvent e => some e
  | timerExpired _ => none

def timerExpired? : EventPayload → Option TimerExpired
  | keyedEvent _ => none
  | timerExpired t => some t

end EventPayload

structure Event where
  payload : Option EventPayload := none
deriving DecidableEq

def Event.layout : Layout Event where
  name := "Event"
  empty := {}
  fields := [
    .oneof "event" [
      .message 1 KeyedEvent.layout .keyedEvent (·.keyedEvent?),
      .message 2 TimerExpired.layout .timerExpired (·.timerExpired?)]
      (·.payload) fun m v => { m with payload := v }]

end KeyedStream.Wire
