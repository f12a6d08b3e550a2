import KeyedStream.Error
import KeyedStream.Wire.Event

/-!
# Keyed events

A record of a source becomes keyed events: a key, a time, and a value.
-/

namespace KeyedStream

/-- An event under a key. -/
structure KeyedEvent where
  key : Bytes
  timestamp : Instant
  value : Bytes
deriving DecidableEq

namespace KeyedEvent

def toWire (e : KeyedEvent) : Wire.KeyedEvent :=
  { key := e.key, timestamp := some (.ofInstant e.timestamp), value := e.value }

/-- The event that was sent; without a time it happened at the epoch. -/
def ofWire (e : Wire.KeyedEvent) : Except Error KeyedEvent :=
  match Wire.Timestamp.instant? e.timestamp with
  | some timestamp => .ok { key := e.key, timestamp, value := e.value }
  | none => .error (.badRequest "keyed event timestamp out of range")

end KeyedEvent

end KeyedStream
