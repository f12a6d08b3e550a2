import KeyedStream.Instant
import KeyedStream.Proto.Layout

/-!
# Timestamps on the wire

A timestamp is any pair of a 64-bit number of seconds and a 32-bit number of nanoseconds. Reading
one brings the nanoseconds into the range of one second first, by carrying whole seconds and then
borrowing one, and takes the result where the calendar reaches it. Where the seconds run out, the
outermost normal pair stands in, which the calendar never reaches.
-/

namespace KeyedStream.Wire

/-- Seconds and nanoseconds since 1970-01-01T00:00:00Z, as they are sent. -/
structure Timestamp where
  seconds : Int64
  nanos : Int32
deriving DecidableEq

namespace Timestamp

def empty : Timestamp := ⟨0, 0⟩

def layout : Proto.Layout Timestamp where
  name := "Timestamp"
  empty := empty
  fields := [
    .single 1 (some "seconds") .int64 (·.seconds) fun m v => { m with seconds := v },
    .single 2 (some "nanos") .int32 (·.nanos) fun m v => { m with nanos := v }]

/-- A number of seconds that fits its 64 bits. -/
def seconds? (s : Int) : Option Int64 :=
  if -9223372036854775808 ≤ s ∧ s ≤ 9223372036854775807 then some (Int64.ofInt s) else none

def earliest : Timestamp := ⟨Int64.minValue, 0⟩

def latest : Timestamp := ⟨Int64.maxValue, 999999999⟩

def carry (t : Timestamp) : Timestamp :=
  let n := t.nanos.toInt
  if n ≤ -1000000000 ∨ 1000000000 ≤ n then
    match seconds? (t.seconds.toInt + n.tdiv 1000000000) with
    | some s => ⟨s, Int32.ofInt (n.tmod 1000000000)⟩
    | none => if n < 0 then earliest else latest
  else t

/-- Takes a second back where the nanoseconds are negative. -/
def borrow (t : Timestamp) : Timestamp :=
  let n := t.nanos.toInt
  if n < 0 then
    match seconds? (t.seconds.toInt - 1) with
    | some s => ⟨s, Int32.ofInt (n + 1000000000)⟩
    | none => earliest
  else t

/-- The same time with nanoseconds in the range of one second. -/
def normalize (t : Timestamp) : Timestamp := t.carry.borrow

/-- The timestamp of an instant; a leap second is sent as the second that follows. -/
def ofInstant (t : Instant) : Timestamp :=
  normalize ⟨Int64.ofInt t.seconds, Int32.ofInt t.nanos⟩

/-- The instant of a timestamp, if the calendar reaches it. -/
def toInstant? (t : Timestamp) : Option Instant :=
  let t := t.normalize
  if t.nanos.toInt < 0 then none else Instant.ofParts? t.seconds.toInt t.nanos.toInt.toNat

/-- The instant of a timestamp that may be absent, which means the epoch. -/
def instant? : Option Timestamp → Option Instant
  | some t => t.toInstant?
  | none => some Instant.epoch

def total (t : Timestamp) : Int := t.seconds.toInt * nanosPerSecond + t.nanos.toInt

end Timestamp

end KeyedStream.Wire
