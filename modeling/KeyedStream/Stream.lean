import KeyedStream.Frame

/-!
# Byte streams

An input hands out its bytes in reads, the last of which is followed by the end of the stream or by
a failure. An output takes bytes until its capacity is used up; a write that does not fit writes
what does and fails.
-/

namespace KeyedStream

/-! ## Input -/

def readSize : Nat := 65536

/-- The reads that hand out some bytes; `fuel` bounds their number. -/
def splitReads : Nat → Bytes → List Bytes
  | 0, _ => []
  | fuel + 1, bytes =>
    if bytes.length ≤ readSize then [bytes]
    else bytes.take readSize :: splitReads fuel (bytes.drop readSize)

structure Input where
  /-- The parts in which the bytes come. -/
  chunks : List Bytes
  /-- What ends the stream, unless it just ends. -/
  failure : Option String := none
deriving DecidableEq, Repr

namespace Input

def reads (i : Input) : List Bytes := i.chunks.flatMap fun c => splitReads (c.length + 1) c

def bytes (i : Input) : Bytes := i.chunks.flatten

end Input

/-! ## Output -/

/-- What was written to a stream. -/
structure Output where
  written : Bytes := []
  /-- The number of bytes that it takes in all, if that is limited. -/
  capacity : Option Nat := none
deriving DecidableEq, Repr

namespace Output

/-- The number of bytes among `n` that can still be written. -/
def room (o : Output) (n : Nat) : Nat :=
  match o.capacity with
  | none => n
  | some c => min n (c - o.written.length)

/-- Writes bytes, or as many as there is room for. -/
def write (o : Output) (bytes : Bytes) : Except Error Unit × Output :=
  let n := o.room bytes.length
  let o := { o with written := o.written ++ bytes.take n }
  if n = bytes.length then (.ok (), o) else (.error (.io "write failed"), o)

/-- Writes the frame of a payload, its length first. -/
def writeFrame (o : Output) (payload : Bytes) : Except Error Unit × Output :=
  match Frame.payloadLength payload with
  | .error e => (.error e, o)
  | .ok n =>
    match o.write (Frame.encodeLength n) with
    | (.error e, o) => (.error e, o)
    | (.ok (), o) => o.write payload

/-- Writes the frames of payloads; each is tried, whatever became of those before it. -/
def writeFrames (o : Output) : List Bytes → List (Except Error Unit) × Output
  | [] => ([], o)
  | p :: ps =>
    let (r, o) := o.writeFrame p
    let (rs, o) := writeFrames o ps
    (r :: rs, o)

end Output

end KeyedStream
