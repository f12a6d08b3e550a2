import KeyedStream.Frame

/-!
# Frame buffers

A frame buffer gathers what is read from a stream and gives back the payloads that are complete.
The length of a frame is taken out of the buffer as soon as it is there, so that what is left in it
is either the beginning of a length or the beginning of a payload. A length above the limit stays
in the buffer and makes every push fail until the buffer is cleared; payloads that came before it in
the same push are not given back.
-/

namespace KeyedStream

/-- Bytes read from a stream of frames. -/
structure FrameBuffer where
  /-- The largest payload that is accepted. -/
  max : Nat := Frame.standardMax
  bytes : Bytes := []
  /-- The length of the payload that is to come, once it is known. -/
  awaited : Option Nat := none
deriving DecidableEq, Repr

namespace FrameBuffer

def size (b : FrameBuffer) : Nat := b.bytes.length

/-- Whether no part of a frame is held. -/
def isEmpty (b : FrameBuffer) : Bool := b.bytes.isEmpty && b.awaited.isNone

def clear (b : FrameBuffer) : FrameBuffer := { b with bytes := [], awaited := none }

/-- What the front of a buffer comes to. -/
inductive Front where
  | payload (p : Bytes)
  | incomplete
  | oversize (length : Nat)
deriving DecidableEq, Repr

/-- Takes out a payload of a known length, if it is complete. -/
def takePayload (b : FrameBuffer) (n : Nat) : Front × FrameBuffer :=
  if b.bytes.length < n then (.incomplete, { b with awaited := some n })
  else (.payload (b.bytes.take n), { b with bytes := b.bytes.drop n, awaited := none })

/-- Takes out a payload, if it is complete. -/
def take (b : FrameBuffer) : Front × FrameBuffer :=
  match b.awaited with
  | some n => b.takePayload n
  | none =>
    match Frame.decodeLength? b.bytes with
    | none => (.incomplete, b)
    | some n =>
      if b.max < n then (.oversize n, b)
      else { b with bytes := b.bytes.drop Frame.lengthSize }.takePayload n

/-- The error of a frame that is larger than is accepted. -/
def tooLarge (n max : Nat) : Error :=
  .protocol ("frame size " ++ toString n ++ " exceeds maximum " ++ toString max)

/-- Takes out all complete payloads. Each but the first takes the bytes of a length at least, so
`fuel` may be the number of bytes and one more. -/
def drain : Nat → FrameBuffer → Except Error (List Bytes) × FrameBuffer
  | 0, b => (.ok [], b)
  | fuel + 1, b =>
    match b.take with
    | (.incomplete, b) => (.ok [], b)
    | (.oversize n, b) => (.error (tooLarge n b.max), b)
    | (.payload p, b) =>
      match drain fuel b with
      | (.ok ps, b) => (.ok (p :: ps), b)
      | (.error e, b) => (.error e, b)

/-- Adds what was read and takes out all complete payloads. -/
def push (b : FrameBuffer) (data : Bytes) : Except Error (List Bytes) × FrameBuffer :=
  let b := { b with bytes := b.bytes ++ data }
  b.drain (b.bytes.length + 2)

end FrameBuffer

end KeyedStream
