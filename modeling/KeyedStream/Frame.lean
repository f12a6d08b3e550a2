import KeyedStream.Error

/-!
# Frames

On a stream, every message is a frame: the length of its payload in four bytes, high byte first,
and the payload.
-/

namespace KeyedStream.Frame

def lengthSize : Nat := 4

/-- The largest payload that is accepted unless another limit is configured. -/
def standardMax : Nat := 1073741824

def encodeLength (n : Nat) : Bytes := Bytes.bigEndian lengthSize n

/-- The length at the front of some bytes, if there are enough of them. -/
def decodeLength? (bytes : Bytes) : Option Nat :=
  let front := bytes.take lengthSize
  if front.length = lengthSize then some (Bytes.ofBigEndian front) else none

/-- The length of a payload, if it fits the bytes of a length. -/
def payloadLength (payload : Bytes) : Except Error Nat :=
  if payload.length < Nat.pow 256 lengthSize then .ok payload.length
  else .error (.protocol ("payload size " ++ toString payload.length ++
    " does not fit a 4-byte length prefix"))

def build (payload : Bytes) : Except Error Bytes := do
  let n ← payloadLength payload
  return encodeLength n ++ payload

end KeyedStream.Frame
