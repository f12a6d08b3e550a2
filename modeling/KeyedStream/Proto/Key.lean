import KeyedStream.Proto.Varint

/-!
# Keys of fields, and fields that are skipped

Every field starts with a key, which holds its tag and its wire type. A field that the message
does not know is skipped by its wire type; groups nest, each level on one unit of the recursion
budget.
-/

namespace KeyedStream.Proto

/-- The largest number that a key may be. -/
def maxKey : Nat := 4294967295

def encodeKey (tag : Nat) (w : WireType) : Bytes := Varint.encode (tag * 8 + w.code)

def keySize (tag : Nat) : Nat := Varint.size (tag * 8)

def decodeKey (bytes : Bytes) : Except DecodeError ((Nat × WireType) × Bytes) := do
  let (key, rest) ← Varint.decode bytes
  if maxKey < key then fail (.invalidKey key)
  else match WireType.ofCode? (key % 8) with
    | none => fail (.invalidWireType (key % 8))
    | some w => if key / 8 = 0 then fail .zeroTag else .ok ((key / 8, w), rest)

/-- Stops unless a field has the wire type that its payload takes. -/
def expect (expected actual : WireType) : Except DecodeError Unit :=
  if actual = expected then .ok () else fail (.wireTypeMismatch actual expected)

def takeBytes (n : Nat) (bytes : Bytes) : Except DecodeError (Bytes × Bytes) :=
  match Bytes.take? n bytes with
  | some r => .ok r
  | none => fail .underflow

/-- Reads a length and as many bytes. -/
def takeDelimited (bytes : Bytes) : Except DecodeError (Bytes × Bytes) := do
  let (n, rest) ← Varint.decode bytes
  takeBytes n rest

/-- Skips a payload that is no group. -/
def skipPlain (w : WireType) (bytes : Bytes) : Except DecodeError Bytes := do
  match w with
  | .varint => return (← Varint.decode bytes).2
  | .fixed32 => return (← takeBytes 4 bytes).2
  | .fixed64 => return (← takeBytes 8 bytes).2
  | .lengthDelimited => return (← takeDelimited bytes).2
  | .startGroup | .endGroup => fail .unexpectedEndGroup

/-- Skips to the end of the groups whose tags are `opened`, the innermost first. Each field inside
needs a budget of its own depth, and each takes a byte at least, so `fuel` may be the number of
bytes. -/
def skipGroups (budget : Nat) : Nat → List Nat → Bytes → Except DecodeError Bytes
  | _, [], bytes => .ok bytes
  | 0, _ :: _, _ => fail .invalidVarint
  | fuel + 1, tag :: opened, bytes => do
    let ((inner, w), rest) ← decodeKey bytes
    if w = .endGroup then
      if inner = tag then skipGroups budget fuel opened rest else fail .unexpectedEndGroup
    else if budget ≤ (tag :: opened).length then fail .recursionLimit
    else if w = .startGroup then skipGroups budget fuel (inner :: tag :: opened) rest
    else do
      let rest ← skipPlain w rest
      skipGroups budget fuel (tag :: opened) rest

/-- Skips the payload of a field. -/
def skipField (budget tag : Nat) (w : WireType) (bytes : Bytes) : Except DecodeError Bytes :=
  if budget = 0 then fail .recursionLimit
  else match w with
    | .startGroup => skipGroups budget (bytes.length + 1) [tag] bytes
    | .endGroup => fail .unexpectedEndGroup
    | w => skipPlain w bytes

end KeyedStream.Proto
