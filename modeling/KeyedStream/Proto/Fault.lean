import KeyedStream.Bytes

/-!
# Faults in messages

Why a message could not be read, and in which fields: the field in which the fault arose comes
first, and then the fields around it, from the inside out.
-/

namespace KeyedStream.Proto

/-- How the payload of a field is laid out. -/
inductive WireType where
  | varint | fixed64 | lengthDelimited | startGroup | endGroup | fixed32
deriving DecidableEq, Repr

namespace WireType

def code : WireType → Nat
  | varint => 0
  | fixed64 => 1
  | lengthDelimited => 2
  | startGroup => 3
  | endGroup => 4
  | fixed32 => 5

def ofCode? : Nat → Option WireType
  | 0 => some varint
  | 1 => some fixed64
  | 2 => some lengthDelimited
  | 3 => some startGroup
  | 4 => some endGroup
  | 5 => some fixed32
  | _ => none

/-- The name under which faults speak of the wire type. -/
def name : WireType → String
  | varint => "Varint"
  | fixed64 => "SixtyFourBit"
  | lengthDelimited => "LengthDelimited"
  | startGroup => "StartGroup"
  | endGroup => "EndGroup"
  | fixed32 => "ThirtyTwoBit"

@[simp] theorem ofCode?_code (w : WireType) : ofCode? w.code = some w := by cases w <;> rfl

theorem code_lt (w : WireType) : w.code < 8 := by cases w <;> decide

end WireType

/-- Why a message could not be read. -/
inductive Fault where
  | invalidVarint
  | invalidKey (key : Nat)
  | invalidWireType (code : Nat)
  | zeroTag
  | wireTypeMismatch (actual expected : WireType)
  | underflow
  | lengthExceeded
  | unexpectedEndGroup
  | recursionLimit
  | notUtf8
  /-- A fault that a reader of messages outside the library finds, in its own words. -/
  | other (reason : String)
deriving DecidableEq, Repr

def Fault.message : Fault → String
  | invalidVarint => "invalid varint"
  | invalidKey key => "invalid key value: " ++ toString key
  | invalidWireType code => "invalid wire type value: " ++ toString code
  | zeroTag => "invalid tag value: 0"
  | wireTypeMismatch actual expected =>
    "invalid wire type: " ++ actual.name ++ " (expected " ++ expected.name ++ ")"
  | underflow => "buffer underflow"
  | lengthExceeded => "delimited length exceeded"
  | unexpectedEndGroup => "unexpected end group tag"
  | recursionLimit => "recursion limit reached"
  | notUtf8 => "invalid string value: data is not UTF-8 encoded"
  | other reason => reason

/-- A fault and the fields, each with its message, that it arose in, from the inside out. -/
structure DecodeError where
  fault : Fault
  path : List (String × String) := []
deriving DecidableEq, Repr

namespace DecodeError

/-- The error as seen from the field around it. -/
def within (message field : String) (e : DecodeError) : DecodeError :=
  { e with path := e.path ++ [(message, field)] }

def message (e : DecodeError) : String :=
  "failed to decode Protobuf message: " ++
    String.join (e.path.map fun p => p.1 ++ "." ++ p.2 ++ ": ") ++ e.fault.message

end DecodeError

/-- Stops with a fault. -/
def fail {α : Type} (f : Fault) : Except DecodeError α := .error ⟨f, []⟩

end KeyedStream.Proto
