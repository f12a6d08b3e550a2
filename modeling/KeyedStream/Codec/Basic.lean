import KeyedStream.Proto.Fault
import KeyedStream.Scalar.Basic

/-!
# Codecs

A codec turns values into stored bytes and back. Not every value need have a stored form, and not
every byte string stands for a value; a `CodecError` says why.
-/

namespace KeyedStream

/-- Why a value has no stored form, or bytes stand for no value. -/
inductive CodecError where
  | unsupportedType (name allowed : String)
  | decode (kind : String) (source : Proto.DecodeError)
  | kindMismatch (expected actual : ScalarKind)
  | overflow (type value : String)
  | invalidTimestamp
  | invalidLength (expected actual : Nat)
  /-- A value could not be written in MessagePack, and what its writer says of it. -/
  | packEncode (reason : String)
  /-- Bytes could not be read as MessagePack, and what their reader says of them. -/
  | packDecode (reason : String)
deriving DecidableEq, Repr

namespace CodecError

/-- The names of the scalar types as callers know them. -/
def allowedNames : String := ", ".intercalate (ScalarType.all.map ScalarType.name)

/-- A type that is none of the scalar types. -/
def unsupported (name : String) : CodecError := .unsupportedType name allowedNames

/-- Bytes that are no wrapper of the kind. -/
def unreadable (kind : ScalarKind) (source : Proto.DecodeError) : CodecError :=
  .decode kind.typeName source

/-- A word-sized integer that outgrows the configured width. -/
def outgrown (type : ScalarType) (value : Int) : CodecError :=
  .overflow type.name (toString value)

def message : CodecError → String
  | unsupportedType name allowed => "unsupported type: " ++ name ++ ", allowed types: " ++ allowed
  | decode kind source => "failed to unmarshal " ++ kind ++ ": " ++ source.message
  | kindMismatch expected actual =>
    "expected " ++ expected.name ++ " scalar, got " ++ actual.name
  | overflow type value => type ++ " value " ++ value ++ " does not fit the configured wire width"
  | invalidTimestamp => "timestamp out of range"
  | invalidLength expected actual =>
    "invalid payload length: expected " ++ toString expected ++ " bytes, got " ++ toString actual
  | packEncode reason => "MsgPack encode error: " ++ reason
  | packDecode reason => "MsgPack decode error: " ++ reason

end CodecError

/-- Turns the values of a type into bytes and back. -/
structure ValueCodec (α : Type) where
  encode : α → Except CodecError Bytes
  decode : Bytes → Except CodecError α

/-- Turns the keys and the values of a table into bytes and back. -/
structure MapCodec (κ ν : Type) where
  key : ValueCodec κ
  value : ValueCodec ν

namespace ValueCodec

def raw : ValueCodec Bytes := ⟨.ok, .ok⟩

/-- A 64-bit integer is stored in eight bytes, high byte first. -/
def bigEndian64 : ValueCodec Int64 where
  encode v := .ok (Bytes.bigEndian 8 v.toUInt64.toNat)
  decode bytes :=
    if bytes.length = 8 then .ok (UInt64.ofNat (Bytes.ofBigEndian bytes)).toInt64
    else .error (.invalidLength 8 bytes.length)

end ValueCodec

end KeyedStream
