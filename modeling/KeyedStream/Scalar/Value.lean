import KeyedStream.Codec.Basic
import KeyedStream.Scalar.Wrapper

/-!
# Scalar values

A scalar in the kind it is stored as. A type takes a value in, which fails when a word-sized integer
is too wide for the configured width, and gives it back, which fails when the kind is another one.
-/

namespace KeyedStream

/-- A scalar in the kind it is stored as. -/
inductive ScalarValue where
  | int32 (v : Int32)
  | int64 (v : Int64)
  | uint32 (v : UInt32)
  | uint64 (v : UInt64)
  | float (v : Binary32)
  | double (v : Binary64)
  | bool (v : Bool)
  | string (v : String)
  | timestamp (v : Instant)
deriving DecidableEq

namespace ScalarValue

def kind : ScalarValue → ScalarKind
  | int32 _ => .int32
  | int64 _ => .int64
  | uint32 _ => .uint32
  | uint64 _ => .uint64
  | float _ => .float
  | double _ => .double
  | bool _ => .bool
  | string _ => .string
  | timestamp _ => .timestamp

def encode : ScalarValue → Bytes
  | int32 v => Wrapper.int32.encode v
  | int64 v => Wrapper.int64.encode v
  | uint32 v => Wrapper.uint32.encode v
  | uint64 v => Wrapper.uint64.encode v
  | float v => Wrapper.float.encode v
  | double v => Wrapper.double.encode v
  | bool v => Wrapper.bool.encode v
  | string v => Wrapper.string.encode v
  | timestamp v => Wrapper.timestamp.encode (.ofInstant v)

/-- Reads a stored form with the layout of its kind. -/
def read {β : Type} (kind : ScalarKind) (layout : Proto.Layout β)
    (wrap : β → Except CodecError ScalarValue) (bytes : Bytes) : Except CodecError ScalarValue :=
  match layout.decode bytes with
  | .ok v => wrap v
  | .error e => .error (.unreadable kind e)

/-- The instant of a stored timestamp, if the calendar reaches it. -/
def ofTimestamp (t : Wire.Timestamp) : Except CodecError ScalarValue :=
  match t.toInstant? with
  | some v => .ok (timestamp v)
  | none => .error .invalidTimestamp

/-- The value of a kind whose stored form this is. -/
def decode (kind : ScalarKind) (bytes : Bytes) : Except CodecError ScalarValue :=
  match kind with
  | .int32 => read kind Wrapper.int32 (fun v => .ok (int32 v)) bytes
  | .int64 => read kind Wrapper.int64 (fun v => .ok (int64 v)) bytes
  | .uint32 => read kind Wrapper.uint32 (fun v => .ok (uint32 v)) bytes
  | .uint64 => read kind Wrapper.uint64 (fun v => .ok (uint64 v)) bytes
  | .float => read kind Wrapper.float (fun v => .ok (float v)) bytes
  | .double => read kind Wrapper.double (fun v => .ok (double v)) bytes
  | .bool => read kind Wrapper.bool (fun v => .ok (bool v)) bytes
  | .string => read kind Wrapper.string (fun v => .ok (string v)) bytes
  | .timestamp => read kind Wrapper.timestamp ofTimestamp bytes

end ScalarValue

namespace ScalarType

/-- A signed integer in the configured width, if it fits. -/
def intToScalar (width : IntWidth) (v : Int64) : Except CodecError ScalarValue :=
  match width with
  | .w32 =>
    if -2147483648 ≤ v.toInt ∧ v.toInt ≤ 2147483647 then .ok (.int32 v.toInt32)
    else .error (.outgrown .int v.toInt)
  | .w64 => .ok (.int64 v)

/-- An unsigned integer in the configured width, if it fits. -/
def uintToScalar (width : IntWidth) (v : UInt64) : Except CodecError ScalarValue :=
  match width with
  | .w32 =>
    if v.toNat ≤ 4294967295 then .ok (.uint32 v.toUInt32)
    else .error (.outgrown .uint v.toNat)
  | .w64 => .ok (.uint64 v)

def toScalar : (t : ScalarType) → IntWidth → t.Carrier → Except CodecError ScalarValue
  | int32, _, v => .ok (.int32 v)
  | int64, _, v => .ok (.int64 v)
  | int, width, v => intToScalar width v
  | uint32, _, v => .ok (.uint32 v)
  | uint64, _, v => .ok (.uint64 v)
  | uint, width, v => uintToScalar width v
  | float32, _, v => .ok (.float v)
  | float64, _, v => .ok (.double v)
  | bool, _, v => .ok (.bool v)
  | string, _, v => .ok (.string v)
  | instant, _, v => .ok (.timestamp v)

/-- The value of a type that is stored as this one. -/
def fromScalar : (t : ScalarType) → IntWidth → ScalarValue → Except CodecError t.Carrier
  | int32, _, .int32 v => .ok v
  | int64, _, .int64 v => .ok v
  | int, .w32, .int32 v => .ok v.toInt64
  | int, .w64, .int64 v => .ok v
  | uint32, _, .uint32 v => .ok v
  | uint64, _, .uint64 v => .ok v
  | uint, .w32, .uint32 v => .ok v.toUInt64
  | uint, .w64, .uint64 v => .ok v
  | float32, _, .float v => .ok v
  | float64, _, .double v => .ok v
  | bool, _, .bool v => .ok v
  | string, _, .string v => .ok v
  | instant, _, .timestamp v => .ok v
  | t, width, v => .error (.kindMismatch (t.kind width) v.kind)

def encode (t : ScalarType) (width : IntWidth) (v : t.Carrier) : Except CodecError Bytes := do
  let s ← t.toScalar width v
  return s.encode

/-- The value of the type whose stored form this is. -/
def decode (t : ScalarType) (width : IntWidth) (bytes : Bytes) : Except CodecError t.Carrier := do
  let s ← ScalarValue.decode (t.kind width) bytes
  t.fromScalar width s

end ScalarType

/-! ## Codecs -/

def ValueCodec.scalar (t : ScalarType) (width : IntWidth) : ValueCodec t.Carrier :=
  ⟨t.encode width, t.decode width⟩

def MapCodec.scalar (k v : ScalarType) (width : IntWidth) : MapCodec k.Carrier v.Carrier :=
  ⟨.scalar k width, .scalar v width⟩

def ScalarType.codecText (t : ScalarType) (width : IntWidth) : String :=
  Text.record "ScalarValueCodec" [("type", Text.quoted t.fullName), ("width", width.name)]

def ScalarType.mapCodecText (k v : ScalarType) (width : IntWidth) : String :=
  Text.record "ScalarMapCodec"
    [("key", Text.quoted k.fullName), ("value", Text.quoted v.fullName), ("width", width.name)]

/-! ## Types known only when they are met -/

/-- A type that may be a scalar type or another one. -/
inductive AnyType where
  | scalar (t : ScalarType)
  | other (name : String)
deriving DecidableEq, Repr

namespace AnyType

/-- The values of a type; those of a type that is none of the scalar types are not looked at. -/
abbrev Carrier : AnyType → Type
  | scalar t => t.Carrier
  | other _ => Unit

def encode : (t : AnyType) → IntWidth → t.Carrier → Except CodecError Bytes
  | scalar t, width, v => t.encode width v
  | other name, _, _ => .error (.unsupported name)

/-- The value of a type whose stored form this is, if the type is a scalar type. -/
def decode : (t : AnyType) → IntWidth → Bytes → Except CodecError t.Carrier
  | scalar t, width, bytes => t.decode width bytes
  | other name, _, _ => .error (.unsupported name)

end AnyType

end KeyedStream
