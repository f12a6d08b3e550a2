import KeyedStream.Binary
import KeyedStream.Instant
import KeyedStream.Text.Quoted
import KeyedStream.Text.Shortest
import KeyedStream.Instant.Calendar

/-!
# Scalars

The closed set of scalar types that keys and values of states may have, and the kinds of wrapper
that they are stored in. Two types, `int` and `uint`, are as wide as a machine word and are stored
in a width that is configured.
-/

namespace KeyedStream

/-- The width in which word-sized integers are stored. -/
inductive IntWidth where
  | w32 | w64
deriving DecidableEq, Repr

namespace IntWidth

def standard : IntWidth := w64

def name : IntWidth → String
  | w32 => "W32"
  | w64 => "W64"

end IntWidth

/-- The kind of wrapper that a scalar is stored in. -/
inductive ScalarKind where
  | int32 | int64 | uint32 | uint64 | float | double | bool | string | timestamp
deriving DecidableEq, Repr

namespace ScalarKind

def name : ScalarKind → String
  | int32 => "Int32"
  | int64 => "Int64"
  | uint32 => "UInt32"
  | uint64 => "UInt64"
  | float => "Float"
  | double => "Double"
  | bool => "Bool"
  | string => "String"
  | timestamp => "Timestamp"

/-- The name under which faults speak of the values of a kind. -/
def typeName : ScalarKind → String
  | int32 => "int32"
  | int64 => "int64"
  | uint32 => "uint32"
  | uint64 => "uint64"
  | float => "float32"
  | double => "float64"
  | bool => "bool"
  | string => "string"
  | timestamp => "timestamp"

end ScalarKind

/-- The scalar types. -/
inductive ScalarType where
  | int32 | int64 | int | uint32 | uint64 | uint | float32 | float64 | bool | string | instant
deriving DecidableEq, Repr

namespace ScalarType

/-- The scalar types in the order in which they are listed to callers. -/
def all : List ScalarType :=
  [int, int32, int64, uint, uint32, uint64, float32, float64, string, bool, instant]

def name : ScalarType → String
  | int32 => "i32"
  | int64 => "i64"
  | int => "isize"
  | uint32 => "u32"
  | uint64 => "u64"
  | uint => "usize"
  | float32 => "f32"
  | float64 => "f64"
  | bool => "bool"
  | string => "String"
  | instant => "DateTime<Utc>"

def fullName : ScalarType → String
  | string => "alloc::string::String"
  | instant => "chrono::datetime::DateTime<chrono::offset::utc::Utc>"
  | t => t.name

/-- The values of a type. -/
abbrev Carrier : ScalarType → Type
  | int32 => Int32
  | int64 => Int64
  | int => Int64
  | uint32 => UInt32
  | uint64 => UInt64
  | uint => UInt64
  | float32 => Binary32
  | float64 => Binary64
  | bool => Bool
  | string => String
  | instant => Instant

instance decidableEqCarrier : (t : ScalarType) → DecidableEq t.Carrier
  | int32 => inferInstanceAs (DecidableEq Int32)
  | int64 => inferInstanceAs (DecidableEq Int64)
  | int => inferInstanceAs (DecidableEq Int64)
  | uint32 => inferInstanceAs (DecidableEq UInt32)
  | uint64 => inferInstanceAs (DecidableEq UInt64)
  | uint => inferInstanceAs (DecidableEq UInt64)
  | float32 => inferInstanceAs (DecidableEq Binary32)
  | float64 => inferInstanceAs (DecidableEq Binary64)
  | bool => inferInstanceAs (DecidableEq Bool)
  | string => inferInstanceAs (DecidableEq String)
  | instant => inferInstanceAs (DecidableEq Instant)

/-- The value of a type that stands for none: zero, false, the empty text, the epoch. -/
def zero : (t : ScalarType) → t.Carrier
  | int32 => (0 : Int32)
  | int64 => (0 : Int64)
  | int => (0 : Int64)
  | uint32 => (0 : UInt32)
  | uint64 => (0 : UInt64)
  | uint => (0 : UInt64)
  | float32 => Binary32.mk 0
  | float64 => Binary64.mk 0
  | bool => false
  | string => ""
  | instant => Instant.epoch

instance (t : ScalarType) : Inhabited t.Carrier := ⟨t.zero⟩

def kind : ScalarType → IntWidth → ScalarKind
  | int32, _ => .int32
  | int64, _ => .int64
  | int, .w32 => .int32
  | int, .w64 => .int64
  | uint32, _ => .uint32
  | uint64, _ => .uint64
  | uint, .w32 => .uint32
  | uint, .w64 => .uint64
  | float32, _ => .float
  | float64, _ => .double
  | bool, _ => .bool
  | string, _ => .string
  | instant, _ => .timestamp

/-- The successor of an integer in the arithmetic of its type; other values are left alone. -/
def next : (t : ScalarType) → t.Carrier → t.Carrier
  | int32, v => Int32.add v 1
  | int64, v => Int64.add v 1
  | int, v => Int64.add v 1
  | uint32, v => UInt32.add v 1
  | uint64, v => UInt64.add v 1
  | uint, v => UInt64.add v 1
  | float32, v => v
  | float64, v => v
  | bool, v => v
  | string, v => v
  | instant, v => v

/-- Whether a value comes before another: numbers by value, texts by code point, false before true,
instants by time. Floating-point numbers are not ordered. -/
def before : (t : ScalarType) → t.Carrier → t.Carrier → Bool
  | int32, a, b => decide (Int32.toInt a < Int32.toInt b)
  | int64, a, b => decide (Int64.toInt a < Int64.toInt b)
  | int, a, b => decide (Int64.toInt a < Int64.toInt b)
  | uint32, a, b => decide (UInt32.toNat a < UInt32.toNat b)
  | uint64, a, b => decide (UInt64.toNat a < UInt64.toNat b)
  | uint, a, b => decide (UInt64.toNat a < UInt64.toNat b)
  | float32, _, _ => false
  | float64, _, _ => false
  | bool, a, b => !a && b
  | string, (a : String), (b : String) => decide (a < b)
  | instant, (a : Instant), (b : Instant) => decide (a < b)

def text : (t : ScalarType) → t.Carrier → String
  | int32, v => toString (Int32.toInt v)
  | int64, v => toString (Int64.toInt v)
  | int, v => toString (Int64.toInt v)
  | uint32, v => toString (UInt32.toNat v)
  | uint64, v => toString (UInt64.toNat v)
  | uint, v => toString (UInt64.toNat v)
  | float32, v => Binary32.text v
  | float64, v => Binary64.text v
  | bool, v => if v then "true" else "false"
  | string, v => Text.quoted v
  | instant, v => Instant.text v

end ScalarType

end KeyedStream
