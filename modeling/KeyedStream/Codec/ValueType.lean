import KeyedStream.Codec.Packed
import KeyedStream.Scalar.Value

/-!
# Types of stored values

A type of values together with the way they are stored. Values of one type that are stored in two
ways count as values of two types; the width of word-sized integers makes no such difference.
-/

namespace KeyedStream

inductive ValueType where
  | scalar (t : ScalarType)
  | bigEndian64
  | raw
  | packed (t : PackedType)
deriving DecidableEq, Repr

namespace ValueType

abbrev Carrier : ValueType → Type
  | scalar t => t.Carrier
  | bigEndian64 => Int64
  | raw => Bytes
  | packed t => t.Carrier

def zero : (t : ValueType) → t.Carrier
  | scalar t => t.zero
  | bigEndian64 => (0 : Int64)
  | raw => ([] : Bytes)
  | packed t => t.zero

instance (t : ValueType) : Inhabited t.Carrier := ⟨t.zero⟩

/-- The codec of a type. The width matters to word-sized integers only, and the complaint about bytes
that cannot be read to the types in MessagePack. -/
def codec (width : IntWidth) (t : ValueType) (complaint : Bytes → String := fun _ => "") :
    ValueCodec t.Carrier :=
  match t with
  | scalar t => .scalar t width
  | bigEndian64 => .bigEndian64
  | raw => .raw
  | packed t => .packed t complaint

/-- The successor of an integer in the arithmetic of its type; other values are left alone. -/
def next : (t : ValueType) → t.Carrier → t.Carrier
  | scalar t, v => t.next v
  | bigEndian64, v => Int64.add v 1
  | raw, v => v
  | packed t, v => t.next v

def text : (t : ValueType) → t.Carrier → String
  | scalar t, v => t.text v
  | bigEndian64, v => toString (Int64.toInt v)
  | raw, v => PackedType.bytesText v
  | packed t, v => t.text v

end ValueType

end KeyedStream
