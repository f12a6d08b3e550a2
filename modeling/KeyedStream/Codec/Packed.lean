import KeyedStream.Codec.Basic
import KeyedStream.MsgPack.Fields

/-!
# Values in MessagePack

The types whose values are stored in MessagePack, with their forms and their texts. What follows a
stored value is not looked at. What is said of bytes that cannot be read is the reader's own, and is
handed to the codec.
-/

namespace KeyedStream

/-- The types whose values are stored in MessagePack. -/
inductive PackedType where
  | int64 | uint32 | double | bool | string | int64s | map | optionalInt64 | cart | bytes
deriving DecidableEq, Repr

namespace PackedType

open MsgPack

abbrev Carrier : PackedType → Type
  | int64 => Int64
  | uint32 => UInt32
  | double => Binary64
  | bool => Bool
  | string => String
  | int64s => List Int64
  | map => Ordered String Int64
  | optionalInt64 => Option Int64
  | cart => Cart
  | bytes => Bytes

def form : (t : PackedType) → Form t.Carrier
  | int64 => .int64
  | uint32 => .uint32
  | double => .double
  | bool => .bool
  | string => .text
  | int64s => .int64s
  | map => .map .int64
  | optionalInt64 => .optional .int64
  | cart => Cart.form
  | bytes => .bytes

def zero : (t : PackedType) → t.Carrier
  | int64 => (0 : Int64)
  | uint32 => (0 : UInt32)
  | double => Binary64.mk 0
  | bool => false
  | string => ""
  | int64s => ([] : List Int64)
  | map => (.empty : Ordered String Int64)
  | optionalInt64 => (none : Option Int64)
  | cart => Cart.mk 0 "" false
  | bytes => ([] : Bytes)

/-- The successor of an integer in the arithmetic of its type; other values are left alone. -/
def next : (t : PackedType) → t.Carrier → t.Carrier
  | int64, v => Int64.add v 1
  | uint32, v => UInt32.add v 1
  | _, v => v

def intText (v : Int64) : String := toString v.toInt

def mapText (m : Ordered String Int64) : String :=
  "\x7b" ++ ", ".intercalate (m.entries.map fun e => Text.quoted e.1 ++ ": " ++ intText e.2) ++ "\x7d"

def cartText (c : Cart) : String :=
  Text.record "Cart" [("id", toString c.id.toNat), ("owner", Text.quoted c.owner),
    ("checked_out", if c.checkedOut then "true" else "false")]

def bytesText (b : Bytes) : String := Text.bracketed (b.map fun x => toString x.toNat)

def text : (t : PackedType) → t.Carrier → String
  | int64, v => intText v
  | uint32, v => toString (UInt32.toNat v)
  | double, v => Binary64.text v
  | bool, v => if v then "true" else "false"
  | string, v => Text.quoted v
  | int64s, (v : List Int64) => Text.bracketed (v.map intText)
  | map, v => mapText v
  | optionalInt64, (none : Option Int64) => "None"
  | optionalInt64, some v => "Some(" ++ intText v ++ ")"
  | cart, v => cartText v
  | bytes, v => bytesText v

end PackedType

namespace ValueCodec

/-- The codec of a form. What follows a stored value is not looked at, and bytes that cannot be read are
answered with a complaint about them. -/
def ofForm {α : Type} (f : MsgPack.Form α) (complaint : Bytes → String) : ValueCodec α where
  encode v := .ok (f.write v)
  decode bytes :=
    match f.read bytes with
    | some (v, _) => .ok v
    | none => .error (.packDecode (complaint bytes))

/-- The codec of a type whose values are stored in MessagePack. -/
def packed (t : PackedType) (complaint : Bytes → String) : ValueCodec t.Carrier :=
  ofForm t.form complaint

end ValueCodec

end KeyedStream
