import KeyedStream.Proto.Key

/-!
# Message layouts

How the values of a type are written as a message. A `Shape` says how a value lies in the records
of one field, a `Field` ties a shape to a part of the message, and a `Layout` lists the fields.
Values that are the default of their field are left out. Reading goes on where the message starts
from: a field that comes again replaces its value, adds an element, or is read into the message
that is there.

A nested message is not cut out of the input. Its length is checked against all that is left, its
fields are read from all that is left, and running past its end is noticed afterwards.
-/

namespace KeyedStream.Proto

/-- How values of type `β` lie in the records of a field. -/
structure Shape (β : Type) where
  /-- The records of a value under a tag. -/
  write : Nat → β → Bytes
  /-- The number of bytes that `write` comes to. -/
  size : Nat → β → Nat
  /-- Reads a payload of a wire type, within a recursion budget, into the value so far. -/
  merge : WireType → Nat → β → Bytes → Except DecodeError (β × Bytes)

/-- A part of the messages of type `μ` and the tags under which it is written. -/
structure Field (μ : Type) where
  /-- The name that faults in the field are given, if any. -/
  name : Option String
  tags : List Nat
  write : μ → Bytes
  size : μ → Nat
  merge : Nat → WireType → Nat → μ → Bytes → Except DecodeError (μ × Bytes)

/-- A message type: its name, its value without fields, and its fields in the order of their tags. -/
structure Layout (μ : Type) where
  name : String
  empty : μ
  fields : List (Field μ)

/-! ## Records -/

def delimited (tag : Nat) (payload : Bytes) : Bytes :=
  encodeKey tag .lengthDelimited ++ Varint.encode payload.length ++ payload

def total (sizes : List Nat) : Nat := sizes.foldr (· + ·) 0

/-- The number of bytes of a length-delimited record with a payload of `n` bytes. -/
def delimitedSize (tag n : Nat) : Nat := keySize tag + Varint.size n + n

namespace Shape

variable {β : Type}

/-- A number as a varint, left out when it is zero. -/
def varint (toNat : β → Nat) (ofNat : Nat → β) : Shape β where
  write tag v := if toNat v = 0 then [] else encodeKey tag .varint ++ Varint.encode (toNat v)
  size tag v := if toNat v = 0 then 0 else keySize tag + Varint.size (toNat v)
  merge w _ _ bytes := do
    expect .varint w
    let (n, rest) ← Varint.decode bytes
    return (ofNat n, rest)

/-- A number in `width` bytes, low byte first, left out when `omitted`. -/
def fixed (w : WireType) (width : Nat) (omitted : β → Bool) (toNat : β → Nat) (ofNat : Nat → β) :
    Shape β where
  write tag v := if omitted v then [] else encodeKey tag w ++ Bytes.littleEndian width (toNat v)
  size tag v := if omitted v then 0 else keySize tag + width
  merge actual _ _ bytes := do
    expect w actual
    let (b, rest) ← takeBytes width bytes
    return (ofNat (Bytes.ofLittleEndian b), rest)

def int64 : Shape Int64 := varint (·.toUInt64.toNat) fun n => (UInt64.ofNat n).toInt64

/-- A signed 32-bit number, written as the 64-bit number of the same value. -/
def int32 : Shape Int32 :=
  varint (·.toInt64.toUInt64.toNat) fun n => (UInt32.ofNat n).toInt32

def uint64 : Shape UInt64 := varint (·.toNat) UInt64.ofNat

def uint32 : Shape UInt32 := varint (·.toNat) UInt32.ofNat

def bool : Shape Bool := varint Bool.toNat (· != 0)

/-- A byte string, left out when it is empty. -/
def bytes : Shape Bytes where
  write tag v := if v.isEmpty then [] else delimited tag v
  size tag v := if v.isEmpty then 0 else delimitedSize tag v.length
  merge w _ _ bytes := do
    expect .lengthDelimited w
    takeDelimited bytes

/-- A text in UTF-8, left out when it is empty. -/
def text : Shape String where
  write tag v := bytes.write tag (Bytes.ofText v)
  size tag v := bytes.size tag (Bytes.ofText v)
  merge w _ _ bytes := do
    expect .lengthDelimited w
    let (b, rest) ← takeDelimited bytes
    match Bytes.toText? b with
    | some s => return (s, rest)
    | none => fail .notUtf8

/-- Any number of byte strings, empty ones included. -/
def repeatedBytes : Shape (List Bytes) where
  write tag vs := (vs.map (delimited tag)).flatten
  size tag vs := total (vs.map fun v => delimitedSize tag v.length)
  merge w _ vs bytes := do
    expect .lengthDelimited w
    let (v, rest) ← takeDelimited bytes
    return (vs ++ [v], rest)

end Shape

/-! ## Messages -/

namespace Layout

variable {μ : Type}

def encode (l : Layout μ) (m : μ) : Bytes := (l.fields.map fun f => f.write m).flatten

/-- The number of bytes that `encode` comes to, added up field by field. -/
def size (l : Layout μ) (m : μ) : Nat := total (l.fields.map fun f => f.size m)

def field? (l : Layout μ) (tag : Nat) : Option (Field μ) :=
  l.fields.find? fun f => f.tags.contains tag

/-- Reads one field into a message; a field that the message does not know is skipped. -/
def mergeField (l : Layout μ) (budget : Nat) (m : μ) (bytes : Bytes) :
    Except DecodeError (μ × Bytes) := do
  let ((tag, w), rest) ← decodeKey bytes
  match l.field? tag with
  | none => return (m, ← skipField budget tag w rest)
  | some f =>
    match f.merge tag w budget m rest, f.name with
    | .error e, some name => .error (e.within l.name name)
    | r, _ => r

/-- Reads fields until at most `limit` bytes are left. Each takes a byte at least, so `fuel` may be
the number of bytes. -/
def mergeUntil (l : Layout μ) (budget limit : Nat) : Nat → μ → Bytes → Except DecodeError (μ × Bytes)
  | 0, m, bytes => .ok (m, bytes)
  | fuel + 1, m, bytes =>
    if bytes.length ≤ limit then .ok (m, bytes)
    else do
      let (m, rest) ← l.mergeField budget m bytes
      mergeUntil l budget limit fuel m rest

/-- Reads a nested message, with its length in front, into a message. -/
def mergeNested (l : Layout μ) (w : WireType) (budget : Nat) (m : μ) (bytes : Bytes) :
    Except DecodeError (μ × Bytes) := do
  expect .lengthDelimited w
  if budget = 0 then fail .recursionLimit
  else
    let (n, rest) ← Varint.decode bytes
    if rest.length < n then fail .underflow
    else
      let limit := rest.length - n
      let (m, rest) ← l.mergeUntil (budget - 1) limit rest.length m rest
      if rest.length = limit then return (m, rest) else fail .lengthExceeded

def recursionBudget : Nat := 100

def decode (l : Layout μ) (bytes : Bytes) : Except DecodeError μ := do
  let (m, _) ← l.mergeUntil recursionBudget 0 bytes.length l.empty bytes
  return m

end Layout

namespace Shape

variable {β : Type}

/-- A nested message that may be absent; one that is there is written even when it is empty. -/
def optional (l : Layout β) : Shape (Option β) where
  write tag
    | none => []
    | some m => delimited tag (l.encode m)
  size tag
    | none => 0
    | some m => delimitedSize tag (l.size m)
  merge w budget m bytes := do
    let (m, rest) ← l.mergeNested w budget (m.getD l.empty) bytes
    return (some m, rest)

/-- Any number of nested messages. -/
def repeated (l : Layout β) : Shape (List β) where
  write tag ms := (ms.map fun m => delimited tag (l.encode m)).flatten
  size tag ms := total (ms.map fun m => delimitedSize tag (l.size m))
  merge w budget ms bytes := do
    let (m, rest) ← l.mergeNested w budget l.empty bytes
    return (ms ++ [m], rest)

end Shape

/-! ## Fields -/

/-- One of the messages that a field of alternatives may hold. -/
structure Alternative (ε : Type) where
  tag : Nat
  /-- The record of a value, if it is this alternative. -/
  write : ε → Option Bytes
  size : ε → Option Nat
  merge : WireType → Nat → Option ε → Bytes → Except DecodeError (ε × Bytes)

/-- An alternative that is a nested message; one that comes again is read into the first. -/
def Alternative.message {β ε : Type} (tag : Nat) (l : Layout β) (wrap : β → ε)
    (unwrap? : ε → Option β) : Alternative ε where
  tag := tag
  write e := (unwrap? e).map fun m => delimited tag (l.encode m)
  size e := (unwrap? e).map fun m => delimitedSize tag (l.size m)
  merge w budget e bytes := do
    let (m, rest) ← l.mergeNested w budget ((e.bind unwrap?).getD l.empty) bytes
    return (wrap m, rest)

namespace Field

variable {μ β ε : Type}

/-- A part of a message under one tag. -/
def single (tag : Nat) (name : Option String) (shape : Shape β) (get : μ → β)
    (set : μ → β → μ) : Field μ where
  name := name
  tags := [tag]
  write m := shape.write tag (get m)
  size m := shape.size tag (get m)
  merge _ w budget m bytes := do
    let (v, rest) ← shape.merge w budget (get m) bytes
    return (set m v, rest)

/-- A part of a message that holds one of several alternatives, or none. -/
def oneof (name : String) (alternatives : List (Alternative ε)) (get : μ → Option ε)
    (set : μ → Option ε → μ) : Field μ where
  name := some name
  tags := alternatives.map (·.tag)
  write m := ((get m).bind fun e => alternatives.findSome? fun a => a.write e).getD []
  size m := ((get m).bind fun e => alternatives.findSome? fun a => a.size e).getD 0
  merge tag w budget m bytes :=
    match alternatives.find? fun a => a.tag = tag with
    | none => .ok (m, bytes)
    | some a => do
      let (e, rest) ← a.merge w budget (get m) bytes
      return (set m (some e), rest)

end Field

end KeyedStream.Proto
