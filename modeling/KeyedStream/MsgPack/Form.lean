import KeyedStream.MsgPack.Skip
import KeyedStream.Ordered

/-!
# Forms of values

How the values of a type are written, and which written values are read as one of them. Reading is
more generous than writing: an integer comes in any of its forms, a text may be a byte string that
holds UTF-8, and so on; what follows the value is left.
-/

namespace KeyedStream.MsgPack

/-- How the values of a type are written and read. -/
structure Form (α : Type) where
  write : α → Bytes
  read : Bytes → Option (α × Bytes)
  /-- The value of a record's field that is left out, if it may be. -/
  absent : Option α := none

namespace Form

variable {α β : Type}

/-- The value of a record's field: the one that was read, or the one that stands for none. -/
def known (f : Form α) (v : Option α) : Option α := v.or f.absent

@[simp] theorem known_some (f : Form α) (v : α) : f.known (some v) = some v := rfl

@[simp] theorem known_none (f : Form α) : f.known none = f.absent := rfl

/-! ## Numbers -/

def readInt (bytes : Bytes) : Option (Int × Bytes) :=
  match Head.read bytes with
  | some (.unsigned n, rest) => some (n, rest)
  | some (.signed n, rest) => some (n, rest)
  | _ => none

/-- Reads an integer between two bounds. -/
def readBounded (low high : Int) (wrap : Int → α) (bytes : Bytes) : Option (α × Bytes) :=
  match readInt bytes with
  | some (n, rest) => if low ≤ n ∧ n ≤ high then some (wrap n, rest) else none
  | none => none

def int64 : Form Int64 where
  write v := Head.writeInt v.toInt
  read := readBounded (-9223372036854775808) 9223372036854775807 Int64.ofInt

def uint32 : Form UInt32 where
  write v := Head.writeUnsigned v.toNat
  read := readBounded 0 4294967295 fun n => UInt32.ofNat n.toNat

def uint8 : Form UInt8 where
  write v := Head.writeUnsigned v.toNat
  read := readBounded 0 255 fun n => UInt8.ofNat n.toNat

/-- Numbers of double precision; single precision and integers are read as well. -/
def double : Form Binary64 where
  write := Head.writeDouble
  read bytes :=
    match Head.read bytes with
    | some (.double x, rest) => some (x, rest)
    | some (.float x, rest) => some (.ofSingle x, rest)
    | some (.unsigned n, rest) => some (.ofInt n, rest)
    | some (.signed n, rest) => some (.ofInt n, rest)
    | _ => none

def bool : Form Bool where
  write := Head.writeBool
  read bytes :=
    match Head.read bytes with
    | some (.bool b, rest) => some (b, rest)
    | _ => none

/-! ## Strings -/

/-- Texts; a byte string that holds UTF-8 is read as well. -/
def text : Form String where
  write s :=
    let b := Bytes.ofText s
    Head.writeText b.length ++ b
  read bytes :=
    match Head.read bytes with
    | some (.text n, rest) | some (.binary n, rest) =>
      match Bytes.take? n rest with
      | some (b, rest) => (Bytes.toText? b).map fun s => (s, rest)
      | none => none
    | _ => none

/-- Reads `count` values one after the other. -/
def readMany (f : Form α) : Nat → Bytes → Option (List α × Bytes)
  | 0, bytes => some ([], bytes)
  | count + 1, bytes =>
    match f.read bytes with
    | none => none
    | some (v, rest) =>
      match readMany f count rest with
      | none => none
      | some (vs, rest) => some (v :: vs, rest)

/-- Byte strings; texts and arrays of bytes are read as well. -/
def bytes : Form Bytes where
  write b := Head.writeBinary b.length ++ b
  read bytes :=
    match Head.read bytes with
    | some (.text n, rest) | some (.binary n, rest) => Bytes.take? n rest
    | some (.array n, rest) => uint8.readMany n rest
    | _ => none

/-! ## Containers -/

/-- Lists of integers; a byte string is read as the list of its bytes. -/
def int64s : Form (List Int64) where
  write vs := Head.writeArray vs.length ++ (vs.map int64.write).flatten
  read bytes :=
    match Head.read bytes with
    | some (.array n, rest) => int64.readMany n rest
    | some (.binary n, rest) =>
      (Bytes.take? n rest).map fun r => (r.1.map fun b => Int64.ofInt b.toNat, r.2)
    | _ => none

/-- Options; a field that is left out is none. -/
def optional (f : Form α) : Form (Option α) where
  write
    | none => Head.writeNil
    | some v => f.write v
  read bytes :=
    match Head.read bytes with
    | some (.nil, rest) => some (none, rest)
    | _ => (f.read bytes).map fun r => (some r.1, r.2)
  absent := some none

def pair (f : Form α) (g : Form β) : Form (α × β) where
  write e := f.write e.1 ++ g.write e.2
  read bytes :=
    match f.read bytes with
    | none => none
    | some (k, rest) => (g.read rest).map fun r => ((k, r.1), r.2)

/-- Maps from texts, written in the order of their keys; of a key that comes again, the last value
counts. -/
def map (f : Form α) : Form (Ordered String α) where
  write m := Head.writeMap m.size ++ (m.entries.map (text.pair f).write).flatten
  read bytes :=
    match Head.read bytes with
    | some (.map n, rest) =>
      ((text.pair f).readMany n rest).map fun r => (Ordered.ofList r.1, r.2)
    | _ => none

end Form

end KeyedStream.MsgPack
