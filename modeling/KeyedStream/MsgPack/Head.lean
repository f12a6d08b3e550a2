import KeyedStream.Binary
import KeyedStream.Bytes

/-!
# Heads

Every MessagePack value begins with a head: a marker, and behind it the number itself or the length
of what follows. A head is written in the smallest form there is for it; each of the other forms is
read as well.
-/

namespace KeyedStream.MsgPack

/-- What a value begins with. An integer that is not negative may come with a signed marker. -/
inductive Head where
  | nil
  | bool (b : Bool)
  | unsigned (n : Nat)
  | signed (n : Int)
  | float (x : Binary32)
  | double (x : Binary64)
  | text (length : Nat)
  | binary (length : Nat)
  | array (length : Nat)
  | map (length : Nat)
  | extension (length : Nat)
deriving DecidableEq, Repr

namespace Head

/-! ## Writing -/

/-- A marker and a number of `width` bytes. -/
def sized (marker width n : Nat) : Bytes := UInt8.ofNat marker :: Bytes.bigEndian width n

def writeUnsigned (n : Nat) : Bytes :=
  if n < 0x80 then [UInt8.ofNat n]
  else if n < 0x100 then sized 0xcc 1 n
  else if n < 0x10000 then sized 0xcd 2 n
  else if n < 0x100000000 then sized 0xce 4 n
  else sized 0xcf 8 n

/-- The number that a negative one is written as in `width` bytes. -/
def complement (width n : Nat) : Nat := Nat.pow 256 width - n

def writeNegative (n : Nat) : Bytes :=
  if n ≤ 0x20 then [UInt8.ofNat (0x100 - n)]
  else if n ≤ 0x80 then sized 0xd0 1 (complement 1 n)
  else if n ≤ 0x8000 then sized 0xd1 2 (complement 2 n)
  else if n ≤ 0x80000000 then sized 0xd2 4 (complement 4 n)
  else sized 0xd3 8 (complement 8 n)

/-- An integer in its smallest form. -/
def writeInt (n : Int) : Bytes := if n < 0 then writeNegative n.natAbs else writeUnsigned n.toNat

def writeText (n : Nat) : Bytes :=
  if n < 0x20 then [UInt8.ofNat (0xa0 + n)]
  else if n < 0x100 then sized 0xd9 1 n
  else if n < 0x10000 then sized 0xda 2 n
  else sized 0xdb 4 n

def writeBinary (n : Nat) : Bytes :=
  if n < 0x100 then sized 0xc4 1 n
  else if n < 0x10000 then sized 0xc5 2 n
  else sized 0xc6 4 n

def writeArray (n : Nat) : Bytes :=
  if n < 0x10 then [UInt8.ofNat (0x90 + n)]
  else if n < 0x10000 then sized 0xdc 2 n
  else sized 0xdd 4 n

def writeMap (n : Nat) : Bytes :=
  if n < 0x10 then [UInt8.ofNat (0x80 + n)]
  else if n < 0x10000 then sized 0xde 2 n
  else sized 0xdf 4 n

def writeNil : Bytes := [0xc0]

def writeBool (b : Bool) : Bytes := if b then [0xc3] else [0xc2]

def writeDouble (x : Binary64) : Bytes := sized 0xcb 8 x.bits.toNat

/-! ## Reading -/

def number (width : Nat) (wrap : Nat → Head) (bytes : Bytes) : Option (Head × Bytes) :=
  match Bytes.take? width bytes with
  | some (b, rest) => some (wrap (Bytes.ofBigEndian b), rest)
  | none => none

/-- The signed integer that a number of `width` bytes stands for. -/
def ofComplement (width n : Nat) : Int :=
  if 2 * n < Nat.pow 256 width then n else (n : Int) - Nat.pow 256 width

/-- Reads the number or length behind a marker that does not hold it itself. -/
def behind (marker : Nat) (bytes : Bytes) : Option (Head × Bytes) :=
  match marker with
  | 0xc0 => some (.nil, bytes)
  | 0xc2 => some (.bool false, bytes)
  | 0xc3 => some (.bool true, bytes)
  | 0xc4 => number 1 .binary bytes
  | 0xc5 => number 2 .binary bytes
  | 0xc6 => number 4 .binary bytes
  | 0xc7 => number 1 .extension bytes
  | 0xc8 => number 2 .extension bytes
  | 0xc9 => number 4 .extension bytes
  | 0xca => number 4 (fun n => .float ⟨UInt32.ofNat n⟩) bytes
  | 0xcb => number 8 (fun n => .double ⟨UInt64.ofNat n⟩) bytes
  | 0xcc => number 1 .unsigned bytes
  | 0xcd => number 2 .unsigned bytes
  | 0xce => number 4 .unsigned bytes
  | 0xcf => number 8 .unsigned bytes
  | 0xd0 => number 1 (fun n => .signed (ofComplement 1 n)) bytes
  | 0xd1 => number 2 (fun n => .signed (ofComplement 2 n)) bytes
  | 0xd2 => number 4 (fun n => .signed (ofComplement 4 n)) bytes
  | 0xd3 => number 8 (fun n => .signed (ofComplement 8 n)) bytes
  | 0xd4 => some (.extension 1, bytes)
  | 0xd5 => some (.extension 2, bytes)
  | 0xd6 => some (.extension 4, bytes)
  | 0xd7 => some (.extension 8, bytes)
  | 0xd8 => some (.extension 16, bytes)
  | 0xd9 => number 1 .text bytes
  | 0xda => number 2 .text bytes
  | 0xdb => number 4 .text bytes
  | 0xdc => number 2 .array bytes
  | 0xdd => number 4 .array bytes
  | 0xde => number 2 .map bytes
  | 0xdf => number 4 .map bytes
  | _ => none

def read : Bytes → Option (Head × Bytes)
  | [] => none
  | b :: rest =>
    let n := b.toNat
    if n < 0x80 then some (.unsigned n, rest)
    else if n < 0x90 then some (.map (n - 0x80), rest)
    else if n < 0xa0 then some (.array (n - 0x90), rest)
    else if n < 0xc0 then some (.text (n - 0xa0), rest)
    else if n < 0xe0 then behind n rest
    else some (.signed ((n : Int) - 0x100), rest)

end Head

end KeyedStream.MsgPack
