import KeyedStream.Proto.Fault

/-!
# Varints

Numbers below 2⁶⁴ in groups of seven bits, low group first, where the top bit of a byte says that
another follows.
-/

namespace KeyedStream.Proto.Varint

/-- At most `groups` groups of a number. -/
def encodeGroups : Nat → Nat → Bytes
  | 0, _ => []
  | groups + 1, n =>
    if n < 128 then [UInt8.ofNat n]
    else UInt8.ofNat (n % 128 + 128) :: encodeGroups groups (n / 128)

/-- The varint of a number; ten groups hold any 64-bit number. -/
def encode (n : Nat) : Bytes := encodeGroups 10 n

/-- The number of bytes of the varint of a number: one for each group of seven bits, and one for
zero. -/
def size (n : Nat) : Nat := n.log2 / 7 + 1

/-- Reads at most `groups` groups; the tenth may hold one bit only. -/
def decodeGroups : Nat → Bytes → Option (Nat × Bytes)
  | 0, _ => none
  | _ + 1, [] => none
  | groups + 1, b :: rest =>
    if b.toNat < 128 then
      if groups = 0 ∧ 2 ≤ b.toNat then none else some (b.toNat, rest)
    else
      match decodeGroups groups rest with
      | some (n, rest) => some (b.toNat - 128 + 128 * n, rest)
      | none => none

def decode (bytes : Bytes) : Except DecodeError (Nat × Bytes) :=
  match decodeGroups 10 bytes with
  | some r => .ok r
  | none => fail .invalidVarint

end KeyedStream.Proto.Varint
