import KeyedStream.Scalar.Basic
import KeyedStream.Wire.Timestamp

/-!
# Wrappers

The message that a scalar is stored in has one field, the scalar itself, under the tag 1. Faults in
that field are reported without a place. An instant is stored as a timestamp.
-/

namespace KeyedStream.Wrapper

open Proto

/-- The message whose only field is the value itself. -/
def of {β : Type} (empty : β) (shape : Shape β) : Layout β where
  name := ""
  empty := empty
  fields := [.single 1 none shape id fun _ v => v]

def int32 : Layout Int32 := of 0 .int32

def int64 : Layout Int64 := of 0 .int64

def uint32 : Layout UInt32 := of 0 .uint32

def uint64 : Layout UInt64 := of 0 .uint64

def float : Layout Binary32 :=
  of ⟨0⟩ (.fixed .fixed32 4 Binary32.isZero (·.bits.toNat) fun n => ⟨UInt32.ofNat n⟩)

def double : Layout Binary64 :=
  of ⟨0⟩ (.fixed .fixed64 8 Binary64.isZero (·.bits.toNat) fun n => ⟨UInt64.ofNat n⟩)

def bool : Layout Bool := of false .bool

def string : Layout String := of "" .text

def timestamp : Layout Wire.Timestamp := Wire.Timestamp.layout

end KeyedStream.Wrapper
