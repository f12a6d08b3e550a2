/-!
# Binary floating-point numbers

The two interchange formats as their bits: a sign, an exponent field and a fraction. Two numbers
are equal here when their bits are, so the zeros differ and a NaN keeps its payload. A finite
number is a whole number of units of its last place (`Format.magnitude`), which is what its text
and its conversions are computed from.
-/

namespace KeyedStream

/-- An interchange format. -/
structure BinaryFormat where
  /-- The width of the fraction. -/
  fraction : Nat
  /-- The width of the exponent field. -/
  exponent : Nat

namespace BinaryFormat

def single : BinaryFormat := ⟨23, 8⟩

def double : BinaryFormat := ⟨52, 11⟩

/-- What is added to the exponent of a number between one and two to get its exponent field. -/
def bias (f : BinaryFormat) : Nat := 1 <<< (f.exponent - 1) - 1

/-- The exponent field of infinities and NaNs. -/
def top (f : BinaryFormat) : Nat := 1 <<< f.exponent - 1

def isNegative (f : BinaryFormat) (bits : Nat) : Bool :=
  bits >>> (f.fraction + f.exponent) % 2 = 1

def exponentField (f : BinaryFormat) (bits : Nat) : Nat :=
  bits >>> f.fraction % 1 <<< f.exponent

def fractionField (f : BinaryFormat) (bits : Nat) : Nat := bits % 1 <<< f.fraction

def isZero (f : BinaryFormat) (bits : Nat) : Bool :=
  f.exponentField bits = 0 && f.fractionField bits = 0

/-- The magnitude `m * 2 ^ e` of a finite number, as `(m, e)`. -/
def magnitude (f : BinaryFormat) (bits : Nat) : Nat × Int :=
  let field := f.exponentField bits
  let fraction := f.fractionField bits
  if field = 0 then (fraction, 1 - f.bias - f.fraction)
  else (fraction + 1 <<< f.fraction, field - f.bias - f.fraction)

/-- The bits of the magnitude `m * 2 ^ e`, rounded to nearest and from a tie to the even fraction,
where the format reaches it by a number of full precision. -/
def ofMagnitude (f : BinaryFormat) (m : Nat) (e : Int) : Nat :=
  if m = 0 then 0
  else
    let k := m.log2
    let field := (k + e + f.bias).toNat
    if k ≤ f.fraction then field <<< f.fraction + (m <<< (f.fraction - k) - 1 <<< f.fraction)
    else
      let unit := 1 <<< (k - f.fraction)
      let q := m / unit
      let r := m % unit
      let q := if unit < 2 * r ∨ unit = 2 * r ∧ q % 2 = 1 then q + 1 else q
      field <<< f.fraction + (q - 1 <<< f.fraction)

end BinaryFormat

structure Binary32 where
  bits : UInt32
deriving DecidableEq, Repr, Inhabited

structure Binary64 where
  bits : UInt64
deriving DecidableEq, Repr, Inhabited

def Binary32.isZero (x : Binary32) : Bool := BinaryFormat.single.isZero x.bits.toNat

namespace Binary64

def isZero (x : Binary64) : Bool := BinaryFormat.double.isZero x.bits.toNat

/-- The number nearest to an integer. -/
def ofInt (n : Int) : Binary64 :=
  let magnitude := BinaryFormat.double.ofMagnitude n.natAbs 0
  ⟨UInt64.ofNat (if n < 0 then 1 <<< 63 + magnitude else magnitude)⟩

/-- The number of the same value. A NaN keeps its payload and becomes a quiet one. -/
def ofSingle (x : Binary32) : Binary64 :=
  let bits := x.bits.toNat
  let f := BinaryFormat.single
  let sign := if f.isNegative bits then 1 <<< 63 else 0
  let fraction := f.fractionField bits
  if f.exponentField bits = f.top then
    let field := BinaryFormat.double.top <<< 52
    if fraction = 0 then ⟨UInt64.ofNat (sign + field)⟩
    else ⟨UInt64.ofNat (sign + field + (fraction <<< 29 ||| 1 <<< 51))⟩
  else
    let (m, e) := f.magnitude bits
    ⟨UInt64.ofNat (sign + BinaryFormat.double.ofMagnitude m e)⟩

end Binary64

end KeyedStream
