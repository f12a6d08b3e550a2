import KeyedStream.Binary
import KeyedStream.Text.Digits

/-!
# The shortest decimal of a floating-point number

The reals that round to a number form an interval around it, whose ends belong to it when the
number's last bit is zero. Of the decimals in that interval, the shortest are those with the fewest
digits; of these the one nearest to the number is chosen, and the larger one from a tie. If a grid
of decimals meets the interval, then so does one of the number's two neighbours on the grid, so
only those are tried, grid by grid.
-/

namespace KeyedStream.Text

/-- The decimal `digits * 10 ^ exponent`. -/
structure Decimal where
  digits : Nat
  exponent : Int
deriving DecidableEq, Repr

/-- An interval of positive reals around a number, all over one denominator. -/
structure Interval where
  low : Nat
  value : Nat
  high : Nat
  denominator : Nat
  /-- Whether the ends belong to it. -/
  closed : Bool

namespace Interval

def holds (i : Interval) (n : Nat) : Bool :=
  if i.closed then i.low ≤ n && n ≤ i.high else i.low < n && n < i.high

def scale (i : Interval) (k : Nat) : Interval :=
  { i with low := i.low * k, value := i.value * k, high := i.high * k,
           denominator := i.denominator * k }

/-- The interval of the reals that round to `m * 2 ^ e`. The gap below a power of two is half as
wide as the one above it, unless the exponent is the least. -/
def ofMagnitude (m : Nat) (e : Int) (narrow : Bool) : Interval :=
  let i : Interval :=
    ⟨4 * m - (if narrow then 1 else 2), 4 * m, 4 * m + 2, 4, m % 2 = 0⟩
  let p := 1 <<< e.natAbs
  if 0 ≤ e then { i with low := i.low * p, value := i.value * p, high := i.high * p }
  else { i with denominator := i.denominator * p }

/-- The number of steps after which `n * 10 ^ steps` reaches `d`, of at most `fuel`. -/
def raise (d : Nat) : Nat → Nat → Nat
  | 0, _ => 0
  | fuel + 1, n => if d ≤ n then 0 else raise d fuel (n * 10) + 1

def leading (i : Interval) : Int :=
  if i.denominator ≤ i.value then
    ((Nat.toDigits 10 (i.value / i.denominator)).length : Int) - 1
  else - (raise i.denominator (i.denominator.log2 + 1) i.value : Int)

/-- The nearest decimal in the interval among the value's two neighbours with `count` digits, if
one of them lies in it. -/
def onGrid? (i : Interval) (lead : Int) (count : Nat) : Option Decimal :=
  let exponent := lead - count + 1
  let p := Nat.pow 10 exponent.natAbs
  let (i, unit) :=
    if 0 ≤ exponent then (i, i.denominator * p) else (i.scale p, i.denominator)
  let below := i.value / unit
  let down := i.holds (below * unit)
  let up := i.holds ((below + 1) * unit)
  if up && (!down || unit ≤ 2 * (i.value % unit)) then some ⟨below + 1, exponent⟩
  else if down then some ⟨below, exponent⟩
  else none

/-- The shortest decimal of at least `count` digits, and of fewer than `count + fuel`. -/
def shortestFrom (i : Interval) (lead : Int) : Nat → Nat → Decimal
  | 0, _ => ⟨0, 0⟩
  | fuel + 1, count =>
    match i.onGrid? lead count with
    | some d => d
    | none => shortestFrom i lead fuel (count + 1)

/-- The shortest decimal in the interval; seventeen digits always suffice for double precision. -/
def shortest (i : Interval) : Decimal := shortestFrom i i.leading 17 1

end Interval

/-! ## Text -/

/-- The digits of a decimal, without zeros at the end, and the exponent of the first one. -/
def Decimal.scientific (d : Decimal) : List Char × Int :=
  let digits := Nat.toDigits 10 d.digits
  (Digits.trimZeros digits, d.exponent + digits.length - 1)

/-- The text with a point and at least one place after it. -/
def positional (digits : List Char) (exponent : Int) : String :=
  if exponent < 0 then
    "0." ++ String.ofList (List.replicate (exponent.natAbs - 1) '0' ++ digits)
  else
    let whole := exponent.toNat + 1
    let zeros := List.replicate (whole - digits.length) '0'
    let places := digits.drop whole
    String.ofList (digits.take whole ++ zeros) ++ "." ++
      String.ofList (if places.isEmpty then ['0'] else places)

/-- The text with one digit before the point and an exponent. -/
def exponential (digits : List Char) (exponent : Int) : String :=
  let places := digits.drop 1
  String.ofList (digits.take 1) ++ (if places.isEmpty then "" else "." ++ String.ofList places) ++
    "e" ++ toString exponent

/-- The text of a floating-point number: positional from 10⁻⁴ up to 10¹⁶, else with an exponent. -/
def floating (f : BinaryFormat) (bits : Nat) : String :=
  let sign := if f.isNegative bits then "-" else ""
  if f.exponentField bits = f.top then
    if f.fractionField bits = 0 then sign ++ "inf" else "NaN"
  else if f.isZero bits then sign ++ "0.0"
  else
    let (m, e) := f.magnitude bits
    let narrow := f.fractionField bits = 0 && 1 < f.exponentField bits
    let (digits, exponent) := (Interval.ofMagnitude m e narrow).shortest.scientific
    if -4 ≤ exponent ∧ exponent < 16 then sign ++ positional digits exponent
    else sign ++ exponential digits exponent

end KeyedStream.Text

namespace KeyedStream

def Binary32.text (x : Binary32) : String := Text.floating .single x.bits.toNat

def Binary64.text (x : Binary64) : String := Text.floating .double x.bits.toNat

end KeyedStream
