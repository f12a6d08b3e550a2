import KeyedStream.Text.Digits

/-!
# Spans of time

A span is a number of nanoseconds. Its text uses the largest unit that it reaches, with as many
decimals as are needed.
-/

namespace KeyedStream

structure Span where
  nanos : Nat
deriving DecidableEq, Repr

namespace Span

def ofMillis (n : Nat) : Span := ⟨n * 1000000⟩

/-- The number `n / 10 ^ places` with the decimals that are needed. -/
def decimal (places n : Nat) : String :=
  let unit := Nat.pow 10 places
  let decimals := Digits.trimZeros (Digits.padded places (n % unit))
  toString (n / unit) ++ if decimals.isEmpty then "" else "." ++ String.ofList decimals

def text (s : Span) : String :=
  if 1000000000 ≤ s.nanos then decimal 9 s.nanos ++ "s"
  else if 1000000 ≤ s.nanos then decimal 6 s.nanos ++ "ms"
  else if 1000 ≤ s.nanos then decimal 3 s.nanos ++ "µs"
  else decimal 0 s.nanos ++ "ns"

end Span

end KeyedStream
