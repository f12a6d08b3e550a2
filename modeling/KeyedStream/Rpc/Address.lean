import KeyedStream.Error
import KeyedStream.Text.Digits

/-!
# Addresses

What an address must look like before a server can listen on it: a host, a colon and a number of 16
bits.
-/

namespace KeyedStream.Rpc

/-- The part behind the last colon, if there is a colon. -/
def numberText? (addr : String) : Option (List Char) :=
  let cs := addr.toList
  if cs.contains ':' then some (cs.reverse.takeWhile (· ≠ ':')).reverse else none

/-- The number of at most 16 bits that digits stand for; a plus sign may come before them. -/
def number? (cs : List Char) : Option Nat :=
  let digits :=
    match cs with
    | '+' :: rest => rest
    | _ => cs
  (Digits.value? digits).filter (· ≤ 65535)

/-- Whether a server can try to listen on an address. -/
def checkAddress (addr : String) : Except Error Unit :=
  match numberText? addr with
  | none => .error (.io "invalid socket address")
  | some cs =>
    match number? cs with
    | some _ => .ok ()
    | none => .error (.io "invalid port value")

end KeyedStream.Rpc
