/-!
# JSON values

A JSON text as the values in it. Of a number it is only kept whether it is a plain count, without
sign, fraction or exponent. A string may hold a part of a surrogate pair without the other part,
which no text can hold; such a string is kept as `none`.
-/

namespace KeyedStream.Json

inductive Value where
  | null
  | bool (b : Bool)
  | natural (n : Nat)
  | number
  | string (s : Option String)
  | array (items : List Value)
  | object (members : List (Option String × Value))
deriving Inhabited

namespace Value

def text? : Value → Option String
  | string s => s
  | _ => none

/-- The count, if it is one and not above a bound. -/
def natural? (bound : Nat) : Value → Option Nat
  | natural n => if n ≤ bound then some n else none
  | _ => none

/-- One of several names: a string, or an object with the name as its only member, and no value. -/
def choice? : Value → Option String
  | string s => s
  | object [(name, null)] => name
  | _ => none

end Value

/-! ## Reading records -/

/-- The value under a name, which must not come twice; `none` if it comes twice. -/
def member (name : String) (members : List (Option String × Value)) : Option (Option Value) :=
  match members.filter fun m => m.1 = some name with
  | [] => some none
  | [m] => some (some m.2)
  | _ => none

/-- The values of the named fields of a record, in the order of the names. A record is an object,
or an array of the values in order. Other members of an object are not looked at, but their names
must be texts. -/
def record? (names : List String) : Value → Option (List (Option Value))
  | .object members =>
    if members.all fun m => m.1.isSome then names.mapM fun name => member name members else none
  | .array items =>
    if items.length ≤ names.length then
      some (items.map some ++ List.replicate (names.length - items.length) none)
    else none
  | _ => none

/-- The value of a field that may be left out. -/
def field {α : Type} (read : Value → Option α) (standard : α) : Option Value → Option α
  | none => some standard
  | some v => read v

def required {α : Type} (read : Value → Option α) (v : Option Value) : Option α := v.bind read

end KeyedStream.Json
