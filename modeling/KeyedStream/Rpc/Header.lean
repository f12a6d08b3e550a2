import KeyedStream.Error
import KeyedStream.Text.Digits

/-!
# Headers

What the headers of a call say: the type of its body and the time it may take. The names of headers
do not depend on case; of a header that comes more than once, the first value counts.
-/

namespace KeyedStream.Rpc

abbrev Headers := List (String × Bytes)

/-- The characters of a text with their case dropped. -/
def lower (s : String) : List Char := s.toList.map Char.toLower

namespace Headers

def find? (hs : Headers) (name : String) : Option Bytes :=
  (List.find? (fun h => lower h.1 = lower name) hs).map Prod.snd

end Headers

/-- Whether a byte may stand in the text of a header: a visible character, a blank or a tab. -/
def isHeaderText (b : UInt8) : Bool := b = 9 || (32 ≤ b.toNat && b.toNat < 127)

/-- The text of a header's value; empty if it has none. -/
def headerText (value : Bytes) : String :=
  if value.all isHeaderText then String.ofList (value.map fun b => Char.ofNat b.toNat) else ""

/-- A value of a header in quotation marks. -/
def quotedHeader (value : Bytes) : String :=
  let shown (b : UInt8) : String :=
    if b = 34 then "\\\""
    else if isHeaderText b then (Char.ofNat b.toNat).toString
    else "\\x" ++ Text.hex b.toNat
  "\"" ++ String.join (value.map shown) ++ "\""

/-! ## Content type -/

def protoType : String := "application/proto"

def isBlank (c : Char) : Bool := c = ' ' || c = '\t'

def trim (cs : List Char) : List Char :=
  ((cs.dropWhile isBlank).reverse.dropWhile isBlank).reverse

/-- The type itself, without what is said about it behind a semicolon. -/
def mediaType (s : String) : List Char := trim (s.toList.takeWhile (· ≠ ';'))

/-- The text of the content type of a call; empty if there is none. -/
def contentType (hs : Headers) : String :=
  match hs.find? "content-type" with
  | some value => headerText value
  | none => ""

/-- Whether the body of a call is a message. -/
def isProto (contentType : String) : Bool :=
  (mediaType contentType).map Char.toLower = protoType.toList

/-! ## Timeout -/

/-- The header that says how many milliseconds a call may take. -/
def timeoutHeader : String := "connect-timeout-ms"

/-- The number of one to ten digits, as a number of 64 bits. -/
def milliseconds? (s : String) : Option Nat :=
  let cs := s.toList
  if 10 < cs.length then none else (Digits.value? cs).filter (· < Nat.pow 2 64)

/-- How long a call may take, if that is limited. -/
def timeout (hs : Headers) : Except Error (Option Span) :=
  match hs.find? timeoutHeader with
  | none => .ok none
  | some value =>
    match milliseconds? (headerText value) with
    | some n => .ok (some (Span.ofMillis n))
    | none =>
      .error (.badRequest ("invalid " ++ timeoutHeader ++ " header " ++ quotedHeader value))

end KeyedStream.Rpc
