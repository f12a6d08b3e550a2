import KeyedStream.Error
import KeyedStream.Json.Reader

/-!
# Error bodies

A failed call is answered by a status and a JSON object with a code and a message. Such a body reads
back; it may be any object with exactly one code and one message among its members, or an array of
the two.
-/

namespace KeyedStream.Rpc

inductive Code where
  | invalidArgument | canceled | deadlineExceeded | unknown
deriving DecidableEq, Repr

namespace Code

def name : Code → String
  | invalidArgument => "invalid_argument"
  | canceled => "canceled"
  | deadlineExceeded => "deadline_exceeded"
  | unknown => "unknown"

def ofName? (s : String) : Option Code :=
  [invalidArgument, canceled, deadlineExceeded, unknown].find? fun c => c.name = s

def read? (v : Json.Value) : Option Code := v.choice?.bind ofName?

end Code

/-- The code and the status that a failed call is answered by. -/
def failure : Error → Nat × Code
  | .badRequest _ | .decode _ => (400, .invalidArgument)
  | .cancelled => (499, .canceled)
  | .deadlineExceeded _ => (504, .deadlineExceeded)
  | _ => (500, .unknown)

/-- What a failed call is answered by. -/
structure ErrorBody where
  code : Code
  message : String
deriving DecidableEq, Repr

namespace ErrorBody

/-- The status and the body of an error. -/
def ofError (e : Error) : Nat × ErrorBody :=
  let (status, code) := failure e
  (status, { code, message := e.message })

def member (name value : String) : List Char :=
  Json.writeString name.toList ++ ':' :: Json.writeString value.toList

def write (b : ErrorBody) : String :=
  String.ofList ('\x7b' :: (member "code" b.code.name ++ ',' :: member "message" b.message ++ ['\x7d']))

def ofValue? (v : Json.Value) : Option ErrorBody :=
  match Json.record? ["code", "message"] v with
  | some [code, message] => do
    return { code := ← Json.required Code.read? code, message := ← Json.required (·.text?) message }
  | _ => none

def read? (s : String) : Option ErrorBody := (Json.read? s.toList).bind ofValue?

end ErrorBody

end KeyedStream.Rpc
