import KeyedStream.Codec.Basic
import KeyedStream.Text.Span
import KeyedStream.Text.Utf8

/-!
# Errors

What can go wrong while a handler serves requests, by whose doing, and what is said of it.
-/

namespace KeyedStream

/-- What went wrong. -/
inductive Error where
  /-- A stream could not be read or written, or a program not be started. -/
  | io (message : String)
  /-- A message could not be read. -/
  | decode (source : Proto.DecodeError)
  /-- A value has no stored form, or stored bytes stand for no value. -/
  | codec (source : CodecError)
  /-- The caller asked for something that makes no sense. -/
  | badRequest (message : String)
  /-- The rows of a state could not be read. -/
  | stateLoad (name : String) (source : Error)
  /-- The rules of framing were broken. -/
  | protocol (message : String)
  /-- A callback failed. -/
  | handler (message : String)
  /-- The request was given up before it was done. -/
  | cancelled
  /-- The caller's deadline passed before the request was done. -/
  | deadlineExceeded (after : Span)
  /-- An answer could not be put together. -/
  | internal (message : String)
  /-- A companion program ended without success. -/
  | command (message : String) (stderr : Bytes)
deriving DecidableEq

namespace Error

/-- What a companion wrote to its error output, set off from the message before it. -/
def stderrText (stderr : Bytes) : String :=
  if stderr.isEmpty then "" else "\n\nStderr:\n" ++ Text.Utf8.lossy stderr

def message : Error → String
  | io message => "I/O error: " ++ message
  | decode source => "protobuf decode error: " ++ source.message
  | codec source => "codec error: " ++ source.message
  | badRequest message => "bad request: " ++ message
  | stateLoad name source => "failed to load state for " ++ name ++ ": " ++ source.message
  | protocol message => "protocol error: " ++ message
  | handler message => "handler error: " ++ message
  | cancelled => "request cancelled"
  | deadlineExceeded after => "deadline exceeded after " ++ after.text
  | internal message => "internal error: " ++ message
  | command message stderr => message ++ stderrText stderr

/-- Whether the caller is to blame. -/
def isBadRequest : Error → Bool
  | badRequest _ => true
  | _ => false

end Error

/-- The error of an operation that failed in a codec. -/
def liftCodec {α : Type} : Except CodecError α → Except Error α
  | .ok v => .ok v
  | .error e => .error (.codec e)

theorem liftCodec_eq_ok_iff {α : Type} {x : Except CodecError α} {v : α} :
    liftCodec x = .ok v ↔ x = .ok v := by
  cases x <;> simp [liftCodec]

end KeyedStream
