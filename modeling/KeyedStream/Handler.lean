import KeyedStream.Context
import KeyedStream.Event
import KeyedStream.Subject

/-!
# Handlers

A handler keys the records of a source and runs callbacks on the subjects of their keys. A callback
may edit its subject, cancel the tokens of its request, and change what the handler itself keeps
(`World.own`). It ends well, fails, or waits for something that never comes, in which case only a
deadline can end the request.
-/

namespace KeyedStream

/-- What callbacks can change besides their subjects. -/
structure World (ω : Type) where
  tokens : Tokens := {}
  own : ω

namespace World

variable {ω : Type}

def cancel (w : World ω) (t : Token) : World ω := { w with tokens := w.tokens.cancel t }

def isCancelled (w : World ω) (t : Token) : Bool := w.tokens.isCancelled t

def newContext (w : World ω) : Context × World ω :=
  let (c, ts) := Context.new w.tokens
  (c, { w with tokens := ts })

end World

/-- Why a request does not end well. -/
inductive Halt where
  | failed (e : Error)
  | waiting
deriving DecidableEq

/-- What a callback does on a subject. -/
abbrev Callback {κ : Type} (ω : Type) (Item : κ → Type) : Type :=
  Subject Item → World ω → Except Halt Unit × Subject Item × World ω

/-- The callback that does nothing. -/
def Callback.nothing {κ ω : Type} {Item : κ → Type} : Callback ω Item := fun s w => (.ok (), s, w)

/-- The callbacks of an operator. -/
structure OperatorHandler {κ : Type} (ω : Type) (Item : κ → Type) where
  /-- Runs when an event arrives, on the subject of its key. -/
  onEvent : Context → KeyedEvent → Callback ω Item
  /-- Runs when a timer has been passed by the watermark. -/
  onTimerExpired : Context → Instant → Callback ω Item := fun _ _ => .nothing

/-- An operator together with the way to key the records of a source. -/
structure Handler {κ : Type} (ω : Type) (Item : κ → Type) where
  /-- Turns a record into keyed events. -/
  keyEvent : Context → Bytes → World ω → Except Error (List KeyedEvent) × World ω
  operator : OperatorHandler ω Item

end KeyedStream
