/-!
# Instants

A point in time, in whole seconds since 1970-01-01T00:00:00Z and nanoseconds into that second. A leap
second may follow any second: the nanoseconds then run on from 10⁹ up to 2·10⁹, and such an instant
lies before the second that follows and is not equal to it. An instant that is put together from
numbers has a leap second only at the end of a minute (`Instant.ofParts?`).
-/

namespace KeyedStream

def nanosPerSecond : Nat := 1000000000

/-- The first second of the year -262143, where the calendar starts. -/
def firstSecond : Int := -8334601228800

/-- The last second of the year 262142, where the calendar ends. -/
def lastSecond : Int := 8210266876799

/-- What the parts of an instant satisfy: the calendar reaches it, and its nanoseconds are those of
its second or of a leap second after it. -/
def IsInstant (seconds : Int) (nanos : Nat) : Prop :=
  firstSecond ≤ seconds ∧ seconds ≤ lastSecond ∧ nanos < 2 * nanosPerSecond

instance (seconds : Int) (nanos : Nat) : Decidable (IsInstant seconds nanos) := by
  unfold IsInstant; infer_instance

/-- A point in time. -/
structure Instant where
  seconds : Int
  nanos : Nat
  isInstant : IsInstant seconds nanos
deriving DecidableEq

namespace Instant

/-- The instant with the given parts. Only the last second of a minute is taken to have a leap second
after it, though instants with one after any other second exist. -/
def ofParts? (seconds : Int) (nanos : Nat) : Option Instant :=
  if h : IsInstant seconds nanos then
    if nanos < nanosPerSecond ∨ seconds % 60 = 59 then some ⟨seconds, nanos, h⟩ else none
  else none

theorem ofParts?_of_lt {seconds : Int} {nanos : Nat} (h : IsInstant seconds nanos)
    (hnanos : nanos < nanosPerSecond) : ofParts? seconds nanos = some ⟨seconds, nanos, h⟩ := by
  rw [ofParts?, dif_pos h, if_pos (.inl hnanos)]

theorem parts_of_ofParts? {seconds : Int} {nanos : Nat} {t : Instant}
    (h : ofParts? seconds nanos = some t) : t.seconds = seconds ∧ t.nanos = nanos := by
  unfold ofParts? at h
  split at h
  · split at h
    · obtain rfl := Option.some.inj h
      exact ⟨rfl, rfl⟩
    · cases h
  · cases h

theorem ofParts?_of_not {seconds : Int} {nanos : Nat} (h : ¬ IsInstant seconds nanos) :
    ofParts? seconds nanos = none :=
  dif_neg h

/-- 1970-01-01T00:00:00Z. -/
def epoch : Instant := ⟨0, 0, by decide⟩

instance : Inhabited Instant := ⟨epoch⟩

def isLeap (t : Instant) : Bool := nanosPerSecond ≤ t.nanos

/-- The nanoseconds since the epoch. A leap second counts as the second that follows. -/
def total (t : Instant) : Int := t.seconds * nanosPerSecond + t.nanos

instance : LT Instant :=
  ⟨fun a b => a.seconds < b.seconds ∨ a.seconds = b.seconds ∧ a.nanos < b.nanos⟩

instance : DecidableLT Instant := fun a b =>
  inferInstanceAs (Decidable (a.seconds < b.seconds ∨ a.seconds = b.seconds ∧ a.nanos < b.nanos))

/-- The instant `secs` whole seconds later. Leaving a leap second, time runs on from the second
that follows when it goes back, and from the second before when it goes on. -/
def addSeconds? (t : Instant) (secs : Int) : Option Instant :=
  if t.isLeap then
    if 0 < secs then ofParts? (t.seconds + secs) (t.nanos - nanosPerSecond)
    else if secs < 0 then ofParts? (t.seconds + 1 + secs) (t.nanos - nanosPerSecond)
    else some t
  else ofParts? (t.seconds + secs) t.nanos

end Instant

end KeyedStream
