import Mathlib
import KeyedStream.Event
import KeyedStream.Proofs.Instants

/-!
# Round trips

An instant that is sent keeps its total, and is read as it was unless it is a leap second: then the
second that follows is read, or nothing where the calendar ends. A timestamp that is read and sent
again is the normal one with its total (`Wire.Timestamp.ofInstant_of_toInstant?`). Keyed events have
no other part that changes on the way (`KeyedEvent.ofWire_toWire`, `KeyedEvent.toWire_of_ofWire`).
-/

namespace KeyedStream

namespace Wire.Timestamp

variable {t : Instant} {ts : Timestamp} {i : Instant}

/-! ## Instants that are sent -/

theorem toInstant?_ofInstant_of_lt (h : t.nanos < nanosPerSecond) :
    (ofInstant t).toInstant? = some t := by
  rw [toInstant?_ofInstant, received?, dif_neg (Nat.not_le.2 h)]

/-- A leap second is read as the second that follows. -/
theorem exists_toInstant?_ofInstant_of_leap (hleap : nanosPerSecond ≤ t.nanos)
    (hlast : t.seconds ≠ lastSecond) :
    ∃ u, (ofInstant t).toInstant? = some u ∧ u.seconds = t.seconds + 1 ∧
      u.nanos + nanosPerSecond = t.nanos := by
  refine ⟨⟨t.seconds + 1, t.nanos - nanosPerSecond, isInstant_following hleap hlast⟩, ?_, rfl, ?_⟩
  · rw [toInstant?_ofInstant, received?, dif_pos hleap, dif_neg hlast]
  · exact Nat.sub_add_cancel hleap

/-- Only the leap seconds at the end of the calendar are not read. -/
theorem toInstant?_ofInstant_eq_none_iff :
    (ofInstant t).toInstant? = none ↔ nanosPerSecond ≤ t.nanos ∧ t.seconds = lastSecond := by
  rw [toInstant?_ofInstant, received?]
  by_cases hleap : nanosPerSecond ≤ t.nanos
  · by_cases hlast : t.seconds = lastSecond <;> simp [hleap, hlast]
  · simp [hleap]

/-! ## Timestamps that are read -/

/-- A timestamp that is read is far from the outermost ones. -/
theorem normal_normalize_of_toInstant? (h : ts.toInstant? = some i) :
    ts.normalize.Normal ∧ ts.normalize.total = ts.total := by
  obtain ⟨hnanos, htotal⟩ := toInstant?_eq_some_iff.1 h
  rcases normalize_cases ts with hexact | ⟨-, hearly⟩ | ⟨-, hlate⟩
  · exact hexact
  · exact absurd (htotal ▸ hearly) (not_early i)
  · exact absurd (htotal ▸ hlate) (not_late hnanos)

/-- **A timestamp that is read and sent again is normalized.** -/
theorem ofInstant_of_toInstant? (h : ts.toInstant? = some i) : ofInstant i = ts.normalize := by
  obtain ⟨hnormal, htotal⟩ := normal_normalize_of_toInstant? h
  refine eq_of_total_eq (normal_ofInstant i) hnormal ?_
  calc (ofInstant i).total = i.total := total_ofInstant i
    _ = ts.total := (toInstant?_eq_some_iff.1 h).2
    _ = ts.normalize.total := htotal.symm

end Wire.Timestamp

namespace KeyedEvent

open Wire.Timestamp

/-! ## Events -/

theorem ofWire_eq_ok_iff {w : Wire.KeyedEvent} {e : KeyedEvent} :
    ofWire w = .ok e ↔
      instant? w.timestamp = some e.timestamp ∧ w.key = e.key ∧ w.value = e.value := by
  obtain ⟨key, timestamp, value⟩ := e
  rw [ofWire]
  cases instant? w.timestamp with
  | none => simp
  | some t =>
    simp only [Except.ok.injEq, mk.injEq, Option.some.injEq]
    tauto

/-- An event that is sent keeps its key and its value, and its time changes as instants do. -/
theorem ofWire_toWire {e : KeyedEvent} {t : Instant}
    (h : (ofInstant e.timestamp).toInstant? = some t) :
    ofWire e.toWire = .ok { e with timestamp := t } :=
  ofWire_eq_ok_iff.2 ⟨h, rfl, rfl⟩

/-- An event that is read and sent again keeps its key and its value, and has a normal time. -/
theorem toWire_of_ofWire {w : Wire.KeyedEvent} {e : KeyedEvent} (h : ofWire w = .ok e) :
    e.toWire = { w with timestamp := some ((w.timestamp.map normalize).getD empty) } := by
  obtain ⟨htime, hkey, hvalue⟩ := ofWire_eq_ok_iff.1 h
  have hsent : ofInstant e.timestamp = (w.timestamp.map normalize).getD empty := by
    cases htimestamp : w.timestamp with
    | none =>
      rw [htimestamp] at htime
      rw [← Option.some.inj htime]
      decide
    | some ts =>
      rw [htimestamp] at htime
      exact ofInstant_of_toInstant? htime
  rw [toWire, hsent, hkey, hvalue]

end KeyedEvent

open Wire.Timestamp in
/-- **Instants and keyed events survive the wire.** The timestamp of an instant has its total, and
nanoseconds within a second. It is read as the instant, or, for a leap second, as the instant one
second later, unless the calendar ends there. A timestamp that is read is sent again as the normal one
with its total. Events keep their keys and values on both ways; their times change in no other way,
and an event without a time is sent again with that of the epoch. -/
theorem survive_the_wire :
    (∀ t : Instant, 0 ≤ (ofInstant t).nanos.toInt ∧ (ofInstant t).nanos.toInt < 10 ^ 9 ∧
      (ofInstant t).seconds.toInt * 10 ^ 9 + (ofInstant t).nanos.toInt =
        t.seconds * 10 ^ 9 + t.nanos ∧
      (t.nanos < 10 ^ 9 → (ofInstant t).toInstant? = some t) ∧
      (10 ^ 9 ≤ t.nanos → t.seconds ≠ 8210266876799 → ∃ u, (ofInstant t).toInstant? = some u ∧
        u.seconds = t.seconds + 1 ∧ u.nanos + 10 ^ 9 = t.nanos) ∧
      ((ofInstant t).toInstant? = none ↔ 10 ^ 9 ≤ t.nanos ∧ t.seconds = 8210266876799)) ∧
    (∀ ts i, toInstant? ts = some i → ofInstant i = ts.normalize ∧
      0 ≤ ts.normalize.nanos.toInt ∧ ts.normalize.nanos.toInt < 10 ^ 9 ∧
      ts.normalize.seconds.toInt * 10 ^ 9 + ts.normalize.nanos.toInt =
        ts.seconds.toInt * 10 ^ 9 + ts.nanos.toInt) ∧
    (∀ e : KeyedEvent,
      (∀ t, (ofInstant e.timestamp).toInstant? = some t →
        KeyedEvent.ofWire e.toWire = .ok { e with timestamp := t }) ∧
      ((ofInstant e.timestamp).toInstant? = none →
        KeyedEvent.ofWire e.toWire = .error (.badRequest "keyed event timestamp out of range"))) ∧
    ∀ w e, KeyedEvent.ofWire w = .ok e → e.toWire.key = w.key ∧ e.toWire.value = w.value ∧
      e.toWire.timestamp = some (match w.timestamp with
        | some ts => ts.normalize
        | none => ⟨0, 0⟩) := by
  refine ⟨fun t => ?_, fun ts i h => ?_, fun e => ⟨fun t => KeyedEvent.ofWire_toWire, fun h => ?_⟩,
    fun w e h => ?_⟩
  · obtain ⟨hlow, hhigh⟩ := normal_ofInstant t
    exact ⟨hlow, hhigh, total_ofInstant t, toInstant?_ofInstant_of_lt,
      exists_toInstant?_ofInstant_of_leap, toInstant?_ofInstant_eq_none_iff⟩
  · obtain ⟨⟨hlow, hhigh⟩, htotal⟩ := normal_normalize_of_toInstant? h
    exact ⟨ofInstant_of_toInstant? h, hlow, hhigh, htotal⟩
  · have hnone : instant? e.toWire.timestamp = none := h
    rw [KeyedEvent.ofWire, hnone]
  · rw [KeyedEvent.toWire_of_ofWire h]
    refine ⟨rfl, rfl, ?_⟩
    cases w.timestamp <;> rfl

/-- The middle of the leap second at the end of 2016 is read as the middle of the first second of
2017; a leap second inside a minute is read as the second that follows it, too. -/
example :
    (Wire.Timestamp.ofInstant ⟨1483228799, 1500000000, by decide⟩).toInstant? =
      some ⟨1483228800, 500000000, by decide⟩ ∧
    (Wire.Timestamp.ofInstant ⟨30, 1500000000, by decide⟩).toInstant? =
      some ⟨31, 500000000, by decide⟩ := by
  decide

end KeyedStream
