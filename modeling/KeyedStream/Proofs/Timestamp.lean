import Mathlib
import KeyedStream.Wire.Timestamp
import KeyedStream.Proofs.Layout

/-!
# Timestamps of instants

The timestamp of an instant has the total of the instant and nanoseconds within a second, and these
two determine it. So two instants have one timestamp just if they have one total
(`ofInstant_eq_iff`), which a leap second has in common with the second that follows.
-/

namespace KeyedStream.Wire.Timestamp

open KeyedStream.Proto

/-- Whether the nanoseconds lie within a second. -/
def Normal (t : Timestamp) : Prop := 0 ≤ t.nanos.toInt ∧ t.nanos.toInt < nanosPerSecond

/-- A normal timestamp is determined by its total. -/
theorem eq_of_total_eq {t u : Timestamp} (ht : t.Normal) (hu : u.Normal) (h : t.total = u.total) :
    t = u := by
  obtain ⟨s, n⟩ := t
  obtain ⟨s', n'⟩ := u
  simp only [Normal, total, nanosPerSecond] at ht hu h
  have hs : s.toInt = s'.toInt := by omega
  have hn : n.toInt = n'.toInt := by omega
  rw [Int64.toInt_inj.1 hs, Int32.toInt_inj.1 hn]

theorem toInt_seconds {s : Int} (hlow : firstSecond ≤ s) (hhigh : s ≤ lastSecond + 1) :
    (Int64.ofInt s).toInt = s := by
  rw [firstSecond] at hlow
  rw [lastSecond] at hhigh
  exact Int64.toInt_ofInt_of_le (by omega) (by omega)

theorem toInt_nanos {n : Int} (hlow : 0 ≤ n) (hhigh : n < 2 * nanosPerSecond) :
    (Int32.ofInt n).toInt = n := by
  rw [nanosPerSecond] at hhigh
  exact Int32.toInt_ofInt_of_le (by omega) (by omega)

/-- The timestamp of an instant has its parts, or those of the second that follows. -/
theorem ofInstant_eq (t : Instant) :
    ofInstant t =
      if t.isLeap then ⟨Int64.ofInt (t.seconds + 1), Int32.ofInt (t.nanos - nanosPerSecond)⟩
      else ⟨Int64.ofInt t.seconds, Int32.ofInt t.nanos⟩ := by
  obtain ⟨s, n, hlow, hhigh, hnanos⟩ := t
  have hn : (n : Int) < 2 * nanosPerSecond := by
    rw [nanosPerSecond] at hnanos ⊢
    omega
  have hs : (Int64.ofInt s).toInt = s := toInt_seconds hlow (by omega)
  have hns : (Int32.ofInt n).toInt = n := toInt_nanos (by omega) hn
  rw [nanosPerSecond] at hn
  simp only [ofInstant, normalize, carry, hs, hns, Instant.isLeap, nanosPerSecond]
  by_cases hleap : 1000000000 ≤ n
  · have hover : (n : Int) ≤ -1000000000 ∨ (1000000000 : Int) ≤ n := by omega
    have hdiv : (n : Int).tdiv 1000000000 = 1 := by
      rw [Int.tdiv_eq_ediv_of_nonneg (by omega)]
      omega
    have hmod : (n : Int).tmod 1000000000 = n - 1000000000 := by
      rw [Int.tmod_eq_emod_of_nonneg (by omega)]
      omega
    have hfits : seconds? (s + 1) = some (Int64.ofInt (s + 1)) := by
      rw [firstSecond] at hlow
      rw [lastSecond] at hhigh
      exact if_pos (by omega)
    have hrest : (Int32.ofInt ((n : Int) - 1000000000)).toInt = n - 1000000000 :=
      toInt_nanos (by omega) (by rw [nanosPerSecond]; omega)
    have hpos : ¬ (n : Int) - 1000000000 < 0 := by omega
    simp only [hover, if_true, hdiv, hmod, hfits, borrow, hrest, hpos, if_false]
    exact (if_pos (decide_eq_true hleap)).symm
  · have hwithin : ¬ ((n : Int) ≤ -1000000000 ∨ (1000000000 : Int) ≤ n) := by omega
    have hpos : ¬ (n : Int) < 0 := by omega
    simp only [hwithin, if_false, borrow, hns, hpos]
    exact (if_neg fun h => hleap (of_decide_eq_true h)).symm

/-- An instant that is no leap second is sent with its parts. -/
theorem parts_ofInstant_of_lt {t : Instant} (h : t.nanos < nanosPerSecond) :
    (ofInstant t).seconds.toInt = t.seconds ∧ (ofInstant t).nanos.toInt = t.nanos := by
  obtain ⟨hlow, hhigh, -⟩ := t.isInstant
  have hleap : ¬ t.isLeap = true := by simpa [Instant.isLeap] using h
  rw [ofInstant_eq, if_neg hleap]
  exact ⟨toInt_seconds hlow (by omega), toInt_nanos (by omega) (by omega)⟩

/-- A leap second is sent with the parts of the second that follows. -/
theorem parts_ofInstant_of_leap {t : Instant} (h : nanosPerSecond ≤ t.nanos) :
    (ofInstant t).seconds.toInt = t.seconds + 1 ∧
      (ofInstant t).nanos.toInt = t.nanos - nanosPerSecond := by
  obtain ⟨hlow, hhigh, hnanos⟩ := t.isInstant
  have hleap : t.isLeap = true := decide_eq_true h
  rw [ofInstant_eq, if_pos hleap]
  exact ⟨toInt_seconds (by omega) (by omega), toInt_nanos (by omega) (by omega)⟩

theorem normal_ofInstant (t : Instant) : (ofInstant t).Normal := by
  obtain ⟨-, -, hnanos⟩ := t.isInstant
  rw [Normal]
  rcases Nat.lt_or_ge t.nanos nanosPerSecond with hlt | hleap
  · obtain ⟨-, hn⟩ := parts_ofInstant_of_lt hlt
    omega
  · obtain ⟨-, hn⟩ := parts_ofInstant_of_leap hleap
    omega

theorem total_ofInstant (t : Instant) : (ofInstant t).total = t.total := by
  rw [total, Instant.total]
  rcases Nat.lt_or_ge t.nanos nanosPerSecond with hlt | hleap
  · obtain ⟨hs, hn⟩ := parts_ofInstant_of_lt hlt
    rw [hs, hn]
  · obtain ⟨hs, hn⟩ := parts_ofInstant_of_leap hleap
    rw [hs, hn, nanosPerSecond]
    omega

/-- **Instants are told apart by their totals alone** once they are sent. -/
theorem ofInstant_eq_iff {t u : Instant} : ofInstant t = ofInstant u ↔ t.total = u.total := by
  constructor
  · intro h
    rw [← total_ofInstant t, h, total_ofInstant u]
  · intro h
    exact eq_of_total_eq (normal_ofInstant t) (normal_ofInstant u)
      (by rw [total_ofInstant, total_ofInstant, h])

/-! ## Instants of timestamps -/

theorem normalize_of_normal {t : Timestamp} (h : t.Normal) : t.normalize = t := by
  obtain ⟨hlow, hhigh⟩ := h
  rw [nanosPerSecond] at hhigh
  have hwithin : ¬ (t.nanos.toInt ≤ -1000000000 ∨ 1000000000 ≤ t.nanos.toInt) := by omega
  have hpos : ¬ t.nanos.toInt < 0 := by omega
  simp only [normalize, carry, hwithin, if_false, borrow, hpos]

/-- The instant of a normal timestamp has its parts, if the calendar reaches them. -/
theorem toInstant?_of_normal {t : Timestamp} (h : t.Normal) :
    t.toInstant? = Instant.ofParts? t.seconds.toInt t.nanos.toInt.toNat := by
  have hpos : ¬ t.nanos.toInt < 0 := Int.not_lt.2 h.1
  simp only [toInstant?, normalize_of_normal h, hpos, if_false]

/-- The second that follows a leap second is on the calendar, unless the calendar ends there. -/
theorem isInstant_following {t : Instant} (hleap : nanosPerSecond ≤ t.nanos)
    (hlast : t.seconds ≠ lastSecond) : IsInstant (t.seconds + 1) (t.nanos - nanosPerSecond) := by
  obtain ⟨hlow, hhigh, hnanos⟩ := t.isInstant
  exact ⟨by omega, by omega, by omega⟩

/-- The instant that is read for one that was sent. A leap second is read as the second that
follows, and not at all where the calendar ends. -/
def received? (t : Instant) : Option Instant :=
  if hleap : nanosPerSecond ≤ t.nanos then
    if hlast : t.seconds = lastSecond then none
    else some ⟨t.seconds + 1, t.nanos - nanosPerSecond, isInstant_following hleap hlast⟩
  else some t

/-- **Every instant but a leap second comes back as it was sent.** -/
theorem toInstant?_ofInstant (t : Instant) : (ofInstant t).toInstant? = received? t := by
  rw [toInstant?_of_normal (normal_ofInstant t), received?]
  by_cases hleap : nanosPerSecond ≤ t.nanos
  · obtain ⟨hs, hn⟩ := parts_ofInstant_of_leap hleap
    obtain ⟨-, -, hnanos⟩ := t.isInstant
    rw [dif_pos hleap, hs, hn, ← Int.ofNat_sub hleap, Int.toNat_natCast]
    by_cases hlast : t.seconds = lastSecond
    · rw [dif_pos hlast, Instant.ofParts?_of_not fun h => ?_]
      have hreach := h.2.1
      omega
    · rw [dif_neg hlast, Instant.ofParts?_of_lt (isInstant_following hleap hlast) (by omega)]
  · have hlt := Nat.lt_of_not_le hleap
    obtain ⟨hs, hn⟩ := parts_ofInstant_of_lt hlt
    rw [dif_neg hleap, hs, hn, Int.toNat_natCast, Instant.ofParts?_of_lt t.isInstant hlt]

/-! ## The message -/

theorem decode_encode (t : Timestamp) : layout.decode (layout.encode t) = .ok t := by
  have hseconds : layout.Reads Layout.recursionBudget empty
      ((Field.single 1 (some "seconds") .int64 (·.seconds) fun m v => { m with seconds := v }).write t)
      { empty with seconds := t.seconds } :=
    Layout.reads_single (by decide) (by decide) rfl rfl (Shape.readsBack_int64 t.seconds)
  have hnanos : layout.Reads Layout.recursionBudget { empty with seconds := t.seconds }
      ((Field.single 2 (some "nanos") .int32 (·.nanos) fun m v => { m with nanos := v }).write t) t :=
    Layout.reads_single (by decide) (by decide) rfl rfl (Shape.readsBack_int32 t.nanos)
  have hall := Layout.decode_of_reads (hseconds.append hnanos)
  rw [← hall]
  simp [Layout.encode, layout]

end KeyedStream.Wire.Timestamp
