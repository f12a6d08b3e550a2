import Mathlib
import KeyedStream.Proofs.Timestamp

/-!
# Instants of timestamps

Any pair of seconds and nanoseconds may be sent, the outermost ones included. What is carried and
borrowed leaves the total alone, unless the seconds run out, and then the total is far beyond the
calendar (`carry_cases`, `borrow_cases`, `normalize_cases`). So the instant of a timestamp is the one
with its total and nanoseconds within a second, if there is one (`toInstant?_eq_some_iff`), and
reading is exact on all pairs (`toInstant?_exact`).
-/

namespace KeyedStream

namespace Instant

/-- Where nanoseconds stay within a second, instants are ordered as their totals are. -/
theorem lt_iff_total_lt {i j : Instant} (hi : i.nanos < nanosPerSecond) (hj : j.nanos < nanosPerSecond) :
    i < j ↔ i.total < j.total := by
  change i.seconds < j.seconds ∨ i.seconds = j.seconds ∧ i.nanos < j.nanos ↔ _
  rw [nanosPerSecond] at hi hj
  rw [total, total, nanosPerSecond]
  omega

/-- Instants whose nanoseconds stay within a second are told apart by their totals. -/
theorem eq_iff_total_eq {i j : Instant} (hi : i.nanos < nanosPerSecond) (hj : j.nanos < nanosPerSecond) :
    i = j ↔ i.total = j.total := by
  constructor
  · exact congrArg total
  · intro h
    rw [nanosPerSecond] at hi hj
    rw [total, total, nanosPerSecond] at h
    rw [mk.injEq]
    omega

/-- A total has an instant with nanoseconds within a second just if the calendar reaches its whole
seconds. -/
theorem exists_of_total_iff {n : Int} :
    (∃ i : Instant, i.nanos < nanosPerSecond ∧ i.total = n) ↔
      firstSecond ≤ n / nanosPerSecond ∧ n / nanosPerSecond ≤ lastSecond := by
  constructor
  · rintro ⟨i, hnanos, rfl⟩
    obtain ⟨hlow, hhigh, -⟩ := i.isInstant
    have hseconds : i.total / nanosPerSecond = i.seconds := by
      rw [nanosPerSecond] at hnanos
      rw [total, nanosPerSecond]
      omega
    rw [hseconds]
    exact ⟨hlow, hhigh⟩
  · rintro ⟨hlow, hhigh⟩
    have hnanos : (n % nanosPerSecond).toNat < nanosPerSecond := by
      rw [nanosPerSecond]
      omega
    have hinstant : IsInstant (n / nanosPerSecond) (n % nanosPerSecond).toNat :=
      ⟨hlow, hhigh, by omega⟩
    refine ⟨⟨n / nanosPerSecond, (n % nanosPerSecond).toNat, hinstant⟩, hnanos, ?_⟩
    simp only [total, nanosPerSecond]
    omega

end Instant

namespace Wire.Timestamp

variable {t u : Timestamp}

/-! ## Carrying and borrowing -/

/-- A total before the calendar starts. -/
def Early (n : Int) : Prop := n < firstSecond * nanosPerSecond

/-- A total after the calendar ends. -/
def Late (n : Int) : Prop := (lastSecond + 1) * nanosPerSecond ≤ n

theorem seconds?_eq_some_iff {s : Int} {x : Int64} : seconds? s = some x ↔ x.toInt = s := by
  unfold seconds?
  constructor
  · intro h
    split at h
    · next hrange =>
      obtain rfl := Option.some.inj h
      exact Int64.toInt_ofInt_of_le hrange.1 (by omega)
    · cases h
  · rintro rfl
    have hlow := Int64.le_toInt x
    have hhigh := Int64.toInt_lt x
    rw [if_pos (by omega), Int64.ofInt_toInt]

theorem seconds?_eq_none_iff {s : Int} :
    seconds? s = none ↔ s < -9223372036854775808 ∨ 9223372036854775807 < s := by
  unfold seconds?
  split <;> simp <;> omega

/-- **Carrying whole seconds** leaves the total alone, unless they are too many. -/
theorem carry_cases (t : Timestamp) :
    (-nanosPerSecond < t.carry.nanos.toInt ∧ t.carry.nanos.toInt < nanosPerSecond ∧
        t.carry.total = t.total) ∨
      (t.carry = earliest ∧ Early t.total) ∨ (t.carry = latest ∧ Late t.total) := by
  have hlow := Int32.le_toInt t.nanos
  have hhigh := Int32.toInt_lt t.nanos
  have hparts := Int.mul_tdiv_add_tmod t.nanos.toInt 1000000000
  have hneg := Int.lt_tmod_of_pos t.nanos.toInt (b := 1000000000) (by omega)
  have hpos := Int.tmod_lt_of_pos t.nanos.toInt (b := 1000000000) (by omega)
  rw [carry]
  split
  · cases hs : seconds? (t.seconds.toInt + t.nanos.toInt.tdiv 1000000000) with
    | some s =>
      -- the seconds that are carried are taken off the nanoseconds
      have hseconds := seconds?_eq_some_iff.1 hs
      have hnanos : (Int32.ofInt (t.nanos.toInt.tmod 1000000000)).toInt =
          t.nanos.toInt.tmod 1000000000 := Int32.toInt_ofInt_of_le (by omega) (by omega)
      left
      simp only [total, hseconds, hnanos, nanosPerSecond]
      omega
    | none =>
      have hout := seconds?_eq_none_iff.1 hs
      have hslow := Int64.le_toInt t.seconds
      have hshigh := Int64.toInt_lt t.seconds
      right
      simp only [Early, Late, total, nanosPerSecond, firstSecond, lastSecond]
      split <;> simp <;> omega
  · left
    rw [nanosPerSecond]
    omega

/-- **Borrowing a second** for negative nanoseconds leaves the total alone, unless there is none. -/
theorem borrow_cases (hlow : -nanosPerSecond < t.nanos.toInt) (hhigh : t.nanos.toInt < nanosPerSecond) :
    (t.borrow.Normal ∧ t.borrow.total = t.total) ∨ (t.borrow = earliest ∧ Early t.total) := by
  rw [nanosPerSecond] at hlow hhigh
  rw [borrow]
  split
  · next hneg =>
    cases hs : seconds? (t.seconds.toInt - 1) with
    | some s =>
      have hseconds := seconds?_eq_some_iff.1 hs
      have hnanos : (Int32.ofInt (t.nanos.toInt + 1000000000)).toInt = t.nanos.toInt + 1000000000 :=
        Int32.toInt_ofInt_of_le (by omega) (by omega)
      left
      simp only [Normal, total, hseconds, hnanos, nanosPerSecond]
      omega
    | none =>
      have hout := seconds?_eq_none_iff.1 hs
      have hslow := Int64.le_toInt t.seconds
      have hshigh := Int64.toInt_lt t.seconds
      refine .inr ⟨rfl, ?_⟩
      simp only [Early, total, nanosPerSecond, firstSecond]
      omega
  · left
    rw [Normal, nanosPerSecond]
    omega

theorem normal_earliest : earliest.Normal := ⟨by decide, by decide⟩

theorem normal_latest : latest.Normal := ⟨by decide, by decide⟩

theorem borrow_of_normal (h : t.Normal) : t.borrow = t := by
  rw [borrow]
  exact if_neg (Int.not_lt.2 h.1)

/-- A timestamp is normalized to the normal one with its total, or, far off the calendar, to an
outermost one. -/
theorem normalize_cases (t : Timestamp) :
    (t.normalize.Normal ∧ t.normalize.total = t.total) ∨
      (t.normalize = earliest ∧ Early t.total) ∨ (t.normalize = latest ∧ Late t.total) := by
  rcases carry_cases t with ⟨hlow, hhigh, htotal⟩ | ⟨hcarry, hearly⟩ | ⟨hcarry, hlate⟩
  · rw [← htotal]
    rcases borrow_cases hlow hhigh with hexact | hearly
    · exact .inl hexact
    · exact .inr (.inl hearly)
  · refine .inr (.inl ⟨?_, hearly⟩)
    rw [normalize, hcarry, borrow_of_normal normal_earliest]
  · refine .inr (.inr ⟨?_, hlate⟩)
    rw [normalize, hcarry, borrow_of_normal normal_latest]

/-! ## Reading -/

theorem toInstant?_normalize (h : t.normalize.Normal) : t.normalize.toInstant? = t.toInstant? := by
  simp only [toInstant?, normalize_of_normal h]

theorem toInstant?_earliest : earliest.toInstant? = none := by decide

theorem toInstant?_latest : latest.toInstant? = none := by decide

/-- The instant of a normal timestamp has its total. -/
theorem toInstant?_eq_some_iff_of_normal (h : t.Normal) {i : Instant} :
    t.toInstant? = some i ↔ i.nanos < nanosPerSecond ∧ i.total = t.total := by
  obtain ⟨hlow, hhigh⟩ := h
  rw [nanosPerSecond] at hhigh
  rw [toInstant?_of_normal ⟨hlow, hhigh⟩]
  constructor
  · intro hi
    obtain ⟨hseconds, hnanos⟩ := Instant.parts_of_ofParts? hi
    simp only [Instant.total, total, nanosPerSecond, hseconds, hnanos]
    omega
  · rintro ⟨hnanos, htotal⟩
    obtain ⟨seconds, nanos, hinstant⟩ := i
    simp only [Instant.total, total, nanosPerSecond] at hnanos htotal
    obtain rfl : seconds = t.seconds.toInt := by omega
    obtain rfl : nanos = t.nanos.toInt.toNat := by omega
    exact Instant.ofParts?_of_lt hinstant hnanos

theorem not_early (i : Instant) : ¬ Early i.total := by
  have hlow := i.isInstant.1
  rw [Early, Instant.total, nanosPerSecond]
  omega

theorem not_late {i : Instant} (h : i.nanos < nanosPerSecond) : ¬ Late i.total := by
  have hhigh := i.isInstant.2.1
  rw [nanosPerSecond] at h
  rw [Late, Instant.total, nanosPerSecond]
  omega

/-- **A timestamp is read as the instant with its total** and nanoseconds within a second. -/
theorem toInstant?_eq_some_iff {i : Instant} :
    t.toInstant? = some i ↔ i.nanos < nanosPerSecond ∧ i.total = t.total := by
  rcases normalize_cases t with ⟨hnormal, htotal⟩ | ⟨hend, hearly⟩ | ⟨hend, hlate⟩
  · rw [← toInstant?_normalize hnormal, toInstant?_eq_some_iff_of_normal hnormal, htotal]
  · have hnone : t.toInstant? = none := by
      rw [← toInstant?_normalize (hend ▸ normal_earliest), hend, toInstant?_earliest]
    rw [hnone]
    constructor
    · intro h
      cases h
    · rintro ⟨-, htotal⟩
      exact absurd (htotal ▸ hearly) (not_early i)
  · have hnone : t.toInstant? = none := by
      rw [← toInstant?_normalize (hend ▸ normal_latest), hend, toInstant?_latest]
    rw [hnone]
    constructor
    · intro h
      cases h
    · rintro ⟨hnanos, htotal⟩
      exact absurd (htotal ▸ hlate) (not_late hnanos)

/-- The whole seconds of a timestamp, computed without bounds. -/
theorem floor_eq_total_div (t : Timestamp) :
    ⌊(t.seconds.toInt : ℚ) + t.nanos.toInt / 10 ^ 9⌋ = t.total / nanosPerSecond := by
  have hquotient : (t.seconds.toInt : ℚ) + t.nanos.toInt / 10 ^ 9 =
      (t.total : ℚ) / (nanosPerSecond : ℕ) := by
    rw [total, nanosPerSecond]
    push_cast
    ring
  rw [hquotient, Rat.floor_intCast_div_natCast]

/-- **Reading is exact on every pair of seconds and nanoseconds.** There is an instant just if the
calendar reaches the whole seconds of the pair, computed without bounds. It has nanoseconds within a
second and the total of the pair. So pairs are read as one instant just if they have one total, and
the order of instants is that of the totals. -/
theorem toInstant?_exact (t u : Timestamp) :
    ((∃ i, t.toInstant? = some i) ↔
      -8334601228800 ≤ ⌊(t.seconds.toInt : ℚ) + t.nanos.toInt / 10 ^ 9⌋ ∧
        ⌊(t.seconds.toInt : ℚ) + t.nanos.toInt / 10 ^ 9⌋ ≤ 8210266876799) ∧
    (∀ i, t.toInstant? = some i → i.nanos < 10 ^ 9 ∧
      i.seconds * 10 ^ 9 + i.nanos = t.seconds.toInt * 10 ^ 9 + t.nanos.toInt) ∧
    ∀ i j, t.toInstant? = some i → u.toInstant? = some j →
      (i = j ↔ t.seconds.toInt * 10 ^ 9 + t.nanos.toInt = u.seconds.toInt * 10 ^ 9 + u.nanos.toInt) ∧
      (i < j ↔ t.seconds.toInt * 10 ^ 9 + t.nanos.toInt < u.seconds.toInt * 10 ^ 9 + u.nanos.toInt) := by
  refine ⟨?_, fun i hi => ?_, fun i j hi hj => ?_⟩
  · rw [floor_eq_total_div]
    simp only [toInstant?_eq_some_iff]
    exact Instant.exists_of_total_iff
  · exact toInstant?_eq_some_iff.1 hi
  · obtain ⟨hnanos, htotal⟩ := toInstant?_eq_some_iff.1 hi
    obtain ⟨hnanos', htotal'⟩ := toInstant?_eq_some_iff.1 hj
    rw [Instant.eq_iff_total_eq hnanos hnanos', Instant.lt_iff_total_lt hnanos hnanos', htotal, htotal']
    exact ⟨.rfl, .rfl⟩

/-- Nanoseconds that run over reach the last second of the calendar, and one second on they leave
it. -/
example : (toInstant? ⟨8210266876797, 2147483647⟩).map (·.nanos) = some 147483647 ∧
    toInstant? ⟨8210266876798, 2147483647⟩ = none := by
  decide

end Wire.Timestamp

end KeyedStream
