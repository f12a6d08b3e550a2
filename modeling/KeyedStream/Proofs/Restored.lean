import Mathlib
import KeyedStream.Proofs.Scalar

/-!
# Scalars restored

A scalar is stored unless it is a word-sized integer that outgrows the configured width, and what is
read from its stored form is the scalar itself, bit for bit, with two exceptions
(`ScalarType.encode_decode_restored`). A floating-point zero is left out of the message whichever its
sign, and the zero that stands in for it is the positive one; and a leap second comes back as the
second that follows, which the calendar has unless it ends there.
-/

namespace KeyedStream

open Proto

/-! ## Zeros -/

/-- A zero is a sign, and nothing else. -/
theorem BinaryFormat.isZero_iff {f : BinaryFormat} {bits : Nat}
    (h : bits < 2 ^ (f.fraction + f.exponent + 1)) :
    f.isZero bits = true ↔ bits = 0 ∨ bits = 2 ^ (f.fraction + f.exponent) := by
  -- the exponent field and the fraction together are what the sign leaves
  have hfields : bits % 2 ^ (f.fraction + f.exponent) =
      f.fractionField bits + 2 ^ f.fraction * f.exponentField bits := by
    rw [fractionField, exponentField, Nat.shiftRight_eq_div_pow, Nat.one_shiftLeft,
      Nat.one_shiftLeft, Nat.pow_add, Nat.mod_mul]
  have hmod : f.isZero bits = true ↔ bits % 2 ^ (f.fraction + f.exponent) = 0 := by
    have hpos : 2 ^ f.fraction ≠ 0 := (Nat.two_pow_pos _).ne'
    rw [hfields, Nat.add_eq_zero_iff, Nat.mul_eq_zero, isZero, Bool.and_eq_true,
      decide_eq_true_eq, decide_eq_true_eq, and_comm]
    simp only [hpos, false_or]
  rw [hmod, ← Nat.dvd_iff_mod_eq_zero]
  rw [Nat.pow_succ] at h
  constructor
  · rintro ⟨q, rfl⟩
    have hq : q < 2 := Nat.lt_of_mul_lt_mul_left h
    rcases (by omega : q = 0 ∨ q = 1) with rfl | rfl
    · exact .inl (Nat.mul_zero _)
    · exact .inr (Nat.mul_one _)
  · rintro (rfl | rfl)
    · exact Nat.dvd_zero _
    · exact Nat.dvd_refl _

theorem Binary32.isZero_iff {x : Binary32} : x.isZero = true ↔ x = ⟨0⟩ ∨ x = ⟨0x80000000⟩ := by
  obtain ⟨bits⟩ := x
  rw [isZero, BinaryFormat.isZero_iff (UInt32.toNat_lt bits), mk.injEq, mk.injEq,
    ← UInt32.toNat_inj, ← UInt32.toNat_inj]
  exact Iff.rfl

theorem Binary64.isZero_iff {x : Binary64} :
    x.isZero = true ↔ x = ⟨0⟩ ∨ x = ⟨0x8000000000000000⟩ := by
  obtain ⟨bits⟩ := x
  rw [isZero, BinaryFormat.isZero_iff (UInt64.toNat_lt bits), mk.injEq, mk.injEq,
    ← UInt64.toNat_inj, ← UInt64.toNat_inj]
  exact Iff.rfl

/-- The number that is read for one that was stored. -/
def Binary32.restored (x : Binary32) : Binary32 := if x = ⟨0x80000000⟩ then ⟨0⟩ else x

/-- The number that is read for one that was stored. -/
def Binary64.restored (x : Binary64) : Binary64 := if x = ⟨0x8000000000000000⟩ then ⟨0⟩ else x

namespace Wrapper

/-- A stored number is read as itself, unless it is the negative zero. -/
theorem decode_encode_fixed {β : Type} [DecidableEq β] {zero negative : β} {w : WireType}
    {width : Nat} {omitted : β → Bool} {toNat : β → Nat} {ofNat : Nat → β}
    (hlt : ∀ v, toNat v < 256 ^ width) (hback : ∀ v, ofNat (toNat v) = v)
    (hzero : ∀ v, omitted v = true ↔ v = zero ∨ v = negative) (v : β) :
    (of zero (.fixed w width omitted toNat ofNat)).decode
      ((of zero (.fixed w width omitted toNat ofNat)).encode v) =
        .ok (if v = negative then zero else v) := by
  rw [decode_encode_of (Shape.readsBack_fixed (hlt v) (hback v))]
  by_cases hnegative : v = negative
  · rw [if_pos ((hzero v).2 (.inr hnegative)), if_pos hnegative]
  · rw [if_neg hnegative]
    split
    · next h => rw [((hzero v).1 h).resolve_right hnegative]
    · rfl

theorem float_decode_encode (v : Binary32) : float.decode (float.encode v) = .ok v.restored :=
  decode_encode_fixed (fun v => UInt32.toNat_lt v.bits) (fun v => by simp)
    (fun _ => Binary32.isZero_iff) v

theorem double_decode_encode (v : Binary64) : double.decode (double.encode v) = .ok v.restored :=
  decode_encode_fixed (fun v => UInt64.toNat_lt v.bits) (fun v => by simp)
    (fun _ => Binary64.isZero_iff) v

end Wrapper

namespace ScalarValue

theorem ofTimestamp_of_none {t : Wire.Timestamp} (h : t.toInstant? = none) :
    ofTimestamp t = .error .invalidTimestamp := by
  unfold ofTimestamp
  simp only [h]

theorem ofTimestamp_of_some {t : Wire.Timestamp} {v : Instant} (h : t.toInstant? = some v) :
    ofTimestamp t = .ok (timestamp v) := by
  unfold ofTimestamp
  simp only [h]

end ScalarValue

namespace ScalarType

/-! ## Integers that outgrow the width -/

/-- The number that a word-sized integer stands for. -/
def wordValue : (t : ScalarType) → t.Carrier → Int
  | int, v => Int64.toInt v
  | uint, v => UInt64.toNat v
  | _, _ => 0

/-- Whether a value is a word-sized integer that does not fit the width. -/
def Outgrows : (t : ScalarType) → IntWidth → t.Carrier → Prop
  | int, .w32, v => Int64.toInt v < -2147483648 ∨ 2147483647 < Int64.toInt v
  | uint, .w32, v => 4294967295 < UInt64.toNat v
  | _, _, _ => False

theorem encode_of_outgrows {t : ScalarType} {width : IntWidth} {v : t.Carrier}
    (h : t.Outgrows width v) : t.encode width v = .error (.outgrown t (t.wordValue v)) := by
  cases t with
  | int =>
    cases width with
    | w32 =>
      have hout : ¬ (-2147483648 ≤ Int64.toInt v ∧ Int64.toInt v ≤ 2147483647) := by
        rw [Outgrows] at h
        omega
      simp only [encode, toScalar, intToScalar, if_neg hout]
      rfl
    | w64 => exact h.elim
  | uint =>
    cases width with
    | w32 =>
      have hout : ¬ UInt64.toNat v ≤ 4294967295 := Nat.not_le.2 h
      simp only [encode, toScalar, uintToScalar, if_neg hout]
      rfl
    | w64 => exact h.elim
  | _ => exact h.elim

theorem exists_encode {t : ScalarType} {width : IntWidth} {v : t.Carrier}
    (h : ¬ t.Outgrows width v) : ∃ bytes, t.encode width v = .ok bytes := by
  cases t with
  | int =>
    cases width with
    | w32 =>
      have hin : -2147483648 ≤ Int64.toInt v ∧ Int64.toInt v ≤ 2147483647 := by
        rw [Outgrows] at h
        omega
      simp only [encode, toScalar, intToScalar, if_pos hin]
      exact ⟨_, rfl⟩
    | w64 => exact ⟨_, rfl⟩
  | uint =>
    cases width with
    | w32 =>
      have hin : UInt64.toNat v ≤ 4294967295 := Nat.not_lt.1 h
      simp only [encode, toScalar, uintToScalar, if_pos hin]
      exact ⟨_, rfl⟩
    | w64 => exact ⟨_, rfl⟩
  | _ => exact ⟨_, rfl⟩

/-! ## Reading back -/

/-- Whether a value can be held: the bytes of a text are counted in a word. -/
def FitsMemory : (t : ScalarType) → t.Carrier → Prop
  | string, v => (Bytes.ofText v).length < 2 ^ 64
  | _, _ => True

/-- What is read for a value that was stored. -/
def restored : (t : ScalarType) → t.Carrier → Except CodecError t.Carrier
  | float32, v => .ok (Binary32.restored v)
  | float64, v => .ok (Binary64.restored v)
  | instant, (v : Instant) =>
    match Wire.Timestamp.received? v with
    | some u => .ok u
    | none => .error .invalidTimestamp
  | _, v => .ok v

theorem decode_instant {width : IntWidth} (v : Instant) :
    instant.decode width (ScalarValue.timestamp v).encode = instant.restored v := by
  have hread : ScalarValue.decode .timestamp (ScalarValue.timestamp v).encode =
      ScalarValue.ofTimestamp (.ofInstant v) :=
    read_of_decode (Wire.Timestamp.decode_encode (.ofInstant v))
  have hsent := Wire.Timestamp.toInstant?_ofInstant v
  cases hreceived : Wire.Timestamp.received? v with
  | none =>
    have hnone := ScalarValue.ofTimestamp_of_none (hsent.trans hreceived)
    have hrestored : instant.restored v = .error .invalidTimestamp := by
      simp only [restored, hreceived]
    exact (congrArg (· >>= instant.fromScalar width) (hread.trans hnone)).trans hrestored.symm
  | some u =>
    have hsome := ScalarValue.ofTimestamp_of_some (hsent.trans hreceived)
    have hrestored : instant.restored v = .ok u := by
      simp only [restored, hreceived]
    exact (congrArg (· >>= instant.fromScalar width) (hread.trans hsome)).trans hrestored.symm

/-- What is stored is restored. -/
theorem decode_restored {t : ScalarType} {width : IntWidth} {v : t.Carrier} {bytes : Bytes}
    (hfits : t.FitsMemory v) (h : t.encode width v = .ok bytes) :
    t.decode width bytes = t.restored v := by
  cases t with
  | float32 =>
    cases h
    have hread := Wrapper.float_decode_encode v
    exact congrArg (· >>= float32.fromScalar width) (read_of_decode hread)
  | float64 =>
    cases h
    have hread := Wrapper.double_decode_encode v
    exact congrArg (· >>= float64.fromScalar width) (read_of_decode hread)
  | string =>
    cases h
    have hread := Wrapper.decode_encode_of (Shape.readsBack_text hfits)
    exact congrArg (· >>= string.fromScalar width) (read_of_decode hread)
  | instant =>
    cases h
    exact decode_instant v
  | _ => exact decode_encode (by decide) h

/-- **A scalar is stored unless it outgrows the width, and restored from what is stored.** -/
theorem encode_decode_restored (t : ScalarType) (width : IntWidth) (v : t.Carrier)
    (hfits : t.FitsMemory v) :
    (t.Outgrows width v → t.encode width v = .error (.outgrown t (t.wordValue v))) ∧
    (¬ t.Outgrows width v →
      ∃ bytes, t.encode width v = .ok bytes ∧ t.decode width bytes = t.restored v) := by
  refine ⟨encode_of_outgrows, fun h => ?_⟩
  obtain ⟨bytes, hbytes⟩ := exists_encode h
  exact ⟨bytes, hbytes, decode_restored hfits hbytes⟩

/-- The middle of a leap second at the end of the calendar. -/
def lastLeap : Instant := ⟨lastSecond, 1500000000, by decide⟩

theorem encode_decode_restored_sample :
    (string.FitsMemory "é" ∧ ∃ bytes,
      string.encode .w64 "é" = .ok bytes ∧ string.decode .w64 bytes = .ok "é") ∧
    (instant.FitsMemory lastLeap ∧ ∃ bytes,
      instant.encode .w64 lastLeap = .ok bytes ∧
        instant.decode .w64 bytes = .error .invalidTimestamp) := by
  have htext : (Bytes.ofText "é").length < 2 ^ 64 := by decide
  have hrestored : instant.restored lastLeap = .error .invalidTimestamp := rfl
  refine ⟨⟨htext, (encode_decode_restored string .w64 "é" htext).2 id⟩, trivial, ?_⟩
  rw [← hrestored]
  exact (encode_decode_restored instant .w64 lastLeap trivial).2 id

end ScalarType

end KeyedStream
