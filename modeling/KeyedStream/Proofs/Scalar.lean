import Mathlib
import KeyedStream.Proofs.Pairing
import KeyedStream.Proofs.Timestamp
import KeyedStream.Scalar.Value

/-!
# Scalars and their stored forms

Two values of a type have one stored form just if they are alike (`ScalarType.encode_eq_iff`), and
for most types that is to be equal: only floating-point zeros and instants in leap seconds have
others like them. In the other types a stored form is read as the value that was stored, if it is
read at all (`ScalarType.eq_of_decode`).
-/

namespace KeyedStream

open Proto

/-! ## Wrappers -/

namespace Wrapper

variable {β : Type} {empty : β} {shape : Shape β}

theorem encode_of (v : β) : (of empty shape).encode v = shape.write 1 v := by
  simp [Layout.encode, of, Field.single]

theorem decode_encode_of {v v' : β} (h : shape.ReadsBack empty v v') :
    (of empty shape).decode ((of empty shape).encode v) = .ok v' := by
  have hread : (of empty shape).Reads Layout.recursionBudget empty
      ((Field.single 1 none shape id fun _ v => v).write v) v' :=
    Layout.reads_single (by decide) (by decide) rfl rfl h
  have hall := Layout.decode_of_reads hread
  rw [encode_of]
  exact hall

/-- Values have stored forms of their own, but those that are left out have one together. -/
theorem encode_fixed_inj {w : WireType} {width : Nat} {omitted : β → Bool} {toNat : β → Nat}
    {ofNat : Nat → β} (hlt : ∀ v, toNat v < 256 ^ width) (hback : ∀ v, ofNat (toNat v) = v)
    (hempty : omitted empty = true) {a b : β} :
    (of empty (.fixed w width omitted toNat ofNat)).encode a =
        (of empty (.fixed w width omitted toNat ofNat)).encode b ↔
      a = b ∨ omitted a = true ∧ omitted b = true := by
  constructor
  · intro h
    have hread : ∀ v, (of empty (.fixed w width omitted toNat ofNat)).decode
        ((of empty (.fixed w width omitted toNat ofNat)).encode v) =
          .ok (if omitted v then empty else v) :=
      fun v => decode_encode_of (Shape.readsBack_fixed (hlt v) (hback v))
    have ha := hread a
    rw [h, hread b] at ha
    have hsame := Except.ok.inj ha
    by_cases hza : omitted a = true <;> by_cases hzb : omitted b = true
    · exact .inr ⟨hza, hzb⟩
    · rw [if_neg hzb, if_pos hza] at hsame
      rw [hsame] at hzb
      exact absurd hempty hzb
    · rw [if_pos hzb, if_neg hza] at hsame
      rw [← hsame] at hza
      exact absurd hempty hza
    · rw [if_neg hzb, if_neg hza] at hsame
      exact .inl hsame.symm
  · rintro (rfl | ⟨hza, hzb⟩)
    · rfl
    · rw [encode_of, encode_of]
      simp [Shape.fixed, hza, hzb]

theorem string_encode_inj {a b : String} : string.encode a = string.encode b ↔ a = b := by
  constructor
  · intro h
    rw [string, encode_of, encode_of] at h
    simp only [Shape.text, Shape.bytes] at h
    have htext : Bytes.ofText a = Bytes.ofText b := by
      split at h <;> split at h
      · next ha hb => rw [List.isEmpty_iff.1 ha, List.isEmpty_iff.1 hb]
      · exact absurd h.symm (delimited_ne_nil _ _)
      · exact absurd h (delimited_ne_nil _ _)
      · exact delimited_inj.1 h
    have ha := Bytes.toText?_ofText a
    rw [htext, Bytes.toText?_ofText b] at ha
    exact (Option.some.inj ha).symm
  · rintro rfl
    rfl

/-- A text is read as itself, if its length can be written, and else it is not read at all. -/
theorem string_eq_of_decode {a b : String} (h : string.decode (string.encode a) = .ok b) : b = a := by
  by_cases hlen : (Bytes.ofText a).length < 2 ^ 64
  · rw [string, decode_encode_of (Shape.readsBack_text hlen)] at h
    exact (Except.ok.inj h).symm
  · have hsome : (Bytes.ofText a).isEmpty = false := by
      rw [List.isEmpty_eq_false_iff, ← List.length_pos_iff]
      omega
    have hwrite : string.encode a = encodeKey 1 .lengthDelimited ++
        (Varint.encode (Bytes.ofText a).length ++ Bytes.ofText a) := by
      rw [string, encode_of, ← List.append_assoc]
      simp only [Shape.text, Shape.bytes, hsome, Bool.false_eq_true, if_false, delimited]
    -- the length is cut off, so the one field of the message cannot be read
    have hfield : string.mergeField Layout.recursionBudget "" (string.encode a) =
        fail .invalidVarint := by
      have hkey := decodeKey_encodeKey Nat.one_ne_zero (by decide) .lengthDelimited
        (Varint.encode (Bytes.ofText a).length ++ Bytes.ofText a)
      have hvarint := Varint.decode_encode_of_le (Nat.le_of_not_lt hlen) (Bytes.ofText a)
      rw [hwrite]
      simp only [Layout.mergeField, hkey, bind, Except.bind]
      simp [string, of, Layout.field?, Field.single, Shape.text, takeDelimited, hvarint, fail, bind,
        Except.bind]
    have hpos : ¬ (string.encode a).length ≤ 0 := by
      rw [hwrite, List.length_append]
      have := List.length_pos_iff.2 (encodeKey_ne_nil 1 .lengthDelimited)
      omega
    obtain ⟨fuel, hfuel⟩ : ∃ k, (string.encode a).length = k + 1 :=
      ⟨(string.encode a).length - 1, by omega⟩
    have hnone : string.decode (string.encode a) = fail .invalidVarint := by
      rw [Layout.decode, hfuel, Layout.mergeUntil, if_neg hpos]
      rw [show string.empty = "" from rfl, hfield]
      rfl
    rw [hnone] at h
    cases h

theorem timestamp_encode_inj {a b : Wire.Timestamp} :
    timestamp.encode a = timestamp.encode b ↔ a = b := by
  constructor
  · intro h
    have ha := Wire.Timestamp.decode_encode a
    have hb := Wire.Timestamp.decode_encode b
    rw [timestamp] at h
    rw [h, hb] at ha
    exact (Except.ok.inj ha).symm
  · rintro rfl
    rfl

end Wrapper

/-! ## Types -/

namespace ScalarType

theorem encode_eq_ok_iff {t : ScalarType} {width : IntWidth} {v : t.Carrier} {x : Bytes} :
    t.encode width v = .ok x ↔ ∃ s, t.toScalar width v = .ok s ∧ s.encode = x := by
  rw [encode]
  simp only [bind_eq_ok_iff, pure_eq_ok_iff]

/-- A signed integer that fits 32 bits is determined by them. -/
theorem intToScalar_w32 {v : Int64} {s : ScalarValue} (h : intToScalar .w32 v = .ok s) :
    s = .int32 v.toInt32 ∧ v.toInt32.toInt64 = v := by
  rw [intToScalar] at h
  split at h
  · next hrange =>
    cases h
    refine ⟨rfl, Int64.toInt_inj.1 ?_⟩
    rw [Int32.toInt_toInt64, Int64.toInt_toInt32]
    exact Int.bmod_eq_of_le (by omega) (by omega)
  · cases h

/-- An unsigned integer that fits 32 bits is determined by them. -/
theorem uintToScalar_w32 {v : UInt64} {s : ScalarValue} (h : uintToScalar .w32 v = .ok s) :
    s = .uint32 v.toUInt32 ∧ v.toUInt32.toUInt64 = v := by
  rw [uintToScalar] at h
  split at h
  · next hrange =>
    cases h
    refine ⟨rfl, UInt64.toNat_inj.1 ?_⟩
    rw [UInt32.toNat_toUInt64, UInt64.toNat_toUInt32]
    omega
  · cases h

/-! ## Reading back -/

/-- An empty row is read as the value that stands for none. -/
theorem decode_nil (t : ScalarType) (width : IntWidth) : t.decode width [] = .ok t.zero := by
  cases t with
  | int => cases width <;> rfl
  | uint => cases width <;> rfl
  | _ => rfl

theorem read_of_decode {β : Type} {kind : ScalarKind} {layout : Layout β}
    {wrap : β → Except CodecError ScalarValue} {bytes : Bytes} {v : β}
    (h : layout.decode bytes = .ok v) : ScalarValue.read kind layout wrap bytes = wrap v := by
  rw [ScalarValue.read, h]

theorem decode_intToScalar {width : IntWidth} {v : Int64} {s : ScalarValue}
    (hs : intToScalar width v = .ok s) : int.decode width s.encode = .ok v := by
  cases width with
  | w32 =>
    obtain ⟨rfl, hback⟩ := intToScalar_w32 hs
    have hread := Wrapper.decode_encode_of (Shape.readsBack_int32 v.toInt32)
    refine (congrArg (· >>= int.fromScalar .w32) (read_of_decode hread)).trans ?_
    exact congrArg Except.ok hback
  | w64 =>
    cases hs
    have hread := Wrapper.decode_encode_of (Shape.readsBack_int64 v)
    exact congrArg (· >>= int.fromScalar .w64) (read_of_decode hread)

theorem decode_uintToScalar {width : IntWidth} {v : UInt64} {s : ScalarValue}
    (hs : uintToScalar width v = .ok s) : uint.decode width s.encode = .ok v := by
  cases width with
  | w32 =>
    obtain ⟨rfl, hback⟩ := uintToScalar_w32 hs
    have hread := Wrapper.decode_encode_of (Shape.readsBack_uint32 v.toUInt32)
    refine (congrArg (· >>= uint.fromScalar .w32) (read_of_decode hread)).trans ?_
    exact congrArg Except.ok hback
  | w64 =>
    cases hs
    have hread := Wrapper.decode_encode_of (Shape.readsBack_uint64 v)
    exact congrArg (· >>= uint.fromScalar .w64) (read_of_decode hread)

/-- Values of most types are read back. -/
theorem decode_encode {t : ScalarType} (ht : t ∉ [.float32, .float64, .instant, .string])
    {width : IntWidth} {v : t.Carrier} {bytes : Bytes} (h : t.encode width v = .ok bytes) :
    t.decode width bytes = .ok v := by
  obtain ⟨s, hs, rfl⟩ := encode_eq_ok_iff.1 h
  cases t with
  | int32 =>
    cases hs
    have hread := Wrapper.decode_encode_of (Shape.readsBack_int32 v)
    exact congrArg (· >>= int32.fromScalar width) (read_of_decode hread)
  | int64 =>
    cases hs
    have hread := Wrapper.decode_encode_of (Shape.readsBack_int64 v)
    exact congrArg (· >>= int64.fromScalar width) (read_of_decode hread)
  | int => exact decode_intToScalar hs
  | uint32 =>
    cases hs
    have hread := Wrapper.decode_encode_of (Shape.readsBack_uint32 v)
    exact congrArg (· >>= uint32.fromScalar width) (read_of_decode hread)
  | uint64 =>
    cases hs
    have hread := Wrapper.decode_encode_of (Shape.readsBack_uint64 v)
    exact congrArg (· >>= uint64.fromScalar width) (read_of_decode hread)
  | uint => exact decode_uintToScalar hs
  | bool =>
    cases hs
    have hread := Wrapper.decode_encode_of (Shape.readsBack_bool v)
    exact congrArg (· >>= bool.fromScalar width) (read_of_decode hread)
  | float32 => simp at ht
  | float64 => simp at ht
  | instant => simp at ht
  | string => simp at ht

/-- **What is read from a stored form is what was stored**, but for types in which values may be
alike. -/
theorem eq_of_decode {t : ScalarType} (ht : t ∉ [.float32, .float64, .instant]) {width : IntWidth}
    {a b : t.Carrier} {bytes : Bytes} (hencode : t.encode width a = .ok bytes)
    (hdecode : t.decode width bytes = .ok b) : b = a := by
  by_cases hstring : t = .string
  · subst hstring
    cases hencode
    cases hread : Wrapper.string.decode (Wrapper.string.encode a) with
    | error e =>
      have hnone : string.decode width (ScalarValue.string a).encode = .error (.unreadable .string e) := by
        simp only [decode, kind, ScalarValue.decode, ScalarValue.encode, ScalarValue.read, hread]
        rfl
      rw [hnone] at hdecode
      cases hdecode
    | ok v =>
      obtain rfl := Wrapper.string_eq_of_decode hread
      have hsame : string.decode width (ScalarValue.string v).encode = .ok v :=
        congrArg (· >>= string.fromScalar width) (read_of_decode hread)
      rw [hsame] at hdecode
      exact (Except.ok.inj hdecode).symm
  · have hread := decode_encode (by simpa [hstring] using ht) hencode
    rw [hread] at hdecode
    exact (Except.ok.inj hdecode).symm

/-! ## Values that are alike -/

/-- Whether two values have one stored form: floating-point zeros of either sign do, and instants at
one time from the epoch. -/
def Alike : (t : ScalarType) → t.Carrier → t.Carrier → Prop
  | float32, (a : Binary32), (b : Binary32) => a = b ∨ a.isZero = true ∧ b.isZero = true
  | float64, (a : Binary64), (b : Binary64) => a = b ∨ a.isZero = true ∧ b.isZero = true
  | instant, (a : Instant), (b : Instant) => a.total = b.total
  | _, a, b => a = b

theorem alike_symm {t : ScalarType} {a b : t.Carrier} (h : t.Alike a b) : t.Alike b a := by
  cases t with
  | float32 => exact h.imp Eq.symm And.symm
  | float64 => exact h.imp Eq.symm And.symm
  | _ => exact Eq.symm h

theorem encode_inj {t : ScalarType} (ht : t ∉ [.float32, .float64, .instant, .string])
    {width : IntWidth} {a b : t.Carrier} {x y : Bytes} (hx : t.encode width a = .ok x)
    (hy : t.encode width b = .ok y) : x = y ↔ a = b := by
  constructor
  · rintro rfl
    have ha := decode_encode ht hx
    rw [decode_encode ht hy] at ha
    exact (Except.ok.inj ha).symm
  · rintro rfl
    rw [hx] at hy
    exact Except.ok.inj hy

/-- **The stored forms of two values are the same just if the values are alike.** -/
theorem encode_eq_iff {t : ScalarType} {width : IntWidth} {a b : t.Carrier} {x y : Bytes}
    (hx : t.encode width a = .ok x) (hy : t.encode width b = .ok y) : x = y ↔ t.Alike a b := by
  cases t with
  | float32 =>
    cases hx; cases hy
    exact Wrapper.encode_fixed_inj (fun v => UInt32.toNat_lt _) (fun v => by simp) (by decide)
  | float64 =>
    cases hx; cases hy
    exact Wrapper.encode_fixed_inj (fun v => UInt64.toNat_lt _) (fun v => by simp) (by decide)
  | string =>
    cases hx; cases hy
    exact Wrapper.string_encode_inj
  | instant =>
    cases hx; cases hy
    exact Wrapper.timestamp_encode_inj.trans Wire.Timestamp.ofInstant_eq_iff
  | _ => exact encode_inj (by decide) hx hy

end ScalarType

end KeyedStream
