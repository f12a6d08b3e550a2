import Mathlib
import KeyedStream.Bytes

/-!
# Parts and fixed-width numbers read back

Main statements: what is taken off the front is a part of the length that was asked for;
`ofLittleEndian (littleEndian w n) = n % 256 ^ w`, and the other way round
`littleEndian b.length (ofLittleEndian b) = b`; the same with the high byte first.
-/

namespace KeyedStream.Bytes

theorem take?_eq_some_iff {n : Nat} {bytes front rest : Bytes} :
    take? n bytes = some (front, rest) ↔ front.length = n ∧ bytes = front ++ rest := by
  constructor
  · intro h
    rw [take?] at h
    split at h
    · cases h
    · next hlength =>
      cases h
      exact ⟨List.length_take_of_le (Nat.le_of_not_lt hlength), (List.take_append_drop n bytes).symm⟩
  · rintro ⟨rfl, rfl⟩
    exact take?_append front rest

theorem ofLittleEndian_littleEndian (w n : Nat) :
    ofLittleEndian (littleEndian w n) = n % 256 ^ w := by
  induction w generalizing n with
  | zero => simp [littleEndian, ofLittleEndian, Nat.mod_one]
  | succ w ih =>
    have h : 256 ^ (w + 1) = 256 * 256 ^ w := by rw [Nat.pow_succ, Nat.mul_comm]
    simp only [littleEndian, ofLittleEndian, ih, UInt8.toNat_ofNat', h, Nat.mod_mul]

theorem ofBigEndian_bigEndian (w n : Nat) : ofBigEndian (bigEndian w n) = n % 256 ^ w := by
  simp [ofBigEndian, bigEndian, ofLittleEndian_littleEndian]

theorem ofLittleEndian_lt (b : Bytes) : ofLittleEndian b < 256 ^ b.length := by
  induction b with
  | nil => simp [ofLittleEndian]
  | cons x r ih =>
    have hx : x.toNat < 256 := x.toNat_lt
    simp only [ofLittleEndian, List.length_cons, Nat.pow_succ]
    omega

/-- A number of at most `b.length` bytes determines them. -/
theorem littleEndian_ofLittleEndian (b : Bytes) : littleEndian b.length (ofLittleEndian b) = b := by
  induction b with
  | nil => rfl
  | cons x r ih =>
    have hx : x.toNat < 256 := x.toNat_lt
    have hhead : UInt8.ofNat (x.toNat + 256 * ofLittleEndian r) = x := by
      apply UInt8.toNat_inj.1
      rw [UInt8.toNat_ofNat']
      omega
    have htail : (x.toNat + 256 * ofLittleEndian r) / 256 = ofLittleEndian r := by omega
    simp only [List.length_cons, ofLittleEndian, littleEndian, hhead, htail, ih]

theorem bigEndian_ofBigEndian (b : Bytes) : bigEndian b.length (ofBigEndian b) = b := by
  have h := littleEndian_ofLittleEndian b.reverse
  rw [List.length_reverse] at h
  rw [bigEndian, ofBigEndian, h, List.reverse_reverse]

theorem ofBigEndian_lt (b : Bytes) : ofBigEndian b < 256 ^ b.length := by
  simpa [ofBigEndian] using ofLittleEndian_lt b.reverse

end KeyedStream.Bytes
