import Mathlib
import KeyedStream.Proto.Varint

/-!
# Varints read back

Main statement: `decode_encode`, the varint of a 64-bit number reads back and leaves the rest; that
of a number of more bits does not (`decode_encode_of_le`). A larger number takes no fewer bytes
(`length_encode_le`), and `size` counts them (`length_encode`).
-/

namespace KeyedStream.Proto.Varint

theorem decodeGroups_encodeGroups (g : Nat) (n : Nat) (rest : Bytes) (h : n < 2 * 128 ^ g) :
    decodeGroups (g + 1) (encodeGroups (g + 1) n ++ rest) = some (n, rest) := by
  induction g generalizing n with
  | zero =>
    have h1 : n < 128 := by simp at h; omega
    have h2 : ¬ 2 ≤ n := by simp at h; omega
    have h3 : (UInt8.ofNat n).toNat = n := by rw [UInt8.toNat_ofNat']; omega
    simp only [encodeGroups, h1, if_true, List.singleton_append, decodeGroups, h3, h2, and_false,
      if_false]
  | succ g ih =>
    unfold encodeGroups
    by_cases h1 : n < 128
    · have h3 : (UInt8.ofNat n).toNat = n := by rw [UInt8.toNat_ofNat']; omega
      simp only [h1, if_true, List.singleton_append, decodeGroups, h3, Nat.succ_ne_zero, false_and,
        if_false]
    · have h2 : n / 128 < 2 * 128 ^ g := by
        rw [Nat.div_lt_iff_lt_mul (by decide)]
        calc n < 2 * 128 ^ (g + 1) := h
          _ = 2 * 128 ^ g * 128 := by rw [Nat.pow_succ, Nat.mul_assoc]
      have h3 : (UInt8.ofNat (n % 128 + 128)).toNat = n % 128 + 128 := by
        rw [UInt8.toNat_ofNat']; omega
      have h4 : ¬ n % 128 + 128 < 128 := by omega
      simp only [h1, if_false, List.cons_append, decodeGroups, h3, h4, ih _ h2, Option.some.injEq,
        Prod.mk.injEq, and_true]
      omega

/-- What is written reads back and leaves the rest. -/
theorem decode_encode {n : Nat} (h : n < 2 ^ 64) (rest : Bytes) :
    decode (encode n ++ rest) = .ok (n, rest) := by
  have := decodeGroups_encodeGroups 9 n rest (by omega)
  simp [decode, encode, this]

/-- A number that does not fit is cut off, and what is left of it is not read. -/
theorem decodeGroups_encodeGroups_of_le (g : Nat) (n : Nat) (rest : Bytes) (h : 2 * 128 ^ g ≤ n) :
    decodeGroups (g + 1) (encodeGroups (g + 1) n ++ rest) = none := by
  induction g generalizing n with
  | zero =>
    rw [encodeGroups]
    by_cases h1 : n < 128
    · have h3 : (UInt8.ofNat n).toNat = n := by rw [UInt8.toNat_ofNat']; omega
      have h2 : 2 ≤ n := by simpa using h
      simp [h1, decodeGroups, h3, h2]
    · have h3 : (UInt8.ofNat (n % 128 + 128)).toNat = n % 128 + 128 := by
        rw [UInt8.toNat_ofNat']; omega
      have h4 : ¬ n % 128 + 128 < 128 := by omega
      simp only [h1, if_false, List.cons_append, decodeGroups, h3, h4]
  | succ g ih =>
    have hmore : ¬ n < 128 := by
      have : 1 ≤ 128 ^ g := Nat.one_le_pow _ _ (by decide)
      rw [Nat.pow_succ] at h
      omega
    have hdiv : 2 * 128 ^ g ≤ n / 128 := by
      rw [Nat.le_div_iff_mul_le (by decide)]
      calc 2 * 128 ^ g * 128 = 2 * 128 ^ (g + 1) := by rw [Nat.pow_succ, Nat.mul_assoc]
        _ ≤ n := h
    have h3 : (UInt8.ofNat (n % 128 + 128)).toNat = n % 128 + 128 := by
      rw [UInt8.toNat_ofNat']; omega
    have h4 : ¬ n % 128 + 128 < 128 := by omega
    rw [encodeGroups]
    simp only [hmore, if_false, List.cons_append, decodeGroups, h3, h4, ih _ hdiv]

/-- The varint of a number of more than 64 bits does not read back. -/
theorem decode_encode_of_le {n : Nat} (h : 2 ^ 64 ≤ n) (rest : Bytes) :
    decode (encode n ++ rest) = fail .invalidVarint := by
  have := decodeGroups_encodeGroups_of_le 9 n rest (by omega)
  simp [decode, encode, this]

theorem length_encodeGroups_le {m n : Nat} (h : m ≤ n) (g : Nat) :
    (encodeGroups g m).length ≤ (encodeGroups g n).length := by
  induction g generalizing m n with
  | zero => exact Nat.le_refl _
  | succ g ih =>
    rw [encodeGroups, encodeGroups]
    split
    · split <;> simp
    · next hm =>
      rw [if_neg (by omega), List.length_cons, List.length_cons]
      exact Nat.succ_le_succ (ih (Nat.div_le_div_right h))

/-- A larger number takes no fewer bytes. -/
theorem length_encode_le {m n : Nat} (h : m ≤ n) : (encode m).length ≤ (encode n).length :=
  length_encodeGroups_le h 10

/-! ## Sizes -/

/-- Each bit that is cut off a number is one less in its logarithm. -/
theorem log2_eq_add {k n : Nat} (h : 2 ^ k ≤ n) : n.log2 = (n / 2 ^ k).log2 + k := by
  have hpos : 0 < 2 ^ k := Nat.two_pow_pos k
  have hq : n / 2 ^ k ≠ 0 := (Nat.div_pos h hpos).ne'
  have hn : n ≠ 0 := by omega
  apply Nat.le_antisymm
  · have hlow := (Nat.le_log2 hn).1 (Nat.le_refl n.log2)
    have hk : k ≤ n.log2 := (Nat.le_log2 hn).2 h
    have hrest : n.log2 - k ≤ (n / 2 ^ k).log2 := by
      rw [Nat.le_log2 hq, Nat.le_div_iff_mul_le hpos, ← Nat.pow_add, Nat.sub_add_cancel hk]
      exact hlow
    omega
  · rw [Nat.le_log2 hn, Nat.pow_add, ← Nat.le_div_iff_mul_le hpos]
    exact (Nat.le_log2 hq).1 (Nat.le_refl _)

theorem size_of_lt {n : Nat} (h : n < 128) : size n = 1 := by
  have hbits : n.log2 < 7 := by
    by_cases hn : n = 0
    · subst hn
      decide
    · exact (Nat.log2_lt hn).2 h
  rw [size]
  omega

theorem size_of_le {n : Nat} (h : 128 ≤ n) : size n = size (n / 128) + 1 := by
  have hlog : n.log2 = (n / 128).log2 + 7 := @log2_eq_add 7 n h
  rw [size, size, hlog]
  omega

theorem length_encodeGroups {g n : Nat} (h : n < 128 ^ (g + 1)) :
    (encodeGroups (g + 1) n).length = size n := by
  induction g generalizing n with
  | zero =>
    have hsmall : n < 128 := by simpa using h
    rw [encodeGroups, if_pos hsmall, size_of_lt hsmall, List.length_singleton]
  | succ g ih =>
    rw [encodeGroups]
    by_cases hsmall : n < 128
    · rw [if_pos hsmall, size_of_lt hsmall, List.length_singleton]
    · have hdiv : n / 128 < 128 ^ (g + 1) := by
        rw [Nat.div_lt_iff_lt_mul (by decide), ← Nat.pow_succ]
        exact h
      rw [if_neg hsmall, List.length_cons, ih hdiv, size_of_le (Nat.le_of_not_lt hsmall)]

/-- `size` is the number of bytes that a number takes. -/
theorem length_encode {n : Nat} (h : n < 2 ^ 64) : (encode n).length = size n :=
  length_encodeGroups (by omega)

end KeyedStream.Proto.Varint
