import Mathlib
import KeyedStream.Bytes.Lemmas
import KeyedStream.MsgPack.Head

/-!
# How heads are spelled

The table of the format: a head is spelled by one byte that holds a small number, or by a marker with
a number of some bytes behind it (`Head.Spelling`). A head is read from each of its spellings, whatever
follows, and from nothing else (`Head.read_eq_some_iff`). The writers choose one of the spellings, as
long as the number fits the widest of them.
-/

namespace KeyedStream.MsgPack.Head

/-- The markers: how many bytes the number behind each of them takes, and the head that it makes. -/
def markers : List (Nat × Nat × (Nat → Head)) := [
  (0xc0, 0, fun _ => .nil), (0xc2, 0, fun _ => .bool false), (0xc3, 0, fun _ => .bool true),
  (0xc4, 1, .binary), (0xc5, 2, .binary), (0xc6, 4, .binary),
  (0xc7, 1, .extension), (0xc8, 2, .extension), (0xc9, 4, .extension),
  (0xca, 4, fun n => .float ⟨UInt32.ofNat n⟩), (0xcb, 8, fun n => .double ⟨UInt64.ofNat n⟩),
  (0xcc, 1, .unsigned), (0xcd, 2, .unsigned), (0xce, 4, .unsigned), (0xcf, 8, .unsigned),
  (0xd0, 1, fun n => .signed (ofComplement 1 n)), (0xd1, 2, fun n => .signed (ofComplement 2 n)),
  (0xd2, 4, fun n => .signed (ofComplement 4 n)), (0xd3, 8, fun n => .signed (ofComplement 8 n)),
  (0xd4, 0, fun _ => .extension 1), (0xd5, 0, fun _ => .extension 2),
  (0xd6, 0, fun _ => .extension 4), (0xd7, 0, fun _ => .extension 8),
  (0xd8, 0, fun _ => .extension 16), (0xd9, 1, .text), (0xda, 2, .text), (0xdb, 4, .text),
  (0xdc, 2, .array), (0xdd, 4, .array), (0xde, 2, .map), (0xdf, 4, .map)]

/-- A way to write a head. -/
inductive Spelling : Head → Bytes → Prop
  | small {n : Nat} (hn : n < 0x80) : Spelling (.unsigned n) [UInt8.ofNat n]
  | smallMap {n : Nat} (hn : n < 0x10) : Spelling (.map n) [UInt8.ofNat (0x80 + n)]
  | smallArray {n : Nat} (hn : n < 0x10) : Spelling (.array n) [UInt8.ofNat (0x90 + n)]
  | smallText {n : Nat} (hn : n < 0x20) : Spelling (.text n) [UInt8.ofNat (0xa0 + n)]
  | smallNegative {n : Nat} (hpos : 0 < n) (hn : n ≤ 0x20) :
    Spelling (.signed (-n)) [UInt8.ofNat (0x100 - n)]
  | marked {marker width n : Nat} {wrap : Nat → Head} (hm : (marker, width, wrap) ∈ markers)
    (hn : n < 256 ^ width) : Spelling (wrap n) (sized marker width n)

theorem Spelling.length_pos {h : Head} {b : Bytes} (hs : Spelling h b) : 0 < b.length := by
  cases hs <;> simp [sized]

/-! ## Numbers behind markers -/

theorem behind_of_marker {e : Nat × Nat × (Nat → Head)} (he : e ∈ markers) (bytes : Bytes) :
    behind e.1 bytes = number e.2.1 e.2.2 bytes := by
  fin_cases he <;> rfl

theorem bounds_of_marker {e : Nat × Nat × (Nat → Head)} (he : e ∈ markers) :
    0xc0 ≤ e.1 ∧ e.1 < 0xe0 := by
  fin_cases he <;> decide

/-- What is behind anything but a marker is not read. -/
theorem marker_or_behind_eq_none (marker : Nat) (bytes : Bytes) :
    (∃ width wrap, (marker, width, wrap) ∈ markers) ∨ behind marker bytes = none := by
  unfold behind
  split <;> simp [markers]

theorem number_bigEndian {width n : Nat} (hn : n < 256 ^ width) (wrap : Nat → Head) (rest : Bytes) :
    number width wrap (Bytes.bigEndian width n ++ rest) = some (wrap n, rest) := by
  have htake := Bytes.take?_append (Bytes.bigEndian width n) rest
  rw [Bytes.length_bigEndian] at htake
  simp only [number, htake, Bytes.ofBigEndian_bigEndian, Nat.mod_eq_of_lt hn]

theorem exists_of_number {width : Nat} {wrap : Nat → Head} {bytes rest : Bytes} {h : Head}
    (hread : number width wrap bytes = some (h, rest)) :
    ∃ n, n < 256 ^ width ∧ h = wrap n ∧ bytes = Bytes.bigEndian width n ++ rest := by
  rw [number] at hread
  split at hread
  · next b rest' htake =>
    obtain ⟨rfl, rfl⟩ := Bytes.take?_eq_some_iff.1 htake
    cases hread
    exact ⟨Bytes.ofBigEndian b, Bytes.ofBigEndian_lt b, rfl, by rw [Bytes.bigEndian_ofBigEndian]⟩
  · cases hread

/-! ## Reading -/

/-- What a head is by its first byte. -/
theorem read_ofNat {n : Nat} (hn : n < 0x100) (rest : Bytes) :
    read (UInt8.ofNat n :: rest) =
      if n < 0x80 then some (.unsigned n, rest)
      else if n < 0x90 then some (.map (n - 0x80), rest)
      else if n < 0xa0 then some (.array (n - 0x90), rest)
      else if n < 0xc0 then some (.text (n - 0xa0), rest)
      else if n < 0xe0 then behind n rest
      else some (.signed ((n : Int) - 0x100), rest) := by
  rw [read, UInt8.toNat_ofNat_of_lt' hn]

theorem read_of_spelling {h : Head} {b : Bytes} (hs : Spelling h b) (rest : Bytes) :
    read (b ++ rest) = some (h, rest) := by
  cases hs with
  | small hn =>
    rw [List.singleton_append, read_ofNat (by omega), if_pos hn]
  | smallMap hn =>
    rw [List.singleton_append, read_ofNat (by omega), if_neg (by omega), if_pos (by omega),
      Nat.add_sub_cancel_left]
  | smallArray hn =>
    rw [List.singleton_append, read_ofNat (by omega), if_neg (by omega), if_neg (by omega),
      if_pos (by omega), Nat.add_sub_cancel_left]
  | smallText hn =>
    rw [List.singleton_append, read_ofNat (by omega), if_neg (by omega), if_neg (by omega),
      if_neg (by omega), if_pos (by omega), Nat.add_sub_cancel_left]
  | @smallNegative n hpos hn =>
    have hvalue : ((0x100 - n : Nat) : Int) - 0x100 = -n := by omega
    rw [List.singleton_append, read_ofNat (by omega), if_neg (by omega), if_neg (by omega),
      if_neg (by omega), if_neg (by omega), if_neg (by omega), hvalue]
  | @marked marker width n wrap hm hn =>
    obtain ⟨hlow, hhigh⟩ := bounds_of_marker hm
    simp only at hlow hhigh
    rw [sized, List.cons_append, read_ofNat (by omega), if_neg (by omega), if_neg (by omega),
      if_neg (by omega), if_neg (by omega), if_pos hhigh, behind_of_marker hm, number_bigEndian hn]

theorem spelling_of_read {h : Head} {bytes rest : Bytes} (hread : read bytes = some (h, rest)) :
    ∃ b, Spelling h b ∧ bytes = b ++ rest := by
  cases bytes with
  | nil => cases hread
  | cons first bytes =>
    have hlt : first.toNat < 0x100 := first.toNat_lt
    rw [← UInt8.ofNat_toNat (x := first)] at hread ⊢
    generalize first.toNat = n at hread hlt ⊢
    rw [read_ofNat hlt] at hread
    rcases Nat.lt_or_ge n 0x80 with h₁ | h₁
    · rw [if_pos h₁] at hread
      cases hread
      exact ⟨_, .small h₁, rfl⟩
    rw [if_neg (by omega)] at hread
    rcases Nat.lt_or_ge n 0x90 with h₂ | h₂
    · obtain ⟨m, rfl⟩ := Nat.exists_eq_add_of_le h₁
      rw [if_pos h₂, Nat.add_sub_cancel_left] at hread
      cases hread
      exact ⟨_, .smallMap (by omega), rfl⟩
    rw [if_neg (by omega)] at hread
    rcases Nat.lt_or_ge n 0xa0 with h₃ | h₃
    · obtain ⟨m, rfl⟩ := Nat.exists_eq_add_of_le h₂
      rw [if_pos h₃, Nat.add_sub_cancel_left] at hread
      cases hread
      exact ⟨_, .smallArray (by omega), rfl⟩
    rw [if_neg (by omega)] at hread
    rcases Nat.lt_or_ge n 0xc0 with h₄ | h₄
    · obtain ⟨m, rfl⟩ := Nat.exists_eq_add_of_le h₃
      rw [if_pos h₄, Nat.add_sub_cancel_left] at hread
      cases hread
      exact ⟨_, .smallText (by omega), rfl⟩
    rw [if_neg (by omega)] at hread
    rcases Nat.lt_or_ge n 0xe0 with h₅ | h₅
    · rw [if_pos h₅] at hread
      rcases marker_or_behind_eq_none n bytes with ⟨width, wrap, hm⟩ | hnone
      · rw [behind_of_marker hm] at hread
        obtain ⟨m, hwidth, rfl, rfl⟩ := exists_of_number hread
        exact ⟨_, .marked hm hwidth, rfl⟩
      · rw [hnone] at hread
        cases hread
    · -- what is left is a negative number, by how far it is below 256
      obtain ⟨m, hm, rfl⟩ : ∃ m, m ≤ 0x20 ∧ n = 0x100 - m := ⟨0x100 - n, by omega, by omega⟩
      have hvalue : ((0x100 - m : Nat) : Int) - 0x100 = -m := by omega
      rw [if_neg (by omega), hvalue] at hread
      cases hread
      exact ⟨_, .smallNegative (by omega) hm, rfl⟩

/-- **A head is read from its spellings**, and from nothing else. -/
theorem read_eq_some_iff {h : Head} {bytes rest : Bytes} :
    read bytes = some (h, rest) ↔ ∃ b, Spelling h b ∧ bytes = b ++ rest := by
  constructor
  · exact spelling_of_read
  · rintro ⟨b, hs, rfl⟩
    exact read_of_spelling hs rest

/-! ## Writing -/

theorem spelling_writeUnsigned {n : Nat} (hn : n < 2 ^ 64) :
    Spelling (.unsigned n) (writeUnsigned n) := by
  have h₁ : (0xcc, 1, Head.unsigned) ∈ markers := by simp [markers]
  have h₂ : (0xcd, 2, Head.unsigned) ∈ markers := by simp [markers]
  have h₄ : (0xce, 4, Head.unsigned) ∈ markers := by simp [markers]
  have h₈ : (0xcf, 8, Head.unsigned) ∈ markers := by simp [markers]
  unfold writeUnsigned
  split
  · next hlt => exact .small hlt
  split
  · next hlt => exact .marked h₁ hlt
  split
  · next hlt => exact .marked h₂ hlt
  split
  · next hlt => exact .marked h₄ hlt
  · exact .marked h₈ hn

theorem ofComplement_complement {width n : Nat} (hpos : 0 < n) (hn : 2 * n ≤ Nat.pow 256 width) :
    ofComplement width (complement width n) = -n := by
  rw [ofComplement, complement]
  generalize Nat.pow 256 width = bound at hn ⊢
  rw [if_neg (by omega)]
  omega

theorem complement_lt {width n : Nat} (hpos : 0 < n) (hn : 2 * n ≤ Nat.pow 256 width) :
    complement width n < 256 ^ width := by
  have hpow : Nat.pow 256 width = 256 ^ width := rfl
  rw [complement, ← hpow]
  omega

/-- A negative number that fits a marker for signed numbers is spelled by it. -/
theorem spelling_complement {marker width n : Nat}
    (hm : (marker, width, fun n => Head.signed (ofComplement width n)) ∈ markers) (hpos : 0 < n)
    (hn : 2 * n ≤ Nat.pow 256 width) :
    Spelling (.signed (-n)) (sized marker width (complement width n)) := by
  have hs := Spelling.marked hm (complement_lt hpos hn)
  rwa [ofComplement_complement hpos hn] at hs

theorem spelling_writeNegative {n : Nat} (hpos : 0 < n) (hn : n ≤ 2 ^ 63) :
    Spelling (.signed (-n)) (writeNegative n) := by
  unfold writeNegative
  split
  · next hle => exact .smallNegative hpos hle
  split
  · next hle => exact spelling_complement (by simp [markers]) hpos (by simp; omega)
  split
  · next hle => exact spelling_complement (by simp [markers]) hpos (by simp; omega)
  split
  · next hle => exact spelling_complement (by simp [markers]) hpos (by simp; omega)
  · exact spelling_complement (by simp [markers]) hpos (by simp; omega)

/-- The integer that a head is. -/
def int? : Head → Option Int
  | unsigned n => some n
  | signed n => some n
  | _ => none

theorem exists_spelling_writeInt {n : Int} (hlow : -2 ^ 63 ≤ n) (hhigh : n < 2 ^ 64) :
    ∃ h, Spelling h (writeInt n) ∧ h.int? = some n := by
  unfold writeInt
  split
  · next hneg =>
    have hs := spelling_writeNegative (n := n.natAbs) (by omega) (by omega)
    exact ⟨_, hs, congrArg some (by omega)⟩
  · next hneg =>
    have hs := spelling_writeUnsigned (n := n.toNat) (by omega)
    exact ⟨_, hs, congrArg some (by omega)⟩

theorem spelling_writeText {n : Nat} (hn : n < 2 ^ 32) : Spelling (.text n) (writeText n) := by
  have h₁ : (0xd9, 1, Head.text) ∈ markers := by simp [markers]
  have h₂ : (0xda, 2, Head.text) ∈ markers := by simp [markers]
  have h₄ : (0xdb, 4, Head.text) ∈ markers := by simp [markers]
  unfold writeText
  split
  · next hlt => exact .smallText hlt
  split
  · next hlt => exact .marked h₁ hlt
  split
  · next hlt => exact .marked h₂ hlt
  · exact .marked h₄ hn

theorem spelling_writeBinary {n : Nat} (hn : n < 2 ^ 32) : Spelling (.binary n) (writeBinary n) := by
  have h₁ : (0xc4, 1, Head.binary) ∈ markers := by simp [markers]
  have h₂ : (0xc5, 2, Head.binary) ∈ markers := by simp [markers]
  have h₄ : (0xc6, 4, Head.binary) ∈ markers := by simp [markers]
  unfold writeBinary
  split
  · next hlt => exact .marked h₁ hlt
  split
  · next hlt => exact .marked h₂ hlt
  · exact .marked h₄ hn

theorem spelling_writeArray {n : Nat} (hn : n < 2 ^ 32) : Spelling (.array n) (writeArray n) := by
  have h₂ : (0xdc, 2, Head.array) ∈ markers := by simp [markers]
  have h₄ : (0xdd, 4, Head.array) ∈ markers := by simp [markers]
  unfold writeArray
  split
  · next hlt => exact .smallArray hlt
  split
  · next hlt => exact .marked h₂ hlt
  · exact .marked h₄ hn

theorem spelling_writeMap {n : Nat} (hn : n < 2 ^ 32) : Spelling (.map n) (writeMap n) := by
  have h₂ : (0xde, 2, Head.map) ∈ markers := by simp [markers]
  have h₄ : (0xdf, 4, Head.map) ∈ markers := by simp [markers]
  unfold writeMap
  split
  · next hlt => exact .smallMap hlt
  split
  · next hlt => exact .marked h₂ hlt
  · exact .marked h₄ hn

theorem spelling_writeNil : Spelling .nil writeNil := by
  have hm : (0xc0, 0, fun _ => Head.nil) ∈ markers := by simp [markers]
  exact .marked (n := 0) hm (by decide)

theorem spelling_writeBool (b : Bool) : Spelling (.bool b) (writeBool b) := by
  have htrue : (0xc3, 0, fun _ => Head.bool true) ∈ markers := by simp [markers]
  have hfalse : (0xc2, 0, fun _ => Head.bool false) ∈ markers := by simp [markers]
  cases b with
  | true => exact .marked (n := 0) htrue (by decide)
  | false => exact .marked (n := 0) hfalse (by decide)

theorem spelling_writeDouble (x : Binary64) : Spelling (.double x) (writeDouble x) := by
  have hm : (0xcb, 8, fun n => Head.double ⟨UInt64.ofNat n⟩) ∈ markers := by simp [markers]
  have hs := Spelling.marked hm (n := x.bits.toNat) x.bits.toNat_lt
  rwa [UInt64.ofNat_toNat] at hs

end KeyedStream.MsgPack.Head
