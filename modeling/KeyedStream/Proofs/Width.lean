import Mathlib
import KeyedStream.Proofs.Restored
import KeyedStream.Proofs.TableHistory

/-!
# A change of width

The width of word-sized integers may be configured anew over rows that are there already. A narrow
number is stored as the wide number of its value, so what was written narrow is read wide as it was,
and is found under the same keys (`ScalarType.encode_w64_of_w32`, `ScalarType.decode_w64_of_w32`). On
the way back a number is cut to its low 32 bits, without a fault (`ScalarType.int_decode_w32`,
`ScalarType.uint_decode_w32`). Other types have one width, and whole states fare as their codecs do.
-/

namespace KeyedStream

open Proto

/-! ## Wrappers -/

namespace Wrapper

variable {β : Type} {empty : β} {toNat : β → Nat}

/-- A field that holds a number reads any number that was written in its place. -/
theorem decode_varint (ofNat : Nat → β) (hempty : ofNat 0 = empty) {n : Nat} (h : n < 2 ^ 64) :
    (of empty (.varint toNat ofNat)).decode
      (if n = 0 then [] else encodeKey 1 .varint ++ Varint.encode n) = .ok (ofNat n) := by
  by_cases hzero : n = 0
  · rw [if_pos hzero, hzero, hempty]
    rfl
  · rw [if_neg hzero]
    refine Layout.decode_of_reads ?_
    rw [← List.append_nil (encodeKey 1 .varint ++ Varint.encode n)]
    refine .record (by simp [encodeKey_ne_nil]) (fun rest => ?_) (.nil _)
    have hkey := decodeKey_encodeKey Nat.one_ne_zero (by decide) .varint (Varint.encode n ++ rest)
    rw [List.append_assoc]
    simp [Layout.mergeField, hkey, of, Layout.field?, Field.single, Shape.varint,
      Varint.decode_encode h, bind, Except.bind, pure, Except.pure]

/-- A narrow number is written as the wide number of its value. -/
theorem int64_encode_toInt64 (v : Int32) : int64.encode v.toInt64 = int32.encode v := by
  rw [int64, int32, encode_of, encode_of]
  rfl

theorem uint64_encode_toUInt64 (v : UInt32) : uint64.encode v.toUInt64 = uint32.encode v := by
  rw [uint64, uint32, encode_of, encode_of]
  simp only [Shape.uint64, Shape.uint32, Shape.varint, UInt32.toNat_toUInt64]

/-- A wide number is read narrow as its low bits. -/
theorem int32_decode_int64 (v : Int64) : int32.decode (int64.encode v) = .ok v.toInt32 := by
  have hlow : (UInt32.ofNat v.toUInt64.toNat).toInt32 = v.toInt32 := by
    apply Int32.toBitVec_inj.1
    simpa using (BitVec.signExtend_eq_setWidth_of_le v.toBitVec (by decide : 32 ≤ 64)).symm
  rw [← hlow, int64, encode_of]
  exact decode_varint (fun n => (UInt32.ofNat n).toInt32) rfl (UInt64.toNat_lt v.toUInt64)

theorem uint32_decode_uint64 (v : UInt64) : uint32.decode (uint64.encode v) = .ok v.toUInt32 := by
  rw [uint64, encode_of]
  exact decode_varint UInt32.ofNat rfl (UInt64.toNat_lt v)

end Wrapper

namespace ScalarType

variable {t : ScalarType} {bytes : Bytes}

/-! ## Types of one width -/

theorem kind_w64 (ht : t ∉ [.int, .uint]) : t.kind .w64 = t.kind .w32 := by
  cases t with
  | int => simp at ht
  | uint => simp at ht
  | _ => rfl

theorem fromScalar_w64 (ht : t ∉ [.int, .uint]) : t.fromScalar .w64 = t.fromScalar .w32 := by
  funext s
  cases t with
  | int => simp at ht
  | uint => simp at ht
  | _ => cases s <;> rfl

theorem encode_w64 (ht : t ∉ [.int, .uint]) : t.encode .w64 = t.encode .w32 := by
  cases t with
  | int => simp at ht
  | uint => simp at ht
  | _ => rfl

theorem decode_w64 (ht : t ∉ [.int, .uint]) : t.decode .w64 = t.decode .w32 := by
  funext bytes
  rw [decode, decode, kind_w64 ht, fromScalar_w64 ht]

/-! ## Word-sized integers -/

/-- **What has a narrow form has the same wide form.** -/
theorem encode_w64_of_w32 {v : t.Carrier} (h : t.encode .w32 v = .ok bytes) :
    t.encode .w64 v = .ok bytes := by
  cases t with
  | int =>
    obtain ⟨s, hs, rfl⟩ := encode_eq_ok_iff.1 h
    obtain ⟨rfl, hback⟩ := intToScalar_w32 hs
    have hwide := Wrapper.int64_encode_toInt64 (Int64.toInt32 v)
    rw [hback] at hwide
    exact congrArg Except.ok hwide
  | uint =>
    obtain ⟨s, hs, rfl⟩ := encode_eq_ok_iff.1 h
    obtain ⟨rfl, hback⟩ := uintToScalar_w32 hs
    have hwide := Wrapper.uint64_encode_toUInt64 (UInt64.toUInt32 v)
    rw [hback] at hwide
    exact congrArg Except.ok hwide
  | _ => exact h

/-- **What was written narrow is read wide** as it is read narrow. -/
theorem decode_w64_of_w32 {v : t.Carrier} (h : t.encode .w32 v = .ok bytes) :
    t.decode .w64 bytes = t.decode .w32 bytes := by
  by_cases ht : t ∈ [.int, .uint]
  · have hword : t ∉ [.float32, .float64, .instant, .string] := by
      rcases List.mem_pair.1 ht with rfl | rfl <;> decide
    rw [decode_encode hword (encode_w64_of_w32 h), decode_encode hword h]
  · rw [decode_w64 ht]

/-- **What was written wide is read narrow** as its low bits, with the sign of their highest. -/
theorem int_decode_w32 (v : Int64) :
    int.decode .w32 (ScalarValue.int64 v).encode = .ok v.toInt32.toInt64 :=
  congrArg (· >>= int.fromScalar .w32) (read_of_decode (Wrapper.int32_decode_int64 v))

theorem uint_decode_w32 (v : UInt64) :
    uint.decode .w32 (ScalarValue.uint64 v).encode = .ok v.toUInt32.toUInt64 :=
  congrArg (· >>= uint.fromScalar .w32) (read_of_decode (Wrapper.uint32_decode_uint64 v))

/-- What a change of width does to a word-sized integer, of which `low` is left when it is read
narrow. -/
structure Resized (t : ScalarType) (v low : t.Carrier) : Prop where
  /-- Narrow forms are wide forms. -/
  widens : ∀ bytes, t.encode .w32 v = .ok bytes →
    t.encode .w64 v = .ok bytes ∧ t.decode .w64 bytes = .ok v
  /-- Its wide form is the narrow form of no other. -/
  addresses : ∀ u x y, t.encode .w32 u = .ok x → t.encode .w64 v = .ok y → (x = y ↔ u = v)
  /-- It has a wide form, which can be read narrow. -/
  narrows : ∃ bytes, t.encode .w64 v = .ok bytes ∧ t.decode .w32 bytes = .ok low

theorem resized {v low : t.Carrier} (ht : t ∉ [.float32, .float64, .instant, .string])
    (hlow : ∃ bytes, t.encode .w64 v = .ok bytes ∧ t.decode .w32 bytes = .ok low) :
    t.Resized v low where
  widens _ h := ⟨encode_w64_of_w32 h, decode_encode ht (encode_w64_of_w32 h)⟩
  addresses _ _ _ hx hy := encode_inj ht (encode_w64_of_w32 hx) hy
  narrows := hlow

end ScalarType

/-! ## States -/

/-- A row that was written with the stored forms of a key and of a value. -/
def StoredRow (k v : ScalarType) (width : IntWidth) (row : StateEntry) : Prop :=
  ∃ a b, k.encode width a = .ok row.key ∧ v.encode width b = .ok row.value

namespace MapState

variable {k v : ScalarType} {s : MapState k.Carrier v.Carrier}

theorem mutation_w64_of_w32 {e : k.Carrier × Update v.Carrier} {m : Mutation}
    (h : mutation (.scalar k v .w32) e = .ok m) : mutation (.scalar k v .w64) e = .ok m := by
  obtain ⟨a, u⟩ := e
  rw [mutation, bind_eq_ok_iff] at h ⊢
  obtain ⟨row, hrow, h⟩ := h
  refine ⟨row, liftCodec_eq_ok_iff.2 (k.encode_w64_of_w32 (liftCodec_eq_ok_iff.1 hrow)), ?_⟩
  cases u with
  | delete => exact h
  | put b =>
    obtain ⟨payload, hpayload, h⟩ := bind_eq_ok_iff.1 h
    have hwide := v.encode_w64_of_w32 (liftCodec_eq_ok_iff.1 hpayload)
    exact bind_eq_ok_iff.2 ⟨payload, liftCodec_eq_ok_iff.2 hwide, h⟩

theorem render_w64_of_w32 {ms : List Mutation}
    (h : render (.scalar k v .w32) s.updates.entries = .ok ms) :
    render (.scalar k v .w64) s.updates.entries = .ok ms :=
  mapM_eq_ok_iff.2 ((mapM_eq_ok_iff.1 h).imp fun _ _ => mutation_w64_of_w32)

theorem entry_w64_of_w32 {row : StateEntry} (h : StoredRow k v .w32 row) :
    (MapCodec.scalar k v .w64).entry row = (MapCodec.scalar k v .w32).entry row := by
  obtain ⟨a, b, hkey, hvalue⟩ := h
  have hk : (MapCodec.scalar k v .w64).key.decode row.key =
      (MapCodec.scalar k v .w32).key.decode row.key := k.decode_w64_of_w32 hkey
  have hv : (MapCodec.scalar k v .w64).value.decode row.value =
      (MapCodec.scalar k v .w32).value.decode row.value := v.decode_w64_of_w32 hvalue
  rw [MapCodec.entry, MapCodec.entry, hk, hv]

/-- Rows that were written narrow are loaded wide as they are loaded narrow. -/
theorem load_w64_of_w32 (hcodec : s.codec = .scalar k v .w32) {rows : List StateEntry}
    (hrows : ∀ row ∈ rows, StoredRow k v .w32 row) :
    { s with codec := .scalar k v .w64 }.load rows =
      (s.load rows).map fun s => { s with codec := .scalar k v .w64 } := by
  have hentries : rows.mapM (MapCodec.scalar k v .w64).entry =
      rows.mapM (MapCodec.scalar k v .w32).entry := by
    induction rows with
    | nil => rfl
    | cons row rows ih =>
      obtain ⟨hrow, hrest⟩ := List.forall_mem_cons.1 hrows
      rw [List.mapM_cons, List.mapM_cons, entry_w64_of_w32 hrow, ih hrest]
  rw [load_eq_map, load_eq_map, hcodec, hentries]
  cases rows.mapM (MapCodec.scalar k v .w32).entry <;> rfl

end MapState

namespace ValueState

variable {t : ScalarType} {s : ValueState t.Carrier}

theorem mutations_w64_of_w32 (hcodec : s.codec = .scalar t .w32) {ms : List Mutation}
    (h : s.mutations = .ok ms) : { s with codec := .scalar t .w64 }.mutations = .ok ms := by
  obtain ⟨name, codec, value, status⟩ := s
  subst hcodec
  cases status with
  | unset => exact h
  | deleted => exact h
  | updated =>
    obtain ⟨payload, hpayload, h⟩ := bind_eq_ok_iff.1 h
    have hwide := t.encode_w64_of_w32 (liftCodec_eq_ok_iff.1 hpayload)
    exact bind_eq_ok_iff.2 ⟨payload, liftCodec_eq_ok_iff.2 hwide, h⟩

theorem load_w64_of_w32 (hcodec : s.codec = .scalar t .w32) {row : StateEntry} {v : t.Carrier}
    (hrow : t.encode .w32 v = .ok row.value) (rest : List StateEntry) :
    { s with codec := .scalar t .w64 }.load (row :: rest) =
      (s.load (row :: rest)).map fun s => { s with codec := .scalar t .w64 } := by
  have hread : (ValueCodec.scalar t .w64).decode row.value =
      (ValueCodec.scalar t .w32).decode row.value := t.decode_w64_of_w32 hrow
  by_cases hempty : row.value = []
  · rw [load_cons_empty _ rest hempty, load_cons_empty _ rest hempty]
    rfl
  · rw [load_cons _ rest hempty, load_cons _ rest hempty, hread, hcodec]
    cases (ValueCodec.scalar t .w32).decode row.value <;> rfl

end ValueState

/-! ## All effects -/

/-- **A change of width has these effects** and no others. What a word-sized integer is stored as in
the narrow width is its stored form in the wide one, so it is read there as it was, and its row is the
row of no other. Every stored form of the wide width can be read in the narrow one, where the low 32
bits are left, signed as the type is: that is the integer itself just if it fits them. The other types
do not depend on the width. So a table or a value that can be rendered in the narrow width is rendered
to the same changes in the wide one, and rows that were written narrow are loaded as the same state. -/
theorem width_effects :
    (∀ v : Int64, ScalarType.int.Resized v v.toInt32.toInt64 ∧
      v.toInt32.toInt64.toInt = v.toInt.bmod (2 ^ 32) ∧
      (v.toInt32.toInt64 = v ↔ -2147483648 ≤ v.toInt ∧ v.toInt ≤ 2147483647)) ∧
    (∀ v : UInt64, ScalarType.uint.Resized v v.toUInt32.toUInt64 ∧
      v.toUInt32.toUInt64.toNat = v.toNat % 2 ^ 32 ∧
      (v.toUInt32.toUInt64 = v ↔ v.toNat ≤ 4294967295)) ∧
    (∀ t : ScalarType, t ∉ [.int, .uint] →
      t.encode .w64 = t.encode .w32 ∧ t.decode .w64 = t.decode .w32) ∧
    (∀ (k v : ScalarType) (s : MapState k.Carrier v.Carrier), s.codec = .scalar k v .w32 →
      (∀ ms, s.mutations = .ok ms → { s with codec := .scalar k v .w64 }.mutations = .ok ms) ∧
      ∀ rows, (∀ row ∈ rows, StoredRow k v .w32 row) →
        { s with codec := .scalar k v .w64 }.load rows =
          (s.load rows).map fun s => { s with codec := .scalar k v .w64 }) ∧
    ∀ (t : ScalarType) (s : ValueState t.Carrier), s.codec = .scalar t .w32 →
      (∀ ms, s.mutations = .ok ms → { s with codec := .scalar t .w64 }.mutations = .ok ms) ∧
      ∀ row rest v, t.encode .w32 v = .ok row.value →
        { s with codec := .scalar t .w64 }.load (row :: rest) =
          (s.load (row :: rest)).map fun s => { s with codec := .scalar t .w64 } := by
  refine ⟨fun v => ⟨?_, ?_, ?_⟩, fun v => ⟨?_, ?_, ?_⟩, fun t ht => ?_, fun k v s hcodec => ?_,
    fun t s hcodec => ?_⟩
  · exact ScalarType.resized (by decide) ⟨_, rfl, ScalarType.int_decode_w32 v⟩
  · rw [Int32.toInt_toInt64, Int64.toInt_toInt32]
  · rw [← Int64.toInt_inj, Int32.toInt_toInt64, Int64.toInt_toInt32, Int.bmod_eq_iff (by decide)]
    omega
  · exact ScalarType.resized (by decide) ⟨_, rfl, ScalarType.uint_decode_w32 v⟩
  · rw [UInt32.toNat_toUInt64, UInt64.toNat_toUInt32]
  · rw [← UInt64.toNat_inj, UInt32.toNat_toUInt64, UInt64.toNat_toUInt32]
    omega
  · exact ⟨ScalarType.encode_w64 ht, ScalarType.decode_w64 ht⟩
  · refine ⟨fun ms h => ?_, fun rows => MapState.load_w64_of_w32 hcodec⟩
    rw [MapState.mutations, hcodec] at h
    exact MapState.render_w64_of_w32 h
  · exact ⟨fun ms => ValueState.mutations_w64_of_w32 hcodec,
      fun row rest v hrow => ValueState.load_w64_of_w32 hcodec hrow rest⟩

/-- The highest of the low 32 bits of 2³¹ is set, and is read as a sign. -/
example : ScalarType.int.decode .w32 [8, 128, 128, 128, 128, 8] = .ok (-2147483648 : Int64) := by
  decide

end KeyedStream
