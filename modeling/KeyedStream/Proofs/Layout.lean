import Mathlib
import KeyedStream.Bytes.Lemmas
import KeyedStream.Proto.Layout
import KeyedStream.Proto.Varint.Lemmas

/-!
# Messages read back

Reading a message is a row of steps, each of which reads one record into the message so far
(`Layout.Reads`). What a field writes is nothing, and then its value is the one that the message has
already, or a record that reads back (`Shape.ReadsBack`); so a message is read back field by field
(`Layout.reads_single`, `Layout.decode_of_reads`).
-/

namespace KeyedStream.Proto

/-! ## Keys and lengths -/

theorem encodeKey_ne_nil (tag : Nat) (w : WireType) : encodeKey tag w ≠ [] := by
  unfold encodeKey Varint.encode
  rw [Varint.encodeGroups]
  split <;> simp

/-- A key that fits 32 bits reads back. -/
theorem decodeKey_encodeKey {tag : Nat} (hzero : tag ≠ 0) (hmax : tag ≤ 536870911) (w : WireType)
    (rest : Bytes) : decodeKey (encodeKey tag w ++ rest) = .ok ((tag, w), rest) := by
  have hw := w.code_lt
  have hdiv : (tag * 8 + w.code) / 8 = tag := by omega
  have hmod : (tag * 8 + w.code) % 8 = w.code := by omega
  have hkey : ¬ maxKey < tag * 8 + w.code := by
    rw [maxKey]
    omega
  have hread := Varint.decode_encode (n := tag * 8 + w.code) (by omega) rest
  simp [decodeKey, encodeKey, hread, bind, Except.bind, hkey, hmod, hdiv, hzero]

/-- A length and as many bytes read back. -/
theorem takeDelimited_append {payload : Bytes} (h : payload.length < 2 ^ 64) (rest : Bytes) :
    takeDelimited (Varint.encode payload.length ++ payload ++ rest) = .ok (payload, rest) := by
  rw [List.append_assoc]
  simp [takeDelimited, Varint.decode_encode h, bind, Except.bind, takeBytes, Bytes.take?_append]

theorem delimited_ne_nil (tag : Nat) (payload : Bytes) : delimited tag payload ≠ [] := by
  simp [delimited, encodeKey_ne_nil]

/-- A length and as many bytes determine the bytes, however many there are. -/
theorem delimited_inj {tag : Nat} {a b : Bytes} : delimited tag a = delimited tag b ↔ a = b := by
  constructor
  · intro h
    rw [delimited, delimited, List.append_assoc, List.append_assoc] at h
    have hbody := List.append_cancel_left h
    have hlen := congrArg List.length hbody
    rw [List.length_append, List.length_append] at hlen
    have hsame : a.length = b.length := by
      rcases Nat.le_total a.length b.length with hle | hle
      · have := Varint.length_encode_le hle
        omega
      · have := Varint.length_encode_le hle
        omega
    rw [hsame] at hbody
    exact List.append_cancel_left hbody
  · rintro rfl
    rfl

@[simp] theorem expect_self (w : WireType) : expect w w = .ok () := if_pos rfl

/-! ## Rows of records -/

namespace Layout

variable {μ : Type}

/-- The bytes are records that turn a message into another one, whatever follows them. -/
inductive Reads (l : Layout μ) (budget : Nat) : μ → Bytes → μ → Prop where
  | nil (m : μ) : Reads l budget m [] m
  | record {m m₁ m₂ : μ} {front bytes : Bytes} (hsome : front ≠ [])
      (hread : ∀ rest, l.mergeField budget m (front ++ rest) = .ok (m₁, rest))
      (hrest : Reads l budget m₁ bytes m₂) : Reads l budget m (front ++ bytes) m₂

variable {l : Layout μ} {budget : Nat}

theorem Reads.append {m m₁ m₂ : μ} {a b : Bytes} (ha : l.Reads budget m a m₁)
    (hb : l.Reads budget m₁ b m₂) : l.Reads budget m (a ++ b) m₂ := by
  induction ha with
  | nil m => exact hb
  | record hsome hread _ ih =>
    rw [List.append_assoc]
    exact .record hsome hread (ih hb)

theorem mergeUntil_of_length_le {limit : Nat} {rest : Bytes} (h : rest.length ≤ limit) (fuel : Nat)
    (m : μ) : l.mergeUntil budget limit fuel m rest = .ok (m, rest) := by
  cases fuel with
  | zero => rfl
  | succ fuel => rw [mergeUntil, if_pos h]

/-- Records are read up to the limit. -/
theorem mergeUntil_of_reads {m m' : μ} {bytes : Bytes} (h : l.Reads budget m bytes m')
    (rest : Bytes) {fuel : Nat} (hfuel : bytes.length ≤ fuel) :
    l.mergeUntil budget rest.length fuel m (bytes ++ rest) = .ok (m', rest) := by
  induction h generalizing fuel with
  | nil m => exact mergeUntil_of_length_le (Nat.le_refl _) fuel m
  | @record m m₁ m₂ front bytes hsome hread _ ih =>
    have hpos := List.length_pos_iff.2 hsome
    rw [List.length_append] at hfuel
    obtain ⟨fuel, rfl⟩ : ∃ k, fuel = k + 1 := ⟨fuel - 1, by omega⟩
    have hmore : ¬ (front ++ bytes ++ rest).length ≤ rest.length := by
      rw [List.length_append, List.length_append]
      omega
    rw [mergeUntil, if_neg hmore, List.append_assoc, hread]
    exact ih (by omega)

/-- A whole input of records is read as what they make of the message without fields. -/
theorem decode_of_reads {m : μ} {bytes : Bytes} (h : l.Reads recursionBudget l.empty bytes m) :
    l.decode bytes = .ok m := by
  have hread := mergeUntil_of_reads h [] (Nat.le_refl _)
  rw [List.append_nil, List.length_nil] at hread
  rw [decode, hread]
  rfl

end Layout

/-! ## Fields -/

namespace Shape

variable {β : Type}

/-- What is written of `v`, read after the default of its field, is read as `v'`. -/
inductive ReadsBack (s : Shape β) (default v v' : β) : Prop where
  | omitted (hwrite : ∀ tag, s.write tag v = []) (hv : v' = default)
  | record (w : WireType) (payload : Bytes)
      (hwrite : ∀ tag, s.write tag v = encodeKey tag w ++ payload)
      (hmerge : ∀ budget u rest, s.merge w budget u (payload ++ rest) = .ok (v', rest))

theorem readsBack_varint {toNat : β → Nat} {ofNat : Nat → β} {v : β} (hlt : toNat v < 2 ^ 64)
    (hback : ofNat (toNat v) = v) : (varint toNat ofNat).ReadsBack (ofNat 0) v v := by
  by_cases hzero : toNat v = 0
  · refine .omitted (fun tag => if_pos hzero) ?_
    rw [← hzero, hback]
  · refine .record .varint (Varint.encode (toNat v)) (fun tag => if_neg hzero) ?_
    intro budget u rest
    simp [varint, Varint.decode_encode hlt, bind, Except.bind, pure, Except.pure, hback]

theorem readsBack_int64 (v : Int64) : int64.ReadsBack 0 v v :=
  readsBack_varint (UInt64.toNat_lt _) (by simp)

theorem readsBack_int32 (v : Int32) : int32.ReadsBack 0 v v := by
  have hlow : BitVec.setWidth 32 (BitVec.signExtend 64 v.toBitVec) = v.toBitVec := by
    ext i hi
    simp [BitVec.getLsbD_signExtend, hi]
    omega
  have hback : v.toInt64.toUInt64.toUInt32.toInt32 = v := by
    apply Int32.toBitVec_inj.1
    simpa using hlow
  exact readsBack_varint (UInt64.toNat_lt _) (by simpa using hback)

theorem readsBack_uint64 (v : UInt64) : uint64.ReadsBack 0 v v :=
  readsBack_varint (UInt64.toNat_lt _) (by simp)

theorem readsBack_uint32 (v : UInt32) : uint32.ReadsBack 0 v v :=
  readsBack_varint (Nat.lt_trans (UInt32.toNat_lt v) (by decide)) (by simp)

theorem readsBack_bool (v : Bool) : bool.ReadsBack false v v :=
  readsBack_varint (Nat.lt_trans (Bool.toNat_lt v) (by decide)) (by cases v <;> rfl)

theorem readsBack_fixed {w : WireType} {width : Nat} {omitted : β → Bool} {toNat : β → Nat}
    {ofNat : Nat → β} {default v : β} (hlt : toNat v < 256 ^ width) (hback : ofNat (toNat v) = v) :
    (fixed w width omitted toNat ofNat).ReadsBack default v (if omitted v then default else v) := by
  by_cases hzero : omitted v = true
  · exact .omitted (fun tag => if_pos hzero) (if_pos hzero)
  · refine .record w (Bytes.littleEndian width (toNat v)) (fun tag => if_neg hzero) ?_
    intro budget u rest
    have htake := Bytes.take?_append (Bytes.littleEndian width (toNat v)) rest
    rw [Bytes.length_littleEndian] at htake
    simp [fixed, takeBytes, htake, bind, Except.bind, pure, Except.pure,
      Bytes.ofLittleEndian_littleEndian, Nat.mod_eq_of_lt hlt, hback, hzero]

theorem readsBack_bytes {v : Bytes} (h : v.length < 2 ^ 64) : bytes.ReadsBack [] v v := by
  by_cases hzero : v.isEmpty = true
  · exact .omitted (fun tag => if_pos hzero) (List.isEmpty_iff.1 hzero)
  · refine .record .lengthDelimited (Varint.encode v.length ++ v) (fun tag => ?_) ?_
    · rw [← List.append_assoc]
      exact if_neg hzero
    · intro budget u rest
      simp only [bytes, expect_self, bind, Except.bind]
      exact takeDelimited_append h rest

theorem readsBack_text {v : String} (h : (Bytes.ofText v).length < 2 ^ 64) :
    text.ReadsBack "" v v := by
  by_cases hzero : (Bytes.ofText v).isEmpty = true
  · refine .omitted (fun tag => if_pos hzero) ?_
    have hread := Bytes.toText?_ofText v
    rw [List.isEmpty_iff.1 hzero] at hread
    exact (Option.some.inj (hread.symm.trans (Bytes.toText?_ofText "")))
  · refine .record .lengthDelimited (Varint.encode (Bytes.ofText v).length ++ Bytes.ofText v)
      (fun tag => ?_) ?_
    · rw [← List.append_assoc]
      exact if_neg hzero
    · intro budget u rest
      simp only [text, expect_self, bind, Except.bind, takeDelimited_append h, Bytes.toText?_ofText,
        pure, Except.pure]

end Shape

/-- The record of a field reads back into the message. -/
theorem Layout.reads_single {μ β : Type} {l : Layout μ} {budget tag : Nat} {name : Option String}
    {shape : Shape β} {get : μ → β} {set : μ → β → μ} {m₀ m : μ} {v : β} (hzero : tag ≠ 0)
    (hmax : tag ≤ 536870911) (hfield : l.field? tag = some (.single tag name shape get set))
    (hset : set m₀ (get m₀) = m₀) (hback : shape.ReadsBack (get m₀) (get m) v) :
    l.Reads budget m₀ ((Field.single tag name shape get set).write m) (set m₀ v) := by
  cases hback with
  | omitted hwrite hv =>
    have hnone : (Field.single tag name shape get set).write m = [] := hwrite tag
    rw [hnone, hv, hset]
    exact .nil m₀
  | record w payload hwrite hmerge =>
    have hsome : (Field.single tag name shape get set).write m = encodeKey tag w ++ payload :=
      hwrite tag
    rw [hsome, ← List.append_nil (encodeKey tag w ++ payload)]
    refine .record (by simp [encodeKey_ne_nil]) (fun rest => ?_) (.nil _)
    rw [List.append_assoc]
    simp only [mergeField, decodeKey_encodeKey hzero hmax, bind, Except.bind, hfield, Field.single,
      hmerge, pure, Except.pure]

end KeyedStream.Proto
