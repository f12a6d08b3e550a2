import Mathlib
import KeyedStream.Proofs.Layout

/-!
# Layouts that lose nothing

A shape loses nothing if the records of a value are read back as the value and their bytes are
counted right (`Shape.Lossless`), and a layout if that holds of its messages (`Layout.Lossless`).
Both are stated for one recursion budget, which a nested message takes one unit of. The shapes of
single values have the property at every budget, and optional and repeated messages inherit it from
the layout of the message. A layout in which every tag leads to one field (`Layout.WellTagged`) has
it if its fields do, which is seen field by field (`Layout.Completes`), or if its only field is one of
alternatives that do (`Layout.lossless_of_oneof`).
-/

namespace KeyedStream.Proto

/-- The largest tag whose key fits 32 bits. -/
def maxTag : Nat := 536870911

theorem length_encodeKey {tag : Nat} (hzero : tag ≠ 0) (hmax : tag ≤ maxTag) (w : WireType) :
    (encodeKey tag w).length = keySize tag := by
  have hw := w.code_lt
  rw [maxTag] at hmax
  have hlog := @Varint.log2_eq_add 3 (tag * 8 + w.code) (by omega)
  have hlog' := @Varint.log2_eq_add 3 (tag * 8) (by omega)
  have hdiv : (tag * 8 + w.code) / 2 ^ 3 = tag * 8 / 2 ^ 3 := by omega
  rw [encodeKey, Varint.length_encode (by omega), keySize, Varint.size, Varint.size, hlog, hdiv,
    ← hlog']

theorem length_delimited {tag : Nat} (hzero : tag ≠ 0) (hmax : tag ≤ maxTag) {payload : Bytes}
    (h : payload.length < 2 ^ 64) :
    (delimited tag payload).length = delimitedSize tag payload.length := by
  rw [delimited, List.length_append, List.length_append, length_encodeKey hzero hmax,
    Varint.length_encode h, delimitedSize]

theorem length_le_length_delimited (tag : Nat) (payload : Bytes) :
    payload.length ≤ (delimited tag payload).length := by
  rw [delimited, List.length_append]
  exact Nat.le_add_left _ _

/-- A nested message is read from its length and its records. -/
theorem Layout.mergeNested_of_reads {μ : Type} {l : Layout μ} {budget : Nat} {m m' : μ}
    {bytes : Bytes} (h : l.Reads budget m bytes m') (hlen : bytes.length < 2 ^ 64) (rest : Bytes) :
    l.mergeNested .lengthDelimited (budget + 1) m (Varint.encode bytes.length ++ bytes ++ rest) =
      .ok (m', rest) := by
  have henough : ¬ (bytes ++ rest).length < bytes.length := by
    rw [List.length_append]
    omega
  have hlimit : (bytes ++ rest).length - bytes.length = rest.length := by
    rw [List.length_append]
    omega
  have hfuel : bytes.length ≤ (bytes ++ rest).length := by
    rw [List.length_append]
    omega
  have hread := mergeUntil_of_reads h rest hfuel
  rw [List.append_assoc, mergeNested]
  simp only [expect_self, bind, Except.bind, Nat.add_one_ne_zero, if_false,
    Varint.decode_encode hlen, henough, hlimit, Nat.add_sub_cancel, hread, if_true, pure,
    Except.pure]

/-! ## Shapes -/

namespace Shape

variable {β : Type}

/-- The bytes are records under a tag that turn a value into another one, whatever follows them. -/
inductive Reads (s : Shape β) (budget tag : Nat) : β → Bytes → β → Prop where
  | nil (v : β) : Reads s budget tag v [] v
  | record {v v₁ v₂ : β} {w : WireType} {payload bytes : Bytes}
      (hmerge : ∀ rest, s.merge w budget v (payload ++ rest) = .ok (v₁, rest))
      (hrest : Reads s budget tag v₁ bytes v₂) :
      Reads s budget tag v (encodeKey tag w ++ payload ++ bytes) v₂

/-- Values are read back, starting from the default of the field, and their bytes are counted. -/
structure Lossless (s : Shape β) (budget : Nat) (default : β) : Prop where
  reads : ∀ {tag v}, (s.write tag v).length < 2 ^ 64 →
    s.Reads budget tag default (s.write tag v) v
  size_eq : ∀ {tag v}, tag ≠ 0 → tag ≤ maxTag → (s.write tag v).length < 2 ^ 64 →
    s.size tag v = (s.write tag v).length

variable {s : Shape β} {budget : Nat} {default : β}

/-- The record of a payload with its length in front, and the records that follow it. -/
theorem Reads.delimited {tag : Nat} {v v₁ v₂ : β} {payload bytes : Bytes}
    (hmerge : ∀ rest, s.merge .lengthDelimited budget v
      (Varint.encode payload.length ++ payload ++ rest) = .ok (v₁, rest))
    (hrest : s.Reads budget tag v₁ bytes v₂) :
    s.Reads budget tag v (delimited tag payload ++ bytes) v₂ := by
  rw [Proto.delimited, List.append_assoc (encodeKey tag .lengthDelimited)]
  exact .record hmerge hrest

theorem ReadsBack.reads {v : β} (h : s.ReadsBack default v v) (budget tag : Nat) :
    s.Reads budget tag default (s.write tag v) v := by
  cases h with
  | omitted hwrite hv =>
    rw [hwrite, ← hv]
    exact .nil v
  | record w payload hwrite hmerge =>
    rw [hwrite, ← List.append_nil (encodeKey tag w ++ payload)]
    exact .record (fun rest => hmerge budget default rest) (.nil v)

/-! ### Single values -/

theorem lossless_varint {toNat : β → Nat} {ofNat : Nat → β} (hlt : ∀ v, toNat v < 2 ^ 64)
    (hback : ∀ v, (varint toNat ofNat).ReadsBack default v v) :
    (varint toNat ofNat).Lossless budget default where
  reads := fun {tag v} _ => (hback v).reads budget tag
  size_eq := by
    intro tag v hzero hmax _
    by_cases hv : toNat v = 0
    · simp [varint, hv]
    · simp [varint, hv, length_encodeKey hzero hmax, Varint.length_encode (hlt v)]

theorem lossless_int64 : int64.Lossless budget 0 :=
  lossless_varint (fun _ => UInt64.toNat_lt _) readsBack_int64

theorem lossless_int32 : int32.Lossless budget 0 :=
  lossless_varint (fun _ => UInt64.toNat_lt _) readsBack_int32

theorem length_le_length_write_bytes (tag : Nat) (v : Bytes) :
    v.length ≤ (bytes.write tag v).length := by
  cases v with
  | nil => exact Nat.zero_le _
  | cons x v => exact length_le_length_delimited tag (x :: v)

theorem size_bytes {tag : Nat} {v : Bytes} (hzero : tag ≠ 0) (hmax : tag ≤ maxTag)
    (hlen : (bytes.write tag v).length < 2 ^ 64) :
    bytes.size tag v = (bytes.write tag v).length := by
  have hv := Nat.lt_of_le_of_lt (length_le_length_write_bytes tag v) hlen
  cases v with
  | nil => rfl
  | cons x v => exact (length_delimited hzero hmax hv).symm

theorem lossless_bytes : bytes.Lossless budget [] where
  reads := by
    intro tag v hlen
    exact (readsBack_bytes (Nat.lt_of_le_of_lt (length_le_length_write_bytes tag v) hlen)).reads
      budget tag
  size_eq := size_bytes

theorem lossless_text : text.Lossless budget "" where
  reads := by
    intro tag v hlen
    have hv := Nat.lt_of_le_of_lt (length_le_length_write_bytes tag (Bytes.ofText v)) hlen
    exact (readsBack_text hv).reads budget tag
  size_eq := size_bytes

/-! ### Lists of values -/

/-- The records of a list are those of its members, each with its length in front. -/
theorem lossless_of_members {s : Shape (List β)} {payload : β → Bytes} {count : β → Nat}
    (hwrite : ∀ tag vs, s.write tag vs = (vs.map fun v => delimited tag (payload v)).flatten)
    (hsize : ∀ tag vs, s.size tag vs = total (vs.map fun v => delimitedSize tag (count v)))
    (hcount : ∀ {v}, (payload v).length < 2 ^ 64 → count v = (payload v).length)
    (hmerge : ∀ {v vs rest}, (payload v).length < 2 ^ 64 → s.merge .lengthDelimited budget vs
      (Varint.encode (payload v).length ++ payload v ++ rest) = .ok (vs ++ [v], rest)) :
    s.Lossless budget [] where
  reads := by
    intro tag vs hlen
    have hfrom : ∀ us, s.Reads budget tag us (s.write tag vs) (us ++ vs) := by
      rw [hwrite] at hlen ⊢
      induction vs with
      | nil =>
        intro us
        rw [List.append_nil]
        exact .nil us
      | cons v vs ih =>
        intro us
        rw [List.map_cons, List.flatten_cons, List.length_append] at hlen
        have hv := length_le_length_delimited tag (payload v)
        rw [List.map_cons, List.flatten_cons, ← List.singleton_append, ← List.append_assoc us]
        exact .delimited (fun rest => hmerge (by omega)) (ih (by omega) (us ++ [v]))
    exact hfrom []
  size_eq := by
    intro tag vs hzero hmax hlen
    rw [hwrite] at hlen ⊢
    rw [hsize]
    induction vs with
    | nil => rfl
    | cons v vs ih =>
      rw [List.map_cons, List.flatten_cons, List.length_append] at hlen
      have hv := length_le_length_delimited tag (payload v)
      have hpayload : (payload v).length < 2 ^ 64 := by omega
      rw [List.map_cons, List.map_cons, List.flatten_cons, List.length_append, ← ih (by omega),
        length_delimited hzero hmax hpayload, hcount hpayload]
      rfl

theorem lossless_repeatedBytes : repeatedBytes.Lossless budget [] := by
  refine @lossless_of_members _ _ _ (fun v => v) List.length (fun _ _ => rfl) (fun _ _ => rfl)
    (fun _ => rfl) ?_
  intro v vs rest hv
  simp only [repeatedBytes, expect_self, bind, Except.bind, takeDelimited_append hv, pure,
    Except.pure]

end Shape

/-! ## Nested messages -/

namespace Layout

variable {μ : Type}

/-- Messages are read back from their encodings, and the bytes of these are counted. -/
structure Lossless (l : Layout μ) (budget : Nat) : Prop where
  reads : ∀ {m}, (l.encode m).length < 2 ^ 64 → l.Reads budget l.empty (l.encode m) m
  size_eq : ∀ {m}, (l.encode m).length < 2 ^ 64 → l.size m = (l.encode m).length

variable {l : Layout μ} {budget : Nat}

theorem Lossless.mergeNested (h : l.Lossless budget) {m : μ} (hlen : (l.encode m).length < 2 ^ 64)
    (rest : Bytes) :
    l.mergeNested .lengthDelimited (budget + 1) l.empty
      (Varint.encode (l.encode m).length ++ l.encode m ++ rest) = .ok (m, rest) :=
  mergeNested_of_reads (h.reads hlen) hlen rest

theorem Lossless.decode_encode (h : l.Lossless recursionBudget) {m : μ}
    (hlen : (l.encode m).length < 2 ^ 64) : l.decode (l.encode m) = .ok m :=
  decode_of_reads (h.reads hlen)

end Layout

namespace Shape

variable {β : Type} {l : Layout β} {budget : Nat}

theorem lossless_optional (h : l.Lossless budget) : (optional l).Lossless (budget + 1) none where
  reads := by
    intro tag v hlen
    cases v with
    | none => exact .nil none
    | some m =>
      have hm := Nat.lt_of_le_of_lt (length_le_length_delimited tag (l.encode m)) hlen
      rw [show (optional l).write tag (some m) = delimited tag (l.encode m) ++ [] from
        (List.append_nil _).symm]
      refine .delimited (fun rest => ?_) (.nil (some m))
      simp only [optional, Option.getD_none, h.mergeNested hm, bind, Except.bind, pure, Except.pure]
  size_eq := by
    intro tag v hzero hmax hlen
    cases v with
    | none => rfl
    | some m =>
      have hm := Nat.lt_of_le_of_lt (length_le_length_delimited tag (l.encode m)) hlen
      simp only [optional, h.size_eq hm, length_delimited hzero hmax hm]

theorem lossless_repeated (h : l.Lossless budget) : (repeated l).Lossless (budget + 1) [] := by
  refine @lossless_of_members _ _ _ l.encode l.size (fun _ _ => rfl) (fun _ _ => rfl) h.size_eq ?_
  intro v vs rest hv
  simp only [repeated, h.mergeNested hv, bind, Except.bind, pure, Except.pure]

end Shape

/-! ## Fields -/

namespace Layout

variable {μ β ε : Type} {l : Layout μ} {budget : Nat}

/-- The tags of the fields of a layout. -/
def tags (l : Layout μ) : List Nat := l.fields.flatMap (·.tags)

/-- Every tag has a key that fits 32 bits, and belongs to one field. -/
def WellTagged (l : Layout μ) : Prop :=
  (∀ tag ∈ l.tags, tag ≠ 0 ∧ tag ≤ maxTag) ∧ l.tags.Nodup

instance (l : Layout μ) : Decidable l.WellTagged :=
  inferInstanceAs (Decidable ((∀ tag ∈ l.tags, tag ≠ 0 ∧ tag ≤ maxTag) ∧ l.tags.Nodup))

theorem find?_of_mem_tags {fields : List (Field μ)} {f : Field μ} {tag : Nat}
    (hnodup : (fields.flatMap (·.tags)).Nodup) (hf : f ∈ fields) (htag : tag ∈ f.tags) :
    fields.find? (fun f => f.tags.contains tag) = some f := by
  induction fields with
  | nil => cases hf
  | cons g fields ih =>
    rw [List.flatMap_cons, List.nodup_append] at hnodup
    obtain ⟨-, hnodup, hapart⟩ := hnodup
    rcases List.mem_cons.1 hf with rfl | hf
    · exact List.find?_cons_of_pos (List.contains_iff_mem.2 htag)
    · have hother : ¬ g.tags.contains tag = true := fun hg =>
        hapart tag (List.contains_iff_mem.1 hg) tag (List.mem_flatMap.2 ⟨f, hf, htag⟩) rfl
      refine Eq.trans (List.find?_cons_of_neg ?_) (ih hnodup hf)
      exact hother

/-- A tag leads to the field that it belongs to. -/
theorem WellTagged.field?_eq (h : l.WellTagged) {f : Field μ} {tag : Nat} (hf : f ∈ l.fields)
    (htag : tag ∈ f.tags) : l.field? tag = some f :=
  find?_of_mem_tags h.2 hf htag

theorem WellTagged.tag_fits (h : l.WellTagged) {f : Field μ} {tag : Nat} (hf : f ∈ l.fields)
    (htag : tag ∈ f.tags) : tag ≠ 0 ∧ tag ≤ maxTag :=
  h.1 tag (List.mem_flatMap.2 ⟨f, hf, htag⟩)

/-- A part of a message: what is set is got, and the last value that is set counts. -/
def IsPart (get : μ → β) (set : μ → β → μ) : Prop :=
  ∀ m v v', get (set m v) = v ∧ set m (get m) = m ∧ set (set m v) v' = set m v'

/-- Records of a field are read into the part of the message that they belong to. -/
theorem reads_of_shape {tag : Nat} {name : Option String} {shape : Shape β} {get : μ → β}
    {set : μ → β → μ} (hwell : l.WellTagged)
    (hfield : .single tag name shape get set ∈ l.fields) (hpart : IsPart get set) {v v' : β}
    {bytes : Bytes} (h : shape.Reads budget tag v bytes v') {m : μ} (hm : get m = v) :
    l.Reads budget m bytes (set m v') := by
  obtain ⟨hzero, hmax⟩ := hwell.tag_fits hfield (List.mem_singleton.2 rfl)
  have hfind := hwell.field?_eq hfield (List.mem_singleton.2 rfl)
  induction h generalizing m with
  | nil v =>
    rw [← hm, (hpart m v v).2.1]
    exact .nil m
  | @record v v₁ v₂ w payload bytes hmerge _ ih =>
    obtain ⟨hget, -, hset⟩ := hpart m v₁ v₂
    have hrest := ih hget
    rw [hset] at hrest
    refine .record (by simp [encodeKey_ne_nil]) (fun rest => ?_) hrest
    rw [List.append_assoc]
    simp only [mergeField, decodeKey_encodeKey hzero hmax, bind, Except.bind, hfind, Field.single,
      hm, hmerge, pure, Except.pure]

/-- Whether reading the records of some fields of `m` makes `m` of `m₀`, and their bytes are
counted. -/
structure Completes (l : Layout μ) (budget : Nat) (m : μ) (fields : List (Field μ)) (m₀ : μ) :
    Prop where
  reads : l.WellTagged → fields ⊆ l.fields →
    ((fields.map fun f => f.write m).flatten).length < 2 ^ 64 →
    l.Reads budget m₀ (fields.map fun f => f.write m).flatten m
  size_eq : l.WellTagged → fields ⊆ l.fields →
    ((fields.map fun f => f.write m).flatten).length < 2 ^ 64 →
    total (fields.map fun f => f.size m) = ((fields.map fun f => f.write m).flatten).length

theorem Completes.nil {m : μ} : l.Completes budget m [] m where
  reads := fun _ _ _ => .nil m
  size_eq := fun _ _ _ => rfl

/-- A field completes its part of the message. -/
theorem Completes.single {m m₀ : μ} {fields : List (Field μ)} {tag : Nat} {name : Option String}
    {shape : Shape β} {get : μ → β} {set : μ → β → μ} (hshape : shape.Lossless budget (get m₀))
    (hpart : IsPart get set) (hrest : l.Completes budget m fields (set m₀ (get m))) :
    l.Completes budget m (.single tag name shape get set :: fields) m₀ where
  reads := by
    intro hwell hfields hlen
    obtain ⟨hfield, hfields⟩ := List.cons_subset.1 hfields
    rw [List.map_cons, List.flatten_cons, List.length_append] at hlen
    have hfirst := hshape.reads (Nat.lt_of_le_of_lt (Nat.le_add_right _ _) hlen)
    rw [List.map_cons, List.flatten_cons]
    exact (reads_of_shape hwell hfield hpart hfirst rfl).append
      (hrest.reads hwell hfields (Nat.lt_of_le_of_lt (Nat.le_add_left _ _) hlen))
  size_eq := by
    intro hwell hfields hlen
    obtain ⟨hfield, hfields⟩ := List.cons_subset.1 hfields
    obtain ⟨hzero, hmax⟩ := hwell.tag_fits hfield (List.mem_singleton.2 rfl)
    rw [List.map_cons, List.flatten_cons, List.length_append] at hlen
    have hfirst := hshape.size_eq hzero hmax (Nat.lt_of_le_of_lt (Nat.le_add_right _ _) hlen)
    rw [List.map_cons, List.map_cons, List.flatten_cons, List.length_append,
      ← hrest.size_eq hwell hfields (Nat.lt_of_le_of_lt (Nat.le_add_left _ _) hlen)]
    exact congrArg (· + _) hfirst

/-- A layout loses nothing if its fields make every message of the one without fields. -/
theorem lossless_of_completes (hwell : l.WellTagged)
    (h : ∀ m, l.Completes budget m l.fields l.empty) : l.Lossless budget where
  reads := fun {m} => (h m).reads hwell (List.Subset.refl _)
  size_eq := fun {m} => (h m).size_eq hwell (List.Subset.refl _)

/-- Whether a value is one of the messages of a field of alternatives, and is written as that one
and read as that one. -/
inductive Held (alternatives : List (Alternative ε)) (budget : Nat) (e : ε) : Prop where
  | message {β : Type} {tag : Nat} {inner : Layout β} {wrap : β → ε} {unwrap? : ε → Option β}
      {v : β} (hinner : inner.Lossless budget)
      (hfind : alternatives.find? (fun a => a.tag = tag) =
        some (.message tag inner wrap unwrap?))
      (hwrite : alternatives.findSome? (fun a => a.write e) =
        some (delimited tag (inner.encode v)))
      (hsize : alternatives.findSome? (fun a => a.size e) =
        some (delimitedSize tag (inner.size v)))
      (hwrap : wrap v = e)

/-- The tag of an alternative is one of the tags of the field. -/
theorem mem_tags_oneof {name : String} {alternatives : List (Alternative ε)} {get : μ → Option ε}
    {set : μ → Option ε → μ} {tag : Nat} {inner : Layout β} {wrap : β → ε} {unwrap? : ε → Option β}
    (hfind : alternatives.find? (fun a => a.tag = tag) = some (.message tag inner wrap unwrap?)) :
    tag ∈ (Field.oneof name alternatives get set).tags :=
  List.mem_map.2 ⟨_, List.mem_of_find?_eq_some hfind, rfl⟩

/-- The record of an alternative is read into the field that it belongs to. -/
theorem mergeField_of_alternative {name : String} {alternatives : List (Alternative ε)}
    {get : μ → Option ε} {set : μ → Option ε → μ} {tag : Nat} {inner : Layout β} {wrap : β → ε}
    {unwrap? : ε → Option β} {m : μ} {v : β} (hwell : l.WellTagged)
    (hfield : .oneof name alternatives get set ∈ l.fields) (hm : get m = none)
    (hinner : inner.Lossless budget)
    (hfind : alternatives.find? (fun a => a.tag = tag) = some (.message tag inner wrap unwrap?))
    (hlen : (inner.encode v).length < 2 ^ 64) (rest : Bytes) :
    l.mergeField (budget + 1) m (delimited tag (inner.encode v) ++ rest) =
      .ok (set m (some (wrap v)), rest) := by
  obtain ⟨hzero, hmax⟩ := hwell.tag_fits hfield (mem_tags_oneof hfind)
  have hlookup := hwell.field?_eq hfield (mem_tags_oneof hfind)
  have hmerge : (Alternative.message tag inner wrap unwrap?).merge .lengthDelimited (budget + 1) none
      (Varint.encode (inner.encode v).length ++ inner.encode v ++ rest) = .ok (wrap v, rest) := by
    simp only [Alternative.message, Option.bind_none, Option.getD_none, hinner.mergeNested hlen,
      bind, Except.bind, pure, Except.pure]
  rw [delimited, List.append_assoc (encodeKey tag .lengthDelimited), List.append_assoc]
  simp only [mergeField, decodeKey_encodeKey hzero hmax, bind, Except.bind, hlookup, Field.oneof,
    hfind, hm, hmerge, pure, Except.pure]

/-- A layout whose only field is one of alternatives loses nothing if the alternatives do not. -/
theorem lossless_of_oneof {name : String} {alternatives : List (Alternative ε)}
    {get : μ → Option ε} {set : μ → Option ε → μ}
    (hwell : l.WellTagged) (hfields : l.fields = [.oneof name alternatives get set])
    (hempty : get l.empty = none) (hset : ∀ m, set l.empty (get m) = m)
    (hheld : ∀ e, Held alternatives budget e) : l.Lossless (budget + 1) := by
  have hfield : .oneof name alternatives get set ∈ l.fields := by
    rw [hfields]
    exact List.mem_singleton.2 rfl
  have hencode : ∀ m, l.encode m =
      ((get m).bind fun e => alternatives.findSome? fun a => a.write e).getD [] := by
    intro m
    simp [encode, hfields, Field.oneof]
  have hsize : ∀ m, l.size m =
      ((get m).bind fun e => alternatives.findSome? fun a => a.size e).getD 0 := by
    intro m
    simp [size, hfields, Field.oneof, total]
  constructor
  · intro m hlen
    rw [hencode] at hlen ⊢
    cases hm : get m with
    | none =>
      have hnone := hset l.empty
      rw [hempty, ← hm, hset] at hnone
      rw [hnone]
      exact .nil l.empty
    | some e =>
      obtain ⟨hinner, hfind, hwrite, -, rfl⟩ := hheld e
      rw [hm, Option.bind_some, hwrite, Option.getD_some] at hlen
      have hv := Nat.lt_of_le_of_lt (length_le_length_delimited _ _) hlen
      have hread := mergeField_of_alternative hwell hfield hempty hinner hfind hv
      rw [← hm, hset] at hread
      rw [Option.bind_some, hwrite, Option.getD_some, ← List.append_nil (delimited _ _)]
      exact .record (delimited_ne_nil _ _) hread (.nil m)
  · intro m hlen
    rw [hencode] at hlen ⊢
    rw [hsize]
    cases hm : get m with
    | none => rfl
    | some e =>
      obtain ⟨hinner, hfind, hwrite, hcount, -⟩ := hheld e
      obtain ⟨hzero, hmax⟩ := hwell.tag_fits hfield (mem_tags_oneof hfind)
      rw [hm, Option.bind_some, hwrite, Option.getD_some] at hlen
      have hv := Nat.lt_of_le_of_lt (length_le_length_delimited _ _) hlen
      rw [Option.bind_some, Option.bind_some, hwrite, hcount, Option.getD_some, Option.getD_some,
        hinner.size_eq hv, length_delimited hzero hmax hv]

end Layout

end KeyedStream.Proto
