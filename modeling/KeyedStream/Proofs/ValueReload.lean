import Mathlib
import KeyedStream.Codec.ValueType
import KeyedStream.Proofs.Scalar
import KeyedStream.Proofs.Store
import KeyedStream.State.Spec

/-!
# Values that are stored and loaded again

The row of a value is loaded, the value is edited, and the change that its last edit asks for is
applied to the row. What is loaded from it then is what was there to be seen
(`ValueState.value_stored_as_seen`).

An empty row is never read: it stands for the default value. A codec that stores some other value as
no bytes at all would lose it, so the law rests on what is common to the built-in codecs: an empty
stored form is that of the default value (`ValueCodec.BuiltIn.eq_default`).
-/

namespace KeyedStream

/-! ## Built-in codecs -/

namespace ValueCodec

/-- The codecs that come with the library. Of MessagePack, which others write and read for types that
are not known here, nothing is asked but that what is written has a head, and so is not empty. -/
inductive BuiltIn : {α : Type} → [Inhabited α] → ValueCodec α → Prop
  | scalar (t : ScalarType) (width : IntWidth) : BuiltIn (.scalar t width)
  | bigEndian64 : BuiltIn .bigEndian64
  | raw : BuiltIn .raw
  | messagePack {α : Type} [Inhabited α] {codec : ValueCodec α}
    (headed : ∀ v payload, codec.encode v = .ok payload → payload ≠ []) : BuiltIn codec

/-- A value that is read back from its stored form. -/
def Storable {α : Type} (codec : ValueCodec α) (v : α) : Prop :=
  ∃ payload, codec.encode v = .ok payload ∧ codec.decode payload = .ok v

/-- Of the values that are read back, only the default value has an empty stored form. -/
theorem BuiltIn.eq_default {α : Type} [Inhabited α] {codec : ValueCodec α} (h : codec.BuiltIn) {v : α}
    (hencode : codec.encode v = .ok []) (hdecode : codec.decode [] = .ok v) : v = default := by
  cases h with
  | scalar t width =>
    have hzero : t.decode width [] = .ok t.zero := t.decode_nil width
    exact Except.ok.inj (hdecode.symm.trans hzero)
  | bigEndian64 =>
    have hlength := congrArg List.length (Except.ok.inj hencode)
    simp at hlength
  | raw => exact (Except.ok.inj hdecode).symm
  | messagePack headed => exact absurd rfl (headed v [] hencode)

end ValueCodec

/-! ### What is packed has a head -/

namespace MsgPack.Head

theorem sized_ne_nil (marker width n : Nat) : sized marker width n ≠ [] := List.cons_ne_nil _ _

/-- Of two heads that are not empty, the one that is chosen is not empty. -/
theorem ite_ne_nil {c : Prop} [Decidable c] {a b : Bytes} (ha : a ≠ []) (hb : b ≠ []) :
    (if c then a else b) ≠ [] := by
  split
  · exact ha
  · exact hb

theorem writeUnsigned_ne_nil (n : Nat) : writeUnsigned n ≠ [] := by
  refine ite_ne_nil (List.cons_ne_nil _ _) (ite_ne_nil ?_ (ite_ne_nil ?_ (ite_ne_nil ?_ ?_))) <;>
    exact sized_ne_nil _ _ _

theorem writeNegative_ne_nil (n : Nat) : writeNegative n ≠ [] := by
  refine ite_ne_nil (List.cons_ne_nil _ _) (ite_ne_nil ?_ (ite_ne_nil ?_ (ite_ne_nil ?_ ?_))) <;>
    exact sized_ne_nil _ _ _

theorem writeInt_ne_nil (n : Int) : writeInt n ≠ [] :=
  ite_ne_nil (writeNegative_ne_nil _) (writeUnsigned_ne_nil _)

theorem writeText_ne_nil (n : Nat) : writeText n ≠ [] := by
  refine ite_ne_nil (List.cons_ne_nil _ _) (ite_ne_nil ?_ (ite_ne_nil ?_ ?_)) <;>
    exact sized_ne_nil _ _ _

theorem writeBinary_ne_nil (n : Nat) : writeBinary n ≠ [] := by
  refine ite_ne_nil ?_ (ite_ne_nil ?_ ?_) <;> exact sized_ne_nil _ _ _

theorem writeArray_ne_nil (n : Nat) : writeArray n ≠ [] := by
  refine ite_ne_nil (List.cons_ne_nil _ _) (ite_ne_nil ?_ ?_) <;> exact sized_ne_nil _ _ _

theorem writeMap_ne_nil (n : Nat) : writeMap n ≠ [] := by
  refine ite_ne_nil (List.cons_ne_nil _ _) (ite_ne_nil ?_ ?_) <;> exact sized_ne_nil _ _ _

end MsgPack.Head

open MsgPack in
theorem PackedType.write_ne_nil (t : PackedType) (v : t.Carrier) : t.form.write v ≠ [] := by
  cases t with
  | int64 => exact Head.writeInt_ne_nil _
  | uint32 => exact Head.writeUnsigned_ne_nil _
  | double => exact List.cons_ne_nil _ _
  | bool => cases v <;> exact List.cons_ne_nil _ _
  | string => exact List.append_ne_nil_of_left_ne_nil (Head.writeText_ne_nil _) _
  | int64s => exact List.append_ne_nil_of_left_ne_nil (Head.writeArray_ne_nil _) _
  | map => exact List.append_ne_nil_of_left_ne_nil (Head.writeMap_ne_nil _) _
  | optionalInt64 =>
    cases v with
    | none => exact List.cons_ne_nil _ _
    | some n => exact Head.writeInt_ne_nil _
  | cart => exact List.cons_ne_nil _ _
  | bytes => exact List.append_ne_nil_of_left_ne_nil (Head.writeBinary_ne_nil _) _

theorem ValueCodec.builtIn_packed (t : PackedType) (complaint : Bytes → String)
    [Inhabited t.Carrier] : (ValueCodec.packed t complaint).BuiltIn := by
  refine .messagePack fun v payload hencode => ?_
  rw [← Except.ok.inj hencode]
  exact t.write_ne_nil v

/-! ## Edits -/

/-- What is done to a value state. Only values that are read back are put in it. -/
inductive ValueEdit {α : Type} (codec : ValueCodec α) where
  | set (v : α) (hv : codec.Storable v)
  | drop

namespace ValueState

variable {α : Type} [Inhabited α] {codec : ValueCodec α}

/-- A value state after an edit. -/
def edit (s : ValueState α) : ValueEdit codec → ValueState α
  | .set v _ => s.set v
  | .drop => s.drop

/-- A value state after edits, one after the other. -/
def edited (s : ValueState α) (edits : List (ValueEdit codec)) : ValueState α :=
  edits.foldl edit s

/-- Edits leave the name and the codec. -/
theorem edited_keeps (s : ValueState α) (edits : List (ValueEdit codec)) :
    (s.edited edits).name = s.name ∧ (s.edited edits).codec = s.codec := by
  induction edits generalizing s with
  | nil => exact ⟨rfl, rfl⟩
  | cons e edits ih => cases e <;> exact ih _

theorem edited_concat (s : ValueState α) (edits : List (ValueEdit codec)) (e : ValueEdit codec) :
    s.edited (edits ++ [e]) = (s.edited edits).edit e :=
  List.foldl_append

/-! ## The stored row -/

/-- The rows of a value state: one that is keyed by its name, or none. -/
def rowOf (name : String) (stored : Option Bytes) : List StateEntry :=
  (stored.map fun payload => ⟨Bytes.ofText name, payload⟩).toList

theorem applyAll_put (name : String) (stored : Option Bytes) (payload : Bytes) :
    Mutation.applyAll [.put (Bytes.ofText name) payload] (rowOf name stored) =
      rowOf name (some payload) := by
  cases stored <;> simp [Mutation.applyAll, Mutation.apply, rowOf]

theorem applyAll_delete (name : String) (stored : Option Bytes) :
    Mutation.applyAll [.delete (Bytes.ofText name)] (rowOf name stored) = rowOf name none := by
  cases stored <;> simp [Mutation.applyAll, Mutation.apply, rowOf]

/-- The state without a stored row, with a value in place of the default one. -/
def loaded (name : String) (codec : ValueCodec α) (v : α) : ValueState α := { new name codec with value := v }

theorem ofRows_none (name : String) (codec : ValueCodec α) :
    ofRows name codec (rowOf name none) = .ok (loaded name codec default) := rfl

theorem ofRows_empty (name : String) (codec : ValueCodec α) :
    ofRows name codec (rowOf name (some [])) = .ok (loaded name codec default) := rfl

theorem ofRows_of_decode {payload : Bytes} {v : α} (hpayload : payload ≠ [])
    (hdecode : codec.decode payload = .ok v) (name : String) :
    ofRows name codec (rowOf name (some payload)) = .ok (loaded name codec v) := by
  have hload : ofRows name codec (rowOf name (some payload)) =
      (liftCodec (codec.decode payload)).map (loaded name codec) := load_cons (new name codec) [] hpayload
  rw [hload, hdecode]
  rfl

/-- A row that is absent, empty or can be read is loaded. -/
theorem exists_loaded (name : String) {stored : Option Bytes}
    (hstored : ∀ payload, stored = some payload → payload ≠ [] → ∃ v, codec.decode payload = .ok v) :
    ∃ v, ofRows name codec (rowOf name stored) = .ok (loaded name codec v) := by
  cases stored with
  | none => exact ⟨_, ofRows_none name codec⟩
  | some payload =>
    by_cases hpayload : payload = []
    · exact ⟨_, hpayload ▸ ofRows_empty name codec⟩
    · obtain ⟨v, hdecode⟩ := hstored payload rfl hpayload
      exact ⟨v, ofRows_of_decode hpayload hdecode name⟩

/-- What was stored is loaded, if it can be read back. -/
theorem ofRows_of_storable (hcodec : codec.BuiltIn) {v : α} {payload : Bytes}
    (hencode : codec.encode v = .ok payload) (hdecode : codec.decode payload = .ok v) (name : String) :
    ofRows name codec (rowOf name (some payload)) = .ok (loaded name codec v) := by
  by_cases hpayload : payload = []
  · subst hpayload
    rw [hcodec.eq_default hencode hdecode]
    exact ofRows_empty name codec
  · exact ofRows_of_decode hpayload hdecode name

/-! ## The last edit -/

theorem mutations_of_drop (name : String) (v : α) (edits : List (ValueEdit codec)) :
    ((loaded name codec v).edited (edits ++ [.drop])).mutations =
      .ok [.delete (Bytes.ofText name)] := by
  obtain ⟨hname, -⟩ := edited_keeps (loaded name codec v) edits
  rw [edited_concat]
  simp only [edit, drop, mutations, rowKey, hname]
  rfl

theorem mutations_of_set (name : String) (v₀ : α) (edits : List (ValueEdit codec)) {v : α}
    (hv : codec.Storable v) {payload : Bytes} (hencode : codec.encode v = .ok payload) :
    ((loaded name codec v₀).edited (edits ++ [.set v hv])).mutations =
      .ok [.put (Bytes.ofText name) payload] := by
  obtain ⟨hname, hcodec⟩ : ((loaded name codec v₀).edited edits).name = name ∧
      ((loaded name codec v₀).edited edits).codec = codec := edited_keeps _ edits
  rw [edited_concat]
  simp only [edit, set, mutations, rowKey, hname, hcodec, hencode]
  rfl

/-- **A value is stored as it was seen.** The row of a value is absent, empty or can be read, and is
loaded; the value is edited, with values that are read back. No change is rendered if it was not
edited at all; else it is the one change of its row that the last edit asks for. The change is
applied to the row, and what is then loaded is the value that was there to be seen. -/
theorem value_stored_as_seen (hcodec : codec.BuiltIn) (name : String) (stored : Option Bytes)
    (hstored : ∀ payload, stored = some payload → payload ≠ [] → ∃ v, codec.decode payload = .ok v)
    (edits : List (ValueEdit codec)) :
    ∃ s, ofRows name codec (rowOf name stored) = .ok s ∧
      ∃ ms, (s.edited edits).mutations = .ok ms ∧
        (ms = [] ↔ edits = []) ∧
        (ms = [.delete (Bytes.ofText name)] ↔ edits.getLast? = some .drop) ∧
        (∀ payload, ms = [.put (Bytes.ofText name) payload] ↔
          ∃ v hv, edits.getLast? = some (.set v hv) ∧ codec.encode v = .ok payload) ∧
        ∃ s', ofRows name codec (Mutation.applyAll ms (rowOf name stored)) = .ok s' ∧
          s'.value = (s.edited edits).value := by
  obtain ⟨v₀, hload⟩ := exists_loaded name hstored
  refine ⟨loaded name codec v₀, hload, ?_⟩
  obtain rfl | ⟨edits, e, rfl⟩ := edits.eq_nil_or_concat'
  · exact ⟨[], rfl, by simp, by simp, by simp, _, hload, rfl⟩
  · cases e with
    | drop =>
      refine ⟨_, mutations_of_drop name v₀ edits, by simp, by simp, by simp,
        loaded name codec default, ?_, ?_⟩
      · rw [applyAll_delete, ofRows_none]
      · rw [edited_concat]
        rfl
    | set v hv =>
      obtain ⟨payload, hencode, hdecode⟩ := id hv
      refine ⟨_, mutations_of_set name v₀ edits hv hencode, by simp, by simp, fun payload' => ?_,
        loaded name codec v, ?_, ?_⟩
      · simp only [List.getLast?_append, List.getLast?_singleton, Option.some_or, Option.some.injEq,
          ValueEdit.set.injEq, List.cons.injEq, Mutation.put.injEq, true_and, and_true]
        constructor
        · rintro rfl
          exact ⟨v, hv, rfl, hencode⟩
        · rintro ⟨_, -, rfl, hencode'⟩
          exact Except.ok.inj (hencode.symm.trans hencode')
      · rw [applyAll_put, ofRows_of_storable hcodec hencode hdecode]
      · rw [edited_concat]
        rfl

/-- A stored count is dropped and then set to zero, which leaves an empty row. -/
def zeroEdits : List (ValueEdit (.scalar .int64 .w64)) :=
  [.drop, .set (0 : Int64) ⟨[], rfl, rfl⟩]

/-- How carts are stored; what is said of bytes that are no cart does not matter here. -/
def cartCodec : ValueCodec MsgPack.Cart := .packed .cart fun _ => ""

/-- A stored cart is changed. -/
def cartEdits : List (ValueEdit cartCodec) :=
  [.set ⟨7, "ada", true⟩ ⟨_, rfl, rfl⟩]

theorem value_stored_as_seen_samples :
    (ValueCodec.BuiltIn (.scalar .int64 .w64) ∧
      ∃ s s', ofRows "count" (.scalar .int64 .w64) (rowOf "count" (some [8, 5])) = .ok s ∧
        (s.edited zeroEdits).mutations = .ok [.put (Bytes.ofText "count") []] ∧
        ofRows "count" (.scalar .int64 .w64) (rowOf "count" (some [])) = .ok s' ∧
        s'.value = (0 : Int64)) ∧
    (cartCodec.BuiltIn ∧
      ∃ s payload s', ofRows "cart" cartCodec (rowOf "cart" none) = .ok s ∧
        (s.edited cartEdits).mutations = .ok [.put (Bytes.ofText "cart") payload] ∧
        ofRows "cart" cartCodec (rowOf "cart" (some payload)) = .ok s' ∧
        s'.value = (⟨7, "ada", true⟩ : MsgPack.Cart)) := by
  constructor
  · have hbuiltIn : ValueCodec.BuiltIn (.scalar .int64 .w64) := .scalar .int64 .w64
    obtain ⟨s, hload, ms, hms, -, -, hput, s', hload', hvalue⟩ :=
      value_stored_as_seen hbuiltIn "count" (some [8, 5])
        (by rintro _ ⟨⟩ -; exact ⟨(5 : Int64), rfl⟩) zeroEdits
    obtain rfl := (hput []).2 ⟨(0 : Int64), ⟨[], rfl, rfl⟩, rfl, rfl⟩
    rw [applyAll_put] at hload'
    cases hload
    exact ⟨hbuiltIn, _, s', rfl, hms, hload', hvalue⟩
  · have hbuiltIn : cartCodec.BuiltIn := ValueCodec.builtIn_packed .cart _
    obtain ⟨s, hload, ms, hms, -, -, hput, s', hload', hvalue⟩ :=
      value_stored_as_seen hbuiltIn "cart" none (by rintro _ ⟨⟩) cartEdits
    obtain rfl := (hput _).2 ⟨_, ⟨_, rfl, rfl⟩, rfl, rfl⟩
    rw [applyAll_put] at hload'
    cases hload
    exact ⟨hbuiltIn, _, _, s', rfl, hms, hload', hvalue⟩

end ValueState

end KeyedStream
