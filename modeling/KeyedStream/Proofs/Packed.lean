import Mathlib
import KeyedStream.Codec.Packed
import KeyedStream.Proofs.Records

/-!
# Stored values in MessagePack

What is stored of a value says itself where it ends, so it is read back whatever follows, and a record
is read back from its fields in any order (`ValueCodec.packed_values_delimited`): state that was stored
when the fields came in another order, or when there were more of them, still loads.
-/

namespace KeyedStream

open MsgPack

/-! ## Carts -/

namespace MsgPack.Cart

theorem Draft.finish?_eq_some_iff (s : Draft) (c : Cart) : s.finish? = some c ↔
    Form.uint32.known s.id = some c.id ∧ Form.text.known s.owner = some c.owner ∧
      Form.bool.known s.checkedOut = some c.checkedOut := by
  obtain ⟨id, owner, checkedOut⟩ := s
  obtain ⟨id', owner', checkedOut'⟩ := c
  cases id <;> cases owner <;> cases checkedOut <;>
    simp [Draft.finish?, Form.uint32, Form.text, Form.bool]

/-- Carts, told by their fields. -/
def record : Record Cart Draft where
  fields := [
    { name := "id", form := .uint32, get := Draft.id, set := fun s v => { s with id := some v },
      value := Cart.id, Fits := fun _ => True, lawful := Form.lawful_uint32 },
    { name := "owner", form := .text, get := Draft.owner,
      set := fun s v => { s with owner := some v }, value := Cart.owner, Fits := Form.ShortText,
      lawful := Form.lawful_text },
    { name := "checked_out", form := .bool, get := Draft.checkedOut,
      set := fun s v => { s with checkedOut := some v }, value := Cart.checkedOut,
      Fits := fun _ => True, lawful := Form.lawful_bool }]
  empty := {}
  finish? := Draft.finish?
  nodup := by decide
  get_empty := by simp
  get_set_self := by simp
  get_set_of_ne := by simp
  finish?_eq_some_iff s v := by simpa using s.finish?_eq_some_iff v

/-- No field of a cart may be left out. -/
theorem absent_of_mem : ∀ f ∈ record.fields, f.form.absent = none := by
  simp [record, Form.uint32, Form.text, Form.bool]

theorem form_eq_record : form = record.form := by
  have hwrite : form.write = record.form.write := by
    funext c
    simp [form, Record.form, record, List.append_assoc]
  have hread : form.read = record.form.read := by
    funext bytes
    have hsame : Fields.read record.slots record.empty bytes = Fields.read slots {} bytes := rfl
    simp only [form, Record.form, hsame]
    rcases Fields.read slots {} bytes with _ | ⟨s, rest⟩
    · rfl
    · rfl
  exact congrArg₂ (Form.mk · · none) hwrite hread

end MsgPack.Cart

/-! ## The stored types -/

/-- A value whose lengths are written in at most four bytes. -/
def PackedType.Fits : (t : PackedType) → t.Carrier → Prop
  | string, (v : String) => Form.ShortText v
  | int64s, (v : List Int64) => v.length < 2 ^ 32
  | map, v => Form.FitsMap (fun _ => True) v
  | cart, v => Form.ShortText v.owner
  | bytes, (v : Bytes) => v.length < 2 ^ 32
  | _, _ => True

theorem MsgPack.Cart.fits_record {c : Cart} (h : Form.ShortText c.owner) : Cart.record.Fits c := by
  have hnames : ∀ name ∈ Cart.record.fields.map Field.name, Form.ShortText name := by decide +kernel
  have hfits : ∀ f ∈ Cart.record.fields, f.Fits (f.value c) := by simpa [Cart.record] using h
  exact ⟨by decide, fun f hf => ⟨hnames _ (List.mem_map_of_mem hf), hfits f hf⟩⟩

theorem PackedType.lawful_form (t : PackedType) : t.form.Lawful t.Fits := by
  cases t with
  | int64 => exact Form.lawful_int64
  | uint32 => exact Form.lawful_uint32
  | double => exact Form.lawful_double
  | bool => exact Form.lawful_bool
  | string => exact Form.lawful_text
  | int64s => exact Form.lawful_int64s
  | map => exact Form.lawful_map Form.lawful_int64
  | optionalInt64 =>
    exact (Form.lawful_optional Form.lawful_int64 Form.int64_ne_nil).mono fun _ _ _ _ => trivial
  | cart =>
    have hf := (Cart.record.lawful_form).mono fun c => Cart.fits_record
    rwa [← Cart.form_eq_record] at hf
  | bytes => exact Form.lawful_bytes

namespace ValueCodec

/-- The values that fit are read back, whatever follows them. -/
def Delimits {α : Type} (c : ValueCodec α) (Fits : α → Prop) : Prop :=
  ∀ v, Fits v → ∀ tail, ∃ stored, c.encode v = .ok stored ∧ c.decode (stored ++ tail) = .ok v

theorem delimits_ofForm {α : Type} {f : Form α} {Fits : α → Prop} (hf : f.Lawful Fits)
    (complaint : Bytes → String) : (ofForm f complaint).Delimits Fits := by
  intro v hv tail
  refine ⟨f.write v, rfl, ?_⟩
  simp only [ofForm, hf.read_write hv]

theorem decode_ofForm {α : Type} {f : Form α} {bytes rest : Bytes} {v : α}
    (h : f.read bytes = some (v, rest)) (complaint : Bytes → String) :
    (ofForm f complaint).decode bytes = .ok v := by
  simp only [ofForm, h]

theorem decode_ofForm_eq_error {α : Type} {f : Form α} {bytes : Bytes} (h : f.read bytes = none)
    (complaint : Bytes → String) :
    (ofForm f complaint).decode bytes = .error (.packDecode (complaint bytes)) := by
  simp only [ofForm, h]

/-- **Stored values say themselves where they end, and fields come in any order.** A value of a stored
type is read back, whatever follows it; so is an integer of any type that the format has room for, and a
map from the entries that it is written with in any order. Records of any fields are read back too, and
not just as they are written: it is enough that the entries name each field once, with the value as it
is written, among entries of other names that do not nest too deep; a field whose form has a value for
that, as options have none, may be left out. A map that misses any other field, or repeats one, is an
error. Carts are records of this kind, and all their fields must come. -/
theorem packed_values_delimited (complaint : Bytes → String) :
    (∀ t : PackedType, (packed t complaint).Delimits t.Fits) ∧
    (∀ {α : Type} {low high : Int} {toInt : α → Int} {wrap : Int → α},
      -2 ^ 63 ≤ low → high < 2 ^ 64 → (∀ v, low ≤ toInt v ∧ toInt v ≤ high) →
      (∀ v, wrap (toInt v) = v) →
      (ofForm (Form.integer low high toInt wrap) complaint).Delimits fun _ => True) ∧
    (∀ {α : Type} {f : Form α} {Fits : α → Prop}, f.Lawful Fits →
      ∀ m : Ordered String α, Form.FitsMap Fits m →
      ∀ entries : List (String × α), entries.Perm m.entries → ∀ tail,
        (ofForm f.map complaint).decode (Head.writeMap m.size ++
          ((entries.map (Form.text.pair f).write).flatten ++ tail)) = .ok m) ∧
    (∀ {ρ σ : Type} (r : Record ρ σ), (ofForm r.form complaint).Delimits r.Fits ∧
      ∀ (es : List Entry) (head tail : Bytes), (Head.map es.length).Spelling head →
        (∀ v, r.Fits v → (∀ e ∈ es, r.Answers v e) → (∀ f ∈ r.fields, r.Gives es v f) →
          (ofForm r.form complaint).decode (head ++ ((es.map Entry.bytes).flatten ++ tail)) =
            .ok v) ∧
        ((∀ e ∈ es, e.Sound) → (∃ f ∈ r.fields, r.Spoils es f) →
          (ofForm r.form complaint).decode (head ++ ((es.map Entry.bytes).flatten ++ tail)) =
            .error (.packDecode (complaint (head ++ ((es.map Entry.bytes).flatten ++ tail)))))) ∧
    packed .cart complaint = ofForm Cart.record.form complaint ∧
    ∀ f ∈ Cart.record.fields, f.form.absent = none := by
  refine ⟨fun t => ?_, fun hmin hmax hbounds hwrap => ?_, fun hf m hm entries hperm tail => ?_,
    fun r => ⟨delimits_ofForm r.lawful_form complaint, fun es head tail hs => ⟨?_, ?_⟩⟩, ?_, ?_⟩
  · exact delimits_ofForm t.lawful_form complaint
  · exact delimits_ofForm (Form.lawful_integer hmin hmax hbounds hwrap) complaint
  · have hs := Head.spelling_writeMap hm.1
    rw [Ordered.size, ← hperm.length_eq] at hs ⊢
    exact decode_ofForm (hf.read_map_of_perm hm hperm hs tail) complaint
  · intro v hv hes hgives
    exact decode_ofForm (Record.read_of_answers hv hes hgives hs tail) complaint
  · rintro hes ⟨f, hf, hspoils⟩
    exact decode_ofForm_eq_error (Record.read_eq_none hs hes hf hspoils tail) complaint
  · rw [packed, PackedType.form, Cart.form_eq_record]
  · exact Cart.absent_of_mem

/-- A cart's fields in another order than a cart is written in, and one that carts do not have. -/
def sampleFields : List (String × Bytes) := [
  ("checked_out", Form.bool.write true), ("tags", [0x92, 0x01, 0x81, 0xa1, 0x61, 0xc0]),
  ("owner", Form.text.write "ada"), ("id", Form.uint32.write 7)]

def sampleEntries : List Entry := sampleFields.map fun e => .named e.1 e.2

/-- What is said of a cart without its last field. -/
def sampleComplaint : Bytes → String := fun _ => "missing field `checked_out`"

theorem packed_values_delimited_cart :
    (packed .cart sampleComplaint).decode (Head.writeMap 4 ++
      ((sampleEntries.map Entry.bytes).flatten ++ [0xff])) = .ok ⟨7, "ada", true⟩ ∧
    (packed .cart sampleComplaint).decode (Head.writeMap 3 ++
      ((sampleEntries.tail.map Entry.bytes).flatten ++ [0xff])) =
        .error (.packDecode "missing field `checked_out`") := by
  obtain ⟨-, -, -, hrecords, hcart, -⟩ := packed_values_delimited sampleComplaint
  obtain ⟨-, hread⟩ := hrecords Cart.record
  have hfits : Cart.record.Fits ⟨7, "ada", true⟩ := Cart.fits_record (by decide +kernel)
  have hshort : ∀ e ∈ sampleFields, Form.ShortText e.1 := by decide +kernel
  have hfield : ∀ f ∈ Cart.record.fields, Cart.record.Answers ⟨7, "ada", true⟩ (Record.entry _ f) :=
    fun f => Record.answers_entry hfits
  have htags : Cart.record.Answers ⟨7, "ada", true⟩
      (.named "tags" [0x92, 0x01, 0x81, 0xa1, 0x61, 0xc0]) := by
    have hskip : skip (nestingBudget - 1) [0x92, 0x01, 0x81, 0xa1, 0x61, 0xc0] = some [] := by decide
    obtain ⟨b, hb, heq⟩ := (skip_eq_some_iff (by decide)).1 hskip
    rw [List.append_nil] at heq
    have hs := Head.spelling_writeText (hshort _ (.tail _ (.head _)))
    exact .inr ⟨Record.namesNothing_text hs (by simp [Cart.record]), _, by decide, heq ▸ hb⟩
  have hanswers : ∀ e ∈ sampleEntries, Cart.record.Answers ⟨7, "ada", true⟩ e := by
    simp only [sampleEntries, sampleFields, List.map_cons, List.map_nil, List.forall_mem_cons]
    exact ⟨hfield _ (.tail _ (.tail _ (.head _))), htags, hfield _ (.tail _ (.head _)),
      hfield _ (.head _), by simp⟩
  have hs : (Head.map sampleEntries.length).Spelling (Head.writeMap 4) :=
    Head.spelling_writeMap (by decide)
  have hs' : (Head.map sampleEntries.tail.length).Spelling (Head.writeMap 3) :=
    Head.spelling_writeMap (by decide)
  rw [hcart]
  constructor
  · refine (hread sampleEntries _ [0xff] hs).1 _ hfits hanswers fun f hf => ?_
    have honce : ∀ name ∈ Cart.record.fields.map Field.name,
        (sampleFields.map Prod.fst).count name = 1 := by decide
    rw [Record.Gives, sampleEntries, Record.times_texts hf hshort]
    exact .inl (honce _ (List.mem_map_of_mem hf))
  · refine (hread sampleEntries.tail _ [0xff] hs').2 ?_ ?_
    · exact fun e he => (hanswers e (List.mem_of_mem_tail he)).sound hfits
    · have hf : Cart.record.fields[2] ∈ Cart.record.fields := List.getElem_mem _
      refine ⟨_, hf, .inr ⟨?_, rfl⟩⟩
      rw [sampleEntries, ← List.map_tail,
        Record.times_texts hf fun e he => hshort e (List.mem_of_mem_tail he)]
      decide

end ValueCodec

end KeyedStream
