import Mathlib
import KeyedStream.MsgPack.Fields
import KeyedStream.Proofs.Forms

/-!
# Records in any order of their fields

A record is told by its fields, and by drafts that know some of them (`Record`). Read from a map, it
takes every field from the entry that names it, wherever that entry stands, and reads over the entries
that name nothing (`Record.read_of_answers`). Each field has to be named exactly once, unless its form
has a value for one that is left out: the entries of any map that is read give every field in this way
(`Record.gives_of_read`), so a map that has a field twice, or leaves out one that it must have, is not
read (`Record.read_eq_none`).
-/

namespace KeyedStream.MsgPack

/-- A field of the records `ρ`, which are read by way of the drafts `σ`. -/
structure Field (ρ σ : Type) where
  {α : Type}
  name : String
  form : Form α
  get : σ → Option α
  set : σ → α → σ
  value : ρ → α
  Fits : α → Prop
  lawful : form.Lawful Fits

def Field.slot {ρ σ : Type} (f : Field ρ σ) : Slot σ := MsgPack.slot f.name f.form f.get f.set

/-- Fields with different names, each of which a draft holds on its own, and the record that has them
all. -/
structure Record (ρ σ : Type) where
  fields : List (Field ρ σ)
  empty : σ
  finish? : σ → Option ρ
  nodup : (fields.map Field.name).Nodup
  get_empty : ∀ f ∈ fields, f.get empty = none
  get_set_self : ∀ f ∈ fields, ∀ s v, f.get (f.set s v) = some v
  get_set_of_ne : ∀ f ∈ fields, ∀ g ∈ fields, g.name ≠ f.name → ∀ s v, g.get (f.set s v) = g.get s
  finish?_eq_some_iff : ∀ s v,
    finish? s = some v ↔ ∀ f ∈ fields, f.form.known (f.get s) = some (f.value v)

/-- An entry of a map, as its key and its value are written. -/
structure Entry where
  key : Bytes
  value : Bytes

namespace Entry

def bytes (e : Entry) : Bytes := e.key ++ e.value

/-- An entry whose key is a text. -/
def named (name : String) (value : Bytes) : Entry := ⟨Form.text.write name, value⟩

/-- An entry of two values. -/
def Sound (e : Entry) : Prop :=
  (∃ depth, WellFormed depth e.key) ∧ ∃ depth, WellFormed depth e.value

/-- The keys and the values of entries, one after the other. -/
def items (es : List Entry) : List Bytes := es.flatMap fun e => [e.key, e.value]

theorem length_items (es : List Entry) : (items es).length = 2 * es.length := by
  simp [items, List.length_flatMap, Nat.mul_comm]

theorem flatten_items (es : List Entry) : (items es).flatten = (es.map bytes).flatten := by
  induction es with
  | nil => rfl
  | cons e es ih =>
    rw [items, List.flatMap_cons, List.flatten_append, ← items, ih]
    simp [bytes]

theorem exists_wellFormed_of_mem_items {es : List Entry} (hes : ∀ e ∈ es, e.Sound) :
    ∀ item ∈ items es, ∃ depth, WellFormed depth item := by
  intro item hitem
  obtain ⟨e, he, hmem⟩ := List.mem_flatMap.1 hitem
  rcases List.mem_pair.1 hmem with rfl | rfl
  · exact (hes e he).1
  · exact (hes e he).2

/-- A map is a value, made of the keys and the values of its entries. -/
theorem exists_wellFormed {es : List Entry} (hes : ∀ e ∈ es, e.Sound) {head : Bytes}
    (hs : (Head.map es.length).Spelling head) :
    ∃ depth, WellFormed depth (head ++ (es.map bytes).flatten) := by
  obtain ⟨depth, hdepth⟩ := exists_depth (exists_wellFormed_of_mem_items hes)
  rw [← flatten_items]
  exact ⟨depth + 1, .values hs (by rw [Head.content, length_items]) hdepth⟩

/-- Bytes are entries in one way only. -/
theorem eq_of_flatten {es es' : List Entry} (hes : ∀ e ∈ es, e.Sound) (hes' : ∀ e ∈ es', e.Sound)
    (hlen : es.length = es'.length) {rest rest' : Bytes}
    (h : (es.map bytes).flatten ++ rest = (es'.map bytes).flatten ++ rest') :
    es = es' ∧ rest = rest' := by
  induction es generalizing es' with
  | nil =>
    obtain rfl := List.length_eq_zero_iff.1 hlen.symm
    exact ⟨rfl, h⟩
  | cons e es ih =>
    cases es' with
    | nil => cases hlen
    | cons e' es' =>
      obtain ⟨⟨_, hkey⟩, _, hvalue⟩ := hes e List.mem_cons_self
      obtain ⟨⟨_, hkey'⟩, _, hvalue'⟩ := hes' e' List.mem_cons_self
      simp only [List.map_cons, List.flatten_cons, bytes, List.append_assoc] at h
      obtain ⟨hk, h⟩ := hkey.append_inj hkey' h
      obtain ⟨hv, h⟩ := hvalue.append_inj hvalue' h
      obtain ⟨rfl, hrest⟩ := ih (fun i hi => hes i (List.mem_cons_of_mem _ hi))
        (fun i hi => hes' i (List.mem_cons_of_mem _ hi)) (Nat.succ.inj hlen) h
      obtain ⟨_, _⟩ := e
      obtain ⟨_, _⟩ := e'
      cases hk
      cases hv
      exact ⟨rfl, hrest⟩

end Entry

/-! ## Keys -/

/-- A way to write a key: a text or a byte string for a name, a number for a place. -/
inductive Fields.Key.Spelled : Fields.Key → Bytes → Prop
  | text {b head : Bytes} (hs : (Head.text b.length).Spelling head) : Spelled (.name b) (head ++ b)
  | binary {b head : Bytes} (hs : (Head.binary b.length).Spelling head) :
    Spelled (.name b) (head ++ b)
  | place {n : Nat} {head : Bytes} (hs : (Head.unsigned n).Spelling head) : Spelled (.place n) head

namespace Fields.Key.Spelled

variable {k k' : Fields.Key} {key key' : Bytes}

theorem wellFormed (hk : k.Spelled key) : WellFormed 0 key := by
  cases hk with
  | text hs | binary hs => exact .bytes hs rfl rfl
  | place hs => exact wellFormed_of_head hs rfl

theorem readKey (hk : k.Spelled key) (rest : Bytes) : readKey (key ++ rest) = some (k, rest) := by
  cases hk with
  | text hs | binary hs =>
    simp only [Fields.readKey, List.append_assoc, Head.read_of_spelling hs, Bytes.take?_append,
      Option.map_some]
  | place hs => simp only [Fields.readKey, Head.read_of_spelling hs]

theorem eq (hk : k.Spelled key) (hk' : k'.Spelled key) : k = k' := by
  have h := (hk.readKey []).symm.trans (hk'.readKey [])
  simpa using h

end Fields.Key.Spelled

theorem Fields.exists_of_readKey {k : Key} {bytes rest : Bytes}
    (h : readKey bytes = some (k, rest)) : ∃ key, k.Spelled key ∧ bytes = key ++ rest := by
  rw [readKey] at h
  rcases hread : Head.read bytes with _ | ⟨head, after⟩
  · rw [hread] at h
    cases h
  obtain ⟨b, hs, rfl⟩ := Head.spelling_of_read hread
  rw [hread] at h
  cases head with
  | unsigned n =>
    cases h
    exact ⟨b, .place hs, rfl⟩
  | text n =>
    obtain ⟨⟨name, rest'⟩, htake, hk⟩ := Option.map_eq_some_iff.1 h
    cases hk
    obtain ⟨rfl, rfl⟩ := Bytes.take?_eq_some_iff.1 htake
    exact ⟨b ++ name, .text hs, (List.append_assoc _ _ _).symm⟩
  | binary n =>
    obtain ⟨⟨name, rest'⟩, htake, hk⟩ := Option.map_eq_some_iff.1 h
    cases hk
    obtain ⟨rfl, rfl⟩ := Bytes.take?_eq_some_iff.1 htake
    exact ⟨b ++ name, .binary hs, (List.append_assoc _ _ _).symm⟩
  | _ => cases h

namespace Record

variable {ρ σ : Type} (r : Record ρ σ)

def slots : List (Slot σ) := r.fields.map Field.slot

/-- The field that a key stands for. -/
def find? : Fields.Key → Option (Field ρ σ)
  | .name b => r.fields.find? fun f => Bytes.ofText f.name = b
  | .place n => r.fields[n]?

/-- The records as they are written and read, field by field. -/
def form : Form ρ where
  write v := Head.writeMap r.fields.length ++
    (r.fields.map fun f => Form.text.write f.name ++ f.form.write (f.value v)).flatten
  read bytes :=
    match Fields.read r.slots r.empty bytes with
    | some (s, rest) => (r.finish? s).map fun v => (v, rest)
    | none => none

/-! ## What an entry says -/

/-- A key that stands for a field. -/
def Names (f : Field ρ σ) (key : Bytes) : Prop := ∃ k, Fields.Key.Spelled k key ∧ r.find? k = some f

/-- A key that stands for no field, though it might. -/
def NamesNothing (key : Bytes) : Prop := ∃ k, Fields.Key.Spelled k key ∧ r.find? k = none

/-- An entry that a map of the record `v` may have: a field with its value, or something that is none
of the record's business and nests less deep than may be read over. -/
def Answers (v : ρ) (e : Entry) : Prop :=
  (∃ f, r.Names f e.key ∧ e.value = f.form.write (f.value v)) ∨
    (r.NamesNothing e.key ∧ ∃ depth < nestingBudget - 1, WellFormed depth e.value)

open Classical in
/-- How many of the entries name a field. -/
noncomputable def times (f : Field ρ σ) (es : List Entry) : Nat := es.countP fun e => r.Names f e.key

/-- Entries that give the field of the record `v`: they name it once, or leave it out where `v` has the
value for that. -/
def Gives (es : List Entry) (v : ρ) (f : Field ρ σ) : Prop :=
  r.times f es = 1 ∨ r.times f es = 0 ∧ f.form.absent = some (f.value v)

/-- Entries from which a field cannot be had: they name it again, or leave it out though they must
not. -/
def Spoils (es : List Entry) (f : Field ρ σ) : Prop :=
  2 ≤ r.times f es ∨ r.times f es = 0 ∧ f.form.absent = none

/-- A record whose fields fit, as few and with as short names as can be written. -/
def Fits (v : ρ) : Prop :=
  r.fields.length < 2 ^ 32 ∧ ∀ f ∈ r.fields, Form.ShortText f.name ∧ f.Fits (f.value v)

variable {r} {f g : Field ρ σ} {key : Bytes}

theorem mem_of_find? {k : Fields.Key} (h : r.find? k = some f) : f ∈ r.fields := by
  cases k with
  | name b => exact List.mem_of_find?_eq_some h
  | place n => exact List.mem_of_getElem? h

theorem find?_slots (k : Fields.Key) : Fields.find? r.slots k = (r.find? k).map Field.slot := by
  cases k with
  | name b =>
    rw [Fields.find?, slots, List.find?_map]
    rfl
  | place n => exact List.getElem?_map

theorem eq_of_name_eq (hf : f ∈ r.fields) (hg : g ∈ r.fields) (h : f.name = g.name) : f = g :=
  List.inj_on_of_nodup_map r.nodup hf hg h

/-- A name stands for the field that has it. -/
theorem find?_name_eq_some_iff {name : String} :
    r.find? (.name (Bytes.ofText name)) = some f ↔ f ∈ r.fields ∧ f.name = name := by
  have hname : ∀ {g : Field ρ σ}, r.find? (.name (Bytes.ofText name)) = some g → g.name = name := by
    intro g hg
    have hbytes : Bytes.ofText g.name = Bytes.ofText name := by simpa using List.find?_some hg
    have htext := congrArg Bytes.toText? hbytes
    rwa [Bytes.toText?_ofText, Bytes.toText?_ofText, Option.some.injEq] at htext
  constructor
  · exact fun h => ⟨mem_of_find? h, hname h⟩
  · rintro ⟨hf, rfl⟩
    cases hfind : r.find? (.name (Bytes.ofText f.name)) with
    | none => exact absurd (decide_eq_true rfl) (List.find?_eq_none.1 hfind f hf)
    | some g => rw [eq_of_name_eq (mem_of_find? hfind) hf (hname hfind)]

theorem names_iff_of_spelled {k : Fields.Key} (hk : k.Spelled key) :
    r.Names f key ↔ r.find? k = some f := by
  constructor
  · rintro ⟨k', hk', hfind⟩
    rwa [hk.eq hk']
  · exact fun hfind => ⟨k, hk, hfind⟩

/-- A text names the field that it is the name of, however its head is spelled. -/
theorem names_text_iff {name : String} {head : Bytes}
    (hs : (Head.text (Bytes.ofText name).length).Spelling head) :
    r.Names f (head ++ Bytes.ofText name) ↔ f ∈ r.fields ∧ f.name = name :=
  (names_iff_of_spelled (.text hs)).trans find?_name_eq_some_iff

/-- A text that is no field's name names nothing. -/
theorem namesNothing_text {name : String} {head : Bytes}
    (hs : (Head.text (Bytes.ofText name).length).Spelling head)
    (hnone : ∀ f ∈ r.fields, f.name ≠ name) : r.NamesNothing (head ++ Bytes.ofText name) := by
  refine ⟨_, .text hs, Option.eq_none_iff_forall_ne_some.2 fun f hf => ?_⟩
  obtain ⟨hmem, hname⟩ := find?_name_eq_some_iff.1 hf
  exact hnone f hmem hname

theorem Names.mem (h : r.Names f key) : f ∈ r.fields := by
  obtain ⟨k, _, hfind⟩ := h
  exact mem_of_find? hfind

theorem Names.eq (hf : r.Names f key) (hg : r.Names g key) : f = g := by
  obtain ⟨k, hk, hfind⟩ := hf
  obtain ⟨k', hk', hfind'⟩ := hg
  obtain rfl := hk.eq hk'
  exact Option.some.inj (hfind.symm.trans hfind')

theorem NamesNothing.not_names (h : r.NamesNothing key) : ¬ r.Names f key := by
  rintro ⟨k, hk, hfind⟩
  obtain ⟨k', hk', hnone⟩ := h
  obtain rfl := hk.eq hk'
  rw [hfind] at hnone
  cases hnone

@[simp] theorem times_nil : r.times f [] = 0 := rfl

theorem times_cons_of_names {e : Entry} (h : r.Names f e.key) (es : List Entry) :
    r.times f (e :: es) = r.times f es + 1 := by
  rw [times, List.countP_cons_of_pos (by simpa using h), times]

theorem times_cons_of_not {e : Entry} (h : ¬ r.Names f e.key) (es : List Entry) :
    r.times f (e :: es) = r.times f es := by
  rw [times, List.countP_cons_of_neg (by simpa using h), times]

theorem gives_cons_of_not {e : Entry} (h : ¬ r.Names f e.key) {es : List Entry} {v : ρ} :
    r.Gives (e :: es) v f ↔ r.Gives es v f := by
  rw [Gives, times_cons_of_not h, Gives]

theorem Gives.not_spoils {es : List Entry} {v : ρ} (h : r.Gives es v f) : ¬ r.Spoils es f := by
  rintro (hagain | ⟨hzero, hnone⟩)
  · rcases h with hone | ⟨hzero, _⟩ <;> omega
  · rcases h with hone | ⟨_, hsome⟩
    · omega
    · rw [hnone] at hsome
      cases hsome

/-- Among entries with texts for keys, a field is named as often as its name comes. -/
theorem times_texts (hf : f ∈ r.fields) {es : List (String × Bytes)}
    (hes : ∀ e ∈ es, Form.ShortText e.1) :
    r.times f (es.map fun e => .named e.1 e.2) = (es.map Prod.fst).count f.name := by
  have hname : ∀ e ∈ es, r.Names f (Entry.named e.1 e.2).key ↔ e.1 = f.name := fun e he =>
    (names_text_iff (Head.spelling_writeText (hes e he))).trans
      ⟨fun h => h.2.symm, fun h => ⟨hf, h.symm⟩⟩
  rw [times, List.countP_map, List.count, List.countP_map]
  exact List.countP_congr fun e he => by simpa using hname e he

/-- What a map of a record may have are entries of two values. -/
theorem Answers.sound {v : ρ} (hv : r.Fits v) {e : Entry} (he : r.Answers v e) : e.Sound := by
  rcases he with ⟨f, hkey, hvalue⟩ | ⟨⟨k, hk, _⟩, depth, _, hvalue⟩
  · obtain ⟨k, hk, hfind⟩ := hkey
    rw [Entry.Sound, hvalue]
    exact ⟨⟨0, hk.wellFormed⟩, f.lawful.wellFormed_write (hv.2 f (mem_of_find? hfind)).2⟩
  · exact ⟨⟨0, hk.wellFormed⟩, depth, hvalue⟩

/-! ## Reading the entries -/

theorem readEntries_of_names {e : Entry} (hkey : r.Names f e.key) {s : σ} (hs : f.get s = none)
    (n : Nat) (rest : Bytes) {v : f.α} {after : Bytes}
    (hvalue : f.form.read (e.value ++ rest) = some (v, after)) :
    Fields.readEntries r.slots (n + 1) s (e.bytes ++ rest) =
      Fields.readEntries r.slots n (f.set s v) after := by
  obtain ⟨k, hk, hfind⟩ := hkey
  simp only [Fields.readEntries, Entry.bytes, List.append_assoc, hk.readKey, find?_slots, hfind,
    Option.map_some, Field.slot, slot, hs, hvalue]

theorem readEntries_of_namesNothing {e : Entry} (hkey : r.NamesNothing e.key) {depth : Nat}
    (hdepth : depth < nestingBudget - 1) (hvalue : WellFormed depth e.value) (s : σ) (n : Nat)
    (rest : Bytes) : Fields.readEntries r.slots (n + 1) s (e.bytes ++ rest) =
      Fields.readEntries r.slots n s rest := by
  obtain ⟨k, hk, hfind⟩ := hkey
  have hskip : skip (nestingBudget - 1) (e.value ++ rest) = some rest :=
    (skip_eq_some_iff (by decide)).2 ⟨e.value, hvalue.mono (by omega), rfl⟩
  simp only [Fields.readEntries, Entry.bytes, List.append_assoc, hk.readKey, find?_slots, hfind,
    Option.map_none, hskip, Option.map_some]

/-- Entries that a map of `v` may have fill the draft up, if they give what it does not have and do not
name again what it has. -/
theorem readEntries_of_answers {v : ρ} (hv : r.Fits v) {es : List Entry}
    (hes : ∀ e ∈ es, r.Answers v e) {s : σ}
    (hs : ∀ f ∈ r.fields, (f.get s = none ∧ r.Gives es v f) ∨
      (f.get s = some (f.value v) ∧ r.times f es = 0)) (rest : Bytes) :
    ∃ s', Fields.readEntries r.slots es.length s ((es.map Entry.bytes).flatten ++ rest) =
        some (s', rest) ∧ ∀ f ∈ r.fields, f.form.known (f.get s') = some (f.value v) := by
  induction es generalizing s with
  | nil =>
    refine ⟨s, rfl, fun f hf => ?_⟩
    rcases hs f hf with ⟨hget, hone | ⟨_, habsent⟩⟩ | ⟨hget, _⟩
    · cases hone
    · rw [hget, Form.known_none, habsent]
    · rw [hget, Form.known_some]
  | cons e es ih =>
    have hes' : ∀ i ∈ es, r.Answers v i := fun i hi => hes i (List.mem_cons_of_mem _ hi)
    rw [List.length_cons, List.map_cons, List.flatten_cons, List.append_assoc]
    rcases hes e List.mem_cons_self with ⟨f, hkey, hvalue⟩ | ⟨hkey, depth, hdepth, hvalue⟩
    · have hf := hkey.mem
      -- The entry is the one that the draft waits for, so no other entry names the field.
      obtain ⟨hget, hnone⟩ : f.get s = none ∧ r.times f es = 0 := by
        have htimes := times_cons_of_names hkey es
        rcases hs f hf with ⟨hget, hone | ⟨hzero, _⟩⟩ | ⟨_, hzero⟩
        · exact ⟨hget, by omega⟩
        · omega
        · omega
      have hread : f.form.read (e.value ++ ((es.map Entry.bytes).flatten ++ rest)) =
          some (f.value v, (es.map Entry.bytes).flatten ++ rest) := by
        rw [hvalue]
        exact f.lawful.read_write (hv.2 f hf).2 _
      rw [readEntries_of_names hkey hget _ _ hread]
      refine ih hes' fun g hg => ?_
      by_cases hname : g.name = f.name
      · obtain rfl := eq_of_name_eq hg hf hname
        exact .inr ⟨r.get_set_self g hg s _, hnone⟩
      · have hother : ¬ r.Names g e.key := fun h => hname (congrArg Field.name (h.eq hkey))
        rw [r.get_set_of_ne f hf g hg hname, ← times_cons_of_not hother es,
          ← gives_cons_of_not hother]
        exact hs g hg
    · rw [readEntries_of_namesNothing hkey hdepth hvalue]
      refine ih hes' fun g hg => ?_
      rw [← times_cons_of_not hkey.not_names es, ← gives_cons_of_not hkey.not_names]
      exact hs g hg

/-- **A record is read from its entries in any order**, among entries that are none of its business,
if they give each field; whatever follows. -/
theorem read_of_answers {v : ρ} (hv : r.Fits v) {es : List Entry} (hes : ∀ e ∈ es, r.Answers v e)
    (hgives : ∀ f ∈ r.fields, r.Gives es v f) {head : Bytes}
    (hs : (Head.map es.length).Spelling head) (rest : Bytes) :
    r.form.read (head ++ ((es.map Entry.bytes).flatten ++ rest)) = some (v, rest) := by
  obtain ⟨s, hread, hget⟩ := readEntries_of_answers hv hes
    (fun f hf => .inl ⟨r.get_empty f hf, hgives f hf⟩) rest
  simp only [form, Fields.read, Head.read_of_spelling hs, hread, (r.finish?_eq_some_iff s v).2 hget,
    Option.map_some]

/-! ## What has been read -/

/-- A step over an entry: it is one of a field that the draft did not have, or of no field. -/
theorem exists_entry_of_readEntries {n : Nat} {s : σ} {bytes : Bytes} {out : σ × Bytes}
    (h : Fields.readEntries r.slots (n + 1) s bytes = some out) :
    ∃ (e : Entry) (s' : σ) (rest : Bytes), e.Sound ∧ bytes = e.bytes ++ rest ∧
      Fields.readEntries r.slots n s' rest = some out ∧
      ((∃ f v, r.Names f e.key ∧ f.get s = none ∧ s' = f.set s v) ∨
        (r.NamesNothing e.key ∧ s' = s)) := by
  rw [Fields.readEntries] at h
  rcases hkey : Fields.readKey bytes with _ | ⟨k, middle⟩
  · rw [hkey] at h
    cases h
  obtain ⟨key, hk, rfl⟩ := Fields.exists_of_readKey hkey
  rw [hkey] at h
  simp only [find?_slots] at h
  cases hfind : r.find? k with
  | none =>
    simp only [hfind, Option.map_none] at h
    rcases hskip : skip (nestingBudget - 1) middle with _ | rest
    · rw [hskip] at h
      cases h
    obtain ⟨value, hvalue, rfl⟩ := (skip_eq_some_iff (by decide)).1 hskip
    rw [hskip] at h
    exact ⟨⟨key, value⟩, s, rest, ⟨⟨_, hk.wellFormed⟩, _, hvalue⟩, (List.append_assoc _ _ _).symm, h,
      .inr ⟨⟨k, hk, hfind⟩, rfl⟩⟩
  | some f =>
    simp only [hfind, Option.map_some, Field.slot, slot] at h
    cases hget : f.get s with
    | some v =>
      simp only [hget] at h
      cases h
    | none =>
      simp only [hget] at h
      rcases hread : f.form.read middle with _ | ⟨v, rest⟩
      · rw [hread] at h
        cases h
      obtain ⟨depth, value, hvalue, rfl⟩ := f.lawful.takes.exists_wellFormed hread
      rw [hread] at h
      exact ⟨⟨key, value⟩, f.set s v, rest, ⟨⟨_, hk.wellFormed⟩, _, hvalue⟩,
        (List.append_assoc _ _ _).symm, h, .inl ⟨f, v, ⟨k, hk, hfind⟩, hget, rfl⟩⟩

/-- What is read is entries, which name a field as often as the draft has got it. -/
theorem exists_entries_of_readEntries {n : Nat} {s s' : σ} {bytes rest : Bytes}
    (h : Fields.readEntries r.slots n s bytes = some (s', rest)) :
    ∃ es : List Entry, es.length = n ∧ (∀ e ∈ es, e.Sound) ∧
      bytes = (es.map Entry.bytes).flatten ++ rest ∧
      ∀ f ∈ r.fields, r.times f es + (f.get s).isSome.toNat = (f.get s').isSome.toNat := by
  induction n generalizing s bytes with
  | zero =>
    cases h
    exact ⟨[], rfl, by simp, rfl, fun f _ => by simp⟩
  | succ n ih =>
    obtain ⟨e, s₁, rest₁, he, rfl, hrest, hstep⟩ := exists_entry_of_readEntries h
    obtain ⟨es, rfl, hes, rfl, htimes⟩ := ih hrest
    refine ⟨e :: es, rfl, List.forall_mem_cons.2 ⟨he, hes⟩, by simp, fun g hg => ?_⟩
    rw [← htimes g hg]
    rcases hstep with ⟨f, v, hkey, hget, rfl⟩ | ⟨hkey, rfl⟩
    · by_cases hname : g.name = f.name
      · obtain rfl := eq_of_name_eq hg hkey.mem hname
        rw [times_cons_of_names hkey, hget, r.get_set_self g hg]
        rfl
      · have hother : ¬ r.Names g e.key := fun h => hname (congrArg Field.name (h.eq hkey))
        rw [times_cons_of_not hother, r.get_set_of_ne f hkey.mem g hg hname]
    · rw [times_cons_of_not hkey.not_names]

/-- A map that is read gives each field. -/
theorem gives_of_read {head rest after : Bytes} {es : List Entry}
    (hs : (Head.map es.length).Spelling head) (hes : ∀ e ∈ es, e.Sound) {v : ρ}
    (h : r.form.read (head ++ ((es.map Entry.bytes).flatten ++ rest)) = some (v, after))
    (hf : f ∈ r.fields) : r.Gives es v f := by
  simp only [form, Fields.read, Head.read_of_spelling hs] at h
  split at h
  · next s rest' hread =>
    obtain ⟨v', hfinish, hv⟩ := Option.map_eq_some_iff.1 h
    obtain ⟨es', hlen, hes', hbytes, htimes⟩ := exists_entries_of_readEntries hread
    obtain ⟨rfl, _⟩ := Entry.eq_of_flatten hes hes' hlen.symm hbytes
    have hcount := htimes f hf
    have hknown := (r.finish?_eq_some_iff s v').1 hfinish f hf
    cases hv
    rw [r.get_empty f hf] at hcount
    cases hget : f.get s with
    | none =>
      rw [hget] at hcount hknown
      exact .inr ⟨hcount, hknown⟩
    | some w =>
      rw [hget] at hcount
      exact .inl hcount
  · cases h

/-- **A map that misses a field or repeats it is not read**, unless the field may be left out and is. -/
theorem read_eq_none {head : Bytes} {es : List Entry} (hs : (Head.map es.length).Spelling head)
    (hes : ∀ e ∈ es, e.Sound) (hf : f ∈ r.fields) (hspoils : r.Spoils es f) (rest : Bytes) :
    r.form.read (head ++ ((es.map Entry.bytes).flatten ++ rest)) = none := by
  rcases hread : r.form.read (head ++ ((es.map Entry.bytes).flatten ++ rest)) with _ | ⟨v, after⟩
  · rfl
  · exact absurd hspoils (gives_of_read hs hes hread hf).not_spoils

/-! ## Records in records -/

/-- The entry of a field, as it is written. -/
def entry (v : ρ) (f : Field ρ σ) : Entry := .named f.name (f.form.write (f.value v))

theorem write_eq (v : ρ) : r.form.write v =
    Head.writeMap r.fields.length ++ ((r.fields.map (entry v)).map Entry.bytes).flatten := by
  rw [List.map_map]
  rfl

theorem answers_entry {v : ρ} (hv : r.Fits v) (hf : f ∈ r.fields) : r.Answers v (entry v f) :=
  .inl ⟨f, (names_text_iff (Head.spelling_writeText (hv.2 f hf).1)).2 ⟨hf, rfl⟩, rfl⟩

theorem times_entries {v : ρ} (hv : r.Fits v) (hf : f ∈ r.fields) :
    r.times f (r.fields.map (entry v)) = 1 := by
  have hshort : ∀ e ∈ r.fields.map fun f => (f.name, f.form.write (f.value v)), Form.ShortText e.1 :=
    List.forall_mem_map.2 fun g hg => (hv.2 g hg).1
  have htimes := times_texts hf hshort
  rw [List.map_map, List.map_map] at htimes
  exact htimes.trans (List.count_eq_one_of_mem r.nodup (List.mem_map_of_mem hf))

theorem exists_of_readPlaces {fields : List (Field ρ σ)} {s s' : σ} {bytes rest : Bytes}
    (h : Fields.readPlaces (fields.map Field.slot) s bytes = some (s', rest)) :
    ∃ items : List Bytes, items.length = fields.length ∧
      (∀ item ∈ items, ∃ depth, WellFormed depth item) ∧ bytes = items.flatten ++ rest := by
  induction fields generalizing s bytes with
  | nil =>
    cases h
    exact ⟨[], rfl, by simp, rfl⟩
  | cons f fields ih =>
    simp only [List.map_cons, Fields.readPlaces, Field.slot, slot] at h
    cases hget : f.get s with
    | some v =>
      simp only [hget] at h
      cases h
    | none =>
      simp only [hget] at h
      rcases hread : f.form.read bytes with _ | ⟨v, middle⟩
      · rw [hread] at h
        cases h
      obtain ⟨depth, b, hb, rfl⟩ := f.lawful.takes.exists_wellFormed hread
      rw [hread] at h
      obtain ⟨items, hlen, hitems, rfl⟩ := ih h
      exact ⟨b :: items, by rw [List.length_cons, hlen, List.length_cons],
        List.forall_mem_cons.2 ⟨⟨depth, hb⟩, hitems⟩, by simp⟩

theorem exists_wellFormed_of_read {s : σ} {bytes rest : Bytes}
    (h : Fields.read r.slots r.empty bytes = some (s, rest)) :
    ∃ depth b, WellFormed depth b ∧ bytes = b ++ rest := by
  rw [Fields.read] at h
  rcases hread : Head.read bytes with _ | ⟨head, after⟩
  · rw [hread] at h
    cases h
  obtain ⟨b, hs, rfl⟩ := Head.spelling_of_read hread
  rw [hread] at h
  cases head with
  | map n =>
    obtain ⟨es, rfl, hes, rfl, _⟩ := exists_entries_of_readEntries h
    obtain ⟨depth, hdepth⟩ := Entry.exists_wellFormed hes hs
    exact ⟨depth, _, hdepth, (List.append_assoc _ _ _).symm⟩
  | array n =>
    simp only at h
    split at h
    · next hn =>
      obtain ⟨items, hlen, hitems, rfl⟩ := exists_of_readPlaces h
      obtain ⟨depth, hdepth⟩ := exists_depth hitems
      rw [slots, List.length_map, ← hlen] at hn
      exact ⟨depth + 1, _, .values hs (by rw [Head.content, hn]) hdepth, (List.append_assoc _ _ _).symm⟩
    · cases h
  | _ => cases h

/-- A record may be a field of another one. -/
theorem lawful_form (r : Record ρ σ) : r.form.Lawful r.Fits where
  read_write {v} hv rest := by
    have hes : ∀ e ∈ r.fields.map (entry v), r.Answers v e :=
      List.forall_mem_map.2 fun f hf => answers_entry hv hf
    have hs : (Head.map (r.fields.map (entry v)).length).Spelling (Head.writeMap r.fields.length) := by
      rw [List.length_map]
      exact Head.spelling_writeMap hv.1
    have hread := read_of_answers hv hes (fun f hf => .inl (times_entries hv hf)) hs rest
    rwa [write_eq, List.append_assoc]
  takes := takes_one fun bytes v rest h => by
    simp only [form] at h
    split at h
    · next s rest' hread =>
      obtain ⟨v', _, hv⟩ := Option.map_eq_some_iff.1 h
      cases hv
      exact exists_wellFormed_of_read hread
    · cases h

end Record

end KeyedStream.MsgPack
