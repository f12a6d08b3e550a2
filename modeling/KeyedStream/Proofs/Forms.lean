import Mathlib
import KeyedStream.MsgPack.Form
import KeyedStream.Proofs.Coalesce
import KeyedStream.Proofs.WellFormed

/-!
# Values read back

A form is lawful (`Form.Lawful`) if it reads back what it writes, whatever follows, and if all that it
ever reads is one value off the front. Both halves are kept by lists, options, pairs and maps, so each
of them is told of the parts alone. Lengths are written in at most four bytes, so a form answers for
the values whose lengths fit in them.
-/

namespace KeyedStream.MsgPack

variable {α β : Type}

/-! ## What is read -/

/-- What is read is so many values off the front. -/
def Takes (count : Nat) (read : Bytes → Option (α × Bytes)) : Prop :=
  ∀ ⦃bytes v rest⦄, read bytes = some (v, rest) → ∃ items : List Bytes, items.length = count ∧
    (∀ item ∈ items, ∃ depth, WellFormed depth item) ∧ bytes = items.flatten ++ rest

theorem Takes.exists_wellFormed {read : Bytes → Option (α × Bytes)} (hread : Takes 1 read)
    {bytes rest : Bytes} {v : α} (h : read bytes = some (v, rest)) :
    ∃ depth b, WellFormed depth b ∧ bytes = b ++ rest := by
  obtain ⟨items, hlen, hitems, rfl⟩ := hread h
  obtain ⟨b, rfl⟩ := List.length_eq_one_iff.1 hlen
  obtain ⟨depth, hb⟩ := hitems b List.mem_cons_self
  exact ⟨depth, b, hb, by simp⟩

/-- A reader that reads values takes them if it takes them one by one. -/
theorem takes_one {read : Bytes → Option (α × Bytes)}
    (h : ∀ ⦃bytes v rest⦄, read bytes = some (v, rest) →
      ∃ depth b, WellFormed depth b ∧ bytes = b ++ rest) : Takes 1 read := by
  intro bytes v rest hread
  obtain ⟨depth, b, hb, rfl⟩ := h hread
  exact ⟨[b], rfl, by simpa using ⟨depth, hb⟩, by simp⟩

theorem Takes.readMany {f : Form α} {count : Nat} (hf : Takes count f.read) (n : Nat) :
    Takes (n * count) (f.readMany n) := by
  induction n with
  | zero =>
    intro bytes vs rest h
    cases h
    exact ⟨[], by simp, by simp, rfl⟩
  | succ n ih =>
    intro bytes vs rest h
    rw [Form.readMany] at h
    rcases hread : f.read bytes with _ | ⟨v, middle⟩
    · rw [hread] at h
      cases h
    rcases hmany : f.readMany n middle with _ | ⟨vs', after⟩
    · simp only [hread, hmany] at h
      cases h
    simp only [hread, hmany] at h
    cases h
    obtain ⟨items, hlen, hitems, rfl⟩ := hf hread
    obtain ⟨others, hlen', hothers, rfl⟩ := ih hmany
    refine ⟨items ++ others, ?_, fun item hitem => ?_, by simp⟩
    · rw [List.length_append, hlen, hlen']
      ring
    · exact (List.mem_append.1 hitem).elim (hitems item) (hothers item)

theorem Takes.pair {f : Form α} {g : Form β} {m n : Nat} (hf : Takes m f.read)
    (hg : Takes n g.read) : Takes (m + n) (f.pair g).read := by
  intro bytes v rest h
  simp only [Form.pair] at h
  rcases hread : f.read bytes with _ | ⟨k, middle⟩
  · rw [hread] at h
    cases h
  rw [hread] at h
  obtain ⟨⟨w, after⟩, hafter, hv⟩ := Option.map_eq_some_iff.1 h
  cases hv
  obtain ⟨items, rfl, hitems, rfl⟩ := hf hread
  obtain ⟨others, rfl, hothers, rfl⟩ := hg hafter
  exact ⟨items ++ others, List.length_append,
    fun item hitem => (List.mem_append.1 hitem).elim (hitems item) (hothers item), by simp⟩

/-! ## Values by their heads -/

/-- A head that announces nothing is a value. -/
theorem wellFormed_of_head {h : Head} {head : Bytes} (hs : h.Spelling head)
    (hc : h.content = .bytes 0) : WellFormed 0 head := by
  have hb : WellFormed 0 (head ++ []) := .bytes hs hc rfl
  rwa [List.append_nil] at hb

/-- A head with values behind it, as many as it announces, is a value. -/
theorem Takes.wellFormed {read : Bytes → Option (α × Bytes)} {count : Nat} (hread : Takes count read)
    {h : Head} {head body rest : Bytes} {v : α} (hs : h.Spelling head)
    (hc : h.content = .values count) (hv : read body = some (v, rest)) :
    ∃ depth b, WellFormed depth b ∧ head ++ body = b ++ rest := by
  obtain ⟨items, rfl, hitems, rfl⟩ := hread hv
  obtain ⟨depth, hdepth⟩ := exists_depth hitems
  exact ⟨depth + 1, _, .values hs hc hdepth, (List.append_assoc _ _ _).symm⟩

theorem wellFormed_of_take? {h : Head} {head body front rest : Bytes} {n : Nat}
    (hs : h.Spelling head) (hc : h.content = .bytes n)
    (htake : Bytes.take? n body = some (front, rest)) :
    ∃ depth b, WellFormed depth b ∧ head ++ body = b ++ rest := by
  obtain ⟨hn, rfl⟩ := Bytes.take?_eq_some_iff.1 htake
  exact ⟨0, _, .bytes hs hc hn, (List.append_assoc _ _ _).symm⟩

/-- A reader that begins with a head is told by what it does behind each head. -/
theorem takes_of_head {read : Bytes → Option (α × Bytes)}
    (hnone : ∀ bytes, Head.read bytes = none → read bytes = none)
    (h : ∀ ⦃head : Head⦄ ⦃b after : Bytes⦄ ⦃v : α⦄ ⦃rest : Bytes⦄, head.Spelling b →
      Head.read (b ++ after) = some (head, after) → read (b ++ after) = some (v, rest) →
        ∃ depth front, WellFormed depth front ∧ b ++ after = front ++ rest) : Takes 1 read := by
  refine takes_one fun bytes v rest hv => ?_
  rcases hread : Head.read bytes with _ | ⟨head, after⟩
  · rw [hnone bytes hread] at hv
    cases hv
  · obtain ⟨b, hs, rfl⟩ := Head.spelling_of_read hread
    exact h hs hread hv

/-! ## Lawful forms -/

/-- A form that reads back what it writes of the values that fit, and reads one value at a time. -/
structure Form.Lawful (f : Form α) (Fits : α → Prop) : Prop where
  read_write {v : α} (hv : Fits v) (rest : Bytes) : f.read (f.write v ++ rest) = some (v, rest)
  takes : Takes 1 f.read

namespace Form

section Lawful

variable {f : Form α} {Fits : α → Prop}

theorem Lawful.mono {FitsToo : α → Prop} (hf : f.Lawful Fits) (h : ∀ v, FitsToo v → Fits v) :
    f.Lawful FitsToo where
  read_write hv := hf.read_write (h _ hv)
  takes := hf.takes

/-- What a lawful form writes is a value. -/
theorem Lawful.wellFormed_write (hf : f.Lawful Fits) {v : α} (hv : Fits v) :
    ∃ depth, WellFormed depth (f.write v) := by
  obtain ⟨depth, b, hb, heq⟩ := hf.takes.exists_wellFormed (hf.read_write hv [])
  rw [List.append_nil, List.append_nil] at heq
  exact ⟨depth, heq ▸ hb⟩

theorem readMany_write {vs : List α}
    (h : ∀ v ∈ vs, ∀ rest, f.read (f.write v ++ rest) = some (v, rest)) (rest : Bytes) :
    f.readMany vs.length ((vs.map f.write).flatten ++ rest) = some (vs, rest) := by
  induction vs with
  | nil => rfl
  | cons v vs ih =>
    have hrest := ih fun w hw => h w (List.mem_cons_of_mem _ hw)
    rw [List.map_cons, List.flatten_cons, List.append_assoc, List.length_cons, readMany,
      h v List.mem_cons_self]
    simp only [hrest]

theorem Lawful.read_write_pair {g : Form β} {FitsToo : β → Prop} (hf : f.Lawful Fits)
    (hg : g.Lawful FitsToo) {e : α × β} (hk : Fits e.1) (hv : FitsToo e.2) (rest : Bytes) :
    (f.pair g).read ((f.pair g).write e ++ rest) = some (e, rest) := by
  simp only [pair, List.append_assoc, hf.read_write hk, hg.read_write hv, Option.map_some]

end Lawful

/-! ## Numbers -/

theorem readInt_of_spelling {h : Head} {head : Bytes} {n : Int} (hs : h.Spelling head)
    (hn : h.int? = some n) (rest : Bytes) : readInt (head ++ rest) = some (n, rest) := by
  rw [readInt, Head.read_of_spelling hs]
  cases h with
  | unsigned m | signed m =>
    cases hn
    rfl
  | _ => cases hn

/-- **An integer of any type is read back** from its smallest form, if it is within the bounds of the
type that it is read as. -/
theorem readBounded_writeInt {low high n : Int} (hmin : -2 ^ 63 ≤ n) (hmax : n < 2 ^ 64)
    (hlow : low ≤ n) (hhigh : n ≤ high) (wrap : Int → α) (rest : Bytes) :
    readBounded low high wrap (Head.writeInt n ++ rest) = some (wrap n, rest) := by
  obtain ⟨h, hs, hint⟩ := Head.exists_spelling_writeInt hmin hmax
  rw [readBounded, readInt_of_spelling hs hint]
  exact if_pos ⟨hlow, hhigh⟩

theorem takes_readBounded (low high : Int) (wrap : Int → α) :
    Takes 1 (readBounded low high wrap) := by
  refine takes_of_head (fun _ hread => ?_) fun head b after v rest hs hread h => ?_
  · simp only [readBounded, readInt, hread]
  simp only [readBounded, readInt, hread] at h
  cases head with
  | unsigned n | signed n =>
    simp only at h
    split at h
    · cases h
      exact ⟨0, b, wellFormed_of_head hs rfl, rfl⟩
    · cases h
  | _ => cases h

/-- The form of an integer type, by the integers that its values are. -/
def integer (low high : Int) (toInt : α → Int) (wrap : Int → α) : Form α where
  write v := Head.writeInt (toInt v)
  read := readBounded low high wrap

/-- An integer type is lawful if the format has room for its integers. -/
theorem lawful_integer {low high : Int} {toInt : α → Int} {wrap : Int → α} (hmin : -2 ^ 63 ≤ low)
    (hmax : high < 2 ^ 64) (hbounds : ∀ v, low ≤ toInt v ∧ toInt v ≤ high)
    (hwrap : ∀ v, wrap (toInt v) = v) : (integer low high toInt wrap).Lawful fun _ => True where
  read_write {v} _ rest := by
    obtain ⟨hlow, hhigh⟩ := hbounds v
    have hread := readBounded_writeInt (by omega) (by omega) hlow hhigh wrap rest
    rwa [hwrap] at hread
  takes := takes_readBounded _ _ _

theorem lawful_int64 : int64.Lawful fun _ => True :=
  lawful_integer (by decide) (by decide) (fun v => ⟨v.le_toInt, Int.le_of_lt_add_one v.toInt_lt⟩)
    Int64.ofInt_toInt

theorem writeInt_natCast (n : Nat) : Head.writeInt n = Head.writeUnsigned n := by
  rw [Head.writeInt, if_neg (by omega), Int.toNat_natCast]

theorem uint32_eq_integer : uint32 =
    integer 0 4294967295 (fun v => v.toNat) fun n => UInt32.ofNat n.toNat := by
  simp only [uint32, integer, writeInt_natCast]

theorem lawful_uint32 : uint32.Lawful fun _ => True := by
  have hbounds : ∀ v : UInt32, (0 : Int) ≤ v.toNat ∧ (v.toNat : Int) ≤ 4294967295 := fun v => by
    have hlt := v.toNat_lt
    omega
  rw [uint32_eq_integer]
  exact lawful_integer (by decide) (by decide) hbounds fun v => UInt32.ofNat_toNat

theorem takes_double : Takes 1 double.read := by
  refine takes_of_head (fun _ hread => ?_) fun head b after v rest hs hread h => ?_
  · simp only [double, hread]
  simp only [double, hread] at h
  cases head with
  | double x | float x | unsigned n | signed n =>
    cases h
    exact ⟨0, b, wellFormed_of_head hs rfl, rfl⟩
  | _ => cases h

theorem lawful_double : double.Lawful fun _ => True where
  read_write {x} _ rest := by
    simp only [double, Head.read_of_spelling (Head.spelling_writeDouble x)]
  takes := takes_double

theorem takes_bool : Takes 1 bool.read := by
  refine takes_of_head (fun _ hread => ?_) fun head b after v rest hs hread h => ?_
  · simp only [bool, hread]
  simp only [bool, hread] at h
  cases head with
  | bool x =>
    cases h
    exact ⟨0, b, wellFormed_of_head hs rfl, rfl⟩
  | _ => cases h

theorem lawful_bool : bool.Lawful fun _ => True where
  read_write {b} _ rest := by
    simp only [bool, Head.read_of_spelling (Head.spelling_writeBool b)]
  takes := takes_bool

/-! ## Strings -/

/-- A text whose length fits in four bytes. -/
def ShortText (s : String) : Prop := (Bytes.ofText s).length < 2 ^ 32

instance : DecidablePred ShortText := fun s =>
  inferInstanceAs (Decidable ((Bytes.ofText s).length < 2 ^ 32))

theorem takes_text : Takes 1 text.read := by
  refine takes_of_head (fun _ hread => ?_) fun head b after v rest hs hread h => ?_
  · simp only [text, hread]
  simp only [text, hread] at h
  cases head with
  | text n | binary n =>
    rcases htake : Bytes.take? n after with _ | ⟨front, rest'⟩
    · simp only [htake] at h
      cases h
    simp only [htake] at h
    obtain ⟨s, _, hs'⟩ := Option.map_eq_some_iff.1 h
    cases hs'
    exact wellFormed_of_take? hs rfl htake
  | _ => cases h

theorem lawful_text : text.Lawful ShortText where
  read_write {s} hs rest := by
    simp only [text, List.append_assoc, Head.read_of_spelling (Head.spelling_writeText hs),
      Bytes.take?_append, Bytes.toText?_ofText, Option.map_some]
  takes := takes_text

theorem takes_bytes : Takes 1 bytes.read := by
  refine takes_of_head (fun _ hread => ?_) fun head b after v rest hs hread h => ?_
  · simp only [bytes, hread]
  simp only [bytes, hread] at h
  cases head with
  | text n | binary n => exact wellFormed_of_take? hs rfl h
  | array n =>
    have hmany : Takes (n * 1) (uint8.readMany n) := (takes_readBounded _ _ _).readMany n
    exact hmany.wellFormed hs (by rw [Head.content, Nat.mul_one]) h
  | _ => cases h

theorem lawful_bytes : bytes.Lawful fun b => b.length < 2 ^ 32 where
  read_write {b} hb rest := by
    simp only [bytes, List.append_assoc, Head.read_of_spelling (Head.spelling_writeBinary hb),
      Bytes.take?_append]
  takes := takes_bytes

/-! ## Containers -/

theorem takes_int64s : Takes 1 int64s.read := by
  refine takes_of_head (fun _ hread => ?_) fun head b after v rest hs hread h => ?_
  · simp only [int64s, hread]
  simp only [int64s, hread] at h
  cases head with
  | binary n =>
    obtain ⟨⟨front, rest'⟩, htake, hv⟩ := Option.map_eq_some_iff.1 h
    cases hv
    exact wellFormed_of_take? hs rfl htake
  | array n =>
    exact (lawful_int64.takes.readMany n).wellFormed hs (by rw [Head.content, Nat.mul_one]) h
  | _ => cases h

theorem lawful_int64s : int64s.Lawful fun vs => vs.length < 2 ^ 32 where
  read_write {vs} hvs rest := by
    simp only [int64s, List.append_assoc, Head.read_of_spelling (Head.spelling_writeArray hvs)]
    exact readMany_write (fun v _ => lawful_int64.read_write trivial) rest
  takes := takes_int64s

section Optional

variable {f : Form α} {Fits : α → Prop}

/-- An option is lawful if no value of the form can be taken for none. -/
theorem lawful_optional (hf : f.Lawful Fits)
    (hnil : ∀ bytes rest, Head.read bytes = some (.nil, rest) → f.read bytes = none) :
    f.optional.Lawful fun o => ∀ v ∈ o, Fits v where
  read_write {o} ho rest := by
    cases o with
    | none => simp only [optional, Head.read_of_spelling Head.spelling_writeNil]
    | some v =>
      have hread := hf.read_write (ho v rfl) rest
      simp only [optional]
      split
      · next rest' hhead =>
        rw [hnil _ _ hhead] at hread
        cases hread
      · rw [hread, Option.map_some]
  takes := takes_one fun bytes o rest h => by
    simp only [optional] at h
    split at h
    · next rest' hhead =>
      cases h
      obtain ⟨b, hs, rfl⟩ := Head.spelling_of_read hhead
      exact ⟨0, b, wellFormed_of_head hs rfl, rfl⟩
    · obtain ⟨⟨v, rest'⟩, hread, hv⟩ := Option.map_eq_some_iff.1 h
      cases hv
      exact hf.takes.exists_wellFormed hread

end Optional

theorem int64_ne_nil (bytes rest : Bytes) (h : Head.read bytes = some (.nil, rest)) :
    int64.read bytes = none := by
  simp only [int64, readBounded, readInt, h]

section Map

variable {f : Form α} {Fits : α → Prop}

/-- A map with short keys and with few enough entries, whose values fit. -/
def FitsMap (Fits : α → Prop) (m : Ordered String α) : Prop :=
  m.size < 2 ^ 32 ∧ ∀ e ∈ m.entries, ShortText e.1 ∧ Fits e.2

/-- **A map is read back from its entries in any order**, whatever follows, and however its head is
spelled. -/
theorem Lawful.read_map_of_perm (hf : f.Lawful Fits) {m : Ordered String α} (hm : FitsMap Fits m)
    {entries : List (String × α)} (hperm : entries.Perm m.entries) {head : Bytes}
    (hs : (Head.map entries.length).Spelling head) (rest : Bytes) :
    f.map.read (head ++ ((entries.map (text.pair f).write).flatten ++ rest)) = some (m, rest) := by
  have hentries : ∀ e ∈ entries, ∀ rest,
      (text.pair f).read ((text.pair f).write e ++ rest) = some (e, rest) := fun e he rest =>
    have hfit := hm.2 e (hperm.mem_iff.1 he)
    lawful_text.read_write_pair hf hfit.1 hfit.2 rest
  have hmany := readMany_write hentries rest
  simp only [map, Head.read_of_spelling hs, hmany, Option.map_some, Ordered.ofList_of_perm hperm]

theorem lawful_map (hf : f.Lawful Fits) : f.map.Lawful (FitsMap Fits) where
  read_write {m} hm rest := by
    have hread := hf.read_map_of_perm hm (List.Perm.refl _) (Head.spelling_writeMap hm.1) rest
    rwa [← List.append_assoc] at hread
  takes := by
    refine takes_of_head (fun _ hread => ?_) fun head b after v rest hs hread h => ?_
    · simp only [map, hread]
    simp only [map, hread] at h
    cases head with
    | map n =>
      obtain ⟨⟨entries, rest'⟩, hmany, hv⟩ := Option.map_eq_some_iff.1 h
      cases hv
      exact ((takes_text.pair hf.takes).readMany n).wellFormed hs (by rw [Head.content, Nat.mul_comm])
        hmany
    | _ => cases h

end Map

end Form

end KeyedStream.MsgPack
