import Mathlib
import KeyedStream.Rpc.Header

/-!
# Which headers are accepted

The grammars of the two headers that are looked at, on the bytes of their values. A content type is
accepted if all of it is text and its type is the one of messages, in any case and between blanks
(`IsProtoType`, `isProto_contentType_iff`). A timeout is accepted if it is one to ten digits. It is
the number that they stand for, which never is too large for 64 bits (`IsMillis`,
`timeout_of_millis`, `timeout_of_not_millis`).
-/

namespace KeyedStream.Rpc

/-! ## Bytes as characters -/

/-- The character that a byte of a header stands for. -/
def charOf (b : UInt8) : Char := Char.ofNat b.toNat

theorem toNat_charOf (b : UInt8) : (charOf b).toNat = b.toNat := by
  have hvalid : b.toNat.isValidChar := .inl (Nat.lt_trans b.toNat_lt (by decide))
  rw [charOf, Char.toNat_ofNat, if_pos hvalid]

theorem charOf_injective : Function.Injective charOf := by
  intro a b h
  have htoNat := congrArg Char.toNat h
  rw [toNat_charOf, toNat_charOf] at htoNat
  exact UInt8.toNat_inj.1 htoNat

theorem isDigit_charOf_iff {b : UInt8} :
    (charOf b).isDigit = true ↔ 48 ≤ b.toNat ∧ b.toNat ≤ 57 := by
  rw [Char.isDigit_iff_toNat, toNat_charOf]
  rfl

theorem isHeaderText_iff {b : UInt8} :
    isHeaderText b = true ↔ 32 ≤ b.toNat ∧ b.toNat ≤ 126 ∨ b = 9 := by
  rw [isHeaderText, Bool.or_eq_true, Bool.and_eq_true, decide_eq_true_eq, decide_eq_true_eq,
    decide_eq_true_eq, Nat.lt_succ_iff, or_comm]

theorem toList_headerText {value : Bytes} (h : ∀ b ∈ value, isHeaderText b = true) :
    (headerText value).toList = value.map charOf := by
  rw [headerText, if_pos (List.all_eq_true.2 h), String.toList_ofList]
  rfl

theorem headerText_of_not_text {value : Bytes} (h : ¬ ∀ b ∈ value, isHeaderText b = true) :
    headerText value = "" := by
  rw [headerText, if_neg fun hall => h (List.all_eq_true.1 hall)]

/-! ## Blanks -/

theorem exists_trim (cs : List Char) : ∃ front back, cs = front ++ trim cs ++ back ∧
    (∀ c ∈ front, isBlank c = true) ∧ ∀ c ∈ back, isBlank c = true := by
  refine ⟨cs.takeWhile isBlank, ((cs.dropWhile isBlank).reverse.takeWhile isBlank).reverse, ?_,
    fun c hc => List.mem_takeWhile_imp hc, fun c hc => ?_⟩
  · have hend : trim cs ++ ((cs.dropWhile isBlank).reverse.takeWhile isBlank).reverse =
        cs.dropWhile isBlank := by
      rw [trim, ← List.reverse_append, List.takeWhile_append_dropWhile, List.reverse_reverse]
    rw [List.append_assoc, hend, List.takeWhile_append_dropWhile]
  · exact List.mem_takeWhile_imp (List.mem_reverse.1 hc)

theorem trim_of_blanks {front core back : List Char} (hfront : ∀ c ∈ front, isBlank c = true)
    (hcore : ∀ c ∈ core, isBlank c = false) (hback : ∀ c ∈ back, isBlank c = true) :
    trim (front ++ core ++ back) = core := by
  rw [trim, List.append_assoc, List.dropWhile_append_of_pos hfront]
  cases core with
  | nil => rw [List.nil_append, List.dropWhile_eq_nil_iff.2 hback]; rfl
  | cons c core =>
    have hhead : ¬ isBlank c = true := by simp [hcore c List.mem_cons_self]
    have hlast : (c :: core).reverse.dropWhile isBlank = (c :: core).reverse := by
      refine List.dropWhile_eq_self_iff.2 fun hlength => ?_
      have hmem := List.mem_reverse.1 (List.getElem_mem hlength)
      rw [hcore _ hmem]
      exact Bool.false_ne_true
    rw [List.cons_append, List.dropWhile_cons_of_neg hhead, ← List.cons_append,
      List.reverse_append, List.dropWhile_append_of_pos (by simpa using hback), hlast,
      List.reverse_reverse]

theorem not_isBlank_of_toLower {core : List Char} (h : core.map Char.toLower = protoType.toList) :
    ∀ c ∈ core, isBlank c = false := by
  intro c hc
  have hlower : c.toLower ∈ protoType.toList := h ▸ List.mem_map_of_mem hc
  have htype : protoType.toList.all (fun d => !isBlank d) = true := by decide
  have hkept : isBlank c.toLower = false := by simpa using List.all_eq_true.1 htype _ hlower
  by_contra hblank
  -- a blank is its own small letter
  rw [Bool.not_eq_false, isBlank, Bool.or_eq_true, decide_eq_true_eq, decide_eq_true_eq] at hblank
  rcases hblank with rfl | rfl <;> exact absurd hkept (by decide)

/-- The characters of a type that are the type of messages in some case, between blanks. -/
theorem trim_toLower_iff {cs : List Char} :
    (trim cs).map Char.toLower = protoType.toList ↔ ∃ front core back, cs = front ++ core ++ back ∧
      (∀ c ∈ front, isBlank c = true) ∧ (∀ c ∈ back, isBlank c = true) ∧
      core.map Char.toLower = protoType.toList := by
  constructor
  · intro h
    obtain ⟨front, back, hcs, hfront, hback⟩ := exists_trim cs
    exact ⟨front, trim cs, back, hcs, hfront, hback, h⟩
  · rintro ⟨front, core, back, rfl, hfront, hback, h⟩
    rw [trim_of_blanks hfront (not_isBlank_of_toLower h) hback, h]

/-! ## Content types -/

/-- A byte with the case of a letter dropped. -/
def lowerByte (b : UInt8) : UInt8 := if 65 ≤ b.toNat ∧ b.toNat ≤ 90 then b + 32 else b

/-- The bytes of a content type that is accepted: text only, and before the first semicolon the type
of messages, in any case, with blanks and tabs around it. -/
def IsProtoType (value : Bytes) : Prop :=
  (∀ b ∈ value, 32 ≤ b.toNat ∧ b.toNat ≤ 126 ∨ b = 9) ∧
    ∃ front core back, value.takeWhile (· ≠ 59) = front ++ core ++ back ∧
      (∀ b ∈ front ++ back, b = 32 ∨ b = 9) ∧ core.map lowerByte = Bytes.ofText "application/proto"

theorem charOf_lowerByte (b : UInt8) : charOf (lowerByte b) = (charOf b).toLower := by
  have hall : ∀ n < 256, charOf (lowerByte (UInt8.ofNat n)) = (charOf (UInt8.ofNat n)).toLower := by
    decide +kernel
  have hb := hall b.toNat b.toNat_lt
  rwa [UInt8.ofNat_toNat] at hb

theorem isBlank_charOf_iff {b : UInt8} : isBlank (charOf b) = true ↔ b = 32 ∨ b = 9 := by
  have hspace : charOf 32 = ' ' := rfl
  have htab : charOf 9 = '\t' := rfl
  rw [isBlank, Bool.or_eq_true, decide_eq_true_eq, decide_eq_true_eq, ← hspace, ← htab,
    charOf_injective.eq_iff, charOf_injective.eq_iff]

theorem map_lowerByte_iff {core : Bytes} :
    (core.map charOf).map Char.toLower = protoType.toList ↔
      core.map lowerByte = Bytes.ofText "application/proto" := by
  have htype : protoType.toList = (Bytes.ofText "application/proto").map charOf := by decide
  have hlower : (core.map charOf).map Char.toLower = (core.map lowerByte).map charOf := by
    rw [List.map_map, List.map_map]
    exact List.map_congr_left fun b _ => (charOf_lowerByte b).symm
  rw [htype, hlower]
  exact (List.map_injective_iff.2 charOf_injective).eq_iff

theorem isProto_headerText_iff {value : Bytes} :
    isProto (headerText value) = true ↔ IsProtoType value := by
  by_cases htext : ∀ b ∈ value, isHeaderText b = true
  · have hsemi : ((fun c : Char => decide (c ≠ ';')) ∘ charOf) = fun b : UInt8 => decide (b ≠ 59) := by
      funext b
      have hchar : charOf 59 = ';' := rfl
      simp only [Function.comp_apply, ← hchar, ne_eq, charOf_injective.eq_iff]
    rw [isProto, decide_eq_true_eq, mediaType, toList_headerText htext, List.takeWhile_map, hsemi,
      trim_toLower_iff, IsProtoType, and_iff_right fun b hb => isHeaderText_iff.1 (htext b hb)]
    constructor
    · rintro ⟨front, core, back, hsplit, hfront, hback, hcore⟩
      obtain ⟨fc, back, hfc, hfcmap, rfl⟩ := List.map_eq_append_iff.1 hsplit
      obtain ⟨front, core, rfl, rfl, rfl⟩ := List.map_eq_append_iff.1 hfcmap
      refine ⟨front, core, back, hfc, fun b hb => isBlank_charOf_iff.1 ?_, map_lowerByte_iff.1 hcore⟩
      rcases List.mem_append.1 hb with hb | hb
      · exact hfront _ (List.mem_map_of_mem hb)
      · exact hback _ (List.mem_map_of_mem hb)
    · rintro ⟨front, core, back, hsplit, hblank, hcore⟩
      refine ⟨front.map charOf, core.map charOf, back.map charOf, ?_, ?_, ?_, map_lowerByte_iff.2 hcore⟩
      · rw [hsplit, List.map_append, List.map_append]
      · rw [List.forall_mem_map]
        exact fun b hb => isBlank_charOf_iff.2 (hblank b (List.mem_append_left back hb))
      · rw [List.forall_mem_map]
        exact fun b hb => isBlank_charOf_iff.2 (hblank b (List.mem_append_right front hb))
  · -- what is not text counts as an empty value
    rw [headerText_of_not_text htext]
    constructor
    · intro h
      exact absurd h (by decide)
    · rintro ⟨hall, -⟩
      exact absurd (fun b hb => isHeaderText_iff.2 (hall b hb)) htext

/-- **A content type is accepted just if there is one and its first value is in the grammar.** -/
theorem isProto_contentType_iff {hs : Headers} :
    isProto (contentType hs) = true ↔ ∃ value, hs.find? "content-type" = some value ∧
      IsProtoType value := by
  rw [contentType]
  cases hs.find? "content-type" with
  | none =>
    constructor
    · intro h
      exact absurd h (by decide)
    · rintro ⟨value, h, -⟩
      cases h
  | some value => simp [isProto_headerText_iff]

/-! ## Timeouts -/

/-- The bytes of a timeout that is accepted: one to ten digits. -/
def IsMillis (value : Bytes) : Prop :=
  1 ≤ value.length ∧ value.length ≤ 10 ∧ ∀ b ∈ value, 48 ≤ b.toNat ∧ b.toNat ≤ 57

/-- The number that digits stand for, the highest first. -/
def decimal (value : Bytes) : Nat := Nat.ofDigits 10 (value.reverse.map fun b => b.toNat - 48)

theorem value_map_charOf (value : Bytes) : Digits.value (value.map charOf) = decimal value := by
  induction value using List.reverseRecOn with
  | nil => rfl
  | append_singleton value b ih =>
    rw [List.map_append, List.map_singleton, Digits.value_append, ih, toNat_charOf, decimal, decimal,
      List.reverse_concat, List.map_cons, Nat.ofDigits_cons]
    ring

/-- Ten digits never are too many for 64 bits. -/
theorem decimal_lt {value : Bytes} (h : IsMillis value) : decimal value < 2 ^ 64 := by
  obtain ⟨-, hlength, hdigits⟩ := h
  have hlt : decimal value < 10 ^ value.length := by
    have hbound := @Nat.ofDigits_lt_base_pow_length 10 (value.reverse.map fun b => b.toNat - 48)
      (by decide) fun n hn => by
        obtain ⟨b, hb, rfl⟩ := List.mem_map.1 hn
        have := hdigits b (List.mem_reverse.1 hb)
        omega
    rwa [List.length_map, List.length_reverse] at hbound
  have hpow : (10 : Nat) ^ value.length ≤ 10 ^ 10 := Nat.pow_le_pow_right (by decide) hlength
  omega

theorem milliseconds?_headerText_iff {value : Bytes} {n : Nat} :
    milliseconds? (headerText value) = some n ↔ IsMillis value ∧ n = decimal value := by
  by_cases htext : ∀ b ∈ value, isHeaderText b = true
  · rw [milliseconds?, toList_headerText htext, List.length_map]
    by_cases hlong : 10 < value.length
    · rw [if_pos hlong]
      constructor
      · intro h
        cases h
      · rintro ⟨⟨-, hlength, -⟩, -⟩
        omega
    · rw [if_neg hlong, Option.filter_eq_some_iff, Digits.value?_eq_some_iff, value_map_charOf,
        List.forall_mem_map]
      simp only [isDigit_charOf_iff, ne_eq, List.map_eq_nil_iff, ← List.length_pos_iff,
        decide_eq_true_eq]
      constructor
      · rintro ⟨⟨hsome, hdigits, rfl⟩, -⟩
        exact ⟨⟨hsome, Nat.le_of_not_lt hlong, hdigits⟩, rfl⟩
      · rintro ⟨hmillis, rfl⟩
        exact ⟨⟨hmillis.1, hmillis.2.2, rfl⟩, decimal_lt hmillis⟩
  · rw [headerText_of_not_text htext]
    constructor
    · intro h
      cases h
    · rintro ⟨⟨-, -, hdigits⟩, -⟩
      refine absurd (fun b hb => isHeaderText_iff.2 (.inl ?_)) htext
      have := hdigits b hb
      omega

/-- How long a call may take, by the first value of the header. -/
def limitOf (hs : Headers) : Option Span :=
  (hs.find? "connect-timeout-ms").map fun value => .ofMillis (decimal value)

/-- **A timeout is accepted if it is in the grammar**, or if there is none. -/
theorem timeout_of_millis {hs : Headers}
    (h : ∀ value, hs.find? "connect-timeout-ms" = some value → IsMillis value) :
    timeout hs = .ok (limitOf hs) := by
  rw [timeout, timeoutHeader, limitOf]
  cases hvalue : hs.find? "connect-timeout-ms" with
  | none => rfl
  | some value => simp only [milliseconds?_headerText_iff.2 ⟨h value hvalue, rfl⟩, Option.map_some]

theorem timeout_of_not_millis {hs : Headers} {value : Bytes}
    (hvalue : hs.find? "connect-timeout-ms" = some value) (h : ¬ IsMillis value) :
    timeout hs =
      .error (.badRequest ("invalid connect-timeout-ms header " ++ quotedHeader value)) := by
  have hnone : milliseconds? (headerText value) = none := by
    refine Option.eq_none_iff_forall_ne_some.2 fun n hn => h ?_
    exact (milliseconds?_headerText_iff.1 hn).1
  simp only [timeout, timeoutHeader, hvalue, hnone]
  rfl

theorem timeout_eq_ok_iff {hs : Headers} {limit : Option Span} :
    timeout hs = .ok limit ↔
      (∀ value, hs.find? "connect-timeout-ms" = some value → IsMillis value) ∧ limit = limitOf hs := by
  by_cases hmillis : ∀ value, hs.find? "connect-timeout-ms" = some value → IsMillis value
  · rw [timeout_of_millis hmillis, and_iff_right hmillis, Except.ok.injEq, eq_comm]
  · obtain ⟨value, hvalue, hnot⟩ : ∃ value, hs.find? "connect-timeout-ms" = some value ∧
        ¬ IsMillis value := by simpa using hmillis
    rw [timeout_of_not_millis hvalue hnot]
    constructor
    · intro h
      cases h
    · rintro ⟨h, -⟩
      exact absurd h hmillis

end KeyedStream.Rpc
