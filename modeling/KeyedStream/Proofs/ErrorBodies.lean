import Mathlib
import KeyedStream.Rpc.Router

/-!
# Error bodies read back

A failed call is answered by a JSON object with a code and a message. The message holds texts of any
callers and callbacks, so it is escaped: each character is read back as itself, or as the code unit of
an escape that stands for it (`Unit16.StandsFor`). A string therefore reads back whatever is in it and
whatever follows it (`Json.readString_append`), and so does the body (`Rpc.ErrorBody.read?_write`).
`Rpc.errors_read_back` says what is found in it.
-/

namespace KeyedStream

namespace Json

/-! ## Characters -/

/-- Whether a part of a string stands for a character: as itself, or as the code of a control. -/
def Unit16.StandsFor (u : Unit16) (c : Char) : Prop :=
  u = .char c ∨ u = .code c.toNat ∧ c.toNat < 0x20

theorem hexValue?_hexDigit {n : Nat} (h : n < 16) : hexValue? (hexDigit n) = some n := by
  revert n
  decide

theorem hex4?_hexDigit {n : Nat} (h : n < 256) :
    hex4? '0' '0' (hexDigit (n / 16)) (hexDigit (n % 16)) = some n := by
  have hzero : hexValue? '0' = some 0 := by decide
  have hhigh : hexValue? (hexDigit (n / 16)) = some (n / 16) := hexValue?_hexDigit (by omega)
  have hlow : hexValue? (hexDigit (n % 16)) = some (n % 16) := hexValue?_hexDigit (by omega)
  simp only [hex4?, hzero, hhigh, hlow, Option.bind_eq_bind, Option.bind_some, Option.pure_def,
    Option.some.injEq]
  omega

/-- A character is written as a letter behind a backslash, by its code, or as itself. -/
theorem escape_cases (c : Char) :
    (∃ letter, letter ≠ 'u' ∧ unescape? letter = some c ∧ escape c = ['\\', letter]) ∨
    (c.toNat < 0x20 ∧
      escape c = ['\\', 'u', '0', '0', hexDigit (c.toNat / 16), hexDigit (c.toNat % 16)]) ∨
    (c ≠ '"' ∧ c ≠ '\\' ∧ ¬ c.toNat < 0x20 ∧ escape c = [c]) := by
  unfold escape
  split
  · next h => exact .inl ⟨'"', by decide, by rw [h]; decide, rfl⟩
  split
  · next h => exact .inl ⟨'\\', by decide, by rw [h]; decide, rfl⟩
  split
  · next h => exact .inl ⟨'b', by decide, by rw [h]; decide, rfl⟩
  split
  · next h => exact .inl ⟨'f', by decide, by rw [h]; decide, rfl⟩
  split
  · next h => exact .inl ⟨'n', by decide, by rw [h]; decide, rfl⟩
  split
  · next h => exact .inl ⟨'r', by decide, by rw [h]; decide, rfl⟩
  split
  · next h => exact .inl ⟨'t', by decide, by rw [h]; decide, rfl⟩
  split
  · next h => exact .inr (.inl ⟨h, rfl⟩)
  · next hquote hslash _ _ _ _ _ hcontrol => exact .inr (.inr ⟨hquote, hslash, hcontrol, rfl⟩)

/-- The form of a character is read as one part, which stands for it. -/
theorem exists_readUnits_escape (c : Char) :
    ∃ u : Unit16, u.StandsFor c ∧
      ∀ rest, readUnits (escape c ++ rest) = (readUnits rest).map fun r => (u :: r.1, r.2) := by
  rcases escape_cases c with ⟨letter, hletter, hc, hform⟩ | ⟨hcontrol, hform⟩ |
    ⟨hquote, hslash, hcontrol, hform⟩
  · refine ⟨.char c, .inl rfl, fun rest => ?_⟩
    rw [hform]
    cases hrest : readUnits rest <;> simp [readUnits, hletter, hc, hrest]
  · refine ⟨.code c.toNat, .inr ⟨rfl, hcontrol⟩, fun rest => ?_⟩
    have hcode := hex4?_hexDigit (n := c.toNat) (by omega)
    rw [hform]
    cases hrest : readUnits rest <;> simp [readUnits, hcode, hrest]
  · refine ⟨.char c, .inl rfl, fun rest => ?_⟩
    rw [hform]
    cases hrest : readUnits rest <;> simp [readUnits, hslash, hcontrol, hrest]

/-! ## Strings -/

/-- The code of a control is no half of a pair. -/
theorem join?_code {n : Nat} (h : n < 0x20) (us : List Unit16) :
    join? (.code n :: us) = (join? us).map (Char.ofNat n :: ·) := by
  have hlow : isLow n = false := by
    simp [isLow]
    omega
  have hhigh : isHigh n = false := by
    simp [isHigh]
    omega
  rcases us with _ | ⟨_ | _, _⟩ <;> simp [join?, hlow, hhigh]

theorem join?_of_standsFor {us : List Unit16} {s : List Char}
    (h : List.Forall₂ Unit16.StandsFor us s) : join? us = some s := by
  induction h with
  | nil => rfl
  | @cons u c us s hu _ ih =>
    rcases hu with rfl | ⟨rfl, hcontrol⟩
    · rw [join?, ih, Option.map_some]
    · rw [join?_code hcontrol, ih, Option.map_some, Char.ofNat_toNat]

theorem exists_readUnits_flatMap (s : List Char) :
    ∃ us, List.Forall₂ Unit16.StandsFor us s ∧
      ∀ rest, readUnits (s.flatMap escape ++ '"' :: rest) = some (us, rest) := by
  induction s with
  | nil => exact ⟨[], .nil, fun rest => by simp [readUnits]⟩
  | cons c s ih =>
    obtain ⟨us, hus, hread⟩ := ih
    obtain ⟨u, hu, hchar⟩ := exists_readUnits_escape c
    refine ⟨u :: us, .cons hu hus, fun rest => ?_⟩
    rw [List.flatMap_cons, List.append_assoc, hchar, hread, Option.map_some]

/-- **A string reads back**, and what follows its closing mark is left. -/
theorem readString_append (s : String) (rest : List Char) :
    readString (s.toList.flatMap escape ++ '"' :: rest) = some (some s, rest) := by
  obtain ⟨us, hus, hread⟩ := exists_readUnits_flatMap s.toList
  rw [readString, hread, Option.map_some, join?_of_standsFor hus, Option.map_some, String.ofList_toList]

/-! ## Objects -/

theorem skipBlanks_cons {c : Char} (h : c ∉ [' ', '\n', '\t', '\r']) (cs : List Char) :
    skipBlanks (c :: cs) = c :: cs := by
  simp only [List.mem_cons, List.not_mem_nil, or_false] at h
  simp [skipBlanks, h]

theorem readValue_string (fuel : Nat) (s : String) (rest : List Char) :
    readValue (fuel + 1) (writeString s.toList ++ rest) = some (.string (some s), rest) := by
  rw [writeString, List.cons_append, List.append_assoc, readValue, skipBlanks_cons (by decide)]
  simp [readString_append]

/-- A member whose value is a string. -/
def textMember (name value : String) : Option String × Value := (some name, .string (some value))

/-- The last member of an object. -/
theorem readMembers_last (fuel : Nat) (name value : String) (rest : List Char) :
    readMembers (fuel + 2)
      (writeString name.toList ++ ':' :: (writeString value.toList ++ '\x7d' :: rest)) =
        some ([textMember name value], rest) := by
  rw [writeString, List.cons_append, List.append_assoc, readMembers, skipBlanks_cons (by decide)]
  simp (disch := decide) only [List.singleton_append, readString_append, skipBlanks_cons,
    readValue_string, textMember]

/-- A member with others behind it. -/
theorem readMembers_comma (fuel : Nat) (name value : String) (rest : List Char) :
    readMembers (fuel + 2)
      (writeString name.toList ++ ':' :: (writeString value.toList ++ ',' :: rest)) =
        (readMembers (fuel + 1) rest).map fun r => (textMember name value :: r.1, r.2) := by
  rw [writeString, List.cons_append, List.append_assoc, readMembers, skipBlanks_cons (by decide)]
  simp (disch := decide) only [List.singleton_append, readString_append, skipBlanks_cons,
    readValue_string, textMember]

theorem readValue_object (fuel : Nat) (s rest : List Char) :
    readValue (fuel + 1) ('\x7b' :: (writeString s ++ rest)) =
      (readMembers fuel (writeString s ++ rest)).map fun r => (.object r.1, r.2) := by
  rw [writeString, List.cons_append, readValue, skipBlanks_cons (by decide)]
  simp (disch := decide) only [skipBlanks_cons]
  rfl

end Json

namespace Rpc

open Json

/-! ## Bodies -/

theorem Code.ofName?_name (c : Code) : Code.ofName? c.name = some c := by
  cases c <;> decide

namespace ErrorBody

/-- What a body is as a JSON value. -/
def toValue (b : ErrorBody) : Value :=
  .object [textMember "code" b.code.name, textMember "message" b.message]

theorem ofValue?_toValue (b : ErrorBody) : ofValue? b.toValue = some b := by
  simp [ofValue?, toValue, record?, textMember, Json.member, required, Code.read?, Value.choice?,
    Value.text?, Code.ofName?_name]

theorem toList_write (b : ErrorBody) : b.write.toList =
    '\x7b' :: (writeString "code".toList ++ ':' :: (writeString b.code.name.toList ++
      (',' :: (writeString "message".toList ++ ':' ::
        (writeString b.message.toList ++ ['\x7d']))))) := by
  simp [write, member]

theorem readValue_write (fuel : Nat) (b : ErrorBody) :
    readValue (fuel + 4) b.write.toList = some (b.toValue, []) := by
  rw [toList_write, readValue_object, readMembers_comma, readMembers_last, Option.map_some,
    Option.map_some, toValue]

/-- **A body reads back.** -/
theorem read?_write (b : ErrorBody) : read? b.write = some b := by
  -- each of the two members and the object itself takes one unit of the fuel at most
  obtain ⟨fuel, hfuel⟩ : ∃ fuel, 2 * b.write.toList.length + 2 = fuel + 4 := by
    refine ⟨2 * b.write.toList.length - 2, ?_⟩
    have hlength : 0 < b.write.toList.length := by
      rw [toList_write, List.length_cons]
      omega
    omega
  rw [read?, Json.read?, hfuel, readValue_write]
  simp [skipBlanks, ofValue?_toValue]

end ErrorBody

end Rpc

/-! ## What is found in a body -/

theorem Error.message_stateLoad (name : String) (e : Error) :
    (stateLoad name e).message = "failed to load state for " ++ name ++ ": " ++ e.message := rfl

/-- The message of an error in loads of states names the states, the outermost first, and ends as the
error within. -/
theorem Error.message_foldr_stateLoad (names : List String) (e : Error) :
    (names.foldr Error.stateLoad e).message =
      (names.map fun name => "failed to load state for " ++ name ++ ": ").foldr (· ++ ·) e.message := by
  induction names with
  | nil => rfl
  | cons name names ih =>
    rw [List.foldr_cons, message_stateLoad, ih, List.map_cons, List.foldr_cons]

/-- **Errors read back.** A call that fails is answered by a body which, as the bytes that are sent,
reads back as the code and the message of the error, whatever is in the message. Of an error in loads of
states the message names all the states, the outermost first, and ends as the error within; it is
reported as unknown, whatever it wraps. -/
theorem Rpc.errors_read_back (e : Error) :
    (∃ body, Response.ofError e = ⟨(failure e).1, .error body⟩ ∧
      (Bytes.toText? (Bytes.ofText body.write)).bind ErrorBody.read? =
        some { code := (failure e).2, message := e.message }) ∧
    ∀ name names inner, e = .stateLoad name (names.foldr .stateLoad inner) →
      failure e = (500, .unknown) ∧
      e.message = ((name :: names).map fun name => "failed to load state for " ++ name ++ ": ").foldr
        (· ++ ·) inner.message := by
  refine ⟨⟨⟨(failure e).2, e.message⟩, ?_, ?_⟩, ?_⟩
  · simp only [Response.ofError, ErrorBody.ofError]
  · rw [Bytes.toText?_ofText, Option.bind_some, ErrorBody.read?_write]
  · rintro name names inner rfl
    exact ⟨rfl, Error.message_foldr_stateLoad (name :: names) inner⟩

/-- Marks, backslashes and controls are escaped, and other characters stand for themselves. -/
example :
    (Rpc.ErrorBody.ofError (.stateLoad "q\"" (.codec (.packDecode "\\\n\x01é")))).2.write =
      "\x7b\"code\":\"unknown\",\"message\":\"failed to load state for q\\\": " ++
        "codec error: MsgPack decode error: \\\\\\n\\u0001é\"\x7d" := by
  decide +kernel

end KeyedStream
