/-!
# Decimal digits

Numbers as their decimal digits, the highest first: the number that digits stand for, and digits
with zeros put in front or taken off the end.
-/

namespace KeyedStream.Digits

def value (ds : List Char) : Nat := ds.foldl (fun n d => n * 10 + (d.toNat - 48)) 0

/-- The number that a text stands for which is digits only, and one at least. -/
def value? (cs : List Char) : Option Nat :=
  if cs.isEmpty || !cs.all Char.isDigit then none else some (value cs)

/-- The digits of a number, with zeros in front up to a width. -/
def padded (width n : Nat) : List Char :=
  let ds := Nat.toDigits 10 n
  List.replicate (width - ds.length) '0' ++ ds

def trimZeros (ds : List Char) : List Char := (ds.reverse.dropWhile (· = '0')).reverse

theorem value_append (ds : List Char) (d : Char) :
    value (ds ++ [d]) = value ds * 10 + (d.toNat - 48) := by
  simp [value]

theorem value?_eq_some_iff {cs : List Char} {n : Nat} :
    value? cs = some n ↔ cs ≠ [] ∧ (∀ c ∈ cs, c.isDigit) ∧ value cs = n := by
  unfold value?
  split
  · next h =>
    refine ⟨fun e => by simp at e, fun ⟨hne, hall, _⟩ => ?_⟩
    simp only [Bool.or_eq_true, List.isEmpty_iff, Bool.not_eq_true', List.all_eq_false] at h
    rcases h with h | ⟨c, hc, hd⟩
    · exact absurd h hne
    · exact absurd (hall c hc) hd
  · next h =>
    simp only [Bool.or_eq_true, List.isEmpty_iff, Bool.not_eq_true', not_or,
      Bool.not_eq_false, List.all_eq_true] at h
    exact ⟨fun e => ⟨h.1, h.2, Option.some.inj e⟩, fun e => congrArg some e.2.2⟩

end KeyedStream.Digits
