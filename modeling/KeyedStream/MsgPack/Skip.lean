import KeyedStream.MsgPack.Head

/-!
# Skipping values

A value that nobody asked for is read over. Arrays, maps and extensions nest, each level on one unit
of a budget.
-/

namespace KeyedStream.MsgPack

/-- The budget of a whole input: containers may nest one level less deep than this. -/
def nestingBudget : Nat := 1024

/-- The budget inside a container, if it may be entered. -/
def enter? (budget : Nat) : Option Nat := if budget ≤ 1 then none else some (budget - 1)

def drop? (n : Nat) (bytes : Bytes) : Option Bytes := (Bytes.take? n bytes).map Prod.snd

/-- Reads over `count` values. Each takes a byte at least, so `fuel` may be the number of bytes. -/
def skipMany : (fuel budget count : Nat) → Bytes → Option Bytes
  | _, _, 0, bytes => some bytes
  | 0, _, _ + 1, _ => none
  | fuel + 1, budget, count + 1, bytes =>
    match Head.read bytes with
    | none => none
    | some (head, rest) =>
      let inside (n : Nat) : Option Bytes :=
        match enter? budget with
        | some inner => skipMany fuel inner n rest
        | none => none
      let after : Option Bytes :=
        match head with
        | .text n | .binary n => drop? n rest
        | .array n => inside n
        | .map n => inside (2 * n)
        | .extension n => if budget ≤ 1 then none else drop? (n + 1) rest
        | _ => some rest
      match after with
      | some rest => skipMany fuel budget count rest
      | none => none

def skip (budget : Nat) (bytes : Bytes) : Option Bytes := skipMany bytes.length budget 1 bytes

end KeyedStream.MsgPack
