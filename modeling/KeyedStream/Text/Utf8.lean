import KeyedStream.Bytes

/-!
# Bytes that may be no text

Where a byte string stops being UTF-8. The scan takes one character after the other; a part that
is none is cut off as soon as no character can begin with it, so each such part is as long as it
can be and still be the beginning of a character.
-/

namespace KeyedStream.Text.Utf8

/-- What stands at the front of a byte string. -/
inductive Front where
  | done
  | char (width : Nat) (c : Char)
  | invalid (width : Nat)
  | incomplete
deriving DecidableEq, Repr

/-- Whether a byte can follow the first byte of a character. -/
def isContinuation (b : UInt8) : Bool := 0x80 ≤ b.toNat && b.toNat < 0xc0

def bits (b : UInt8) : Nat := b.toNat % 64

/-- Whether `b` may come second after `a` in a character of three bytes: no form longer than it
need be, and no surrogate. -/
def second3 (a b : UInt8) : Bool :=
  isContinuation b && !(a.toNat = 0xe0 && b.toNat < 0xa0) && !(a.toNat = 0xed && 0xa0 ≤ b.toNat)

/-- Whether `b` may come second after `a` in a character of four bytes: no form longer than it need
be, and nothing beyond the last code point. -/
def second4 (a b : UInt8) : Bool :=
  isContinuation b && !(a.toNat = 0xf0 && b.toNat < 0x90) && !(a.toNat = 0xf4 && 0x90 ≤ b.toNat)

def front : Bytes → Front
  | [] => .done
  | a :: r =>
    let n := a.toNat
    if n < 0x80 then .char 1 (Char.ofNat n)
    else if n < 0xc2 then .invalid 1
    else if n < 0xe0 then
      match r with
      | [] => .incomplete
      | b :: _ => if isContinuation b then .char 2 (Char.ofNat (n % 32 * 64 + bits b)) else .invalid 1
    else if n < 0xf0 then
      match r with
      | [] => .incomplete
      | b :: r =>
        if !second3 a b then .invalid 1
        else match r with
          | [] => .incomplete
          | c :: _ =>
            if isContinuation c then .char 3 (Char.ofNat (n % 16 * 4096 + bits b * 64 + bits c))
            else .invalid 2
    else if n < 0xf5 then
      match r with
      | [] => .incomplete
      | b :: r =>
        if !second4 a b then .invalid 1
        else match r with
          | [] => .incomplete
          | c :: r =>
            if !isContinuation c then .invalid 2
            else match r with
              | [] => .incomplete
              | d :: _ =>
                if isContinuation d then
                  .char 4 (Char.ofNat (n % 8 * 262144 + bits b * 4096 + bits c * 64 + bits d))
                else .invalid 3
    else .invalid 1

/-- Where and how a byte string stops being UTF-8. -/
inductive Defect where
  | invalid (width index : Nat)
  | incomplete (index : Nat)
deriving DecidableEq, Repr

def Defect.message : Defect → String
  | invalid width index =>
    "invalid utf-8 sequence of " ++ toString width ++ " bytes from index " ++ toString index
  | incomplete index => "incomplete utf-8 byte sequence from index " ++ toString index

/-- The first defect of what is left from an index on; `fuel` is the number of bytes left. -/
def defectFrom : Nat → Nat → Bytes → Option Defect
  | 0, _, _ => none
  | fuel + 1, index, bytes =>
    match front bytes with
    | .done => none
    | .char width _ => defectFrom fuel (index + width) (bytes.drop width)
    | .invalid width => some (.invalid width index)
    | .incomplete => some (.incomplete index)

def defect? (bytes : Bytes) : Option Defect := defectFrom bytes.length 0 bytes

/-- The character that stands for what is none. -/
def replacement : Char := '\ufffd'

/-- The characters of a byte string, with a replacement for each part that is none. -/
def lossyChars : Nat → Bytes → List Char
  | 0, _ => []
  | fuel + 1, bytes =>
    match front bytes with
    | .done => []
    | .char width c => c :: lossyChars fuel (bytes.drop width)
    | .invalid width => replacement :: lossyChars fuel (bytes.drop width)
    | .incomplete => [replacement]

def lossy (bytes : Bytes) : String := String.ofList (lossyChars bytes.length bytes)

end KeyedStream.Text.Utf8
