/-!
# Packed tables

Long tables of numbers are written as text. A number is written in base 26, with capital letters for
all its digits but the last, which is a small letter.
-/

namespace SchemaAtlas.Text.Packed

/-- The numbers in a text whose first number goes on from the digits that write `n`. -/
def numbersFrom (n : Nat) : List Char → List Nat
  | [] => []
  | c :: rest =>
    if 'a' ≤ c then (n * 26 + (c.toNat - 'a'.toNat)) :: numbersFrom 0 rest
    else numbersFrom (n * 26 + (c.toNat - 'A'.toNat)) rest

/-- The numbers in the lines of a table. -/
def numbers (lines : List String) : List Nat :=
  numbersFrom 0 (lines.flatMap String.toList)

/-- Numbers taken two by two. -/
def pairs : List Nat → List (Nat × Nat)
  | a :: b :: rest => (a, b) :: pairs rest
  | _ => []

/-- The value at a place that lies in one of the runs, which are given by their lengths and values
and follow each other; zero behind the last. -/
def runValue : List (Nat × Nat) → Nat → Nat
  | [], _ => 0
  | (length, value) :: runs, place =>
    if place < length then value else runValue runs (place - length)

/-- The value of a character in a table of runs that starts behind ASCII, where it is zero. -/
def valueOf (runs : List (Nat × Nat)) (c : Char) : Nat :=
  if c.toNat < 0x80 then 0 else runValue runs (c.toNat - 0x80)

end SchemaAtlas.Text.Packed
