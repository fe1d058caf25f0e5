import SchemaAtlas.Text.Hex

/-!
# Words of JSON texts

A JSON text is a sequence of marks, words, numerals and strings between blanks. Numerals and
strings are taken apart here as they are written; what they stand for, if anything, is a matter of
values.
-/

namespace SchemaAtlas.Json

/-- A number as it is written. -/
structure Numeral where
  negative : Bool
  /-- The digits before the point. -/
  whole : List Nat
  /-- The digits behind the point, none if there is no point. -/
  fraction : List Nat
  exponent : Option Int
deriving DecidableEq, Repr

/-- A piece of a string: a character, or an escaped unit of UTF-16. -/
inductive Piece where
  | char (c : Char)
  | unit (n : Nat)
deriving DecidableEq, Repr

/-- A value without parts, as it is written. -/
inductive Scalar where
  | null
  | bool (flag : Bool)
  | number (numeral : Numeral)
  | string (pieces : List Piece)
deriving DecidableEq, Repr

/-- A word or mark of a text. -/
inductive Token where
  | openArray
  | closeArray
  | openObject
  | closeObject
  | comma
  | colon
  | scalar (value : Scalar)
deriving DecidableEq, Repr

namespace Token

/-- Whether a character separates words. -/
def isBlank (c : Char) : Bool :=
  c = ' ' || c = '\t' || c = '\n' || c = '\r'

/-- The digits at the start of a text. -/
def digits (cs : List Char) : List Nat :=
  (cs.takeWhile Char.isDigit).map fun c => c.toNat - '0'.toNat

/-- The number that digits write. -/
def numberOf (digits : List Nat) : Nat :=
  digits.foldl (fun n digit => n * 10 + digit) 0

/-- The digits before the point: a zero is not followed by another digit. -/
def whole? (cs : List Char) : Option (List Nat) :=
  match digits cs with
  | [] => none
  | 0 :: _ :: _ => none
  | found => some found

/-- The digits behind the point, and how many characters they take with it. -/
def fraction? : List Char → Option (List Nat × Nat)
  | '.' :: rest =>
    match digits rest with
    | [] => none
    | found => some (found, found.length + 1)
  | _ => some ([], 0)

/-- The exponent, and how many characters it takes. -/
def exponent? : List Char → Option (Option Int × Nat)
  | c :: rest =>
    if c = 'e' ∨ c = 'E' then
      let negative := rest.head? = some '-'
      let sign := if negative ∨ rest.head? = some '+' then 1 else 0
      match digits (rest.drop sign) with
      | [] => none
      | found =>
        let n : Int := numberOf found
        some (some (if negative then -n else n), found.length + sign + 1)
    else some (none, 0)
  | [] => some (none, 0)

/-- A numeral and how many characters it takes. -/
def numeral? (cs : List Char) : Option (Numeral × Nat) := do
  let negative := cs.head? = some '-'
  let sign := if negative then 1 else 0
  let whole ← whole? (cs.drop sign)
  let point := sign + whole.length
  let (fraction, n) ← fraction? (cs.drop point)
  let (exponent, m) ← exponent? (cs.drop (point + n))
  return ({ negative, whole, fraction, exponent }, point + n + m)

/-- An escape behind its backslash, and how many characters it takes. -/
def escape? : List Char → Option (Piece × Nat)
  | '"' :: _ => some (.char '"', 1)
  | '\\' :: _ => some (.char '\\', 1)
  | '/' :: _ => some (.char '/', 1)
  | 'b' :: _ => some (.char '\x08', 1)
  | 'f' :: _ => some (.char '\x0c', 1)
  | 'n' :: _ => some (.char '\n', 1)
  | 'r' :: _ => some (.char '\r', 1)
  | 't' :: _ => some (.char '\t', 1)
  | 'u' :: a :: b :: c :: d :: _ => (Text.hexNumber? [a, b, c, d]).map fun n => (.unit n, 5)
  | _ => none

/-- The pieces of a string behind its opening mark, and how many characters they take with the
closing one. -/
def pieces? : List Char → Option (List Piece × Nat)
  | [] => none
  | c :: rest =>
    if c = '"' then some ([], 1)
    else if c = '\\' then
      match escape? rest with
      | some (piece, n) =>
        (pieces? (rest.drop n)).map fun (pieces, m) => (piece :: pieces, n + m + 1)
      | none => none
    else if c.toNat < 0x20 then none
    else (pieces? rest).map fun (pieces, m) => (.char c :: pieces, m + 1)
termination_by cs => cs.length

/-- The rest of a word that stands for a value. -/
def word? (value : Scalar) (rest expected : List Char) : Option (Token × Nat) :=
  if expected.isPrefixOf rest then some (.scalar value, expected.length) else none

/-- The token that starts with the character `c`, and how many of the characters `rest` behind it
belong to it. -/
def lexeme? (c : Char) (rest : List Char) : Option (Token × Nat) :=
  match c with
  | '[' => some (.openArray, 0)
  | ']' => some (.closeArray, 0)
  | '\x7b' => some (.openObject, 0)
  | '\x7d' => some (.closeObject, 0)
  | ',' => some (.comma, 0)
  | ':' => some (.colon, 0)
  | 'n' => word? .null rest ['u', 'l', 'l']
  | 't' => word? (.bool true) rest ['r', 'u', 'e']
  | 'f' => word? (.bool false) rest ['a', 'l', 's', 'e']
  | '"' => (pieces? rest).map fun (pieces, n) => (.scalar (.string pieces), n)
  | _ => (numeral? (c :: rest)).map fun (numeral, n) => (.scalar (.number numeral), n - 1)

/-- The tokens of a text, if it consists of tokens. -/
def scan? (cs : List Char) : Option (List Token) :=
  match cs with
  | [] => some []
  | c :: rest =>
    if isBlank c then scan? rest
    else
      match lexeme? c rest with
      | some (token, n) => (scan? (rest.drop n)).map (token :: ·)
      | none => none
termination_by cs.length

end Token

end SchemaAtlas.Json
