import SchemaAtlas.Text.Hex

/-!
# String literals of documents

A plain literal stands between single quote marks `"` and may hold escapes; a block literal stands
between triple ones and is cut out of its indentation. The readers below start behind the opening
mark and answer the value together with the number of characters up to and including the closing
mark.
-/

namespace SchemaAtlas.Quoted

open Text (hexNumber? isHexDigit)

/-- Whether a character ends a line. -/
def isLineEnd (c : Char) : Bool :=
  c = '\n' || c = '\r'

/-- The character of a code point, unless it is a surrogate or too large. -/
def scalar? (n : Nat) : Option Char :=
  if h : n.isValidChar then some ⟨n.toUInt32, by
    have hn : n < UInt32.size := by rcases h with h | h <;> simp [UInt32.size] <;> omega
    simpa [UInt32.isValidChar, UInt32.toNat_ofNat_of_lt' hn] using h⟩
  else none

/-- Four hexadecimal digits at the start of a text. -/
def fourDigits? : List Char → Option Nat
  | a :: b :: c :: d :: _ => hexNumber? [a, b, c, d]
  | _ => none

/-- A code point written as `uXXXX`: a surrogate counts only as the first half of a pair whose
second half follows as another escape. -/
def fixedEscape (cs : List Char) : Option (Char × Nat) := do
  let high ← fourDigits? cs
  if 0xD800 ≤ high ∧ high < 0xDC00 then
    match cs.drop 4 with
    | '\\' :: 'u' :: rest =>
      let low ← fourDigits? rest
      guard (0xDC00 ≤ low ∧ low < 0xE000)
      let c ← scalar? (0x10000 + (high - 0xD800) * 0x400 + (low - 0xDC00))
      return (c, 11)
    | _ => none
  else
    let c ← scalar? high
    return (c, 5)

/-- An escape behind its backslash: the character it stands for and how many characters write it. -/
def escape? : List Char → Option (Char × Nat)
  | '"' :: _ => some ('"', 1)
  | '\\' :: _ => some ('\\', 1)
  | '/' :: _ => some ('/', 1)
  | 'b' :: _ => some ('\x08', 1)
  | 'f' :: _ => some ('\x0c', 1)
  | 'n' :: _ => some ('\n', 1)
  | 'r' :: _ => some ('\r', 1)
  | 't' :: _ => some ('\t', 1)
  | 'u' :: '{' :: rest => do
    let digits := rest.takeWhile isHexDigit
    guard (digits ≠ [] ∧ (rest.drop digits.length).head? = some '}')
    let c ← scalar? (← hexNumber? digits)
    return (c, digits.length + 3)
  | 'u' :: rest => fixedEscape rest
  | _ => none

/-- The rest of a plain literal. No line ends inside, except directly behind the opening mark. -/
def plain? (atStart : Bool) : List Char → Option (List Char × Nat)
  | [] => none
  | c :: rest =>
    if c = '"' then some ([], 1)
    else if c = '\\' then
      match escape? rest with
      | some (value, n) => (plain? false (rest.drop n)).map fun (cs, m) => (value :: cs, n + m + 1)
      | none => none
    else if isLineEnd c && !atStart then none
    else (plain? false rest).map fun (cs, m) => (c :: cs, m + 1)
termination_by cs => cs.length

/-- The characters of a block literal up to its closing mark, as they are written. -/
def blockBody? : List Char → Option (List Char × Nat)
  | '"' :: '"' :: '"' :: _ => some ([], 3)
  | '\\' :: '"' :: '"' :: '"' :: rest =>
    (blockBody? rest).map fun (cs, m) => ('\\' :: '"' :: '"' :: '"' :: cs, m + 4)
  | c :: rest => (blockBody? rest).map fun (cs, m) => (c :: cs, m + 1)
  | [] => none

/-- The lines of a block literal: a line ends at a line feed, a carriage return, or both in this
order. -/
def lines : List Char → List (List Char)
  | [] => [[]]
  | '\r' :: '\n' :: rest => [] :: lines rest
  | c :: rest =>
    if isLineEnd c then [] :: lines rest
    else match lines rest with
      | first :: more => (c :: first) :: more
      | [] => [[c]]

/-- Whether a character counts as indentation. -/
def isIndent (c : Char) : Bool :=
  c = ' ' || c = '\t'

/-- Whether a line holds indentation only. -/
def isBlankLine (line : List Char) : Bool :=
  line.all isIndent

/-- The least indentation of the lines that are not blank. -/
def commonIndent (lines : List (List Char)) : Nat :=
  ((lines.filter (!isBlankLine ·)).map fun line => (line.takeWhile isIndent).length).min?.getD 0

/-- Lines without the blank ones at both ends. -/
def trimBlank (lines : List (List Char)) : List (List Char) :=
  ((lines.dropWhile isBlankLine).reverse.dropWhile isBlankLine).reverse

/-- A text in which each escaped closing mark stands for the mark. -/
def unescapeMarks : List Char → List Char
  | '\\' :: '"' :: '"' :: '"' :: rest => '"' :: '"' :: '"' :: unescapeMarks rest
  | c :: rest => c :: unescapeMarks rest
  | [] => []

/-- The value of a block literal: its lines without the indentation that all but the first have in
common, without blank lines at both ends. -/
def blockValue (raw : List Char) : List Char :=
  match lines raw with
  | [] => []
  | first :: more =>
    let lines := trimBlank (first :: more.map (List.drop (commonIndent more)))
    unescapeMarks (List.intercalate ['\n'] lines)

/-- A literal behind its first quote mark: its value and the number of characters behind that
mark. -/
def read? : List Char → Option (String × Nat)
  | '"' :: '"' :: rest =>
    (blockBody? rest).map fun (raw, n) => (String.ofList (blockValue raw), n + 2)
  | '"' :: _ => some ("", 1)
  | cs => (plain? true cs).map fun (value, n) => (String.ofList value, n)

end SchemaAtlas.Quoted
