import SchemaAtlas.DomainName.Combining

/-!
# Composed text

Letters with marks have one composed form: they are taken apart into a letter and its marks, the
marks are sorted by their classes, and what stands for a letter with a mark is put in their place.
-/

namespace SchemaAtlas.DomainName

/-! ## Syllables of Hangul -/

/-- The parts of the syllable with a code point, which lead with a consonant and a vowel. -/
def syllableParts? (n : Nat) : Option (List Nat) :=
  let place := n - 0xAC00
  if n < 0xAC00 ∨ 11172 ≤ place then none
  else
    let lead := [0x1100 + place / 588, 0x1161 + place % 588 / 28]
    some (if place % 28 = 0 then lead else lead ++ [0x11A7 + place % 28])

/-- The syllable that a consonant and a vowel, or a syllable and a last consonant, make. -/
def syllable? (first second : Nat) : Option Nat :=
  if 0x1100 ≤ first ∧ first < 0x1113 ∧ 0x1161 ≤ second ∧ second < 0x1176 then
    some (0xAC00 + ((first - 0x1100) * 21 + (second - 0x1161)) * 28)
  else if 0xAC00 ≤ first ∧ first < 0xAC00 + 11172 ∧ (first - 0xAC00) % 28 = 0 ∧
      0x11A7 < second ∧ second < 0x11C3 then
    some (first + (second - 0x11A7))
  else none

/-! ## Taking apart -/

/-- The parts of a character. A part may itself have parts, but theirs have none. -/
def parts (c : Char) : List Char :=
  let split (c : Char) : Option (Char × Char) :=
    (composites.find? (·.whole == c)).map fun composite => (composite.first, composite.second)
  match syllableParts? c.toNat with
  | some codes => codes.map Char.ofNat
  | none =>
    match split c with
    | none => [c]
    | some (first, second) =>
      match split first with
      | none => [first, second]
      | some (letter, mark) => [letter, mark, second]

/-- Puts a character before sorted text; a mark goes behind the marks of lower class. -/
def insertMark (c : Char) : List Char → List Char
  | [] => [c]
  | d :: rest =>
    if 0 < combiningClass d ∧ combiningClass d < combiningClass c then d :: insertMark c rest
    else c :: d :: rest

/-- Text in which the marks behind each letter are sorted by their classes. -/
def sortMarks (cs : List Char) : List Char :=
  cs.foldr insertMark []

/-! ## Putting together -/

/-- The character that stands for two others. -/
def composite? (first second : Char) : Option Char :=
  match syllable? first.toNat second.toNat with
  | some n => some (Char.ofNat n)
  | none =>
    (composites.find? fun composite => composite.first == first && composite.second == second).map
      Composite.whole

/-- Composes sorted text behind a letter and the marks that stay with it, last first. A mark is
combined with the letter unless one of its own class stands between them. -/
def composeBehind (letter : Char) (marks : List Char) : List Char → List Char
  | [] => letter :: marks.reverse
  | c :: rest =>
    let free := marks.head?.all fun mark => combiningClass mark < combiningClass c
    match if free then composite? letter c else none with
    | some whole => composeBehind whole marks rest
    | none =>
      if combiningClass c = 0 then letter :: marks.reverse ++ composeBehind c [] rest
      else composeBehind letter (c :: marks) rest

/-- The composed form of a text. -/
def compose (cs : List Char) : List Char :=
  match sortMarks (cs.flatMap parts) with
  | [] => []
  | c :: rest => composeBehind c [] rest

end SchemaAtlas.DomainName
