import SchemaAtlas.Text.Bytes

/-!
# Lines and columns

Editors address text by line and by UTF-16 code unit within the line. A `LineIndex` is a text with
the byte offsets at which its lines begin, and `positionAt` looks an offset up there. Only a line
feed ends a line; an offset behind the end counts as the end, and an offset inside a character
answers the start of that character's line.
-/

namespace SchemaAtlas.Text

/-- A zero-based place in a text. -/
structure Position where
  /-- Line feeds before the place. -/
  line : Nat
  /-- UTF-16 code units between the start of the line and the place. -/
  character : Nat
deriving DecidableEq, Repr

/-- A place whose line and code units are cut to 32 bits. -/
def Position.narrow (p : Position) : Position :=
  ⟨p.line % UInt32.size, p.character % UInt32.size⟩

/-- UTF-16 code units of one character: two above the basic plane. -/
def units (c : Char) : Nat :=
  if c.toNat < 0x10000 then 1 else 2

/-- UTF-16 code units of a run of characters. -/
def unitLength : List Char → Nat
  | [] => 0
  | c :: cs => units c + unitLength cs

/-- The place where the elements end that are accepted, if they come first: `size` elements from
`base` on are left to look at, and those before `base` are accepted. -/
def searchPartition (accept : Nat → Bool) (xs : Array Nat) (base size : Nat) : Nat :=
  if 1 < size then
    let half := size / 2
    let mid := base + half
    searchPartition accept xs (if xs[mid]?.any accept then mid else base) (size - half)
  else if xs[base]?.any accept then base + 1
  else base
termination_by size

/-- How many elements come before the first one that is not accepted, if those that are accepted
come first. -/
def partitionPoint (accept : Nat → Bool) (xs : Array Nat) : Nat :=
  searchPartition accept xs 0 xs.size

/-- The byte offsets behind the line feeds of a run of characters that begins at an offset. -/
def behindLineFeeds (offset : Nat) : List Char → List Nat
  | [] => []
  | c :: cs =>
    if c = '\n' then (offset + c.utf8Size) :: behindLineFeeds (offset + c.utf8Size) cs
    else behindLineFeeds (offset + c.utf8Size) cs

/-- A text with the byte offsets at which its lines begin. -/
structure LineIndex where
  text : List Char
  starts : Array Nat

namespace LineIndex

/-- The lines of a text. -/
def ofText (text : String) : LineIndex :=
  { text := text.toList, starts := (0 :: behindLineFeeds 0 text.toList).toArray }

/-- The place of a byte offset, if a line begins at it or before it. -/
def position? (index : LineIndex) (offset : Nat) : Option Position :=
  let offset := min offset (byteLength index.text)
  match partitionPoint (· ≤ offset) index.starts with
  | 0 => none
  | line + 1 => do
    let start ← index.starts[line]?
    return ⟨line, ((slice? index.text start offset).map unitLength).getD 0⟩

end LineIndex

/-- The place of a byte offset. -/
def positionAt (text : String) (offset : Nat) : Position :=
  ((LineIndex.ofText text).position? offset).getD ⟨0, 0⟩

/-- A place as people count it, from one: `LINE:COLUMN`. -/
def Position.display (p : Position) : String :=
  toString (p.line + 1) ++ ":" ++ toString (p.character + 1)

end SchemaAtlas.Text
