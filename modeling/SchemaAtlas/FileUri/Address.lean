import SchemaAtlas.Text.Hex

/-!
# Addresses as hosts

A host may be given by its address: as up to four numbers between dots, where the last one fills
what is left of four bytes, or in brackets as eight pieces of two bytes.
-/

namespace SchemaAtlas.FileUri

/-! ## Addresses of four bytes -/

/-- The number that digits write in a base. -/
def numberInBase (base : Nat) (digits : List Char) : Nat :=
  digits.foldl (fun n c => n * base + (Text.hexDigit? c).getD 0) 0

/-- The number that a label writes, in base 10, 8 or 16. -/
def addressNumber? : List Char → Option Nat
  | [] => none
  | '0' :: x :: digits =>
    if x = 'x' ∨ x = 'X' then
      if digits.all Text.isHexDigit then some (numberInBase 16 digits) else none
    else if (x :: digits).all fun c => '0' ≤ c && c ≤ '7' then some (numberInBase 8 (x :: digits))
    else none
  | digits => if digits.all Char.isDigit then some (numberInBase 10 digits) else none

/-- The labels of a host without an empty last one. -/
def significantLabels (labels : List (List Char)) : List (List Char) :=
  if labels.length > 1 && labels.getLast? = some [] then labels.dropLast else labels

/-- Whether a host ends in a number and is therefore to be read as an address. -/
def endsInNumber (labels : List (List Char)) : Bool :=
  (significantLabels labels).getLast?.any fun last =>
    (!last.isEmpty && last.all Char.isDigit) || (addressNumber? last).isSome

/-- Whether a host that ends in a number is an address of four bytes. -/
def isAddress (labels : List (List Char)) : Bool :=
  match (significantLabels labels).mapM addressNumber? with
  | none => false
  | some numbers =>
    numbers.length ≤ 4 && numbers.dropLast.all (· ≤ 255) &&
      numbers.getLast?.any fun last => last < Nat.pow 256 (5 - numbers.length)

/-! ## Addresses of sixteen bytes -/

/-- The pieces of a text between the characters that part them. -/
def splitAtEach (isSeparator : Char → Bool) : List Char → List (List Char)
  | [] => [[]]
  | c :: rest =>
    if isSeparator c then [] :: splitAtEach isSeparator rest
    else match splitAtEach isSeparator rest with
      | first :: more => (c :: first) :: more
      | [] => [[c]]

/-- Whether a text is a number below 256, without a zero in front. -/
def isByte (digits : List Char) : Bool :=
  !digits.isEmpty && digits.all Char.isDigit && (digits.length = 1 || digits.head? ≠ some '0') &&
    numberInBase 10 digits < 256

/-- Whether a text is a piece of two bytes, in up to four hexadecimal digits. -/
def isPiece (digits : List Char) : Bool :=
  !digits.isEmpty && digits.length ≤ 4 && digits.all Text.isHexDigit

/-- The number of pieces between colons; the last two may be written as four bytes between dots. -/
def pieceCount? (mayEndInBytes : Bool) (cs : List Char) : Option Nat :=
  let texts := splitAtEach (· == ':') cs
  let bytes := (texts.getLast?.map (splitAtEach (· == '.'))).getD []
  if texts.all isPiece then some texts.length
  else if mayEndInBytes && texts.dropLast.all isPiece && bytes.length = 4 && bytes.all isByte then
    some (texts.length + 1)
  else none

/-- What stands before and behind the first two colons next to each other. -/
def splitAtGap? : List Char → Option (List Char × List Char)
  | ':' :: ':' :: rest => some ([], rest)
  | c :: rest => (splitAtGap? rest).map fun (before, behind) => (c :: before, behind)
  | [] => none

/-- Whether a text is an address of sixteen bytes. Two colons next to each other stand for the
pieces that are missing, which are at least one. -/
def isLongAddress (cs : List Char) : Bool :=
  match splitAtGap? cs with
  | none => pieceCount? true cs == some 8
  | some (before, behind) =>
    let count? (mayEndInBytes : Bool) (cs : List Char) : Option Nat :=
      if cs.isEmpty then some 0 else pieceCount? mayEndInBytes cs
    match count? false before, count? true behind with
    | some n, some m => n + m ≤ 7
    | _, _ => false

end SchemaAtlas.FileUri
