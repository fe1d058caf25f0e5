/-!
# UTF-8

Characters as bytes, and bytes as characters with a replacement character for every piece that is
not well-formed.
-/

namespace SchemaAtlas.Text

/-- The bytes of a character, as numbers below 256. -/
def utf8Bytes (c : Char) : List Nat :=
  let n := c.toNat
  if n < 0x80 then [n]
  else if n < 0x800 then [0xC0 + n / 0x40, 0x80 + n % 0x40]
  else if n < 0x10000 then [0xE0 + n / 0x1000, 0x80 + n / 0x40 % 0x40, 0x80 + n % 0x40]
  else [0xF0 + n / 0x40000, 0x80 + n / 0x1000 % 0x40, 0x80 + n / 0x40 % 0x40, 0x80 + n % 0x40]

/-- The bytes of a run of characters. -/
def utf8 (cs : List Char) : List Nat :=
  cs.flatMap utf8Bytes

/-- How many continuation bytes a first byte calls for, with the bounds of the first of them and
the bits that the first byte contributes. -/
def utf8Lead? (b : Nat) : Option (Nat × Nat × Nat × Nat) :=
  if b < 0x80 then some (0, 0, 0, b)
  else if 0xC2 ≤ b ∧ b ≤ 0xDF then some (1, 0x80, 0xBF, b - 0xC0)
  else if b = 0xE0 then some (2, 0xA0, 0xBF, 0)
  else if b = 0xED then some (2, 0x80, 0x9F, 0xD)
  else if 0xE1 ≤ b ∧ b ≤ 0xEF then some (2, 0x80, 0xBF, b - 0xE0)
  else if b = 0xF0 then some (3, 0x90, 0xBF, 0)
  else if b = 0xF4 then some (3, 0x80, 0x8F, 4)
  else if 0xF1 ≤ b ∧ b ≤ 0xF3 then some (3, 0x80, 0xBF, b - 0xF0)
  else none

/-- Takes `count` continuation bytes, the first between the bounds: the code point, if all are
there, and how many bytes were taken. -/
def utf8Tail : Nat → Nat → Nat → Nat → List Nat → Option Nat × Nat
  | 0, _, _, bits, _ => (some bits, 0)
  | _ + 1, _, _, _, [] => (none, 0)
  | count + 1, low, high, bits, b :: rest =>
    if low ≤ b ∧ b ≤ high then
      let (point, n) := utf8Tail count 0x80 0xBF (bits * 0x40 + (b - 0x80)) rest
      (point, n + 1)
    else (none, 0)

/-- The characters of a list of bytes; each longest piece that could start a character and does
not is replaced by U+FFFD. -/
def decodeUtf8 (bytes : List Nat) : List Char :=
  match bytes with
  | [] => []
  | b :: rest =>
    match utf8Lead? b with
    | none => '\ufffd' :: decodeUtf8 rest
    | some (count, low, high, bits) =>
      let (point, n) := utf8Tail count low high bits rest
      (point.map Char.ofNat).getD '\ufffd' :: decodeUtf8 (rest.drop n)
termination_by bytes.length

/-- Whether bytes are well-formed throughout. -/
def isUtf8 (bytes : List Nat) : Bool :=
  match bytes with
  | [] => true
  | b :: rest =>
    match utf8Lead? b with
    | none => false
    | some (count, low, high, bits) =>
      let (point, n) := utf8Tail count low high bits rest
      point.isSome && isUtf8 (rest.drop n)
termination_by bytes.length

end SchemaAtlas.Text
