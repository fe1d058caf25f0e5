import SchemaAtlas.Text.Hex
import SchemaAtlas.Text.Utf8

/-!
# Percent-encoded text

In a URI a byte may be written as a percent sign and two hexadecimal digits. A percent sign without
them stands for itself.
-/

namespace SchemaAtlas.FileUri

/-- The bytes that a percent-encoded text stands for. -/
def decodeBytes : List Char → List Nat
  | '%' :: a :: b :: rest =>
    match Text.hexDigit? a, Text.hexDigit? b with
    | some x, some y => (x * 16 + y) :: decodeBytes rest
    | _, _ => '%'.toNat :: decodeBytes (a :: b :: rest)
  | c :: rest => Text.utf8Bytes c ++ decodeBytes rest
  | [] => []

/-- The text that a percent-encoded text stands for, if its bytes are text. -/
def decode? (cs : List Char) : Option (List Char) :=
  let bytes := decodeBytes cs
  if Text.isUtf8 bytes then some (Text.decodeUtf8 bytes) else none

end SchemaAtlas.FileUri
