import SchemaAtlas.FilePath.Basic
import SchemaAtlas.Text.Hex
import SchemaAtlas.Text.Utf8

/-!
# File URIs

A document is known by the URI of its file: `file://` and the percent-encoded steps of its path. A
path that does not start at the root has no URI of its own and is written behind `file://` as it
stands.
-/

namespace SchemaAtlas.FileUri

/-- Whether a byte cannot stand for itself in a step of a URI path. -/
def isEncoded (b : Nat) : Bool :=
  b < 0x21 || 0x7E < b ||
    [0x22, 0x23, 0x25, 0x2F, 0x3C, 0x3E, 0x3F, 0x5C, 0x60, 0x7B, 0x7D].contains b

/-- A byte in a step of a URI path. -/
def encodeByte (b : Nat) : List Char :=
  if isEncoded b then ['%', Text.upperHex (b / 16), Text.upperHex (b % 16)] else [Char.ofNat b]

/-- A text in a step of a URI path. -/
def encode (cs : List Char) : List Char :=
  (Text.utf8 cs).flatMap encodeByte

/-- The URI of a path. -/
def ofPath (p : FilePath) : String :=
  if p.isAbsolute then
    let steps := p.route.steps.map fun step => encode step.text.toList
    "file://" ++ String.ofList (if steps.isEmpty then ['/'] else steps.flatMap ('/' :: ·))
  else "file://" ++ p.text

end SchemaAtlas.FileUri
