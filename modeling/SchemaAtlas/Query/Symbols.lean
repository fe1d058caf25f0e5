import SchemaAtlas.Index.Basic
import SchemaAtlas.Json.Basic
import SchemaAtlas.Text.LowerCase

/-!
# Looking up symbols
-/

namespace SchemaAtlas

/-- A place where a symbol is declared, as it is answered. -/
structure SymbolMatch where
  name : String
  container : Option String
  file : String
  line : Nat
  character : Nat
deriving DecidableEq, Repr

/-- A match as JSON. -/
def SymbolMatch.toJson (found : SymbolMatch) : Json :=
  .object [("name", .string found.name), ("container", .ofOption found.container),
    ("file", .string found.file), ("line", .ofNat found.line),
    ("character", .ofNat found.character)]

namespace Snapshot

/-- All places where a symbol is declared. -/
def symbol (s : Snapshot) (name : String) : List SymbolMatch :=
  ((s.findDefinition? name).getD []).map fun found =>
    { name, container := found.container, file := found.location.file.text
      line := found.location.line, character := found.location.character }

/-- The places of the symbols in whose names a text occurs in any case, at most `limit`. -/
def search (s : Snapshot) (text : String) (limit : Nat) : List SymbolMatch :=
  let needle := (Text.lower text).toList
  ((s.definitions.keys.filter fun name => Text.contains (Text.lower name).toList needle).flatMap
    s.symbol).take limit

end Snapshot

end SchemaAtlas
