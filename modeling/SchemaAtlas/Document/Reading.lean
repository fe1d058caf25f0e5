import SchemaAtlas.Document.Grammar

/-!
# Reading documents

A text is read definition by definition, up to the first syntax error, which is kept as the
document's `fault`.
-/

namespace SchemaAtlas.Document

/-- The definitions of a list of tokens up to a fault, and the tokens from the one on that is to
blame for it. Each round takes a token, so the tokens in `supply` bound the number of rounds. -/
def definitionsFrom : List Token → List Token → List Definition × Option (List Token)
  | _ :: supply, ts@(_ :: _) =>
    match Grammar.definition ts with
    | .ok (definition, rest) =>
      let (more, fault) := definitionsFrom supply rest
      (definition :: more, fault)
    | .error rest => ([], some rest)
  | _, _ => ([], none)

/-- The byte offset at which a list of tokens of a text of `size` bytes starts. -/
def offsetOf (size : Nat) : List Token → Nat
  | t :: _ => t.start
  | [] => size

/-- Reads a text. A text without any definition is broken at its end. -/
def ofText (text : String) : Document :=
  let ts := Token.ofText text
  let (definitions, fault) := definitionsFrom ts ts
  let size := text.utf8ByteSize
  if ts.isEmpty then { definitions, fault := some size }
  else { definitions, fault := fault.map (offsetOf size) }

/-- Whether the text had no syntax error. -/
def isSound (document : Document) : Bool :=
  document.fault.isNone

end SchemaAtlas.Document
