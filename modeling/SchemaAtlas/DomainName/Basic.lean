import SchemaAtlas.DomainName.Composition
import SchemaAtlas.DomainName.Direction
import SchemaAtlas.DomainName.Joining
import SchemaAtlas.DomainName.Mapping
import SchemaAtlas.DomainName.Punycode

/-!
# Domain names

The name of a host is a list of labels. Names that differ only in capital letters, in characters
that look the same or in the way they are written have one normal form, which `DomainName.ofText?`
finds; it refuses text that is no name.
-/

namespace SchemaAtlas

/-- A name in normal form. -/
structure DomainName where
  labels : List (List Char)
deriving DecidableEq, Repr

namespace DomainName

/-- Whether a character cannot stand in a name. -/
def isForbidden (c : Char) : Bool :=
  c.toNat ≤ 0x20 || c.toNat = 0x7F ||
    c ∈ ['#', '/', ':', '<', '>', '?', '@', '[', '\\', ']', '^', '|', '%']

/-- The pieces of a text between dots. -/
def splitAtDots : List Char → List (List Char)
  | [] => [[]]
  | c :: rest =>
    if c = '.' then [] :: splitAtDots rest
    else match splitAtDots rest with
      | first :: more => (c :: first) :: more
      | [] => [[c]]

/-- What a label is read as, if it is one. A label in letters and digits stands for one that cannot
be written plainly and is in normal form. -/
def label? (label : List Char) : Option (List Char) :=
  let read? :=
    match label with
    | 'x' :: 'n' :: '-' :: '-' :: code =>
      match Punycode.decode? code with
      | none => none
      | some text =>
        if text.any (0x80 ≤ ·.toNat) && text.all isKept && compose text == text then some text
        else none
    | _ => some label
  read?.filter fun text => !text.head?.any isMark && joinersMatter [] text

/-- The name that a text writes, if it is one. -/
def ofText? (cs : List Char) : Option DomainName := do
  let text := compose (← cs.mapM form?).flatten
  if text.any isForbidden then none
  let labels ← (splitAtDots text).mapM label?
  if labels.flatten.any isRightToLeft && !labels.all keepsDirection then none
  return ⟨labels⟩

/-- The name of the machine itself. -/
def localhost : DomainName :=
  ⟨["localhost".toList]⟩

/-- The name without characters. -/
def empty : DomainName :=
  ⟨[[]]⟩

end DomainName

end SchemaAtlas
