import SchemaAtlas.Document.TypeRef

/-!
# Type nodes

A written type as a syntax tree has it, in which any part may be missing. A non-null type holds a
named type or a list type, as two places of its own, of which a reader of whole types fills one. The
three readings of a type follow the places of the tree.
-/

namespace SchemaAtlas

/-- A node of a syntax tree for a type. -/
inductive TypeTree where
  | named (name : Option String)
  | list (item : Option TypeTree)
  /-- A non-null type with a named type or a list type, each with the part that it holds. -/
  | nonNull (named : Option (Option String)) (list : Option (Option TypeTree))

namespace TypeTree

/-- The type name inside all wrappers. -/
def base? : TypeTree → Option String
  | named name => name
  | list none => none
  | list (some item) => item.base?
  | nonNull (some name) _ => name
  | nonNull none (some (some item)) => item.base?
  | nonNull none _ => none

/-- Whether the node or what it marks as non-null is a list. -/
def isList : TypeTree → Bool
  | named _ => false
  | list _ => true
  | nonNull _ items => items.isSome

/-- The type as it is written. -/
def signature? : TypeTree → Option String
  | named name => name
  | list none => none
  | list (some item) => item.signature?.map fun text => "[" ++ text ++ "]"
  | nonNull (some name) _ => name.map fun text => text ++ "!"
  | nonNull none (some (some item)) => item.signature?.map fun text => "[" ++ text ++ "]" ++ "!"
  | nonNull none _ => none

/-- The node as a type reference, in which only what is missing counts. -/
def toRef : TypeTree → TypeRef
  | named none => .missing
  | named (some name) => .named name
  | list none => .list .missing
  | list (some item) => .list item.toRef
  | nonNull (some none) _ => .nonNull .missing
  | nonNull (some (some name)) _ => .nonNull (.named name)
  | nonNull none (some (some item)) => .nonNull (.list item.toRef)
  | nonNull none (some none) => .nonNull (.list .missing)
  | nonNull none none => .nonNull .missing

end TypeTree

end SchemaAtlas
