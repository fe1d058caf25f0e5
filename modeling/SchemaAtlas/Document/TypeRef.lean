import SchemaAtlas.Document.Basic

/-!
# Type references

Three readings of a written type: the name inside all wrappers, whether a list is among the
wrappers, and the signature as it is written without ignored characters.
-/

namespace SchemaAtlas.TypeRef

/-- The type name inside all wrappers; none while the type is incomplete. -/
def base? : TypeRef → Option String
  | missing => none
  | named name => some name
  | list item => item.base?
  | nonNull inner => inner.base?

/-- Whether a list is the outermost wrapper but for a non-null mark. -/
def isList : TypeRef → Bool
  | missing => false
  | named _ => false
  | list _ => true
  | nonNull inner => inner.isList

/-- The type as it is written, for example `[ID!]!`; none while the type is incomplete. -/
def signature? : TypeRef → Option String
  | missing => none
  | named name => some name
  | list item => item.signature?.map fun text => "[" ++ text ++ "]"
  | nonNull inner => inner.signature?.map fun text => text ++ "!"

end SchemaAtlas.TypeRef

namespace SchemaAtlas

/-- The scalar types that every schema has without declaring them. -/
def builtinScalars : List String :=
  ["String", "Int", "Float", "Boolean", "ID"]

/-- Whether a type name is one of the built-in scalars. -/
def isBuiltinScalar (name : String) : Bool :=
  builtinScalars.contains name

/-- The types whose fields are the operations of a server. -/
def rootTypes : List String :=
  ["Query", "Mutation", "Subscription"]

/-- Whether a type name is one of the root types. -/
def isRootType (name : String) : Bool :=
  rootTypes.contains name

end SchemaAtlas
