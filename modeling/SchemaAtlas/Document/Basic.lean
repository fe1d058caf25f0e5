/-!
# Documents

What a document of the schema and query language declares, as far as an index of it needs to know:
names with the byte offsets at which they stand, directives with their arguments, the fields of
object and interface types, and the byte ranges of operations and fragments. Union members, enum
values and the insides of selection sets are checked when a text is read, and not kept.
-/

namespace SchemaAtlas

/-- A name and the byte offset of its first character. -/
structure Name where
  text : String
  start : Nat
deriving DecidableEq, Repr

/-- A literal value. -/
inductive Value where
  | variable (name : Name)
  | number
  | string (text : String)
  | boolean (flag : Bool)
  | null
  | enum (name : Name)
  | list (items : List Value)
  | object (fields : List (Name × Option Value))

/-- The text of a string literal, and nothing for every other value. -/
def Value.string? : Value → Option String
  | .string text => some text
  | _ => none

/-- The flag of a boolean literal, and nothing for every other value. -/
def Value.boolean? : Value → Option Bool
  | .boolean flag => some flag
  | _ => none

/-- An argument of a directive; its value may be left out. -/
structure Argument where
  name : Name
  value : Option Value

/-- A directive where it is applied, as in `@name(argument: value)`. -/
structure Directive where
  name : Name
  arguments : List Argument

/-- A type as it is written behind a field or an argument. -/
inductive TypeRef where
  /-- Nothing is written yet where a type belongs. -/
  | missing
  | named (name : String)
  | list (item : TypeRef)
  | nonNull (inner : TypeRef)
deriving DecidableEq, Repr

/-- An argument that a field takes, with its type. -/
structure InputValue where
  name : Name
  type : TypeRef
deriving DecidableEq, Repr

/-- A field of an object or interface type. -/
structure Field where
  name : Name
  arguments : List InputValue
  type : TypeRef
  directives : List Directive

/-- The six kinds of types. -/
inductive TypeKind where
  | scalar
  | object
  | interface
  | union
  | enum
  | input
deriving DecidableEq, Repr

/-- A type definition, or an extension of a type that is defined elsewhere. -/
structure TypeDeclaration where
  kind : TypeKind
  isExtension : Bool
  name : Name
  directives : List Directive
  /-- Fields in text order; only object and interface types have any. -/
  fields : List Field

/-- What a document can ask a server to run. -/
inductive OperationKind where
  | query
  | mutation
  | subscription
  | fragment
deriving DecidableEq, Repr

/-- The word that introduces a definition of the kind. -/
def OperationKind.keyword : OperationKind → String
  | .query => "query"
  | .mutation => "mutation"
  | .subscription => "subscription"
  | .fragment => "fragment"

/-- The kind that a word introduces. -/
def OperationKind.ofKeyword? (word : String) : Option OperationKind :=
  [.query, .mutation, .subscription, .fragment].find? (·.keyword == word)

/-- An operation or a fragment, with the byte range from its first token to its closing brace. -/
structure Executable where
  kind : OperationKind
  name : Option Name
  start : Nat
  stop : Nat
deriving DecidableEq, Repr

/-- A top-level definition. -/
inductive Definition where
  /-- A schema definition or extension. -/
  | schema (directives : List Directive)
  | type (declaration : TypeDeclaration)
  /-- The definition of a directive, which an index has no use for. -/
  | directive
  | executable (executable : Executable)

/-- The directives on a schema or type definition or extension. -/
def Definition.directives : Definition → List Directive
  | .schema directives => directives
  | .type declaration => declaration.directives
  | .directive => []
  | .executable _ => []

/-- What was read from a text. -/
structure Document where
  /-- Definitions in text order. -/
  definitions : List Definition
  /-- The byte offset of the first syntax error. -/
  fault : Option Nat

end SchemaAtlas
