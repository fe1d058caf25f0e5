import SchemaAtlas.Document.Reading
import SchemaAtlas.Document.TypeRef
import SchemaAtlas.Index.Builder
import SchemaAtlas.Text.Position

/-!
# What a schema file adds to an index

Two readings of one file. The symbol reading registers every type, and every field of a root type
as a symbol of its own. The model reading describes the fields of every object type, and draws an
edge to the type that a field yields unless that type is a built-in scalar.
-/

namespace SchemaAtlas.Projection

/-- A schema file as it is projected: its path, its text, and what was read from it. -/
structure SchemaFile where
  path : FilePath
  text : String
  document : Document

/-- Reads a schema file. -/
def SchemaFile.read (path : FilePath) (text : String) : SchemaFile :=
  { path, text, document := Document.ofText text }

/-- The location of a byte offset. -/
def SchemaFile.locate (file : SchemaFile) (offset : Nat) : Location :=
  let position := Text.positionAt file.text offset
  { file := file.path, line := position.line, character := position.character }

/-- The type declarations of a document, in text order. -/
def typeDeclarations (document : Document) : List TypeDeclaration :=
  document.definitions.filterMap fun
    | .type declaration => some declaration
    | _ => none

/-- A directive argument for the index. -/
def directiveArgument (argument : Argument) : DirectiveArgument :=
  { name := argument.name.text, value := argument.value.bind Value.string? }

/-- Directives for the index. -/
def directiveUses (directives : List Directive) : List DirectiveUse :=
  directives.map fun directive =>
    { name := directive.name.text, arguments := directive.arguments.map directiveArgument }

/-- Arguments for the index; one without a complete type is left out. -/
def typedArguments (arguments : List InputValue) : List TypedArgument :=
  arguments.filterMap fun argument =>
    argument.type.signature?.map fun type => { name := argument.name.text, type }

/-! ## Symbols -/

/-- The symbols of a type declaration: the type, and the fields of a root type. -/
def symbolsOf (file : SchemaFile) (declaration : TypeDeclaration) : List Record :=
  let name := declaration.name.text
  let fields :=
    if declaration.kind = .object ∧ isRootType name then declaration.fields else []
  .definition name ⟨file.locate declaration.name.start, none⟩ ::
    fields.map fun field => .definition field.name.text ⟨file.locate field.name.start, some name⟩

/-- The symbols of a file. -/
def symbols (file : SchemaFile) : List Record :=
  (typeDeclarations file.document).flatMap (symbolsOf file)

/-! ## Fields and edges -/

/-- What a field of the type `type` adds; nothing as long as its own type is incomplete. -/
def modelOfField (file : SchemaFile) (type : String) (field : Field) : List Record :=
  match field.type.base? with
  | none => []
  | some base =>
    let name := field.name.text
    let isList := field.type.isList
    let arguments := typedArguments field.arguments
    let location := file.locate field.name.start
    (if isRootType type then
      [Record.rootOperation name
        { rootType := type, returnType := base, isList, arguments, location }]
    else []) ++
    (if isBuiltinScalar base then []
    else [Record.relationship { source := type, target := base, field := name, isList }]) ++
    [Record.field type
      { name, type := base, isList, arguments, directives := directiveUses field.directives
        location }]

/-- What an object type adds: its directives and its fields. -/
def modelOfType (file : SchemaFile) (declaration : TypeDeclaration) : List Record :=
  let name := declaration.name.text
  if declaration.kind = .object then
    .typeDirectives name (directiveUses declaration.directives) ::
      declaration.fields.flatMap (modelOfField file name)
  else []

/-- The model of a file. -/
def model (file : SchemaFile) : List Record :=
  (typeDeclarations file.document).flatMap (modelOfType file)

/-- All that a file adds: its symbols, and then its model. -/
def records (file : SchemaFile) : List Record :=
  symbols file ++ model file

end SchemaAtlas.Projection
