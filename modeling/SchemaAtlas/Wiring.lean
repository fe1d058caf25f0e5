import SchemaAtlas.Document.Reading
import SchemaAtlas.Document.Salvage

/-!
# How the files of a project are wired together

A directive `@sdl` on any schema or type definition or extension names the schema files that
belong to the project (its argument `files`) and the documents that clients run (its argument
`executables`).
-/

namespace SchemaAtlas.Wiring

/-- The name of the directive that wires a project together. -/
def directiveName : String := "sdl"

/-- The values that a list of directives gives to an argument of the wiring directive. -/
def argumentsOf (directives : List Directive) (argument : String) : List Value :=
  (directives.filter (·.name.text == directiveName)).flatMap fun directive =>
    (directive.arguments.filter (·.name.text == argument)).filterMap Argument.value

/-- Every value of an argument of the wiring directives in lists of directives. -/
def argumentsIn (lists : List (List Directive)) (argument : String) : List Value :=
  lists.flatMap fun directives => argumentsOf directives argument

/-- Every value of an argument of the wiring directives of a document. -/
def arguments (document : Document) (argument : String) : List Value :=
  argumentsIn (document.definitions.map Definition.directives) argument

/-- The paths that a value of the argument `files` names: the strings of a list, or a single
string. -/
def includesOf : Value → List String
  | .list items => items.filterMap Value.string?
  | value => value.string?.toList

/-- The schema files that a document includes, as they are written. -/
def includes (document : Document) : List String :=
  (arguments document "files").flatMap includesOf

/-- A document that clients run, and whether it is to be persisted. -/
structure Declaration where
  document : String
  persist : Bool
deriving DecidableEq, Repr

/-- The last of the values that an object gives to a field; a field without a value does not
count. -/
def lastValue? (fields : List (Name × Option Value)) (key : String) : Option Value :=
  ((fields.filter fun (name, value) => name.text == key && value.isSome).getLast?).bind Prod.snd

/-- The declaration that an item of the argument `executables` makes, if it is an object whose
`document` is a string. A `persist` that is no boolean counts as false. -/
def declaration? : Value → Option Declaration
  | .object fields => do
    let document ← (lastValue? fields "document").bind Value.string?
    return { document, persist := ((lastValue? fields "persist").bind Value.boolean?).getD false }
  | _ => none

/-- The declarations that a value of the argument `executables` makes. -/
def declarationsOf : Value → List Declaration
  | .list items => items.filterMap declaration?
  | _ => []

/-- The documents that a document declares. -/
def declarations (document : Document) : List Declaration :=
  (arguments document "executables").flatMap declarationsOf

/-- The documents that a text declares. A text with syntax errors declares what can be salvaged
from its tokens. The tokens end before the first character that begins none (`Token.scan`), so what
is salvaged is all that the text declares if there is no such character: among others for the texts
that a scan assembles, from files without syntax errors. -/
def declarationsOfText (text : String) : List Declaration :=
  let document := Document.ofText text
  if document.isSound then declarations document
  else
    let lists := Salvage.directiveLists (Token.ofText text)
    (argumentsIn lists "executables").flatMap declarationsOf

end SchemaAtlas.Wiring
