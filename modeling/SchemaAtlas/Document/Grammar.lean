import SchemaAtlas.Document.Token

/-!
# The grammar of documents

One reader per production, over the list of tokens. A reader takes tokens from the front of the
list and answers a value with the tokens behind it, or fails with the tokens from the one on that
is to blame. The grammar decides with one token in hand, so the token that is to blame is the
first one that cannot go on, save in three places that look one token further: behind `extend`,
behind a spread, and behind a string literal before a definition. There the token in hand is to
blame.

Nested constructs take the number of levels that may still be opened below them as an argument.
-/

namespace SchemaAtlas

/-- A reader of tokens. A failure holds the tokens from the one on that is to blame. -/
abbrev Reader (α : Type) := StateT (List Token) (Except (List Token)) α

namespace Reader

/-- Fails at the token in hand. -/
def blame {α : Type} : Reader α :=
  fun ts => .error ts

/-- The token in hand, if any is left. -/
def peek : Reader (Option Token) :=
  fun ts => .ok (ts.head?, ts)

/-- Takes the token in hand if `accept` makes something of it. -/
def take {α : Type} (accept : Token → Option α) : Reader α
  | [] => .error []
  | t :: ts =>
    match accept t with
    | some a => .ok (a, ts)
    | none => .error (t :: ts)

/-- Takes a mark. -/
def mark (c : Char) : Reader Token :=
  take fun t => if t.isMark c then some t else none

/-- Takes a given word. -/
def word (text : String) : Reader Token :=
  take fun t => if t.isWord text then some t else none

/-- Takes a name. -/
def name : Reader Name :=
  take Token.name?

/-- Takes a name other than the reserved ones. -/
def nameExcept (reserved : List String) : Reader Name :=
  take fun t => t.name?.filter fun n => !reserved.contains n.text

/-- Reads with `p` if the token in hand is one that it starts with. -/
def maybe {α : Type} (starts : Token → Bool) (p : Reader α) : Reader (Option α) := do
  match ← peek with
  | some t => if starts t then return some (← p) else return none
  | none => return none

/-- Reads with `p` as long as the token in hand is one that it starts with, at most once for each
token of `supply`. -/
def manyFrom {α : Type} (starts : Token → Bool) (p : Reader α) : List Token → Reader (List α)
  | [] => return []
  | _ :: supply => do
    match ← maybe starts p with
    | some a => return a :: (← manyFrom starts p supply)
    | none => return []

/-- Reads with `p` as long as the token in hand is one that it starts with. Each round takes a
token, so the tokens that are left bound the number of rounds. -/
def many {α : Type} (starts : Token → Bool) (p : Reader α) : Reader (List α) :=
  fun ts => manyFrom starts p ts ts

/-- Reads with `p` once, and then as long as the token in hand is one that it starts with. -/
def many1 {α : Type} (starts : Token → Bool) (p : Reader α) : Reader (List α) := do
  let first ← p
  return first :: (← many starts p)

end Reader

namespace Grammar

open Reader

/-- How many levels of selection sets, list types and nested values a document may open. -/
def depthLimit : Nat := 500

/-- Whether a token is a name. -/
def isName (t : Token) : Bool :=
  t.name?.isSome

/-- Whether a description or a name starts here. -/
def isDescribedName (t : Token) : Bool :=
  t.isString || isName t

/-- Takes a string literal if one is in hand. -/
def description : Reader Unit := do
  let _ ← maybe Token.isString (take fun t => if t.isString then some t else none)

/-! ## Values -/

/-- The value that a word stands for. -/
def wordValue (name : Name) : Value :=
  if name.text = "true" then .boolean true
  else if name.text = "false" then .boolean false
  else if name.text = "null" then .null
  else .enum name

/-- A value whose items and fields are read by `nested`. -/
def valueOf (constant : Bool) (nested : Reader Value) : Reader Value := do
  match ← peek with
  | none => blame
  | some t =>
    match t.kind with
    | .mark '$' => if constant then blame else
      let _ ← mark '$'
      return .variable (← name)
    | .mark '[' =>
      let _ ← mark '['
      let items ← many (!·.isMark ']') nested
      let _ ← mark ']'
      return .list items
    | .mark '{' =>
      let _ ← mark '{'
      let fields ← many isName do
        let key ← name
        let value ← maybe (·.isMark ':') do
          let _ ← mark ':'
          nested
        return (key, value)
      let _ ← mark '}'
      return .object fields
    | .number => take fun _ => some .number
    | .string text => take fun _ => some (.string text)
    | .name _ => return wordValue (← name)
    | _ => blame

/-- A value below which `levels` more may be nested; variables are allowed unless it is
`constant`. -/
def value (constant : Bool) : Nat → Reader Value
  | 0 => valueOf constant blame
  | levels + 1 => valueOf constant (value constant levels)

/-! ## Directives -/

/-- An argument, whose value may be left out together with the colon. -/
def argument (constant : Bool) (levels : Nat) : Reader Argument := do
  let name ← name
  let value ← maybe (·.isMark ':') do
    let _ ← mark ':'
    value constant levels
  return { name, value }

/-- Arguments in parentheses, at least one. -/
def arguments (constant : Bool) (levels : Nat) : Reader (List Argument) := do
  let _ ← mark '('
  let arguments ← many1 isName (argument constant levels)
  let _ ← mark ')'
  return arguments

/-- A directive with its arguments, if any. -/
def directive (constant : Bool) (levels : Nat) : Reader Directive := do
  let _ ← mark '@'
  let name ← name
  let arguments ← maybe (·.isMark '(') (arguments constant levels)
  return { name, arguments := arguments.getD [] }

/-- Any number of directives. -/
def directives (constant : Bool) (levels : Nat) : Reader (List Directive) :=
  many (·.isMark '@') (directive constant levels)

/-! ## Types and the values that they type -/

/-- A list of the type that `nested` reads. -/
def listType (nested : Reader TypeRef) : Reader TypeRef := do
  let _ ← mark '['
  let item ← nested
  let _ ← mark ']'
  return .list item

/-- A type whose items, if it is a list, are read by `nested`. -/
def typeOf (nested : Reader TypeRef) : Reader TypeRef := do
  let base ← match ← maybe (·.isMark '[') (listType nested) with
    | some list => pure list
    | none => pure (TypeRef.named (← name).text)
  match ← maybe (·.isMark '!') (mark '!') with
  | some _ => return .nonNull base
  | none => return base

/-- A type below which `levels` list types may be nested. -/
def typeRef : Nat → Reader TypeRef
  | 0 => typeOf blame
  | levels + 1 => typeOf (typeRef levels)

/-- The type behind a colon, and the default value, if any, behind it. -/
def typing : Reader TypeRef := do
  let _ ← mark ':'
  typeRef depthLimit

/-- A default value. -/
def defaultValue : Reader Unit := do
  let _ ← maybe (·.isMark '=') do
    let _ ← mark '='
    let _ ← value true depthLimit

/-- An argument that a field or directive takes, or a field of an input type. -/
def inputValue : Reader InputValue := do
  description
  let name ← name
  let type ← typing
  defaultValue
  let _ ← directives true depthLimit
  return { name, type }

/-- Input values between two marks, at least one. -/
def inputValues (opening closing : Char) : Reader (List InputValue) := do
  let _ ← mark opening
  let values ← many1 isDescribedName inputValue
  let _ ← mark closing
  return values

/-! ## Operations and fragments -/

/-- The name of a fragment. -/
def fragmentName : Reader Name :=
  nameExcept ["on"]

/-- The type that a fragment is for. -/
def typeCondition : Reader Unit := do
  let _ ← word "on"
  let _ ← name

/-- Whether the token behind the one in hand follows without a comma and passes a test. -/
def behind (accept : Token → Bool) : Reader Bool :=
  fun ts => .ok ((ts.drop 1).head?.any (fun t => !t.afterComma && accept t), ts)

/-- A field of a selection set, whose own selection set is read by `nested`. -/
def selectedField (levels : Nat) (nested : Reader Nat) : Reader Unit := do
  if ← behind (·.isMark ':') then
    let _ ← name
    let _ ← mark ':'
  let _ ← name
  let _ ← maybe (·.isMark '(') (arguments false levels)
  let _ ← directives false levels
  let _ ← maybe (·.isMark '{') nested

/-- A spread of a named fragment, or a fragment in place. -/
def spread (levels : Nat) (nested : Reader Nat) : Reader Unit := do
  let isInline ← behind fun t => t.isWord "on" || t.isMark '@' || t.isMark '{'
  let isNamed ← behind isName
  if isInline then
    let _ ← take fun t => if t.kind = .spread then some t else none
    let _ ← maybe (·.isWord "on") typeCondition
    let _ ← directives false levels
    let _ ← nested
  else if isNamed then
    let _ ← take fun t => if t.kind = .spread then some t else none
    let _ ← fragmentName
    let _ ← directives false levels
  else blame

/-- One member of a selection set. -/
def selection (levels : Nat) (nested : Reader Nat) : Reader Unit := do
  match ← peek with
  | some t => if t.kind = .spread then spread levels nested else selectedField levels nested
  | none => blame

/-- A selection set that is one of `levels` that may be open at a time. The answer is the byte
offset behind its closing brace. -/
def selectionSet : Nat → Reader Nat
  | 0 => do
    let _ ← mark '{'
    blame
  | levels + 1 => do
    let _ ← mark '{'
    let _ ← many1 (fun t => isName t || t.kind = .spread) (selection levels (selectionSet levels))
    return (← mark '}').stop

/-- A variable that an operation takes. -/
def variableDefinition : Reader Unit := do
  let _ ← mark '$'
  let _ ← name
  let _ ← typing
  defaultValue
  let _ ← directives true depthLimit

/-- Variables in parentheses, at least one. -/
def variableDefinitions : Reader Unit := do
  let _ ← mark '('
  let _ ← many1 (·.isMark '$') variableDefinition
  let _ ← mark ')'

/-- The operation kind that a token names. -/
def operationKind? (t : Token) : Option OperationKind :=
  [OperationKind.query, .mutation, .subscription].find? fun kind => t.isWord kind.keyword

/-- An operation introduced by its kind. -/
def operation : Reader Executable := do
  let first ← peek
  let kind ← take operationKind?
  let name ← maybe isName name
  let _ ← maybe (·.isMark '(') variableDefinitions
  let _ ← directives false depthLimit
  let stop ← selectionSet depthLimit
  return { kind, name, start := (first.map Token.start).getD 0, stop }

/-- A query that consists of its selection set. -/
def shorthandQuery : Reader Executable := do
  let first ← peek
  let stop ← selectionSet depthLimit
  return { kind := .query, name := none, start := (first.map Token.start).getD 0, stop }

/-- A fragment, whatever its first token is. -/
def fragment : Reader Executable := do
  let first ← take some
  let name ← fragmentName
  typeCondition
  let _ ← directives false depthLimit
  let stop ← selectionSet depthLimit
  return { kind := .fragment, name := some name, start := first.start, stop }

/-! ## Type system definitions -/

/-- A field of an object or interface type. -/
def field : Reader Field := do
  description
  let name ← name
  let arguments ← maybe (·.isMark '(') (inputValues '(' ')')
  let type ← typing
  let directives ← directives true depthLimit
  return { name, arguments := arguments.getD [], type, directives }

/-- Fields in braces, at least one. -/
def fields : Reader (List Field) := do
  let _ ← mark '{'
  let fields ← many1 isDescribedName field
  let _ ← mark '}'
  return fields

/-- Names separated by a mark, which may also stand before the first. -/
def separatedNames (separator : Char) (item : Reader Name) : Reader Unit := do
  let _ ← maybe (·.isMark separator) (mark separator)
  let _ ← item
  let _ ← many (·.isMark separator) do
    let _ ← mark separator
    item

/-- The interfaces that a type implements. -/
def implementedInterfaces : Reader Unit := do
  let _ ← word "implements"
  separatedNames '&' name

/-- The members of a union type. -/
def unionMembers : Reader Unit := do
  let _ ← mark '='
  separatedNames '|' name

/-- A value of an enum type. -/
def enumValue : Reader Unit := do
  description
  let _ ← nameExcept ["true", "false", "null"]
  let _ ← directives true depthLimit

/-- The values of an enum type in braces, at least one. -/
def enumValues : Reader Unit := do
  let _ ← mark '{'
  let _ ← many1 isDescribedName enumValue
  let _ ← mark '}'

/-- The type of a root operation, which may be left out. -/
def rootOperation : Reader Unit := do
  let _ ← take operationKind?
  let _ ← mark ':'
  let _ ← maybe isName name

/-- The words that introduce a type. -/
def typeKind? (word : String) : Option TypeKind :=
  match word with
  | "scalar" => some .scalar
  | "type" => some .object
  | "interface" => some .interface
  | "union" => some .union
  | "enum" => some .enum
  | "input" => some .input
  | _ => none

/-- The parts of a type before its body: its name, whether it implements interfaces, and its
directives. The keyword is the token in hand. -/
def typeHead (kind : TypeKind) (isExtension : Bool) : Reader (TypeDeclaration × Bool) := do
  let _ ← take some
  let name ← name
  let interfaces ←
    if kind = .object ∨ kind = .interface then maybe (·.isWord "implements") implementedInterfaces
    else pure none
  let directives ← directives true depthLimit
  return ({ kind, isExtension, name, directives, fields := [] }, interfaces.isSome)

/-- The body of a type, with the fields of an object or interface type. -/
def typeBody : TypeKind → Reader (Option (List Field))
  | .scalar => return none
  | .object | .interface => maybe (·.isMark '{') fields
  | .union => return (← maybe (·.isMark '=') unionMembers).map fun _ => []
  | .enum => return (← maybe (·.isMark '{') enumValues).map fun _ => []
  | .input => return (← maybe (·.isMark '{') (inputValues '{' '}')).map fun _ => []

/-- A type definition. -/
def typeDefinition (kind : TypeKind) : Reader Definition := do
  let (declaration, _) ← typeHead kind false
  let body ← typeBody kind
  return .type { declaration with fields := body.getD [] }

/-- A type extension, which must have one of its parts. -/
def typeExtension (kind : TypeKind) : Reader Definition := do
  let _ ← word "extend"
  let (declaration, implementsAny) ← typeHead kind true
  let body ← typeBody kind
  if implementsAny || !declaration.directives.isEmpty || body.isSome then
    return .type { declaration with fields := body.getD [] }
  else blame

/-- A schema definition. -/
def schemaDefinition : Reader Definition := do
  let _ ← word "schema"
  let directives ← directives true depthLimit
  let _ ← maybe (·.isMark '{') do
    let _ ← mark '{'
    let _ ← many1 isName rootOperation
    let _ ← mark '}'
  return .schema directives

/-- A schema extension, which must have a directive or a root operation. -/
def schemaExtension : Reader Definition := do
  let _ ← word "extend"
  let _ ← word "schema"
  let directives ← directives true depthLimit
  let operations ← maybe (·.isMark '{') do
    let _ ← mark '{'
    let operations ← many isName rootOperation
    let _ ← mark '}'
    pure operations
  if directives.isEmpty && (operations.getD []).isEmpty then blame else return .schema directives

/-- The places where a directive can be allowed. -/
def directiveLocations : List String :=
  ["QUERY", "MUTATION", "SUBSCRIPTION", "FIELD", "FRAGMENT_DEFINITION", "FRAGMENT_SPREAD",
    "INLINE_FRAGMENT", "VARIABLE_DEFINITION", "SCHEMA", "SCALAR", "OBJECT", "FIELD_DEFINITION",
    "ARGUMENT_DEFINITION", "INTERFACE", "UNION", "ENUM", "ENUM_VALUE", "INPUT_OBJECT",
    "INPUT_FIELD_DEFINITION"]

/-- The definition of a directive. -/
def directiveDefinition : Reader Definition := do
  let _ ← word "directive"
  let _ ← mark '@'
  let _ ← name
  let _ ← maybe (·.isMark '(') (inputValues '(' ')')
  let _ ← maybe (·.isWord "repeatable") (word "repeatable")
  let _ ← word "on"
  separatedNames '|' (take fun t => t.name?.filter (directiveLocations.contains ·.text))
  return .directive

/-- The definition that a word introduces, if it is one that a description may precede. -/
def typeSystemDefinition? (word : String) : Option (Reader Definition) :=
  match word with
  | "schema" => some schemaDefinition
  | "directive" => some directiveDefinition
  | _ => (typeKind? word).map typeDefinition

/-- The extension that a word behind `extend` introduces. -/
def extension? (word : String) : Option (Reader Definition) :=
  if word = "schema" then some schemaExtension else (typeKind? word).map typeExtension

/-- The word behind the token in hand, unless a comma stands before it. -/
def wordBehind (ts : List Token) : Option String :=
  match ts.drop 1 with
  | t :: _ => if t.afterComma then none else t.name?.map Name.text
  | [] => none

/-- A definition, chosen by the token in hand and, behind a string literal or `extend`, the next. -/
def definition : Reader Definition := fun ts =>
  match ts with
  | [] => .error []
  | t :: _ =>
    let chosen : Option (Reader Definition) :=
      match t.kind with
      | .mark '{' => some (.executable <$> shorthandQuery)
      | .string _ => do
        let word ← wordBehind ts
        if word = "fragment" then some (.executable <$> fragment)
        else (typeSystemDefinition? word).map fun p => description *> p
      | .name "extend" => (wordBehind ts).bind extension?
      | .name "fragment" => some (.executable <$> fragment)
      | .name word =>
        if (operationKind? t).isSome then some (.executable <$> operation)
        else typeSystemDefinition? word
      | _ => none
    (chosen.getD blame) ts

end Grammar

end SchemaAtlas
