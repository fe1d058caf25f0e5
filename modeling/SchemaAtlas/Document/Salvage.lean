import SchemaAtlas.Document.Grammar

/-!
# What a broken text still declares

A text with syntax errors still shows the directives on its schema and type definitions. A sweep
walks through such a text by the grammar, and never fails: a part that is missing is left out, and
the sweep goes on with the token in hand, at the latest as the start of the next definition. A
token that starts no definition is passed over.

Only directives are kept, one list for each schema or type definition or extension.
-/

namespace SchemaAtlas.Salvage

/-- A way through a text that takes tokens from its front and never fails. -/
abbrev Sweep (α : Type) := StateM (List Token) α

/-! ## Steps of a sweep -/

/-- The token in hand, unless none is left. -/
def inHand : Sweep (Option Token) :=
  fun tokens => (tokens.head?, tokens)

/-- Passes over the token in hand. -/
def pass : Sweep Unit :=
  fun tokens => ((), tokens.drop 1)

/-- Whether the token in hand passes a test. -/
def startsWith (test : Token → Bool) : Sweep Bool := do
  return (← inHand).any test

/-- Goes on with `p` if the token in hand passes a test. -/
def whenever (test : Token → Bool) (p : Sweep Unit) : Sweep Unit := do
  if ← startsWith test then p

/-- Passes over the token in hand if it passes a test. -/
def passIf (test : Token → Bool) : Sweep Unit :=
  whenever test pass

/-- Repeats `p` as long as it answers something, at most once for each token of `supply`. -/
def repeatFrom {α : Type} (p : Sweep (Option α)) : List Token → Sweep (List α)
  | [] => return []
  | _ :: supply => do
    match ← p with
    | some a => return a :: (← repeatFrom p supply)
    | none => return []

/-- Repeats `p` as long as it answers something. Whatever answers something takes a token, so the
tokens that are left bound the number of rounds. -/
def repeated {α : Type} (p : Sweep (Option α)) : Sweep (List α) :=
  fun tokens => repeatFrom p tokens tokens

/-- Repeats `p` as long as the token in hand passes a test. -/
def many {α : Type} (test : Token → Bool) (p : Sweep α) : Sweep (List α) :=
  repeated do
    if ← startsWith test then return some (← p) else return none

/-- Items parted by a mark, which may also stand before the first. -/
def separated (separator : Char) (item : Sweep Unit) : Sweep Unit := do
  passIf (·.isMark separator)
  item
  let _ ← many (·.isMark separator) do
    pass
    item

/-- Takes a name if one is in hand. -/
def name? : Sweep (Option Name) := do
  match (← inHand).bind Token.name? with
  | some name =>
    pass
    return some name
  | none => return none

/-- Passes over a name if one is in hand. -/
def passName : Sweep Unit :=
  passIf Grammar.isName

/-- Passes over a description if one is in hand. -/
def passDescription : Sweep Unit :=
  passIf Token.isString

/-! ## Values and directives -/

/-- A value, if one is in hand, whose items and fields are read by `nested`. What is no value is
passed over where `passing` says so. -/
def valueOf (nested : Sweep (Option Value)) (passing : Bool) : Sweep (Option Value) := do
  match ← inHand with
  | none => return none
  | some t =>
    match t.kind with
    | .mark '$' =>
      pass
      return (← name?).map Value.variable
    | .number =>
      pass
      return some .number
    | .string text =>
      pass
      return some (.string text)
    | .name _ => return (← name?).map Grammar.wordValue
    | .mark '[' =>
      pass
      let items ← many (!·.isMark ']') nested
      passIf (·.isMark ']')
      return some (.list (items.filterMap id))
    | .mark '{' =>
      pass
      let fields ← repeated do
        match ← name? with
        | none => return none
        | some key =>
          if ← startsWith (·.isMark ':') then
            pass
            return some (key, ← nested)
          else return some (key, none)
      passIf (·.isMark '}')
      return some (.object fields)
    | _ =>
      if passing then pass
      return none

/-- A value inside another one, below which `levels` more may be nested. -/
def nestedValue : Nat → Sweep (Option Value)
  | 0 => return none
  | levels + 1 => valueOf (nestedValue levels) true

/-- A value, if one is in hand. -/
def value? : Sweep (Option Value) :=
  valueOf (nestedValue Grammar.depthLimit) false

/-- Arguments in parentheses. -/
def arguments : Sweep (List Argument) := do
  pass
  let arguments ← repeated do
    match ← name? with
    | none => return none
    | some name =>
      if ← startsWith (·.isMark ':') then
        pass
        return some { name, value := ← value? }
      else return some { name, value := none }
  passIf (·.isMark ')')
  return arguments

/-- Directives, of which those without a name do not count. -/
def directives : Sweep (List Directive) := do
  let found ← many (·.isMark '@') do
    pass
    let name ← name?
    let arguments ← if ← startsWith (·.isMark '(') then arguments else pure []
    return name.map fun name => { name, arguments : Directive }
  return found.filterMap id

/-- Passes over directives. -/
def passDirectives : Sweep Unit := do
  let _ ← directives

/-! ## Types and the values that they type -/

/-- Passes over a type, where `behindBracket` passes over what follows an opening bracket. A token
that starts no type is passed over too and is the answer. -/
def passTypeOf (behindBracket : Sweep Unit) : Sweep (Option Token) := do
  match ← inHand with
  | none => return none
  | some t =>
    pass
    if t.isMark '[' then
      behindBracket
      return none
    else if Grammar.isName t then
      passIf (·.isMark '!')
      return none
    else return some t

/-- Passes over the rest of a list type behind its bracket, whose item `item` passes over. Where a
token stands that is no type, only a bracket right behind it closes the list. -/
def passItem (item : Sweep (Option Token)) : Sweep Unit := do
  match ← item with
  | none => passIf (·.isMark ']')
  | some broken => passIf fun t => t.isMark ']' && t.start == broken.stop
  passIf (·.isMark '!')

/-- Passes over a type in which `levels` list types may be nested. -/
def passType : Nat → Sweep (Option Token)
  | 0 => passTypeOf (return ())
  | levels + 1 => passTypeOf (passItem (passType levels))

/-- Passes over what follows a colon as a type. -/
def passTyping : Sweep Unit := do
  let _ ← passType Grammar.depthLimit

/-- Whether a type starts with a token. -/
def startsType (t : Token) : Bool :=
  Grammar.isName t || t.isMark '['

/-- Passes over a default value. -/
def passDefault : Sweep Unit :=
  whenever (·.isMark '=') do
    pass
    let _ ← value?

/-- Passes over an argument that a field or directive takes, or a field of an input type. -/
def passInputValue : Sweep Unit := do
  passDescription
  passName
  whenever (·.isMark ':') do
    pass
    whenever startsType do
      passTyping
      passDefault
      passDirectives

/-- Passes over described items between the mark in hand and a closing one. -/
def passBlock (closing : Char) (item : Sweep Unit) : Sweep Unit := do
  pass
  let _ ← many Grammar.isDescribedName item
  passIf (·.isMark closing)

/-- Passes over a field of an object or interface type. -/
def passField : Sweep Unit := do
  passDescription
  passName
  whenever (·.isMark '(') (passBlock ')' passInputValue)
  whenever (·.isMark ':') do
    pass
    whenever startsType do
      passTyping
      passDirectives

/-! ## Operations and fragments -/

/-- Passes over the type that a fragment is for. -/
def passTypeCondition : Sweep Unit :=
  whenever Grammar.isName do
    passIf (·.isWord "on")
    passName

/-- Whether the token behind the one in hand follows without a comma and passes a test. -/
def behind (test : Token → Bool) : Sweep Bool :=
  fun tokens => ((tokens.drop 1).head?.any fun t => !t.afterComma && test t, tokens)

/-- Passes over a field of a selection set, whose own selection set `nested` passes over. -/
def passSelectedField (nested : Sweep Unit) : Sweep Unit := do
  if ← behind (·.isMark ':') then
    pass
    pass
  passName
  whenever (·.isMark '(') do
    let _ ← arguments
  passDirectives
  whenever (·.isMark '{') nested

/-- Passes over a member of a selection set; nothing, where there is none. -/
def passSelection (nested : Sweep Unit) : Sweep (Option Unit) := do
  match ← inHand with
  | none => return none
  | some t =>
    if t.kind = .spread then
      if ← behind fun t => t.isWord "on" || t.isMark '@' || t.isMark '{' then
        pass
        passTypeCondition
        passDirectives
        whenever (·.isMark '{') nested
        return some ()
      else if ← behind Grammar.isName then
        pass
        passName
        passDirectives
        return some ()
      else return none
    else if Grammar.isName t then
      passSelectedField nested
      return some ()
    else return none

/-- Passes over a selection set that is one of `levels` that may be open at a time. -/
def passSelectionSet : Nat → Sweep Unit
  | 0 => pass
  | levels + 1 => do
    pass
    let _ ← repeated (passSelection (passSelectionSet levels))
    passIf (·.isMark '}')

/-- Passes over the variables of an operation. -/
def passVariables : Sweep Unit := do
  pass
  let _ ← many (·.isMark '$') do
    pass
    passName
    whenever (·.isMark ':') do
      pass
      passTyping
      passDefault
      passDirectives
  passIf (·.isMark ')')

/-- Passes over an operation introduced by its kind, with the token that stands where its
selection set belongs. -/
def passOperation : Sweep Unit := do
  pass
  passName
  whenever (·.isMark '(') passVariables
  passDirectives
  if ← startsWith (·.isMark '{') then passSelectionSet Grammar.depthLimit else pass

/-- Passes over a fragment, whatever its first token is. -/
def passFragment : Sweep Unit := do
  pass
  passIf fun t => Grammar.isName t && !t.isWord "on"
  passTypeCondition
  passDirectives
  whenever (·.isMark '{') (passSelectionSet Grammar.depthLimit)

/-! ## Type system definitions -/

/-- The directives of a type behind its keyword; its other parts are passed over. -/
def typeDirectives (kind : TypeKind) : Sweep (List Directive) := do
  passName
  if kind = .object ∨ kind = .interface then
    whenever (·.isWord "implements") do
      pass
      separated '&' passName
  let directives ← directives
  match kind with
  | .scalar => pure ()
  | .object | .interface => whenever (·.isMark '{') (passBlock '}' passField)
  | .input => whenever (·.isMark '{') (passBlock '}' passInputValue)
  | .enum => whenever (·.isMark '{') <| passBlock '}' do
      passDescription
      passName
      passDirectives
  | .union => whenever (·.isMark '=') do
      pass
      separated '|' passName
  return directives

/-- The directives of a schema behind its keyword; its root operations are passed over, each with
the name that stands where its kind belongs. -/
def schemaDirectives : Sweep (List Directive) := do
  let directives ← directives
  whenever (·.isMark '{') do
    pass
    let _ ← many Grammar.isName do
      pass
      whenever (·.isMark ':') do
        pass
        passName
    passIf (·.isMark '}')
  return directives

/-- Passes over the definition of a directive behind its keyword. -/
def passDirectiveDefinition : Sweep Unit := do
  passIf (·.isMark '@')
  passName
  whenever (·.isMark '(') (passBlock ')' passInputValue)
  passIf (·.isWord "repeatable")
  passIf (·.isWord "on")
  whenever (fun t => Grammar.isName t || t.isMark '|') <|
    separated '|' (passIf fun t => t.name?.any (Grammar.directiveLocations.contains ·.text))

/-- The directives of a schema or type behind the keyword `word`. -/
def directivesBehind? (word : String) : Option (Sweep (List Directive)) :=
  if word = "schema" then some schemaDirectives
  else (Grammar.typeKind? word).map typeDirectives

/-- The definition that a word introduces, if it is one that a description may precede, with the
directives to keep. The description or the word is the token in hand. -/
def typeSystemDefinition? (word : String) : Option (Sweep (List Directive)) :=
  let behindKeyword (p : Sweep (List Directive)) : Sweep (List Directive) := do
    passDescription
    passIf (·.isWord word)
    p
  if word = "directive" then some <| behindKeyword do
    passDirectiveDefinition
    return []
  else (directivesBehind? word).map behindKeyword

/-- A definition, chosen by the token in hand and, behind a string literal or `extend`, the next,
with the directives to keep. A token that starts none is passed over. -/
def definition (t : Token) : Sweep (List Directive) := fun tokens =>
  let without (p : Sweep Unit) : Sweep (List Directive) := do
    p
    return []
  let chosen : Option (Sweep (List Directive)) :=
    match t.kind with
    | .mark '{' => some (without (passSelectionSet Grammar.depthLimit))
    | .string _ => do
      let word ← Grammar.wordBehind tokens
      if word = "fragment" then some (without passFragment) else typeSystemDefinition? word
    | .name "extend" => do
      let p ← (Grammar.wordBehind tokens).bind directivesBehind?
      return do
        pass
        pass
        p
    | .name "fragment" => some (without passFragment)
    | .name word =>
      if (Grammar.operationKind? t).isSome then some (without passOperation)
      else typeSystemDefinition? word
    | _ => none
  chosen.getD (without pass) tokens

/-- The next definition, unless no token is left. -/
def definition? : Sweep (Option (List Directive)) := do
  match ← inHand with
  | some t => return some (← definition t)
  | none => return none

/-- The directives of the definitions in a list of tokens, one list for each definition. -/
def directiveLists (tokens : List Token) : List (List Directive) :=
  (repeated definition? tokens).1

end SchemaAtlas.Salvage
