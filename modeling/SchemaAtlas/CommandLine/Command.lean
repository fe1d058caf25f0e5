import SchemaAtlas.CommandLine.Arguments

/-!
# Commands

The first word of a command line is the name of a command; flags that concern all commands may
stand before it.
-/

namespace SchemaAtlas.CommandLine

/-- The project that a command is about. -/
structure ProjectChoice where
  /-- Its directory. -/
  directory : String
  /-- The entry file in place of the one that the project names. -/
  entry : Option String
deriving DecidableEq, Repr

/-- What can be asked for. A `format` is given by its name. -/
inductive Command where
  | scan (format : String)
  /-- Where a symbol is declared, or where the symbols are whose names contain a text. -/
  | definition (name : String) (search : Bool) (format : String)
  | operations (name : Option String) (format : String)
  | persisted (manifest : Bool) (format : String)
  | fields (type : Option String) (format : String)
  | graph (type : Option String) (format : String)
  | stats (format : String)
  | serve (watching : Bool)
  | watch
deriving DecidableEq, Repr

/-- A command with the project that it is about. -/
structure Invocation where
  command : Command
  project : ProjectChoice
  verbose : Bool
deriving DecidableEq, Repr

/-- What a command line asks for. -/
inductive Request where
  | version
  | run (invocation : Invocation)
deriving DecidableEq, Repr

/-- The flags of all commands. -/
def commonForms : List OptionForm :=
  [⟨"debug", some 'd', false⟩, ⟨"verbose", some 'v', false⟩]

/-- The options that say which project a command is about. -/
def projectForms : List OptionForm :=
  [⟨"project", some 'p', true⟩, ⟨"entry", some 'e', true⟩]

/-- The option that chooses the form of the output. -/
def formatForm : OptionForm :=
  ⟨"format", some 'f', true⟩

/-- The format that is given, which is text where none is. -/
def Given.format (given : Given) : String :=
  (given.value? "format").getD "text"

/-- A command by its name: the options that only it knows, and how it is made from what is given. -/
def commandForm? (name : String) : Option (List OptionForm × (Given → Except UsageError Command)) :=
  match name with
  | "scan" => some ([formatForm, ⟨"no-progress", none, false⟩], fun given => do
      given.noWord
      return .scan given.format)
  | "definition" => some ([formatForm, ⟨"search", some 's', false⟩], fun given => do
      return .definition (← given.requiredWord "NAME") (given.flag "search") given.format)
  | "operations" => some ([formatForm], fun given => do
      return .operations (← given.optionalWord) given.format)
  | "persisted" => some ([formatForm, ⟨"manifest", some 'm', false⟩], fun given => do
      given.noWord
      return .persisted (given.flag "manifest") given.format)
  | "fields" => some ([formatForm], fun given => do
      return .fields (← given.optionalWord) given.format)
  | "graph" => some ([formatForm], fun given => do
      return .graph (← given.optionalWord) given.format)
  | "stats" => some ([formatForm], fun given => do
      given.noWord
      return .stats given.format)
  | "serve" => some ([⟨"no-watch", none, false⟩], fun given => do
      given.noWord
      return .serve (!given.flag "no-watch"))
  | "watch" => some ([], fun given => do
      given.noWord
      return .watch)
  | _ => none

/-- The command of a name with its arguments, behind the flags that were given before it. -/
def Invocation.read (before : Given) (name : String) (arguments : List String) :
    Except UsageError Invocation := do
  let some (forms, command) := commandForm? name | .error (.unknownCommand name)
  let given ← Given.ofItems (readItems (forms ++ projectForms ++ commonForms) none arguments)
  return {
    command := ← command given
    project := { directory := (given.value? "project").getD ".", entry := given.value? "entry" }
    verbose := before.flag "verbose" || given.flag "verbose" }

/-- What a command line asks for. Whoever asks for the version before anything is wrong is told
the version. -/
def Request.read (arguments : List String) : Except UsageError Request := do
  let isOption (text : String) : Bool := (Argument.ofText text).isOption
  let isVersion : Except UsageError Item → Bool
    | .ok (.flag option) => option == "version"
    | _ => false
  let forms := ⟨"version", some 'V', false⟩ :: commonForms
  let items := readItems forms none (arguments.takeWhile isOption)
  let before ← Given.ofItems (items.takeWhile (!isVersion ·))
  if items.any isVersion then return .version
  match arguments.dropWhile isOption with
  | [] => .error .noCommand
  | name :: rest =>
    if Argument.ofText name = .separator then .error .noCommand
    else return .run (← Invocation.read before name rest)

end SchemaAtlas.CommandLine
