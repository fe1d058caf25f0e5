/-!
# Arguments of a command

A command is given options and words. An option has a long spelling behind two dashes, and may
have a letter behind one; it is a flag or carries a value, which stands behind it or is attached
to it (`--format json`, `--format=json`, `-f json`, `-fjson`, `-f=json`). Letters of flags may be
run together. Behind `--` there are only words.
-/

namespace SchemaAtlas.CommandLine

/-- What is wrong with arguments. -/
inductive UsageError where
  | noCommand
  | unknownCommand (name : String)
  | unknownOption (option : String)
  | missingValue (option : String)
  | unexpectedValue (option : String)
  | repeatedOption (option : String)
  | missingWord (name : String)
  | surplusWord (word : String)
deriving DecidableEq, Repr

/-- How wrong arguments are reported. -/
def UsageError.message : UsageError → String
  | .noCommand => "a command is required"
  | .unknownCommand name => "unknown command '" ++ name ++ "'"
  | .unknownOption option => "unknown option '" ++ option ++ "'"
  | .missingValue option => "a value is required for '--" ++ option ++ "'"
  | .unexpectedValue option => "no value is allowed for '--" ++ option ++ "'"
  | .repeatedOption option => "'--" ++ option ++ "' is given more than once"
  | .missingWord name => "<" ++ name ++ "> is required"
  | .surplusWord word => "unexpected argument '" ++ word ++ "'"

/-- An option that a command knows. -/
structure OptionForm where
  /-- The spelling behind two dashes. -/
  long : String
  /-- The letter behind one dash. -/
  letter : Option Char
  takesValue : Bool
deriving DecidableEq, Repr

/-- How one argument reads by itself. -/
inductive Argument where
  | word (text : String)
  /-- Two dashes alone. -/
  | separator
  | long (name : String) (attached : Option String)
  | letters (run : List Char)
deriving DecidableEq, Repr

/-- How an argument reads by itself. A dash alone is a word. -/
def Argument.ofText (text : String) : Argument :=
  match text.toList with
  | ['-', '-'] => .separator
  | '-' :: '-' :: cs =>
    let name := String.ofList (cs.takeWhile (· ≠ '='))
    match cs.dropWhile (· ≠ '=') with
    | _ :: value => .long name (some (String.ofList value))
    | [] => .long name none
  | '-' :: c :: cs => .letters (c :: cs)
  | _ => .word text

/-- Whether an argument is made of options. -/
def Argument.isOption : Argument → Bool
  | .long .. => true
  | .letters _ => true
  | _ => false

/-- One thing that a command is given. -/
inductive Item where
  | flag (option : String)
  | value (option text : String)
  | word (text : String)
deriving DecidableEq, Repr

/-- What is read from an argument: its items, up to the first error if there is one, and the
option that still waits for its value. -/
structure Reading where
  items : List (Except UsageError Item)
  waiting : Option String

/-- A reading that ends with an error. -/
def Reading.fail (e : UsageError) : Reading :=
  ⟨[.error e], none⟩

/-- The options in letters that are run together. The first that takes a value takes the rest as
its value, from which a leading `=` is dropped. -/
def readLetters (forms : List OptionForm) : List Char → Reading
  | [] => ⟨[], none⟩
  | c :: rest =>
    match forms.find? (·.letter == some c) with
    | none => .fail (.unknownOption (String.ofList ['-', c]))
    | some form =>
      if form.takesValue then
        match rest with
        | [] => ⟨[], some form.long⟩
        | '=' :: value => ⟨[.ok (.value form.long (String.ofList value))], none⟩
        | value => ⟨[.ok (.value form.long (String.ofList value))], none⟩
      else
        let more := readLetters forms rest
        { more with items := .ok (.flag form.long) :: more.items }

/-- The option of a long spelling. -/
def readLong (forms : List OptionForm) (name : String) (attached : Option String) : Reading :=
  match forms.find? (·.long == name) with
  | none => .fail (.unknownOption ("--" ++ name))
  | some form =>
    match form.takesValue, attached with
    | true, some value => ⟨[.ok (.value name value)], none⟩
    | true, none => ⟨[], some name⟩
    | false, some _ => .fail (.unexpectedValue name)
    | false, none => ⟨[.ok (.flag name)], none⟩

/-- The items of an argument that does not stand behind an option that waits for a value. -/
def Argument.read (forms : List OptionForm) : Argument → Reading
  | .word text => ⟨[.ok (.word text)], none⟩
  | .separator => ⟨[], none⟩
  | .long name attached => readLong forms name attached
  | .letters run => readLetters forms run

/-- The items of arguments, where `waiting` is the option that waits for a value. -/
def readItems (forms : List OptionForm) :
    Option String → List String → List (Except UsageError Item)
  | none, [] => []
  | some option, [] => [.error (.missingValue option)]
  | some option, text :: rest =>
    match Argument.ofText text with
    | .word value => .ok (.value option value) :: readItems forms none rest
    | _ => [.error (.missingValue option)]
  | none, text :: rest =>
    match Argument.ofText text with
    | .separator => rest.map fun word => .ok (.word word)
    | argument =>
      let reading := argument.read forms
      reading.items ++ readItems forms reading.waiting rest

/-- What a command is given, taken together. -/
structure Given where
  flags : List String := []
  values : List (String × String) := []
  words : List String := []
deriving DecidableEq, Repr

namespace Given

/-- Adds an item; an option counts only once. -/
def add (given : Given) : Item → Except UsageError Given
  | .flag option =>
    if option ∈ given.flags then .error (.repeatedOption option)
    else .ok { given with flags := given.flags ++ [option] }
  | .value option text =>
    if given.values.any (·.1 == option) then .error (.repeatedOption option)
    else .ok { given with values := given.values ++ [(option, text)] }
  | .word text => .ok { given with words := given.words ++ [text] }

/-- Takes items together. -/
def ofItems (items : List (Except UsageError Item)) : Except UsageError Given :=
  items.foldlM (fun given item => do given.add (← item)) {}

/-- Whether a flag is given. -/
def flag (given : Given) (option : String) : Bool :=
  given.flags.contains option

/-- The value of an option. -/
def value? (given : Given) (option : String) : Option String :=
  (given.values.find? (·.1 == option)).map Prod.snd

/-- The one word that may be given. -/
def optionalWord (given : Given) : Except UsageError (Option String) :=
  match given.words with
  | [] => .ok none
  | [word] => .ok (some word)
  | _ :: word :: _ => .error (.surplusWord word)

/-- The one word that has to be given. -/
def requiredWord (given : Given) (name : String) : Except UsageError String :=
  match given.words with
  | [] => .error (.missingWord name)
  | [word] => .ok word
  | _ :: word :: _ => .error (.surplusWord word)

/-- That no word is given. -/
def noWord (given : Given) : Except UsageError Unit :=
  match given.words with
  | [] => .ok ()
  | word :: _ => .error (.surplusWord word)

end Given

end SchemaAtlas.CommandLine
