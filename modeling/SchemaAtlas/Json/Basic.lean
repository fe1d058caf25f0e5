import SchemaAtlas.Decimal.Shortest
import SchemaAtlas.Text.Hex

/-!
# JSON

Values and their two printed forms: on one line without blanks, and indented by two spaces per
level with one item per line. The members of an object stand in the order in which they are given;
`sortKeys` puts them in key order throughout a value.
-/

namespace SchemaAtlas

/-- A JSON value. -/
inductive Json where
  | null
  | bool (flag : Bool)
  | integer (n : Int)
  | float (x : Float)
  | string (text : String)
  | array (items : List Json)
  | object (members : List (String × Json))
deriving Inhabited

namespace Json

/-- The value of a natural number. -/
def ofNat (n : Nat) : Json :=
  .integer n

/-- The value of a text that may be absent. -/
def ofOption (text : Option String) : Json :=
  match text with
  | some text => .string text
  | none => .null

/-- A character inside quote marks. -/
def escapeChar (c : Char) : List Char :=
  if c = '"' then ['\\', '"']
  else if c = '\\' then ['\\', '\\']
  else if c = '\x08' then ['\\', 'b']
  else if c = '\x0c' then ['\\', 'f']
  else if c = '\n' then ['\\', 'n']
  else if c = '\r' then ['\\', 'r']
  else if c = '\t' then ['\\', 't']
  else if c.toNat < 0x20 then ['\\', 'u'] ++ Text.lowerHexDigits 4 c.toNat
  else [c]

/-- A text in quote marks. -/
def quote (text : String) : List Char :=
  '"' :: text.toList.flatMap escapeChar ++ ['"']

/-- An integer. -/
def integerText (n : Int) : List Char :=
  (if n < 0 then ['-'] else []) ++ Decimal.natural n.natAbs

mutual

/-- A value on one line. -/
def compactChars : Json → List Char
  | null => "null".toList
  | bool flag => (if flag then "true" else "false").toList
  | integer n => integerText n
  | float x => Decimal.ofFloat x
  | string text => quote text
  | array items => '[' :: compactItems true items ++ [']']
  | object members => '{' :: compactMembers true members ++ ['}']

/-- The items of an array, each but the first behind a comma. -/
def compactItems (first : Bool) : List Json → List Char
  | [] => []
  | item :: rest => (if first then [] else [',']) ++ compactChars item ++ compactItems false rest

/-- The members of an object, each but the first behind a comma. -/
def compactMembers (first : Bool) : List (String × Json) → List Char
  | [] => []
  | (key, value) :: rest =>
    (if first then [] else [',']) ++ quote key ++ ':' :: compactChars value ++
      compactMembers false rest

end

/-- A new line at an indentation level. -/
def newLine (level : Nat) : List Char :=
  '\n' :: List.replicate (2 * level) ' '

mutual

/-- A value on indented lines. -/
def prettyChars (level : Nat) : Json → List Char
  | array [] => ['[', ']']
  | array items => '[' :: prettyItems (level + 1) true items ++ newLine level ++ [']']
  | object [] => ['{', '}']
  | object members => '{' :: prettyMembers (level + 1) true members ++ newLine level ++ ['}']
  | value => compactChars value

/-- The items of an array, one per line. -/
def prettyItems (level : Nat) (first : Bool) : List Json → List Char
  | [] => []
  | item :: rest =>
    (if first then [] else [',']) ++ newLine level ++ prettyChars level item ++
      prettyItems level false rest

/-- The members of an object, one per line. -/
def prettyMembers (level : Nat) (first : Bool) : List (String × Json) → List Char
  | [] => []
  | (key, value) :: rest =>
    (if first then [] else [',']) ++ newLine level ++ quote key ++ [':', ' '] ++
      prettyChars level value ++ prettyMembers level false rest

end

/-- The text of a value on one line. -/
def compact (value : Json) : String :=
  String.ofList value.compactChars

/-- The text of a value on indented lines. -/
def pretty (value : Json) : String :=
  String.ofList (prettyChars 0 value)

/-- Puts a member among members in key order; a member with the same key is replaced. -/
def insertMember (key : String) (value : Json) : List (String × Json) → List (String × Json)
  | [] => [(key, value)]
  | (k, v) :: rest =>
    if key < k then (key, value) :: (k, v) :: rest
    else if k = key then (key, value) :: rest
    else (k, v) :: insertMember key value rest

/-- Members in key order; of several with one key the last counts. -/
def sortMembers (members : List (String × Json)) : List (String × Json) :=
  members.foldl (fun sorted (key, value) => insertMember key value sorted) []

mutual

/-- A value in which the members of every object stand in key order. -/
def sortKeys : Json → Json
  | array items => .array (sortKeysItems items)
  | object members => .object (sortMembers (sortKeysMembers members))
  | value => value

/-- Items with their keys sorted. -/
def sortKeysItems : List Json → List Json
  | [] => []
  | item :: rest => sortKeys item :: sortKeysItems rest

/-- Members with the keys in their values sorted. -/
def sortKeysMembers : List (String × Json) → List (String × Json)
  | [] => []
  | (key, value) :: rest => (key, sortKeys value) :: sortKeysMembers rest

end

/-- The value of a member of an object. -/
def member? (key : String) : Json → Option Json
  | object members => (members.reverse.find? (·.1 == key)).map Prod.snd
  | _ => none

/-- The text of a string value. -/
def string? : Json → Option String
  | string text => some text
  | _ => none

/-- The flag of a boolean value. -/
def bool? : Json → Option Bool
  | bool flag => some flag
  | _ => none

end Json

end SchemaAtlas
