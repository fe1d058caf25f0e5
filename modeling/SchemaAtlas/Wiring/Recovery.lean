import SchemaAtlas.Text.Blank
import SchemaAtlas.Text.WordCharacter

/-!
# Includes of broken files

A file with syntax errors still shows which files it includes: the text is searched for `@sdl`, an
opening parenthesis, and in the same parentheses the word `files`, a colon and a list in square
brackets. What stands in quote marks in the list is an include. The search does not know comments
or strings, so it is for texts that cannot be read otherwise.
-/

namespace SchemaAtlas.Wiring

open Text (isBlank isWordChar)

/-- What follows a given run of characters. -/
def after? (part cs : List Char) : Option (List Char) :=
  if part.isPrefixOf cs then some (cs.drop part.length) else none

/-- What follows a given run of characters behind blanks. -/
def afterBlanks? (part cs : List Char) : Option (List Char) :=
  after? part (cs.dropWhile isBlank)

/-- At the word `files`: the inside of the list behind it, and the text behind the list. -/
def filesList? (cs : List Char) : Option (List Char × List Char) := do
  let cs ← after? "files".toList cs
  let cs ← afterBlanks? [':'] cs
  let cs ← afterBlanks? ['['] cs
  let inside := cs.takeWhile (· ≠ ']')
  let rest ← after? [']'] (cs.drop inside.length)
  return (inside, rest)

/-- The first list of files up to the next closing parenthesis, where `previous` is the character
before `cs`. The word `files` must not be the end of a longer word. -/
def nextFilesList? (previous : Char) : List Char → Option (List Char × List Char)
  | [] => none
  | c :: rest =>
    match if isWordChar previous then none else filesList? (c :: rest) with
    | some found => some found
    | none => if c = ')' then none else nextFilesList? c rest

/-- At a wiring directive: the inside of its list of files, and the text behind the list. -/
def wiringDirective? (cs : List Char) : Option (List Char × List Char) := do
  let cs ← after? "@sdl".toList cs
  let cs ← afterBlanks? ['('] cs
  nextFilesList? '(' cs

/-- The insides of the lists of files in a text, from left to right, none overlapping another.
Each round takes a character at least, so the characters in `supply` bound the number of rounds. -/
def filesLists : List Char → List Char → List (List Char)
  | _ :: supply, c :: rest =>
    match wiringDirective? (c :: rest) with
    | some (inside, behind) => inside :: filesLists supply behind
    | none => filesLists supply rest
  | _, _ => []

/-- What stands between pairs of quote marks, of which the one that opens has been read if
`inside`. -/
def quotedFrom (inside : Option (List Char)) : List Char → List (List Char)
  | [] => []
  | c :: rest =>
    match inside with
    | none => quotedFrom (if c = '"' then some [] else none) rest
    | some soFar =>
      if c = '"' then soFar.reverse :: quotedFrom none rest else quotedFrom (some (c :: soFar)) rest

/-- What stands between pairs of quote marks. -/
def quoted (cs : List Char) : List (List Char) :=
  quotedFrom none cs

/-- The includes that a text shows although it cannot be read. -/
def recoveredIncludes (text : String) : List String :=
  let cs := text.toList
  ((filesLists cs cs).flatMap quoted).map String.ofList

end SchemaAtlas.Wiring
