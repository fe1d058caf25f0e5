import SchemaAtlas.Text.Hex
import SchemaAtlas.Toml.Basic

/-!
# Reading TOML

`Toml.read?` reads a document of TOML 1.0, and answers nothing for one that breaks any of its
rules. The readers take characters from the front of a text and answer what they read with the
characters behind it.
-/

namespace SchemaAtlas.Toml

/-! ## Characters, gaps and ends of lines -/

/-- Whether a character may stand in comments and in strings on one line. -/
def isTextChar (c : Char) : Bool :=
  c = '\t' || (0x20 ≤ c.toNat && c.toNat ≠ 0x7F)

/-- What follows spaces and tabs. -/
def skipBlanks (cs : List Char) : List Char :=
  cs.dropWhile fun c => c = ' ' || c = '\t'

/-- What follows a line feed or a carriage return with a line feed. -/
def newLine? : List Char → Option (List Char)
  | '\n' :: rest => some rest
  | '\r' :: '\n' :: rest => some rest
  | _ => none

/-- What follows blanks, new lines and comments, of which one has been started if `inComment`. -/
def skipGap (inComment : Bool) : List Char → List Char
  | [] => []
  | c :: rest =>
    if c = '\n' || (c = '\r' && rest.head? = some '\n') then skipGap false rest
    else if inComment then if isTextChar c then skipGap true rest else c :: rest
    else if c = ' ' || c = '\t' then skipGap false rest
    else if c = '#' then skipGap true rest
    else c :: rest

/-- What follows the end of a line, before which blanks and a comment may stand. -/
def endLine? (cs : List Char) : Option (List Char) :=
  let cs := skipBlanks cs
  let cs := if cs.head? = some '#' then cs.dropWhile isTextChar else cs
  if cs.isEmpty then some [] else newLine? cs

/-! ## Strings -/

/-- A character given by its code point in a fixed number of digits. -/
def codePoint? (count : Nat) (cs : List Char) : Option (Char × Nat) := do
  let digits := cs.take count
  guard (digits.length = count)
  let n ← Text.hexNumber? digits
  guard n.isValidChar
  return (Char.ofNat n, count + 1)

/-- An escape behind its backslash: the character and how many characters write it. -/
def escape? : List Char → Option (Char × Nat)
  | 'b' :: _ => some ('\x08', 1)
  | 't' :: _ => some ('\t', 1)
  | 'n' :: _ => some ('\n', 1)
  | 'f' :: _ => some ('\x0c', 1)
  | 'r' :: _ => some ('\r', 1)
  | '"' :: _ => some ('"', 1)
  | '\\' :: _ => some ('\\', 1)
  | 'u' :: rest => codePoint? 4 rest
  | 'U' :: rest => codePoint? 8 rest
  | _ => none

/-- Puts a character before what a reader read. -/
def before (c : Char) (read : Option (List Char × List Char)) : Option (List Char × List Char) :=
  read.map fun (cs, rest) => (c :: cs, rest)

/-- The rest of a string with escapes on one line. -/
def basic? : List Char → Option (List Char × List Char)
  | [] => none
  | c :: rest =>
    if c = '"' then some ([], rest)
    else if c = '\\' then
      match escape? rest with
      | some (value, n) => before value (basic? (rest.drop n))
      | none => none
    else if isTextChar c then before c (basic? rest)
    else none
termination_by cs => cs.length

/-- The rest of a string without escapes on one line. -/
def literal? : List Char → Option (List Char × List Char)
  | [] => none
  | c :: rest =>
    if c = '\'' then some ([], rest)
    else if isTextChar c then before c (literal? rest)
    else none

/-- The end of a string on several lines, if it is here: at three marks, before which up to two
marks belong to the string. -/
def closing? (mark : Char) (cs : List Char) : Option (List Char × List Char) :=
  let n := (cs.takeWhile (· = mark)).length
  if n < 3 then none
  else
    let own := min (n - 3) 2
    some (List.replicate own mark, cs.drop (own + 3))

/-- What follows a backslash at the end of a line and all blanks and new lines behind it. -/
def continuation? (cs : List Char) : Option (List Char) :=
  (newLine? (skipBlanks cs)).map fun rest =>
    rest.dropWhile fun c => c = ' ' || c = '\t' || c = '\n' || c = '\r'

/-- The rest of a string on several lines; `escapes` tells whether a backslash is special. Each
round takes a character, so the characters in `supply` bound the number of rounds. -/
def multiLine? (mark : Char) (escapes : Bool) :
    List Char → List Char → Option (List Char × List Char)
  | _ :: supply, c :: rest =>
    match closing? mark (c :: rest) with
    | some closed => some closed
    | none =>
      match newLine? (c :: rest) with
      | some rest => before '\n' (multiLine? mark escapes supply rest)
      | none =>
        if c = '\\' && escapes then
          match continuation? rest with
          | some rest => multiLine? mark escapes supply rest
          | none =>
            match escape? rest with
            | some (value, n) => before value (multiLine? mark escapes supply (rest.drop n))
            | none => none
        else if isTextChar c then before c (multiLine? mark escapes supply rest)
        else none
  | _, _ => none

/-- A string on several lines behind its opening marks. A new line directly behind them does not
count. -/
def multiLineString? (mark : Char) (escapes : Bool) (cs : List Char) : Option (Toml × List Char) :=
  let cs := (newLine? cs).getD cs
  (multiLine? mark escapes cs cs).map fun (value, rest) => (.string (String.ofList value), rest)

/-- A string on one line as a value. -/
def lineString (read : Option (List Char × List Char)) : Option (Toml × List Char) :=
  read.map fun (value, rest) => (.string (String.ofList value), rest)

/-! ## Keys -/

/-- Whether a key can hold the character without quote marks. -/
def isKeyChar (c : Char) : Bool :=
  c.isAlphanum || c = '-' || c = '_'

/-- A key, in quote marks or without. -/
def key? : List Char → Option (String × List Char)
  | '"' :: rest => (basic? rest).map fun (key, rest) => (String.ofList key, rest)
  | '\'' :: rest => (literal? rest).map fun (key, rest) => (String.ofList key, rest)
  | cs =>
    let key := cs.takeWhile isKeyChar
    if key.isEmpty then none else some (String.ofList key, cs.drop key.length)

/-- How many keys a path of keys may have at most. -/
def maxKeys : Nat := 79

/-- A path of at most `count` keys with dots between them: the keys before the last, and the
last. -/
def keyPath? : Nat → List Char → Option ((List String × String) × List Char)
  | 0, _ => none
  | count + 1, cs => do
    let (key, rest) ← key? (skipBlanks cs)
    match skipBlanks rest with
    | '.' :: rest =>
      let ((path, last), rest) ← keyPath? count rest
      return ((key :: path, last), rest)
    | rest => return (([], key), rest)

/-! ## Numbers and dates -/

/-- Whether a run of digits is not empty, and has underscores only between digits. -/
def isDigitRun (isDigit : Char → Bool) (cs : List Char) : Bool :=
  cs.head?.any isDigit && cs.getLast?.any isDigit && cs.all (fun c => isDigit c || c = '_') &&
    (cs.zip (cs.drop 1)).all fun (a, b) => a ≠ '_' || b ≠ '_'

/-- The number that digits of a base write, without regard to underscores. -/
def digitsValue (base : Nat) (cs : List Char) : Nat :=
  (cs.filterMap Text.hexDigit?).foldl (fun n d => n * base + d) 0

/-- Whether an integer fits into 64 bits. -/
def fits (n : Int) : Bool :=
  -0x8000000000000000 ≤ n && n < 0x8000000000000000

/-- Whether a run of decimal digits writes an integer, without a leading zero. -/
def isDecimal (cs : List Char) : Bool :=
  isDigitRun Char.isDigit cs && (cs.length = 1 || cs.head? ≠ some '0')

/-- An integer in base 16, 8 or 2. -/
def prefixedInteger? (cs : List Char) : Option Toml :=
  let read (base : Nat) (isDigit : Char → Bool) (digits : List Char) : Option Toml :=
    if isDigitRun isDigit digits && fits (digitsValue base digits) then
      some (.integer (digitsValue base digits))
    else none
  match cs with
  | '0' :: 'x' :: digits => read 16 Text.isHexDigit digits
  | '0' :: 'o' :: digits => read 8 (fun c => '0' ≤ c && c ≤ '7') digits
  | '0' :: 'b' :: digits => read 2 (fun c => c = '0' || c = '1') digits
  | _ => none

/-- A number without its sign, and whether it is negative. -/
def splitSign : List Char → Bool × List Char
  | '-' :: rest => (true, rest)
  | '+' :: rest => (false, rest)
  | cs => (false, cs)

/-- An integer in base 10. -/
def decimalInteger? (cs : List Char) : Option Toml :=
  let (negative, digits) := splitSign cs
  let n : Int := if negative then -(digitsValue 10 digits : Int) else digitsValue 10 digits
  if isDecimal digits && fits n then some (.integer n) else none

/-- Whether a decimal, given by its digits and the power of ten that they count, rounds to
infinity. Decimals below a tenth of the greatest float are told by their length, so that the
comparison stays small. -/
def roundsToInfinity (digits : List Char) (power : Int) : Bool :=
  let n := digitsValue 10 digits
  let bound := (1 <<< 1024) - (1 <<< 970)
  if n = 0 || digits.length + power < 309 then false
  else if power ≥ 309 then true
  else n * Nat.pow 10 power.toNat ≥ bound * Nat.pow 10 (-power).toNat

/-- Whether a number with a fraction or an exponent is well-formed and not too large. Those too
far below zero are minus infinity. -/
def isFloat (cs : List Char) : Bool :=
  let (negative, unsigned) := splitSign cs
  if unsigned = "inf".toList || unsigned = "nan".toList then true
  else
    let mantissa := unsigned.takeWhile fun c => c ≠ 'e' && c ≠ 'E'
    let exponent := unsigned.drop mantissa.length
    let whole := mantissa.takeWhile (· ≠ '.')
    let fraction := mantissa.drop whole.length
    let (down, power) := splitSign (exponent.drop 1)
    let places := (fraction.filter Char.isDigit).length
    let moved : Int := if down then -(digitsValue 10 power : Int) else digitsValue 10 power
    let scale := moved - places
    isDecimal whole && (!fraction.isEmpty || !exponent.isEmpty) &&
      (fraction.isEmpty || isDigitRun Char.isDigit (fraction.drop 1)) &&
      (exponent.isEmpty || isDigitRun Char.isDigit power) &&
      (negative || !roundsToInfinity (whole ++ fraction.drop 1) scale)

/-- The number that two digits write, if it lies between two bounds. -/
def twoDigits? (low high : Nat) (cs : List Char) : Bool :=
  match cs with
  | [a, b] => a.isDigit && b.isDigit && low ≤ digitsValue 10 cs && digitsValue 10 cs ≤ high
  | _ => false

/-- The number of days of a month. -/
def daysInMonth (year month : Nat) : Nat :=
  let isLeap := year % 4 = 0 && (year % 100 ≠ 0 || year % 400 = 0)
  if month = 2 then if isLeap then 29 else 28
  else if month = 4 || month = 6 || month = 9 || month = 11 then 30
  else 31

/-- Whether a text is a date. -/
def isDate (cs : List Char) : Bool :=
  let year := cs.take 4
  let month := (cs.drop 5).take 2
  year.length = 4 && year.all Char.isDigit && cs[4]? = some '-' && twoDigits? 1 12 month &&
    cs[7]? = some '-' &&
    twoDigits? 1 (daysInMonth (digitsValue 10 year) (digitsValue 10 month)) (cs.drop 8)

/-- Whether a text is a time of day. -/
def isTime (cs : List Char) : Bool :=
  let fraction := cs.drop 8
  twoDigits? 0 23 (cs.take 2) && cs[2]? = some ':' && twoDigits? 0 59 ((cs.drop 3).take 2) &&
    cs[5]? = some ':' && twoDigits? 0 60 ((cs.drop 6).take 2) &&
    (fraction.isEmpty ||
      fraction.head? = some '.' && fraction.length > 1 && (fraction.drop 1).all Char.isDigit)

/-- Whether a text is a time of day with an offset from universal time, if any. -/
def isOffsetTime (cs : List Char) : Bool :=
  let time := cs.takeWhile fun c => c.isDigit || c = ':' || c = '.'
  let offset := cs.drop time.length
  let isOffset := match offset with
    | [] => true
    | [z] => z = 'Z' || z = 'z'
    | sign :: rest =>
      (sign = '+' || sign = '-') && twoDigits? 0 23 (rest.take 2) && rest[2]? = some ':' &&
        twoDigits? 0 59 (rest.drop 3)
  isTime time && isOffset

/-- Whether a text is a date, a time, or both. -/
def isDateTime (cs : List Char) : Bool :=
  isDate cs || isTime cs ||
    isDate (cs.take 10) && (cs[10]? = some 'T' || cs[10]? = some 't' || cs[10]? = some ' ') &&
      isOffsetTime (cs.drop 11)

/-- Whether a value without quote marks can hold the character. -/
def isWordChar (c : Char) : Bool :=
  c.isAlphanum || c = '+' || c = '-' || c = '_' || c = '.' || c = ':'

/-- The value that a run of characters stands for. -/
def wordValue? (cs : List Char) : Option Toml :=
  if cs = "true".toList then some (.boolean true)
  else if cs = "false".toList then some (.boolean false)
  else if isDateTime cs then some .dateTime
  else if isFloat cs then some .float
  else (decimalInteger? cs).or (prefixedInteger? cs)

/-- A value without quote marks. A blank and a time of day behind a date belong to it. -/
def word? (cs : List Char) : Option (Toml × List Char) :=
  let word := cs.takeWhile isWordChar
  let rest := cs.drop word.length
  let time := (rest.drop 1).takeWhile isWordChar
  if isDate word && rest.head? = some ' ' && time.head?.any Char.isDigit then
    (wordValue? (word ++ ' ' :: time)).map fun value => (value, rest.drop (time.length + 1))
  else (wordValue? word).map fun value => (value, rest)

/-! ## Arrays and tables in place -/

/-- The items of an array up to its closing bracket. Each round takes a character, so the
characters in `supply` bound the number of rounds. -/
def items? (value : List Char → Option (Toml × List Char)) :
    List Char → List Char → Option (List Toml × List Char)
  | _ :: supply, cs =>
    match skipGap false cs with
    | ']' :: rest => some ([], rest)
    | cs => do
      let (item, rest) ← value cs
      match skipGap false rest with
      | ',' :: rest =>
        let (more, rest) ← items? value supply rest
        return (item :: more, rest)
      | ']' :: rest => return ([item], rest)
      | _ => none
  | [], _ => none

/-- A key with its value. -/
def pair? (value : List Char → Option (Toml × List Char)) (cs : List Char) :
    Option ((List String × String × Toml) × List Char) := do
  let ((path, key), rest) ← keyPath? maxKeys cs
  match skipBlanks rest with
  | '=' :: rest =>
    let (v, rest) ← value (skipBlanks rest)
    return ((path, key, v), rest)
  | _ => none

/-- The pairs of a table in place up to its closing brace, at least one. -/
def pairs? (value : List Char → Option (Toml × List Char)) :
    List Char → List Char → Option (List (List String × String × Toml) × List Char)
  | _ :: supply, cs => do
    let (pair, rest) ← pair? value cs
    match skipBlanks rest with
    | ',' :: rest =>
      let (more, rest) ← pairs? value supply rest
      return (pair :: more, rest)
    | '}' :: rest => return ([pair], rest)
    | _ => none
  | [], _ => none

/-- How many arrays and tables in place may be nested. -/
def maxNesting : Nat := 79

/-- A value whose items are read by `nested`. -/
def valueOf? (nested : Option (List Char → Option (Toml × List Char))) (cs : List Char) :
    Option (Toml × List Char) :=
  match cs with
  | '"' :: '"' :: '"' :: rest => multiLineString? '"' true rest
  | '\'' :: '\'' :: '\'' :: rest => multiLineString? '\'' false rest
  | '"' :: rest => lineString (basic? rest)
  | '\'' :: rest => lineString (literal? rest)
  | '[' :: rest => do
    let (items, rest) ← items? (← nested) cs rest
    return (.array items, rest)
  | '{' :: rest => do
    let value ← nested
    match skipBlanks rest with
    | '}' :: rest => return (.table [], rest)
    | inside =>
      let (pairs, rest) ← pairs? value cs inside
      return (← TomlTree.ofPairs pairs, rest)
  | _ => word? cs

/-- A value in which `levels` arrays and tables may be nested. -/
def value? : Nat → List Char → Option (Toml × List Char)
  | 0 => valueOf? none
  | levels + 1 => valueOf? (some (value? levels))

/-! ## Documents -/

/-- The path of keys in a header behind its opening brackets, and what follows its closing
brackets. -/
def header? (closing : List Char) (cs : List Char) :
    Option ((List String × String) × List Char) := do
  let (path, rest) ← keyPath? maxKeys cs
  let rest := skipBlanks rest
  guard (closing.isPrefixOf rest)
  return (path, rest.drop closing.length)

/-- Reads the lines of a document into a tree, of which the table at the end of the path `current`
is open. Each round takes a character, so the characters in `supply` bound the number of rounds. -/
def lines? (tree : TomlTree) (current : List String) : List Char → List Char → Option TomlTree
  | _ :: supply, cs =>
    match skipBlanks cs with
    | [] => some tree
    | '[' :: '[' :: rest => do
      let ((path, key), rest) ← header? [']', ']'] rest
      let tree ← TomlTree.openElement path key tree
      lines? tree (path ++ [key]) supply (← endLine? rest)
    | '[' :: rest => do
      let ((path, key), rest) ← header? [']'] rest
      let tree ← TomlTree.openTable path key tree
      lines? tree (path ++ [key]) supply (← endLine? rest)
    | cs =>
      match endLine? cs with
      | some rest => lines? tree current supply rest
      | none => do
        let ((path, key, v), rest) ← pair? (value? maxNesting) cs
        let tree ← TomlTree.descend false (TomlTree.addKey path key v) current tree
        lines? tree current supply (← endLine? rest)
  | [], _ => some tree

/-- Reads a document, at the start of which a byte order mark may stand. -/
def read? (text : String) : Option Toml :=
  let cs := text.toList
  let cs := if cs.head? = some '\ufeff' then cs.drop 1 else cs
  (lines? TomlTree.emptyTable [] (' ' :: cs) cs).map TomlTree.toToml

end SchemaAtlas.Toml
