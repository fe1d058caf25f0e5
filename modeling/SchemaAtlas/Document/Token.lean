import SchemaAtlas.Text.Bytes
import SchemaAtlas.Document.Basic
import SchemaAtlas.Document.Quoted

/-!
# Tokens of documents

A document is read as tokens. Blanks, byte order marks, comments and commas separate tokens and
are no tokens themselves, but a token remembers whether a comma stands before it, since the places
where the grammar looks one token further do not look past a comma. The first character that
starts no token ends the list with a token of kind `wrong`.
-/

namespace SchemaAtlas

namespace Token

/-- What a token is. -/
inductive Kind where
  | mark (c : Char)
  | spread
  | name (text : String)
  | number
  | string (value : String)
  /-- Something that is no token. -/
  | wrong
deriving DecidableEq, Repr

end Token

/-- A token with the byte offsets of its first character and of the character behind it. -/
structure Token where
  kind : Token.Kind
  start : Nat
  stop : Nat
  afterComma : Bool
deriving DecidableEq, Repr

namespace Token

/-- Whether the token is a mark. -/
def isMark (c : Char) (t : Token) : Bool :=
  t.kind = .mark c

/-- Whether the token is a given word. -/
def isWord (word : String) (t : Token) : Bool :=
  t.kind = .name word

/-- The name that a token is. -/
def name? (t : Token) : Option Name :=
  match t.kind with
  | .name text => some ⟨text, t.start⟩
  | _ => none

/-- Whether the token is a string literal. -/
def isString (t : Token) : Bool :=
  match t.kind with
  | .string _ => true
  | _ => false

/-- Whether a character separates tokens. -/
def isBlank (c : Char) : Bool :=
  c = ' ' || c = '\t' || c = '\n' || c = '\r' || c = '\ufeff'

/-- Whether a character is a mark of its own. -/
def isPunctuator (c : Char) : Bool :=
  c ∈ ['!', '$', '&', '(', ')', ':', '=', '@', '[', ']', '{', '|', '}']

/-- Whether a name can start with the character. -/
def isNameStart (c : Char) : Bool :=
  c.isAlpha || c = '_'

/-- Whether a name can go on with the character. -/
def isNameChar (c : Char) : Bool :=
  c.isAlphanum || c = '_'

/-- The number of digits at the start of a text. -/
def digits (cs : List Char) : Nat :=
  (cs.takeWhile Char.isDigit).length

/-- The length of the integer part of a number: no digit follows a leading zero. -/
def integerPart? (cs : List Char) : Option Nat :=
  match cs with
  | '0' :: rest => if digits rest = 0 then some 1 else none
  | _ => if digits cs = 0 then none else some (digits cs)

/-- The length of the fraction of a number, zero when it has none. -/
def fraction? : List Char → Option Nat
  | '.' :: rest => if digits rest = 0 then none else some (digits rest + 1)
  | _ => some 0

/-- The length of the exponent of a number, zero when it has none. -/
def exponent? : List Char → Option Nat
  | c :: rest =>
    if c = 'e' ∨ c = 'E' then
      let sign := if rest.head? = some '+' ∨ rest.head? = some '-' then 1 else 0
      let n := digits (rest.drop sign)
      if n = 0 then none else some (n + sign + 1)
    else some 0
  | [] => some 0

/-- The length of a number, which no name and no point may follow directly. -/
def number? (cs : List Char) : Option Nat := do
  let sign := if cs.head? = some '-' then 1 else 0
  let whole ← integerPart? (cs.drop sign)
  let point := sign + whole
  let power := point + (← fraction? (cs.drop point))
  let stop := power + (← exponent? (cs.drop power))
  match (cs.drop stop).head? with
  | some c => if isNameStart c || c = '.' then none else some stop
  | none => some stop

/-- The token that starts with the character `c`, and how many of the characters `rest` behind it
belong to the token. -/
def lexeme (c : Char) (rest : List Char) : Kind × Nat :=
  if isPunctuator c then (.mark c, 0)
  else if isNameStart c then
    let tail := rest.takeWhile isNameChar
    (.name (String.ofList (c :: tail)), tail.length)
  else if c = '"' then
    match Quoted.read? rest with
    | some (value, n) => (.string value, n)
    | none => (.wrong, 0)
  else if c = '.' then
    if rest.take 2 = ['.', '.'] then (.spread, 2) else (.wrong, 0)
  else if c.isDigit || c = '-' then
    match number? (c :: rest) with
    | some n => (.number, n - 1)
    | none => (.wrong, 0)
  else (.wrong, 0)

/-- The tokens of a text of which `start` bytes have been read, `comma` telling whether a comma
was read since the last token. Reading ends with the first token that is `wrong`, so these are all
tokens of a text only if no character is out of place in it; of another text they tell that it has
a syntax error and where the first one is. -/
def scan (cs : List Char) (start : Nat) (comma : Bool) : List Token :=
  match cs with
  | [] => []
  | c :: rest =>
    if isBlank c then scan rest (start + c.utf8Size) comma
    else if c = ',' then scan rest (start + c.utf8Size) true
    else if c = '#' then
      let body := rest.takeWhile (!Quoted.isLineEnd ·)
      scan (rest.drop body.length) (start + c.utf8Size + Text.byteLength body) comma
    else
      let (kind, n) := lexeme c rest
      let stop := start + c.utf8Size + Text.byteLength (rest.take n)
      let token : Token := { kind, start, stop, afterComma := comma }
      if kind = .wrong then [token] else token :: scan (rest.drop n) stop false
termination_by cs.length

/-- The tokens of a text. -/
def ofText (text : String) : List Token :=
  scan text.toList 0 false

end Token

end SchemaAtlas
