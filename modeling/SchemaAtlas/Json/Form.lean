import SchemaAtlas.Json.Token

/-!
# The form of JSON texts

A text that follows the grammar of JSON has a form: the tree of what is written in it. Containers
that have been opened are kept on a stack, so a text may nest them to any depth.
-/

namespace SchemaAtlas.Json

/-- What is written in a text. -/
inductive Form where
  | scalar (value : Scalar)
  | array (items : List Form)
  | object (members : List (List Piece × Form))

/-- A container that has been opened and not yet closed, with what is in it so far, last first. -/
inductive Frame where
  | array (items : List Form)
  /-- The member of the key is being read. -/
  | object (members : List (List Piece × Form)) (key : List Piece)

namespace Form

mutual

/-- The form of a text of which a value comes next. -/
def value? (stack : List Frame) : List Token → Option Form
  | .scalar value :: rest => behind? stack (.scalar value) rest
  | .openArray :: .closeArray :: rest => behind? stack (.array []) rest
  | .openArray :: rest => value? (.array [] :: stack) rest
  | .openObject :: .closeObject :: rest => behind? stack (.object []) rest
  | .openObject :: .scalar (.string key) :: .colon :: rest => value? (.object [] key :: stack) rest
  | _ => none

/-- The form of a text of which a value has just been read. -/
def behind? (stack : List Frame) (form : Form) : List Token → Option Form
  | [] =>
    match stack with
    | [] => some form
    | _ :: _ => none
  | .comma :: .scalar (.string next) :: .colon :: rest =>
    match stack with
    | .object members key :: stack => value? (.object ((key, form) :: members) next :: stack) rest
    | _ => none
  | .comma :: rest =>
    match stack with
    | .array items :: stack => value? (.array (form :: items) :: stack) rest
    | _ => none
  | .closeArray :: rest =>
    match stack with
    | .array items :: stack => behind? stack (.array (form :: items).reverse) rest
    | _ => none
  | .closeObject :: rest =>
    match stack with
    | .object members key :: stack => behind? stack (.object ((key, form) :: members).reverse) rest
    | _ => none
  | _ => none

end

/-- The form of a text, if it follows the grammar. -/
def ofText? (text : String) : Option Form :=
  (Token.scan? text.toList).bind (value? [])

end Form

end SchemaAtlas.Json
