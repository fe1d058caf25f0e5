import SchemaAtlas.Json.Reading

/-!
# Messages

A client sends one JSON-RPC message per line. A message with an id is a request and wants a reply;
one without is a notification.
-/

namespace SchemaAtlas.Server

/-- The error in a reply. -/
structure ErrorObject where
  code : Int
  message : String
  data : Option Json

/-- A message as it is sent; what is null counts as left out. -/
structure Message where
  version : String
  id : Option Json
  method : Option String
  params : Option Json
  result : Option Json
  error : Option ErrorObject

/-- How many containers a text may nest. -/
def nestingLimit : Nat := 127

/-- A field that may be left out or null. -/
def optionalField {α : Type} (read : Json.Form → Option α) : Option Json.Form → Option (Option α)
  | none => some none
  | some form => if form.isNull then some none else (read form).map some

/-- A whole number of 32 bits. -/
def errorCode? (form : Json.Form) : Option Int :=
  match form.toJson? 0 with
  | some (.integer n) => if -0x80000000 ≤ n ∧ n < 0x80000000 then some n else none
  | _ => none

/-- The error object that a form is. -/
def ErrorObject.ofForm? (form : Json.Form) : Option ErrorObject := do
  let [some code, some message, data] ← form.fields? ["code", "message", "data"] | none
  return {
    code := ← errorCode? code
    message := ← message.text?
    data := ← optionalField (Json.Form.toJson? (nestingLimit - 2)) data }

namespace Message

/-- The message that a form is. -/
def ofForm? (form : Json.Form) : Option Message := do
  let [some version, id, method, params, result, error] ←
    form.fields? ["jsonrpc", "id", "method", "params", "result", "error"] | none
  let value := Json.Form.toJson? (nestingLimit - 1)
  return {
    version := ← version.text?
    id := ← optionalField value id
    method := ← optionalField Json.Form.text? method
    params := ← optionalField value params
    result := ← optionalField value result
    error := ← optionalField ErrorObject.ofForm? error }

/-- The message in a line. -/
def ofText? (line : String) : Option Message :=
  (Json.Form.ofText? line).bind ofForm?

end Message

end SchemaAtlas.Server
