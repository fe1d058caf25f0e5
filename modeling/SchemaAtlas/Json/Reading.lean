import SchemaAtlas.Json.Basic
import SchemaAtlas.Json.Form

/-!
# The values of JSON texts

Not everything that is written has a value: halves of surrogate pairs must stand together in their
order, numbers must not exceed the floats, and containers are nested only so deep. Numbers without
point and exponent are integers if they fit in 64 bits, and floats otherwise.
-/

namespace SchemaAtlas.Json

/-- The text that pieces of a string stand for. -/
def Piece.text? : List Piece → Option (List Char)
  | [] => some []
  | .char c :: rest => (text? rest).map (c :: ·)
  | .unit n :: rest =>
    if 0xD800 ≤ n ∧ n < 0xDC00 then
      match rest with
      | .unit low :: rest =>
        if 0xDC00 ≤ low ∧ low < 0xE000 then
          (text? rest).map (Char.ofNat (0x10000 + (n - 0xD800) * 0x400 + (low - 0xDC00)) :: ·)
        else none
      | _ => none
    else if 0xDC00 ≤ n ∧ n < 0xE000 then none
    else (text? rest).map (Char.ofNat n :: ·)

/-! ## Numbers -/

/-- Appends digits to a number as long as it fits in 64 bits: the number, and how many digits do
not fit. -/
def appendDigits (n : Nat) : List Nat → Nat × Nat
  | [] => (n, 0)
  | digit :: rest =>
    if n * 10 + digit < 0x10000000000000000 then appendDigits (n * 10 + digit) rest
    else (n, rest.length + 1)

/-- A power of ten as the nearest float. -/
def powerOfTen (n : Nat) : Float :=
  Float.ofScientific 1 false n

/-- A float divided by a power of ten, in steps of the greatest power that is a float. -/
def divideByPower (x : Float) (n : Nat) : Float :=
  if n ≤ 308 then x / powerOfTen n
  else if x == 0 then x
  else divideByPower (x / powerOfTen 308) (n - 308)
termination_by n

/-- A number times a power of ten, unless it exceeds the floats. -/
def scaled? (n : Nat) (exponent : Int) : Option Float :=
  let x := Float.ofNat n
  if exponent < 0 then some (divideByPower x exponent.natAbs)
  else if n = 0 then some x
  else if exponent ≤ 308 then
    let y := x * powerOfTen exponent.natAbs
    if y.isFinite then some y else none
  else none

/-- The float that a numeral stands for: the digits that fit in 64 bits, times a power of ten. -/
def Numeral.float? (numeral : Numeral) : Option Float := do
  let (n, left) := appendDigits 0 numeral.whole
  let (n, ignored) := appendDigits n numeral.fraction
  let point : Int := left - (numeral.fraction.length - ignored : Nat)
  let x ← scaled? n (point + numeral.exponent.getD 0)
  return if numeral.negative then -x else x

/-- The value of a numeral. A zero with a minus sign is a float. -/
def Numeral.value? (numeral : Numeral) : Option Json :=
  let n := Token.numberOf numeral.whole
  if numeral.fraction = [] ∧ numeral.exponent = none then
    if numeral.negative then
      if 0 < n ∧ n ≤ 0x8000000000000000 then some (.integer (-n)) else numeral.float?.map .float
    else if n < 0x10000000000000000 then some (.integer n)
    else numeral.float?.map .float
  else numeral.float?.map .float

/-! ## Values -/

/-- The value of a scalar. -/
def Scalar.value? : Scalar → Option Json
  | null => some .null
  | bool flag => some (.bool flag)
  | number numeral => numeral.value?
  | string pieces => (Piece.text? pieces).map fun cs => .string (String.ofList cs)

namespace Form

mutual

/-- The value of a form that nests at most `levels` containers. -/
def toJson? (levels : Nat) : Form → Option Json
  | scalar value => value.value?
  | array items =>
    match levels with
    | 0 => none
    | levels + 1 => (items? levels items).map .array
  | object members =>
    match levels with
    | 0 => none
    | levels + 1 => (members? levels members).map .object

/-- The values of items. -/
def items? (levels : Nat) : List Form → Option (List Json)
  | [] => some []
  | item :: rest => do
    let value ← toJson? levels item
    return value :: (← items? levels rest)

/-- The values of members. -/
def members? (levels : Nat) : List (List Piece × Form) → Option (List (String × Json))
  | [] => some []
  | (key, form) :: rest => do
    let name ← Piece.text? key
    let value ← toJson? levels form
    return (String.ofList name, value) :: (← members? levels rest)

end

/-- The text of a form that is a string. -/
def text? : Form → Option String
  | scalar (.string pieces) => (Piece.text? pieces).map String.ofList
  | _ => none

/-- Whether a form is the word for nothing. -/
def isNull : Form → Bool
  | scalar .null => true
  | _ => false

/-- The fields of a record, which is an object with the fields as members, none of them twice, or
an array of just the fields in their order. Other members of the object do not count. -/
def fields? (names : List String) : Form → Option (List (Option Form))
  | scalar _ => none
  | array items => if items.length = names.length then some (items.map some) else none
  | object members => do
    let named ← members.mapM fun (key, form) =>
      (Piece.text? key).map fun name => (String.ofList name, form)
    let known := (named.map Prod.fst).filter (· ∈ names)
    guard (known.eraseDups.length = known.length)
    return names.map fun name => (named.find? (·.1 == name)).map Prod.snd

end Form

end SchemaAtlas.Json
