/-!
# Labels in letters and digits

A label of a domain name that is not plain can be written in small letters, digits and hyphens: the
plain characters, a hyphen, and a code for the others and their places. The code is a list of
numbers. Each says how far to go from one insertion to the next, where after all places in the text
the next code point comes with the first place again.
-/

namespace SchemaAtlas.DomainName.Punycode

/-- The value of a digit. -/
def digit? (c : Char) : Option Nat :=
  if 'a' ≤ c ∧ c ≤ 'z' then some (c.toNat - 'a'.toNat)
  else if c.isDigit then some (c.toNat - '0'.toNat + 26)
  else none

/-- The value from which on a digit is not the last of its number; `weight` grows by 36 from digit
to digit. -/
def threshold (weight bias : Nat) : Nat :=
  if weight ≤ bias then 1 else if bias + 26 ≤ weight then 26 else weight - bias

/-- Reads a number: it and what follows. -/
def number? (bias : Nat) : Nat → Nat → List Char → Option (Nat × List Char)
  | _, _, [] => none
  | weight, scale, c :: rest => do
    let value ← digit? c
    let threshold := threshold weight bias
    if value < threshold then return (value * scale, rest)
    let (more, behind) ← number? bias (weight + 36) (scale * (36 - threshold)) rest
    return (value * scale + more, behind)

/-- Reading a number takes characters. -/
theorem length_lt_of_number? {bias weight scale n : Nat} {cs rest : List Char}
    (h : number? bias weight scale cs = some (n, rest)) : rest.length < cs.length := by
  induction cs generalizing weight scale n with
  | nil => simp [number?] at h
  | cons c cs ih =>
    simp only [number?, Option.bind_eq_bind, Option.bind_eq_some_iff, pure] at h
    obtain ⟨value, -, h⟩ := h
    split at h
    · simp only [Option.some.injEq, Prod.mk.injEq] at h
      simp [← h.2]
    · simp only [Option.bind_eq_some_iff, Option.some.injEq, Prod.mk.injEq] at h
      obtain ⟨⟨more, behind⟩, hmore, -, rfl⟩ := h
      exact Nat.lt_succ_of_lt (ih hmore)

/-- A number made small, with the weight that this costs. -/
def settle (n weight : Nat) : Nat × Nat :=
  if 455 < n then settle (n / 35) (weight + 36) else (n, weight)
termination_by n

/-- The bias behind a number that led to a text of some size. -/
def nextBias (number size : Nat) (isFirst : Bool) : Nat :=
  let n := if isFirst then number / 700 else number / 2
  let (n, weight) := settle (n + n / size) 0
  weight + 36 * n / (n + 38)

/-- Inserts the characters that a code describes into a text, from a code point and a place on. -/
def insertAll (bias code place : Nat) (text cs : List Char) : Option (List Char) :=
  match cs with
  | [] => some text
  | c :: rest =>
    match h : number? bias 36 1 (c :: rest) with
    | none => none
    | some (number, behind) =>
      let size := text.length + 1
      let next := code + (place + number) / size
      let place' := (place + number) % size
      if next.isValidChar then
        insertAll (nextBias number size (place == 0)) next (place' + 1)
          (text.insertIdx place' (Char.ofNat next)) behind
      else none
termination_by cs.length
decreasing_by exact length_lt_of_number? h

/-- The text that a label stands for. Its last hyphen parts the plain characters from the code,
unless there are none. -/
def decode? (cs : List Char) : Option (List Char) :=
  let code := (cs.reverse.takeWhile (· ≠ '-')).reverse
  let plain := cs.take (cs.length - code.length - 1)
  if cs.any (0x80 ≤ ·.toNat) then none
  else if plain.isEmpty then insertAll 72 0x80 0 [] cs
  else insertAll 72 0x80 0 plain code

end SchemaAtlas.DomainName.Punycode
