/-!
# The shortest decimal of a floating-point number

Of the decimals that read back as a given number, `shortest` finds one with the fewest digits, and
of those the nearest. A number is decoded into an integer times a power of two; the reals that
round to it form an interval around it; and grids of powers of ten are tried from coarse to fine
until a grid point next to the number falls into the interval. All of this is exact arithmetic on
natural numbers.
-/

namespace SchemaAtlas.Decimal

/-- A positive number as a fraction, with the half-open or closed interval of the reals that round
to it. All three numerators share the denominator. -/
structure Interval where
  low : Nat
  value : Nat
  high : Nat
  denominator : Nat
  closed : Bool

/-- The interval of the finite positive number with the given bits. -/
def Interval.ofBits (bits : Nat) : Interval :=
  let fraction := bits % 0x10000000000000
  let exponent := bits / 0x10000000000000 % 0x800
  let (m, e) := if exponent = 0 then (fraction, 1) else (0x10000000000000 + fraction, exponent)
  -- the number is m * 2 ^ (e - 1075); a quarter of the last place is the unit
  let below := if fraction = 0 ∧ exponent > 1 then 1 else 2
  let scale := 1 <<< e
  { low := (4 * m - below) * scale, value := 4 * m * scale, high := (4 * m + 2) * scale
    denominator := 1 <<< 1077, closed := m % 2 == 0 }

/-- Whether a fraction with the given numerator lies in the interval when all is multiplied by
`factor`. -/
def Interval.contains (i : Interval) (factor numerator : Nat) : Bool :=
  let low := i.low * factor
  let high := i.high * factor
  if i.closed then low ≤ numerator && numerator ≤ high else low < numerator && numerator < high

/-- The place of the decimal point: the least `k` with `value < 10 ^ k`, starting the search at
`k`. -/
def Interval.point (i : Interval) : Nat → Int → Int
  | 0, k => k
  | fuel + 1, k =>
    let reaches (k : Int) : Bool :=
      if k ≥ 0 then i.value ≥ i.denominator * Nat.pow 10 k.toNat
      else i.value * Nat.pow 10 (-k).toNat ≥ i.denominator
    if reaches k then i.point fuel (k + 1) else k

/-- The grid point next to the number that reads back, on the grid of the decimals with `count`
digits. -/
def Interval.onGrid? (i : Interval) (point : Int) (count : Nat) : Option (Nat × Int) :=
  let k := point - count
  let factor := if k < 0 then Nat.pow 10 (-k).toNat else 1
  let step := if k < 0 then i.denominator else i.denominator * Nat.pow 10 k.toNat
  let value := i.value * factor
  let lower := value / step
  let hitsLower := lower > 0 && i.contains factor (lower * step)
  let hitsUpper := i.contains factor ((lower + 1) * step)
  let lowerIsNearer := 2 * (value - lower * step) ≤ step
  if hitsLower && (lowerIsNearer || !hitsUpper) then some (lower, k)
  else if hitsUpper then some (lower + 1, k)
  else none

/-- The digits and the exponent of the shortest decimal of the finite positive number with the
given bits. -/
def shortest (bits : Nat) : Nat × Int :=
  let i := Interval.ofBits bits
  let point := i.point 700 (-330)
  ((List.range 17).findSome? fun n => i.onGrid? point (n + 1)).getD (0, 0)

/-- The decimal digits of a natural number. -/
def natural (n : Nat) : List Char :=
  Nat.toDigits 10 n

/-- The digits of an integer without the zeros at its end, and how many these were. -/
def dropZeros : Nat → Nat → Nat → Nat × Nat
  | 0, n, zeros => (n, zeros)
  | fuel + 1, n, zeros =>
    if n % 10 = 0 ∧ n ≠ 0 then dropZeros fuel (n / 10) (zeros + 1) else (n, zeros)

/-- A decimal with its point: whole numbers up to sixteen digits end in `.0`, small fractions
start with `0.`, and all else has an exponent. -/
def layout (digits : Nat) (exponent : Int) : List Char :=
  let (digits, zeros) := dropZeros 20 digits 0
  let exponent := exponent + zeros
  let ds := natural digits
  let point := exponent + ds.length
  if 0 ≤ exponent ∧ point ≤ 16 then ds ++ List.replicate exponent.toNat '0' ++ ['.', '0']
  else if 0 < point ∧ point ≤ 16 then ds.take point.toNat ++ '.' :: ds.drop point.toNat
  else if -5 < point ∧ point ≤ 0 then ['0', '.'] ++ List.replicate (-point).toNat '0' ++ ds
  else
    let power := point - 1
    let written := (if power < 0 then ['-'] else []) ++ natural power.natAbs
    ds.take 1 ++ (if ds.length > 1 then '.' :: ds.drop 1 else []) ++ 'e' :: written

/-- The text of a finite number. -/
def ofFloat (x : Float) : List Char :=
  let bits := x.toBits.toNat
  let magnitude := bits % 0x8000000000000000
  (if bits ≥ 0x8000000000000000 then ['-'] else []) ++
    if magnitude = 0 then ['0', '.', '0'] else
      let (digits, exponent) := shortest magnitude
      layout digits exponent

end SchemaAtlas.Decimal
