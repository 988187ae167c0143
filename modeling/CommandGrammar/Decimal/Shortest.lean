/-!
# The shortest decimal of a binary number

A finite binary number stands for every real that rounds to it: an interval around its exact value.
`Decimal.shortest` picks a decimal in that interval with as few digits as possible and, among those,
the nearest one. It works on the exact value `m · 2 ^ q` in natural numbers: for one digit, two
digits and so on it looks at the two neighbours of the value on the decimal grid of that many
digits, and takes the first grid on which one of them lies in the interval.
-/

namespace CommandGrammar

/-- The number `coefficient · 10 ^ exponent`. -/
structure Decimal where
  coefficient : Nat
  exponent : Int
  deriving DecidableEq, Repr

/-- Which of two equally near decimals is taken. -/
inductive Tie where
  | toEven
  | up
  deriving DecidableEq, Repr

/-- The magnitude `mantissa · 2 ^ exponent` of a finite binary number; `narrowBelow` says that the
next number below is half as far away as the next one above. -/
structure Binary where
  mantissa : Nat
  exponent : Int
  narrowBelow : Bool
  deriving DecidableEq, Repr

namespace Binary

/-- The magnitude of a finite double from its bits; the sign bit is ignored. -/
def ofBits (bits : UInt64) : Binary :=
  let fraction : Nat := bits.toNat % Nat.pow 2 52
  let scale : Nat := bits.toNat / Nat.pow 2 52 % Nat.pow 2 11
  if scale = 0 then
    { mantissa := fraction, exponent := -1074, narrowBelow := false }
  else
    { mantissa := fraction + Nat.pow 2 52
      exponent := scale - 1075
      narrowBelow := fraction = 0 ∧ scale > 1 }

/-- A number and the ends of the interval that rounds to it, as numerators over one denominator. -/
structure Interval where
  value : Nat
  low : Nat
  high : Nat
  denominator : Nat
  closed : Bool

/-- Half the way to the neighbours on either side; the ends belong to numbers with an even
mantissa. -/
def interval (b : Binary) : Interval :=
  let up := Nat.pow 2 b.exponent.toNat
  { value := 4 * b.mantissa * up
    low := (4 * b.mantissa - if b.narrowBelow then 1 else 2) * up
    high := (4 * b.mantissa + 2) * up
    denominator := 4 * Nat.pow 2 (-b.exponent).toNat
    closed := b.mantissa % 2 = 0 }

/-- Whether `n / d` lies in the interval, where `n` is given over the interval's denominator
times `d`. -/
def Interval.has (i : Interval) (d n : Nat) : Bool :=
  if i.closed then i.low * d ≤ n && n ≤ i.high * d else i.low * d < n && n < i.high * d

end Binary

namespace Decimal

/-- Drops factors of ten from the coefficient. -/
def trim (d : Decimal) : Decimal :=
  if _h : d.coefficient ≠ 0 ∧ d.coefficient % 10 = 0 then
    trim { coefficient := d.coefficient / 10, exponent := d.exponent + 1 }
  else d
termination_by d.coefficient
decreasing_by omega

/-- The number of decimal digits of `n`. -/
def digitCount (n : Nat) : Nat :=
  (Nat.toDigits 10 n).length

/-- The least `k` with `n / d < 10 ^ k`, for `n` and `d` other than zero. -/
def magnitude (n d : Nat) : Int :=
  let guess : Int := digitCount n - digitCount d
  if n * Nat.pow 10 (-guess).toNat < d * Nat.pow 10 guess.toNat then guess else guess + 1

/-- The decimal on the grid of step `10 ^ step` that lies in the interval and is nearest to its
value, if there is one. -/
def onGrid (tie : Tie) (i : Binary.Interval) (step : Int) : Option Decimal :=
  -- over a common denominator, the grid has the step `unit`, and `value` is the interval's value
  let scale := Nat.pow 10 (-step).toNat
  let unit := i.denominator * Nat.pow 10 step.toNat
  let value := i.value * scale
  let below := value / unit
  let rest := value % unit
  let above := below + 1
  let inside (c : Nat) : Bool := i.has scale (c * unit)
  let upper : Bool :=
    if 2 * rest = unit then
      match tie with
      | .up => true
      | .toEven => below % 2 = 1
    else unit < 2 * rest
  let pick :=
    match inside below, inside above with
    | true, true => some (if upper then above else below)
    | true, false => some below
    | false, true => some above
    | false, false => none
  pick.map fun c => { coefficient := c, exponent := step }

/-- The shortest decimal that rounds to the number; the nearest of those of that length. -/
def shortest (tie : Tie) (b : Binary) : Decimal :=
  if b.mantissa = 0 then { coefficient := 0, exponent := 0 }
  else
    let i := b.interval
    let k := magnitude i.value i.denominator
    match (List.range 17).findSome? fun n => onGrid tie i (k - (n + 1 : Nat)) with
    | some d => d.trim
    | none =>
      let value := i.value * Nat.pow 10 (17 - k).toNat
      (Decimal.mk (value / (i.denominator * Nat.pow 10 (k - 17).toNat)) (k - 17)).trim

end Decimal

end CommandGrammar
