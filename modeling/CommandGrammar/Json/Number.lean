import CommandGrammar.Decimal.Reading
import CommandGrammar.Document.Basic

/-!
# JSON numbers

A number without fraction and exponent is a whole number if it fits 64 bits, except for a negative
zero. Any other number is a double: its leading digits, as many as fit 64 bits, scaled by a power of
ten in double arithmetic. A number beyond all doubles is an error.
-/

namespace CommandGrammar.Json

/-- The parts of a number's text: a sign, the digits before and after the point, the exponent. -/
structure NumberText where
  negative : Bool
  whole : List Char
  fraction : Option (List Char)
  exponent : Option (Bool × List Char)

/-- The parts of a number: no needless zeros, and digits on both sides of a point. -/
def numberText? (cs : List Char) : Option NumberText := do
  let (negative, cs) :=
    match cs with
    | '-' :: cs => (true, cs)
    | cs => (false, cs)
  let whole := cs.takeWhile Char.isDigit
  let rest := cs.dropWhile Char.isDigit
  match whole with
  | [] | '0' :: _ :: _ => none
  | _ =>
    let (fraction, rest) :=
      match rest with
      | '.' :: r => (some (r.takeWhile Char.isDigit), r.dropWhile Char.isDigit)
      | r => (none, r)
    if fraction = some [] then none
    else
      let exponent ←
        match rest with
        | [] => some none
        | c :: r =>
          if c = 'e' ∨ c = 'E' then
            let (down, digits) :=
              match r with
              | '-' :: ds => (true, ds)
              | '+' :: ds => (false, ds)
              | ds => (false, ds)
            if digits.isEmpty ∨ ¬ digits.all Char.isDigit then none else some (some (down, digits))
          else none
      some { negative, whole, fraction, exponent }

/-- The greatest number of 64 bits. -/
def greatest : Nat := Nat.pow 2 64 - 1

/-- Appends digits to a number while 64 bits hold it; returns it with the digits left over. -/
def gather : Nat → List Char → Nat × List Char
  | n, [] => (n, [])
  | n, c :: cs =>
    let next := n * 10 + (c.toNat - '0'.toNat)
    if next ≤ greatest then gather next cs else (n, c :: cs)

def powerOfTen (n : Nat) : Float := Float.ofScientific 1 false n

/-- `f · 10 ^ exponent` in double arithmetic, by powers of at most `10 ^ 308`. -/
def scale? (f : Float) (exponent : Int) : Option Float :=
  if 0 ≤ exponent then
    if exponent ≤ 308 then
      let x := f * powerOfTen exponent.toNat
      if x.isInf then none else some x
    else if f == 0.0 then some f
    else none
  else if -308 ≤ exponent then some (f / powerOfTen (-exponent).toNat)
  else if -616 ≤ exponent then some (f / powerOfTen 308 / powerOfTen (-exponent - 308).toNat)
  else some 0.0

/-- The greatest exponent that is told apart from larger ones. -/
def greatestExponent : Nat := Nat.pow 2 31 - 1

/-- The value of the parts of a number. -/
def NumberText.value? (t : NumberText) : Option Document :=
  let (n, left) := gather 0 t.whole
  let sign (x : Float) : Float := if t.negative then -x else x
  match left, t.fraction, t.exponent with
  | [], none, none =>
    if !t.negative then some (.integer n)
    else if 0 < n ∧ n ≤ Nat.pow 2 63 then some (.integer (-n))
    else some (.number (-(Float.ofNat n)))
  | _, fraction, exponent =>
    let digits := fraction.getD []
    let (significand, unread) := gather n digits
    let shift : Int := left.length - ((digits.length : Int) - unread.length)
    let (down, power) :=
      match exponent with
      | none => (false, 0)
      | some (down, ds) => (down, Decimal.digitsValue ds)
    if greatestExponent < power then
      if significand = 0 ∨ down then some (.number (sign 0.0)) else none
    else
      (scale? (Float.ofNat significand) (if down then shift - power else shift + power)).map
        fun x => .number (sign x)

/-- The value of a number's text. -/
def number? (cs : List Char) : Option Document :=
  (numberText? cs).bind NumberText.value?

end CommandGrammar.Json
