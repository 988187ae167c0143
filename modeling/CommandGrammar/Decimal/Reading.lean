/-!
# Doubles in text

A decimal literal is a sign, digits with at most one point among or around them, and an exponent;
the words for infinity and for no number are literals too, in any case of letters. The value of a
literal is its exact value, rounded once.
-/

namespace CommandGrammar.Decimal

/-- Why a text is no decimal literal. -/
inductive Fault where
  | empty
  | malformed
  deriving DecidableEq, Repr

def Fault.message : Fault → String
  | .empty => "cannot parse float from empty string"
  | .malformed => "invalid float literal"

/-- The value of a list of ASCII digits. -/
def digitsValue (ds : List Char) : Nat :=
  ds.foldl (fun n c => n * 10 + (c.toNat - '0'.toNat)) 0

/-- The double nearest to `coefficient · 10 ^ exponent`. Exponents at which every coefficient of
that many digits is out of range, or below all of it, are answered without the power. -/
def nearest (coefficient : Nat) (exponent : Int) : Float :=
  let size : Int := (Nat.toDigits 10 coefficient).length
  if coefficient = 0 ∨ exponent + size < -400 then 0.0
  else if 400 < exponent + size then 1.0 / 0.0
  else if exponent < 0 then Float.ofScientific coefficient true (-exponent).toNat
  else Float.ofScientific coefficient false exponent.toNat

/-- An exponent mark is followed by an optional sign and digits; no mark means no shift. -/
def exponent? : List Char → Option Int
  | [] => some 0
  | c :: rest =>
    if c = 'e' ∨ c = 'E' then
      let (negative, digits) :=
        match rest with
        | '-' :: ds => (true, ds)
        | '+' :: ds => (false, ds)
        | ds => (false, ds)
      if digits.isEmpty ∨ ¬ digits.all Char.isDigit then none
      else some (if negative then -(digitsValue digits : Int) else digitsValue digits)
    else none

/-- The magnitude of a literal without its sign. -/
def magnitude? (cs : List Char) : Option Float :=
  match String.ofList (cs.map Char.toLower) with
  | "inf" | "infinity" => some (1.0 / 0.0)
  | "nan" => some (0.0 / 0.0)
  | _ =>
    let whole := cs.takeWhile Char.isDigit
    let afterWhole := cs.dropWhile Char.isDigit
    let (fraction, rest) :=
      match afterWhole with
      | '.' :: r => (r.takeWhile Char.isDigit, r.dropWhile Char.isDigit)
      | r => ([], r)
    if whole.isEmpty ∧ fraction.isEmpty then none
    else
      (exponent? rest).map fun e =>
        nearest (digitsValue (whole ++ fraction)) (e - fraction.length)

/-- Reads a decimal literal. -/
def read (s : String) : Except Fault Float :=
  let signed :=
    match s.toList with
    | '-' :: cs => (magnitude? cs).map fun x => -x
    | '+' :: cs => magnitude? cs
    | cs => magnitude? cs
  match s, signed with
  | "", _ => .error .empty
  | _, none => .error .malformed
  | _, some x => .ok x

end CommandGrammar.Decimal
