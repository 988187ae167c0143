import CommandGrammar.Decimal.Shortest

/-!
# Doubles as text

Every format writes a finite double with its shortest digits and differs from the others only in
how the digits are set: which magnitudes are written out in full, whether a whole number keeps a
fraction, how an exponent looks. A `Layout` records those decisions and `Layout.write` follows them.
-/

namespace CommandGrammar

/-- How a format sets the digits of a double. -/
structure Layout where
  /-- The exponents of the leading digit that are written without an exponent; all, if `none`. -/
  plain : Option (Int × Int)
  /-- Whole numbers end in `.0`. -/
  wholeFraction : Bool
  /-- Exponents that are not negative carry a `+`. -/
  plusExponent : Bool
  tie : Tie
  nan : String
  infinity : String
  negativeInfinity : String

namespace Layout

/-- The digits of `n`. -/
def digits (n : Nat) : String :=
  String.ofList (Nat.toDigits 10 n)

def zeros (n : Nat) : String :=
  String.ofList (List.replicate n '0')

/-- A decimal without an exponent. -/
def plainText (l : Layout) (d : Decimal) : String :=
  let ds := digits d.coefficient
  let fraction := (-d.exponent).toNat
  if fraction = 0 then
    ds ++ zeros (if d.coefficient = 0 then 0 else d.exponent.toNat) ++
      (if l.wholeFraction then ".0" else "")
  else
    let padded := (zeros (fraction + 1 - ds.length) ++ ds).toList
    let cut := padded.length - fraction
    String.ofList (padded.take cut) ++ "." ++ String.ofList (padded.drop cut)

/-- A decimal as its leading digit, its other digits after a point, and an exponent. -/
def scientificText (l : Layout) (d : Decimal) : String :=
  let ds := Nat.toDigits 10 d.coefficient
  let leading := d.exponent + (ds.length - 1 : Nat)
  let mantissa :=
    match ds with
    | c :: [] => String.ofList [c]
    | c :: rest => String.ofList (c :: '.' :: rest)
    | [] => ""
  mantissa ++ "e" ++ (if l.plusExponent && 0 ≤ leading then "+" else "") ++ toString leading

/-- A decimal without its sign. -/
def decimalText (l : Layout) (d : Decimal) : String :=
  let leading := d.exponent + (Decimal.digitCount d.coefficient - 1 : Nat)
  match l.plain with
  | none => l.plainText d
  | some (least, greatest) =>
    if d.coefficient = 0 ∨ (least ≤ leading ∧ leading ≤ greatest) then l.plainText d
    else l.scientificText d

/-- The text of a double; negative zero keeps its sign. -/
def write (l : Layout) (x : Float) : String :=
  if x.isNaN then l.nan
  else
    let bits := x.toBits
    let negative := bits.toNat / Nat.pow 2 63 = 1
    if x.isInf then if negative then l.negativeInfinity else l.infinity
    else (if negative then "-" else "") ++ l.decimalText (Decimal.shortest l.tie (.ofBits bits))

end Layout

end CommandGrammar
