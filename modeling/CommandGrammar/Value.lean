import CommandGrammar.Decimal.Layout
import CommandGrammar.Numeral

/-!
# Values of arguments

A converted argument is a whole number of one of the integer types, a double, a truth value, a
character, a text or a path. `Value.text` is how a value is shown in messages and reports.
-/

namespace CommandGrammar

/-- Types whose values have a text. -/
class Shown (α : Type) where
  text : α → String

/-- In messages a double is written out in full, and a whole one without a fraction. -/
def messageNumber : Layout where
  plain := none
  wholeFraction := false
  plusExponent := false
  tie := .up
  nan := "NaN"
  infinity := "inf"
  negativeInfinity := "-inf"

instance : Shown Int where
  text n := toString n

instance : Shown Float where
  text x := messageNumber.write x

instance : Shown Bool where
  text b := if b then "true" else "false"

instance : Shown Char where
  text c := String.ofList [c]

instance : Shown String where
  text s := s

inductive ValueType where
  | int (t : IntType)
  | float
  | bool
  | char
  | text
  | path
  deriving DecidableEq, Repr

inductive Value where
  | int (t : IntType) (n : Int)
  | float (x : Float)
  | bool (b : Bool)
  | char (c : Char)
  | text (s : String)
  | path (s : String)
  deriving Repr, BEq

namespace Value

def type : Value → ValueType
  | int t _ => .int t
  | float _ => .float
  | bool _ => .bool
  | char _ => .char
  | text _ => .text
  | path _ => .path

instance : Shown Value where
  text
    | int _ n => Shown.text n
    | float x => Shown.text x
    | bool b => Shown.text b
    | char c => Shown.text c
    | text s => s
    | path s => s

/-- The value, if it has the type asked for. -/
def asType? (t : ValueType) (v : Value) : Option Value :=
  if v.type = t then some v else none

end Value

end CommandGrammar
