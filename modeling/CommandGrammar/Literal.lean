import CommandGrammar.Decimal.Reading
import CommandGrammar.Numeral

/-!
# Literals

How a single token is read as a whole number, a double, a truth value, a character or a text, and
why it may fail to be one.
-/

namespace CommandGrammar

namespace Literal

/-- Why a token is not a literal of the type wanted. -/
inductive Fault where
  | numeral (f : Numeral.Fault)
  | decimal (f : Decimal.Fault)
  | neitherTrueNorFalse
  | noCharacter
  | severalCharacters
  deriving DecidableEq, Repr

def Fault.message : Fault → String
  | .numeral f => f.message
  | .decimal f => f.message
  | .neitherTrueNorFalse => "provided string was not \x60true\x60 or \x60false\x60"
  | .noCharacter => "cannot parse char from empty string"
  | .severalCharacters => "too many characters in string"

end Literal

/-- A way to read a token. -/
abbrev Literal (α : Type) := String → Except Literal.Fault α

namespace Literal

def int (t : IntType) : Literal Int := fun token =>
  (Numeral.read t token).mapError .numeral

def float : Literal Float := fun token =>
  (Decimal.read token).mapError .decimal

def bool : Literal Bool
  | "true" => .ok true
  | "false" => .ok false
  | _ => .error .neitherTrueNorFalse

def char : Literal Char := fun token =>
  match token.toList with
  | [] => .error .noCharacter
  | [c] => .ok c
  | _ => .error .severalCharacters

/-- Every token is a text. -/
def text : Literal String := .ok

end Literal

end CommandGrammar
