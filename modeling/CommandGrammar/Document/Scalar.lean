import CommandGrammar.Decimal.Reading
import CommandGrammar.Document.Basic
import CommandGrammar.Numeral
import CommandGrammar.Text.Hex

/-!
# Scalars without a type

A plain scalar is null, a truth value, a whole number, a double or a text, and is taken for the
first of these that it can be read as. A digit sequence with a needless zero in front is a text. A
tag can say which of them is meant; one with a name of its own has no meaning here.
`Document.settle` gives every scalar of a document its type.
-/

namespace CommandGrammar

/-- The name in a local tag. -/
def Tag.name? : Tag → Option String
  | named name => some name
  | _ => none

namespace Scalar

def isNull (s : String) : Bool :=
  s == "null" || s == "Null" || s == "NULL" || s == "~"

def bool? (s : String) : Option Bool :=
  if s == "true" || s == "True" || s == "TRUE" then some true
  else if s == "false" || s == "False" || s == "FALSE" then some false
  else none

/-- The value of a digit in a base up to 16. -/
def digit? (base : Nat) (c : Char) : Option Nat :=
  (hexDigit? c).filter (· < base)

/-- The value of at least one digit. -/
def natural? (base : Nat) (cs : List Char) : Option Nat :=
  if cs.isEmpty then none
  else cs.foldlM (fun n c => (digit? base c).map (n * base + ·)) 0

/-- The base that digits after a zero and a letter are in. -/
def base? : Char → Option Nat
  | 'x' => some 16
  | 'o' => some 8
  | 'b' => some 2
  | _ => none

/-- The magnitude of a whole number, in decimal or after a mark of its base. -/
def magnitude? (cs : List Char) : Option Nat :=
  match cs with
  | '0' :: mark :: digits =>
    match base? mark with
    | some base => natural? base digits
    | none => natural? 10 cs
  | _ => natural? 10 cs

/-- More than one digit, the first of them zero, after an optional sign. -/
def hasNeedlessZero (s : String) : Bool :=
  let digits :=
    match s.toList with
    | '-' :: cs | '+' :: cs => cs
    | cs => cs
  match digits with
  | '0' :: c :: cs => (c :: cs).all Char.isDigit
  | _ => false

/-- A whole number with an optional sign. -/
def integer? (s : String) : Option Int :=
  if hasNeedlessZero s then none
  else
    match s.toList with
    | '-' :: cs => (magnitude? cs).map fun n => -(n : Int)
    | '+' :: cs | cs => (magnitude? cs).map fun n => (n : Int)

/-- Whether a whole number fits one of the 64-bit types. -/
def fits (n : Int) : Bool :=
  IntType.i64.holds n || IntType.u64.holds n

/-- Whether a whole number is too large for 64 bits, but not for 128: no type takes it. -/
def isOversized (n : Int) : Bool :=
  !fits n && -(Nat.pow 2 127 : Int) ≤ n && n < Nat.pow 2 128

/-- A double: a decimal literal of a finite number, or a word for a special one. -/
def number? (s : String) : Option Float :=
  if s == ".inf" || s == ".Inf" || s == ".INF" || s == "+.inf" || s == "+.Inf" || s == "+.INF" then
    some (1.0 / 0.0)
  else if s == "-.inf" || s == "-.Inf" || s == "-.INF" then some (-1.0 / 0.0)
  else if s == ".nan" || s == ".NaN" || s == ".NAN" then some (0.0 / 0.0)
  else
    match Decimal.read s with
    | .ok x => if x.isFinite then some x else none
    | .error _ => none

/-- The document of a whole number, as it was written. -/
def settleInteger (s : String) (n : Int) : Document :=
  if n = 0 ∧ s.toList.head? = some '-' then .minusZero else .integer n

/-- The value of a plain scalar; none if it is a whole number of 65 to 128 bits. -/
def settlePlain (s : String) : Option Document :=
  if s.isEmpty || isNull s then some .null
  else
    match bool? s with
    | some b => some (.bool b)
    | none =>
      match (integer? s).filter fun n => fits n || isOversized n with
      | some n => if fits n then some (settleInteger s n) else none
      | none =>
        match if hasNeedlessZero s then none else number? s with
        | some x => some (.number x)
        | none => some (.text s)

/-- The value of a scalar without a tag. -/
def settleBare : ScalarStyle → String → Option Document
  | .plain, s => settlePlain s
  | _, s => some (.text s)

/-- The value of a scalar under a tag. -/
def settleTagged (tag : Tag) (style : ScalarStyle) (s : String) : Option Document :=
  match tag with
  | .named _ => none
  | .nameless => settleBare style s
  | .bool => (bool? s).map .bool
  | .integer => ((integer? s).filter fits).map (settleInteger s)
  | .number => (number? s).map .number
  | .null => if isNull s then some .null else none
  | .other => some (.text s)

end Scalar

namespace Document

mutual

/-- Gives every scalar in a document its type. -/
def settle : Document → Option Document
  | written style s => Scalar.settleBare style s
  | tagged tag (written style s) => Scalar.settleTagged tag style s
  | tagged tag d => if tag.name?.isSome then none else settle d
  | list items => (settleAll items).map list
  | record fields => (settleFields fields).map record
  | d => some d

def settleAll : List Document → Option (List Document)
  | [] => some []
  | d :: ds => do return (← settle d) :: (← settleAll ds)

def settleFields : List (Document × Document) → Option (List (Document × Document))
  | [] => some []
  | (k, v) :: rest => do return (← settle k, ← settle v) :: (← settleFields rest)

end

end Document

end CommandGrammar
