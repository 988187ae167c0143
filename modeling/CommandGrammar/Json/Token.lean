import CommandGrammar.Json.Number
import CommandGrammar.Text.Hex

/-!
# JSON tokens

The text is read character by character. A word is a run of letters, digits and signs outside
quotes: null, a truth value or a number. Texts decode their escapes on the way; a character beyond
sixteen bits is escaped in two halves, and neither may stand alone.
-/

namespace CommandGrammar.Json

inductive Token where
  | openList
  | closeList
  | openRecord
  | closeRecord
  | colon
  | comma
  | text (s : String)
  | scalar (d : Document)
  deriving Repr

/-- Where in a token the reading of a text is. Characters read come latest first. -/
inductive Place where
  | between
  | word (cs : List Char)
  | quoted (cs : List Char)
  | escaped (cs : List Char)
  /-- After `digits` hexadecimal digits of the value `n`; `high` is the half before them. -/
  | hex (cs : List Char) (high : Option Nat) (digits n : Nat)
  /-- After the first half of an escaped character. -/
  | afterHigh (cs : List Char) (high : Nat)
  | afterHighEscape (cs : List Char) (high : Nat)

def isWordChar (c : Char) : Bool :=
  c.isAlphanum || c == '+' || c == '-' || c == '.'

def word? (cs : List Char) : Option Token :=
  match String.ofList cs with
  | "null" => some (.scalar .null)
  | "true" => some (.scalar (.bool true))
  | "false" => some (.scalar (.bool false))
  | _ => (number? cs).map .scalar

def punctuation? : Char → Option Token
  | '[' => some .openList
  | ']' => some .closeList
  | '\x7b' => some .openRecord
  | '\x7d' => some .closeRecord
  | ':' => some .colon
  | ',' => some .comma
  | _ => none

def isSpace (c : Char) : Bool :=
  c == ' ' || c == '\n' || c == '\r' || c == '\t'

/-- What a character escaped by a backslash means. -/
def escape? : Char → Option Char
  | '"' => some '"'
  | '\\' => some '\\'
  | '/' => some '/'
  | 'b' => some '\x08'
  | 'f' => some '\x0c'
  | 'n' => some '\n'
  | 'r' => some '\r'
  | 't' => some '\t'
  | _ => none

/-- What four hexadecimal digits lead to. -/
def afterHex? (cs : List Char) (high : Option Nat) (n : Nat) : Option Place :=
  match high with
  | some h =>
    if 0xDC00 ≤ n ∧ n ≤ 0xDFFF then
      some (.quoted (Char.ofNat (0x10000 + (h - 0xD800) * 0x400 + (n - 0xDC00)) :: cs))
    else none
  | none =>
    if 0xD800 ≤ n ∧ n ≤ 0xDBFF then some (.afterHigh cs n)
    else if 0xDC00 ≤ n ∧ n ≤ 0xDFFF then none
    else some (.quoted (Char.ofNat n :: cs))

/-- Reads a character between two tokens. -/
def start? (c : Char) : Option (List Token × Place) :=
  if isSpace c then some ([], .between)
  else if c = '"' then some ([], .quoted [])
  else if isWordChar c then some ([], .word [c])
  else (punctuation? c).map fun t => ([t], .between)

/-- Reads a character: the tokens that it completes and the place after it. -/
def advance? (p : Place) (c : Char) : Option (List Token × Place) :=
  match p with
  | .between => start? c
  | .word cs =>
    if isWordChar c then some ([], .word (c :: cs))
    else do
      let t ← word? cs.reverse
      let (ts, p) ← start? c
      return (t :: ts, p)
  | .quoted cs =>
    if c = '"' then some ([.text (String.ofList cs.reverse)], .between)
    else if c = '\\' then some ([], .escaped cs)
    else if c.toNat < 0x20 then none
    else some ([], .quoted (c :: cs))
  | .escaped cs =>
    if c = 'u' then some ([], .hex cs none 0 0)
    else (escape? c).map fun e => ([], .quoted (e :: cs))
  | .hex cs high digits n => do
    let d ← hexDigit? c
    if digits = 3 then return ([], ← afterHex? cs high (n * 16 + d))
    else return ([], .hex cs high (digits + 1) (n * 16 + d))
  | .afterHigh cs high => if c = '\\' then some ([], .afterHighEscape cs high) else none
  | .afterHighEscape cs high => if c = 'u' then some ([], .hex cs (some high) 0 0) else none

/-- The tokens from a place on. -/
def tokensFrom? : Place → List Char → Option (List Token)
  | .between, [] => some []
  | .word cs, [] => (word? cs.reverse).map fun t => [t]
  | _, [] => none
  | p, c :: cs => do
    let (ts, p) ← advance? p c
    return ts ++ (← tokensFrom? p cs)

def tokens? (s : String) : Option (List Token) :=
  tokensFrom? .between s.toList

end CommandGrammar.Json
