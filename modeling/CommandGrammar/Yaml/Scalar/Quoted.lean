import CommandGrammar.Text.Hex
import CommandGrammar.Yaml.Scalar.Gap

/-!
# Quoted scalars

Between single quotes, a quote is written twice and nothing else is special. Between double quotes a
backslash starts an escape; before the end of a line it joins the line with the next.
-/

namespace CommandGrammar.Yaml

/-- Reads what follows an opening single quote; `acc` has been read, latest first. -/
def singleQuotedFrom? : List Placed → Gap → List Char → Option (String × List Placed)
  | [], _, _ => none
  | p :: rest, g, acc =>
    if isBreak p.char then singleQuotedFrom? rest (g.addBreak p.char) acc
    else if isBlank p.char then singleQuotedFrom? rest (g.addBlank p.char) acc
    else if g.isBroken && (marker? (p :: rest)).isSome then none
    else if p.char == '\'' then
      match rest with
      | q :: more =>
        if q.char == '\'' then singleQuotedFrom? more .empty ('\'' :: (g.text ++ acc))
        else some (String.ofList (g.text ++ acc).reverse, rest)
      | [] => some (String.ofList (g.text ++ acc).reverse, [])
    else singleQuotedFrom? rest .empty (p.char :: (g.text ++ acc))

/-- What a character escaped by a backslash means. -/
def escape? : Char → Option Char
  | '0' => some '\x00'
  | 'a' => some '\x07'
  | 'b' => some '\x08'
  | 't' | '\t' => some '\t'
  | 'n' => some '\n'
  | 'v' => some '\x0b'
  | 'f' => some '\x0c'
  | 'r' => some '\r'
  | 'e' => some '\x1b'
  | ' ' => some ' '
  | '"' => some '"'
  | '/' => some '/'
  | '\\' => some '\\'
  | 'N' => some '\x85'
  | '_' => some '\xa0'
  | 'L' => some '\u2028'
  | 'P' => some '\u2029'
  | _ => none

/-- The number of digits after a letter that escapes a character by its number. -/
def escapeDigits? : Char → Option Nat
  | 'x' => some 2
  | 'u' => some 4
  | 'U' => some 8
  | _ => none

/-- The character of a number, unless it is half of one. -/
def char? (n : Nat) : Option Char :=
  if n < 0xD800 ∨ (0xDFFF < n ∧ n < 0x110000) then some (Char.ofNat n) else none

/-- How far an escape has been read. -/
inductive Escape where
  | outside
  | letter
  /-- After digits of the value `n`, with `left` and one more digits to come. -/
  | digits (left n : Nat)

/-- Reads what follows an opening double quote; `acc` has been read, latest first. -/
def doubleQuotedFrom? : List Placed → Escape → Gap → List Char → Option (String × List Placed)
  | [], _, _, _ => none
  | p :: rest, .outside, g, acc =>
    if isBreak p.char then doubleQuotedFrom? rest .outside (g.addBreak p.char) acc
    else if isBlank p.char then doubleQuotedFrom? rest .outside (g.addBlank p.char) acc
    else if g.isBroken && (marker? (p :: rest)).isSome then none
    else if p.char == '"' then some (String.ofList (g.text ++ acc).reverse, rest)
    else if p.char == '\\' then doubleQuotedFrom? rest .letter .empty (g.text ++ acc)
    else doubleQuotedFrom? rest .outside .empty (p.char :: (g.text ++ acc))
  | p :: rest, .letter, _, acc =>
    if isBreak p.char then doubleQuotedFrom? rest .outside (.escaped []) acc
    else
      match escapeDigits? p.char with
      | some digits => doubleQuotedFrom? rest (.digits (digits - 1) 0) .empty acc
      | none =>
        match escape? p.char with
        | some c => doubleQuotedFrom? rest .outside .empty (c :: acc)
        | none => none
  | p :: rest, .digits left n, _, acc =>
    match hexDigit? p.char with
    | none => none
    | some d =>
      match left with
      | left + 1 => doubleQuotedFrom? rest (.digits left (n * 16 + d)) .empty acc
      | 0 =>
        match char? (n * 16 + d) with
        | some c => doubleQuotedFrom? rest .outside .empty (c :: acc)
        | none => none

/-- Reads what follows an opening quote. -/
def quoted? (quote : Char) (text : List Placed) : Option (String × List Placed) :=
  if quote == '\'' then singleQuotedFrom? text .empty []
  else doubleQuotedFrom? text .outside .empty []

end CommandGrammar.Yaml
