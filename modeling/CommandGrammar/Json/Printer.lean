import CommandGrammar.Decimal.Layout
import CommandGrammar.Document.Basic

/-!
# JSON text

A document is written on one line without spaces, or over several lines with two spaces for each
level. JSON has no number that is not finite; `Document.finite` says null instead.
-/

namespace CommandGrammar

namespace Document

mutual

/-- The document with null for every number that is not finite. -/
def finite : Document → Document
  | number x => if x.isFinite then number x else null
  | list items => list (finiteAll items)
  | record fields => record (finiteFields fields)
  | tagged tag d => tagged tag (finite d)
  | d => d

def finiteAll : List Document → List Document
  | [] => []
  | d :: ds => finite d :: finiteAll ds

def finiteFields : List (Document × Document) → List (Document × Document)
  | [] => []
  | (k, v) :: rest => (finite k, finite v) :: finiteFields rest

end

end Document

namespace Json

/-- Numbers keep a fraction and have an exponent only if they are very large or very small. -/
def numberLayout : Layout where
  plain := some (-5, 15)
  wholeFraction := true
  plusExponent := true
  tie := .toEven
  nan := "null"
  infinity := "null"
  negativeInfinity := "null"

/-- Two hexadecimal digits. -/
def hexByte (n : Nat) : String :=
  String.ofList ((if n < 16 then ['0'] else []) ++ Nat.toDigits 16 n)

def escapeChar (c : Char) : String :=
  if c = '"' then "\\\""
  else if c = '\\' then "\\\\"
  else if c = '\n' then "\\n"
  else if c = '\r' then "\\r"
  else if c = '\t' then "\\t"
  else if c = '\x08' then "\\b"
  else if c = '\x0c' then "\\f"
  else if c.toNat < 0x20 then "\\u00" ++ hexByte c.toNat
  else String.ofList [c]

/-- A text between quotes; only quotes, backslashes and control characters are escaped. -/
def quote (s : String) : String :=
  "\"" ++ String.join (s.toList.map escapeChar) ++ "\""

/-- A scalar, or nothing for a list or record. -/
def scalar : Document → String
  | .null => "null"
  | .bool b => if b then "true" else "false"
  | .minusZero => "-0"
  | .integer n => toString n
  | .number x => numberLayout.write x
  | .text s | .written _ s => quote s
  | .list _ | .record _ | .tagged .. => ""

mutual

/-- A document on one line. -/
def compact : Document → String
  | .list items => "[" ++ ",".intercalate (compactAll items) ++ "]"
  | .record fields => "\x7b" ++ ",".intercalate (compactFields fields) ++ "\x7d"
  | .tagged _ d => compact d
  | d => scalar d

def compactAll : List Document → List String
  | [] => []
  | d :: ds => compact d :: compactAll ds

def compactFields : List (Document × Document) → List String
  | [] => []
  | (k, v) :: rest => (compact k ++ ":" ++ compact v) :: compactFields rest

end

/-- A line break and two spaces for each level. -/
def newLine (level : Nat) : String :=
  "\n" ++ String.join (List.replicate level "  ")

/-- Items on lines of their own between two brackets. -/
def block (opening closing : String) (level : Nat) (items : List String) : String :=
  if items.isEmpty then opening ++ closing
  else
    opening ++ newLine (level + 1) ++ ("," ++ newLine (level + 1)).intercalate items ++
      newLine level ++ closing

mutual

/-- A document over several lines, at a level. -/
def prettyAt (level : Nat) : Document → String
  | .list items => block "[" "]" level (prettyAll (level + 1) items)
  | .record fields => block "\x7b" "\x7d" level (prettyFields (level + 1) fields)
  | .tagged _ d => prettyAt level d
  | d => scalar d

def prettyAll (level : Nat) : List Document → List String
  | [] => []
  | d :: ds => prettyAt level d :: prettyAll level ds

def prettyFields (level : Nat) : List (Document × Document) → List String
  | [] => []
  | (k, v) :: rest => (scalar k ++ ": " ++ prettyAt level v) :: prettyFields level rest

end

def write (d : Document) : String := compact d.finite

def writePretty (d : Document) : String := prettyAt 0 d.finite

end Json

end CommandGrammar
