import CommandGrammar.Decimal.Layout
import CommandGrammar.Document.Scalar
import CommandGrammar.Yaml.Character

/-!
# YAML text

Documents are written in block style: a field or an item on a line of its own, two more spaces for
each level, and the items of a list below a key no deeper than the key. Empty lists and records
are brackets.

A text is written as it is if it would be read back as that text. Otherwise it is put between
single quotes, or, if it holds characters that cannot be written, between double quotes with
escapes. A text with line feeds becomes a literal block where that keeps it as it is.
-/

namespace CommandGrammar.Yaml

/-- Numbers keep a fraction and have an exponent only if they are very large or very small. -/
def numberLayout : Layout where
  plain := some (-5, 15)
  wholeFraction := true
  plusExponent := false
  tie := .toEven
  nan := ".nan"
  infinity := ".inf"
  negativeInfinity := "-.inf"

/-- Pairs of neighbours. -/
def neighbours (cs : List Char) : List (Char × Char) :=
  cs.zip (cs.drop 1)

/-- Whether a line starts or ends with a space inside a text. -/
def hasSpaceAfterBreak (cs : List Char) : Bool :=
  (neighbours cs).any fun (a, b) => isBreak a && b == ' '

def hasSpaceBeforeBreak (cs : List Char) : Bool :=
  (neighbours cs).any fun (a, b) => a == ' ' && isBreak b

/-- Whether a text starts or ends with a space or a line break. -/
def hasOuterSpace (cs : List Char) : Bool :=
  let outer (c : Option Char) : Bool := c.any fun c => c == ' ' || isBreak c
  outer cs.head? || outer cs.getLast?

/-- Characters that start something else than a plain text. -/
def isLeadingIndicator (c : Char) : Bool :=
  "#,[]\x7b\x7d&*!|>'\"%@\x60".toList.contains c

/-- Whether a colon or a number sign in a text would end it or start a comment. -/
def hasInnerIndicator : Option Char → List Char → Bool
  | _, [] => false
  | before, c :: cs =>
    (c == ':' && isGap cs.head?) || (c == '#' && isGap before) || hasInnerIndicator (some c) cs

/-- Whether a text, written as it is, would be taken for something else. -/
def hasIndicator (cs : List Char) : Bool :=
  match cs with
  | [] => false
  | c :: rest =>
    isLeadingIndicator c || ((c == '?' || c == ':' || c == '-') && isGap rest.head?) ||
      "---".toList.isPrefixOf cs || "...".toList.isPrefixOf cs || hasInnerIndicator (some c) rest

/-- Whether a text can be written as it is. -/
def canBePlain (cs : List Char) : Bool :=
  !hasOuterSpace cs && !hasSpaceAfterBreak cs && !hasSpaceBeforeBreak cs && cs.all isPrintable &&
    !cs.any isBreak && !hasIndicator cs

/-- Whether a text can stand between single quotes. -/
def canBeSingle (cs : List Char) : Bool :=
  !hasSpaceAfterBreak cs && !hasSpaceBeforeBreak cs && cs.all isPrintable

/-- Whether a text can be a literal block. -/
def canBeLiteral (cs : List Char) : Bool :=
  cs.getLast? != some ' ' && !hasSpaceBeforeBreak cs && cs.all isPrintable

/-- Whether a plain scalar with this text would be read as a text. -/
def readsAsText (s : String) : Bool :=
  !Scalar.hasNeedlessZero s &&
    match Scalar.settlePlain s with
    | some (.text _) => true
    | _ => false

/-- The spaces in front of a line at a column. -/
def indentation (column : Nat) : String :=
  String.ofList (List.replicate column ' ')

/-- Lines of a text with each line, unless it is empty, at a column. `atStart` says that a line
starts here. -/
def indentLines (column : Nat) : Bool → List Char → String
  | _, [] => ""
  | atStart, c :: cs =>
    if isBreak c then String.ofList [c] ++ indentLines column true cs
    else
      (if atStart then indentation column else "") ++ String.ofList [c] ++
        indentLines column false cs

/-- A text between single quotes, in which a quote is doubled. -/
def singleQuoted (column : Nat) (cs : List Char) : String :=
  let body := cs.flatMap fun c => if c = '\'' then ['\'', '\''] else [c]
  "'" ++ indentLines column false body ++
    (if cs.getLast?.any isBreak then indentation column else "") ++ "'"

/-- At least `width` hexadecimal digits. -/
def hex (width n : Nat) : String :=
  let ds := (Nat.toDigits 16 n).map Char.toUpper
  String.ofList (List.replicate (width - ds.length) '0' ++ ds)

/-- The letter of an escape, for characters that have one. -/
def escapeLetter? (c : Char) : Option Char :=
  match c.toNat with
  | 0x00 => some '0'
  | 0x07 => some 'a'
  | 0x08 => some 'b'
  | 0x09 => some 't'
  | 0x0A => some 'n'
  | 0x0B => some 'v'
  | 0x0C => some 'f'
  | 0x0D => some 'r'
  | 0x1B => some 'e'
  | 0x22 => some '"'
  | 0x5C => some '\\'
  | 0x85 => some 'N'
  | 0xA0 => some '_'
  | 0x2028 => some 'L'
  | 0x2029 => some 'P'
  | _ => none

def escapeChar (c : Char) : String :=
  if isPrintable c && !isBreak c && c != '"' && c != '\\' then String.ofList [c]
  else
    match escapeLetter? c with
    | some l => String.ofList ['\\', l]
    | none =>
      if c.toNat ≤ 0xFF then "\\x" ++ hex 2 c.toNat
      else if c.toNat ≤ 0xFFFF then "\\u" ++ hex 4 c.toNat
      else "\\U" ++ hex 8 c.toNat

def doubleQuoted (cs : List Char) : String :=
  "\"" ++ String.join (cs.map escapeChar) ++ "\""

/-- The mark of a literal block: whether the first line starts with a space or is empty, and how
many line breaks end the text. -/
def literalMark (cs : List Char) : String :=
  let leading := if cs.head?.any fun c => c == ' ' || isBreak c then "2" else ""
  let trailing :=
    match cs.reverse with
    | [] => "-"
    | [c] => if isBreak c then "+" else "-"
    | c :: d :: _ => if !isBreak c then "-" else if isBreak d then "+" else ""
  "|" ++ leading ++ trailing

/-- A text whose further lines, if any, are at a column. -/
def textScalar (column : Nat) (s : String) : String :=
  let cs := s.toList
  if cs.contains '\n' then
    if canBeLiteral cs then literalMark cs ++ "\n" ++ indentLines column true cs
    else doubleQuoted cs
  else if readsAsText s && canBePlain cs then s
  else if canBeSingle cs then singleQuoted column cs
  else doubleQuoted cs

/-- A scalar, or brackets for an empty list or record. -/
def scalar (column : Nat) : Document → String
  | .null => "null"
  | .bool b => if b then "true" else "false"
  | .minusZero => "-0"
  | .integer n => toString n
  | .number x => numberLayout.write x
  | .text s | .written _ s => textScalar column s
  | .list _ => "[]"
  | .record _ => "\x7b\x7d"
  | .tagged .. => ""

/-- The longest key, in bytes, that stands in front of a colon. -/
def longestKey : Nat := 128

/-- Whether a key can stand on one line in front of a colon. -/
def isSimpleKey : Document → Bool
  | .text s => s.utf8ByteSize ≤ longestKey && !s.toList.any isBreak
  | .list _ | .record _ => false
  | _ => true

/-- Puts a line break between two pieces, unless the first one ends in one. -/
def joinLines (first second : String) : String :=
  if first.toList.getLast?.any isBreak then first ++ second else first ++ "\n" ++ second

/-- Pieces that each start a line at a column; the first line has started already. -/
def lines (column : Nat) : List String → String
  | [] => ""
  | [piece] => piece
  | piece :: rest => joinLines piece (indentation column ++ lines column rest)

mutual

/-- What follows the dash of an item, or another mark at a column. -/
def item (column : Nat) : Document → String
  | .record (f :: fs) => " " ++ lines (column + 2) (fields (column + 2) (f :: fs))
  | .list (d :: ds) => " " ++ lines (column + 2) (items (column + 2) (d :: ds))
  | .tagged _ d => item column d
  | d => " " ++ scalar (column + 2) d

/-- The items of a list at a column. -/
def items (column : Nat) : List Document → List String
  | [] => []
  | d :: ds => ("-" ++ item column d) :: items column ds

/-- What follows a key at a column. -/
def value (column : Nat) : Document → String
  | .record (f :: fs) =>
    "\n" ++ indentation (column + 2) ++ lines (column + 2) (fields (column + 2) (f :: fs))
  | .list (d :: ds) => "\n" ++ indentation column ++ lines column (items column (d :: ds))
  | .tagged _ d => value column d
  | d => " " ++ scalar (column + 2) d

/-- The fields of a record at a column. -/
def fields (column : Nat) : List (Document × Document) → List String
  | [] => []
  | (k, v) :: rest =>
    (if isSimpleKey k then scalar (column + 2) k ++ ":" ++ value column v
      else joinLines ("? " ++ scalar (column + 2) k) (indentation column ++ ":" ++ item column v)) ::
      fields column rest

end

/-- The text of a whole document. -/
def write (d : Document) : String :=
  let body :=
    match d with
    | .record (f :: fs) => lines 0 (fields 0 (f :: fs))
    | .list (d :: ds) => lines 0 (items 0 (d :: ds))
    | d => scalar 2 d
  joinLines body ""

end CommandGrammar.Yaml
