import CommandGrammar.Yaml.Place

/-!
# Block scalars

A block scalar starts with a header line; its lines are indented to one column, which the header
gives relative to the lines around it or the first line that is not empty decides. In a literal
scalar line breaks are kept. In a folded one, a break between two lines that do not start with a
blank becomes a space, or is dropped if empty lines follow it. The header also says what happens
to the breaks at the end.
-/

namespace CommandGrammar.Yaml

/-- What becomes of the line breaks at the end of a block scalar. -/
inductive Chomping where
  | strip
  | clip
  | keep
  deriving DecidableEq

def chomping? : Char → Option Chomping
  | '-' => some .strip
  | '+' => some .keep
  | _ => none

structure BlockHeader where
  chomping : Chomping
  /-- By how much the lines are indented, if it is given. -/
  indent : Option Nat

/-- The digit of an indentation, which is not zero. -/
def indentDigit? (c : Char) : Option Nat :=
  if '1' ≤ c ∧ c ≤ '9' then some (c.toNat - '0'.toNat) else none

/-- Reads the marks of a header, which come in either order. -/
def blockMarks (text : List Placed) : BlockHeader × List Placed :=
  match text with
  | [] => (⟨.clip, none⟩, [])
  | p :: rest =>
    match chomping? p.char, indentDigit? p.char with
    | some c, _ =>
      match (next? rest).bind indentDigit? with
      | some n => (⟨c, some n⟩, rest.tail)
      | none => (⟨c, none⟩, rest)
    | none, some n =>
      match (next? rest).bind chomping? with
      | some c => (⟨c, some n⟩, rest.tail)
      | none => (⟨.clip, some n⟩, rest)
    | none, none => (⟨.clip, none⟩, text)

/-- The empty lines in front of a block scalar: their breaks, latest first, the last column of their
blanks, and the text after them. The blanks may not be tabs. -/
def emptyLines? : List Placed → List Char → Nat → Option (List Char × Nat × List Placed)
  | [], breaks, widest => some (breaks, widest, [])
  | p :: rest, breaks, widest =>
    if isBreak p.char then emptyLines? rest (p.char :: breaks) (max widest p.column)
    else if p.char == ' ' then emptyLines? rest breaks widest
    else if p.char == '\t' then none
    else some (breaks, max widest p.column, p :: rest)

/-- A block scalar as far as it has been read; characters come latest first. -/
structure BlockText where
  chars : List Char
  /-- The break after the last line, if there has been a line. -/
  lineBreak : List Char
  /-- The breaks of the empty lines after it. -/
  emptyBreaks : List Char
  /-- Whether the last line starts with a blank. -/
  afterBlank : Bool

namespace BlockText

/-- Joins the next line to what has been read. -/
def join (folded : Bool) (b : BlockText) (startsBlank : Bool) : List Char :=
  if folded && b.lineBreak == ['\n'] && !b.afterBlank && !startsBlank then
    if b.emptyBreaks.isEmpty then ' ' :: b.chars else b.emptyBreaks ++ b.chars
  else b.emptyBreaks ++ b.lineBreak ++ b.chars

/-- The text that has been read. -/
def finish (chomping : Chomping) (b : BlockText) : String :=
  String.ofList <| List.reverse <|
    match chomping with
    | .strip => b.chars
    | .clip => b.lineBreak ++ b.chars
    | .keep => b.emptyBreaks ++ b.lineBreak ++ b.chars

end BlockText

/-- Reads lines that are indented to a column; `inLine` says that the text starts within one. -/
def blockLines? (folded : Bool) (column : Nat) :
    List Placed → Bool → BlockText → Option (BlockText × List Placed)
  | [], _, b => some (b, [])
  | p :: rest, true, b =>
    if isBreak p.char then
      blockLines? folded column rest false { b with lineBreak := [p.char], emptyBreaks := [] }
    else blockLines? folded column rest true { b with chars := p.char :: b.chars }
  | p :: rest, false, b =>
    if isBreak p.char then
      blockLines? folded column rest false { b with emptyBreaks := p.char :: b.emptyBreaks }
    else if p.column < column then
      if p.char == ' ' then blockLines? folded column rest false b
      else if p.char == '\t' then none
      else some (b, p :: rest)
    else
      blockLines? folded column rest true
        ⟨p.char :: b.join folded (isBlank p.char), [], [], isBlank p.char⟩

/-- Reads what follows the mark of a block scalar. Its lines are indented at least to `margin`, and
an indentation in the header counts from `parent`. -/
def block? (folded : Bool) (parent margin : Nat) (text : List Placed) :
    Option (String × List Placed) := do
  let (header, text) := blockMarks text
  let text ← skipComment? text
  match header.indent with
  | some n =>
    let (b, rest) ← blockLines? folded (parent + n) text false ⟨[], [], [], false⟩
    return (b.finish header.chomping, rest)
  | none =>
    let (breaks, widest, text) ← emptyLines? text [] 0
    let column := max 1 (max margin widest)
    let (b, rest) ← blockLines? folded column text false ⟨[], [], breaks, false⟩
    return (b.finish header.chomping, rest)

end CommandGrammar.Yaml
