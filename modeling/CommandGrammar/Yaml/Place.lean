import CommandGrammar.Yaml.Character

/-!
# Characters and their places

A text is read as a list of characters that know their place, so that to look ahead or to cut is an
operation on lists. Every line break of one line becomes a line feed here, except that the two
separators of Unicode stay what they are.
-/

namespace CommandGrammar.Yaml

/-- A character of a text. -/
structure Placed where
  char : Char
  /-- The number of bytes before it in the text. -/
  offset : Nat
  line : Nat
  column : Nat
  deriving Repr

/-- The form that a line break is read in. -/
def normalBreak (c : Char) : Char :=
  if c == '\u2028' || c == '\u2029' then c else '\n'

/-- Places the characters from a position on. -/
def placeFrom (offset line column : Nat) : List Char → List Placed
  | [] => []
  | '\r' :: '\n' :: cs => ⟨'\n', offset, line, column⟩ :: placeFrom (offset + 2) (line + 1) 0 cs
  | c :: cs =>
    let next := offset + c.utf8Size
    if isBreak c then ⟨normalBreak c, offset, line, column⟩ :: placeFrom next (line + 1) 0 cs
    else ⟨c, offset, line, column⟩ :: placeFrom next line (column + 1) cs

/-- The characters of a text in their places. -/
def place? (s : String) : Option (List Placed) :=
  if s.toList.all isAllowed then some (placeFrom 0 0 0 s.toList) else none

/-- The first character of a text. -/
def next? (text : List Placed) : Option Char :=
  text.head?.map (·.char)

/-- The characters up to where a text first fails a test, and the text from there on. -/
def run (p : Char → Bool) (text : List Placed) : List Char × List Placed :=
  ((text.takeWhile fun x => p x.char).map (·.char), text.dropWhile fun x => p x.char)

def skip (p : Char → Bool) (text : List Placed) : List Placed :=
  text.dropWhile fun x => p x.char

/-- Moves over the rest of a line that holds nothing but a comment. -/
def skipComment? (text : List Placed) : Option (List Placed) :=
  let text := skip isBlank text
  let text := if next? text = some '#' then skip (!isBreak ·) text else text
  match text with
  | [] => some []
  | p :: rest => if isBreak p.char then some rest else none

/-- The mark at the start of a line that opens or ends a document, by its character. -/
def marker? : List Placed → Option Char
  | a :: b :: c :: rest =>
    if a.column == 0 && (a.char == '-' || a.char == '.') && b.char == a.char && c.char == a.char &&
        isGap (next? rest) then some a.char
    else none
  | _ => none

end CommandGrammar.Yaml
