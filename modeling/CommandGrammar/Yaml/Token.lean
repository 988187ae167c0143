import CommandGrammar.Document.Basic
import CommandGrammar.Yaml.Directive
import CommandGrammar.Yaml.Scalar.Block
import CommandGrammar.Yaml.Scalar.Plain
import CommandGrammar.Yaml.Scalar.Quoted

/-!
# YAML tokens

Outside brackets, columns are the structure: a list or record goes on as long as its entries start
in its column, and tokens say where one opens and where it ends. A key need not be marked, so
where a key could start is kept in mind until a colon follows or its line is over; the mark and,
if it is the first of its record, the opening of the record are then put in front of it.
-/

namespace CommandGrammar.Yaml

inductive Token where
  | directive (d : Directive)
  | documentStart
  | documentEnd
  /-- The opening of a list or record whose entries stand in a column. -/
  | openBlockList
  | openBlockRecord
  | closeBlock
  | openList
  | closeList
  | openRecord
  | closeRecord
  | comma
  | item
  | key
  | value
  | reference (name : String)
  | anchor (name : String)
  | tag (t : WrittenTag)
  | scalar (style : ScalarStyle) (s : String)
  deriving Repr

/-- The start of what may turn out to be a key. -/
structure KeyStart where
  place : Placed
  /-- The number of tokens before it. -/
  token : Nat
  /-- Whether nothing but a key can stand there. -/
  required : Bool

/-- What the tokens read so far leave open. -/
structure Outline where
  tokens : Array Token
  /-- The columns of the open lists and records, the innermost first. -/
  columns : List Nat
  /-- Whether a key or an entry may start here. -/
  keyAllowed : Bool
  keyStart : Option KeyStart
  /-- The key starts outside each open bracket, the innermost first. -/
  outerKeyStarts : List (Option KeyStart)

/-- The number of bytes within which a key without a mark must end. -/
def keyLengthLimit : Nat := 1024

/-- The number of lists and records that may be nested. -/
def depthLimit : Nat := 128

/-- Whether a key is over where a character stands. -/
def KeyStart.isOver (k : KeyStart) (p : Placed) : Bool :=
  k.place.line < p.line || k.place.offset + keyLengthLimit < p.offset

namespace Outline

def empty : Outline :=
  ⟨#[], [], true, none, []⟩

def inFlow (l : Outline) : Bool :=
  !l.outerKeyStarts.isEmpty

/-- The first column inside the innermost list or record. -/
def margin (l : Outline) : Nat :=
  match l.columns with
  | [] => 0
  | c :: _ => c + 1

def push (l : Outline) (t : Token) : Outline :=
  { l with tokens := l.tokens.push t }

/-- Opens a list or record in a column, unless it is open there. -/
def openBlock (l : Outline) (column position : Nat) (t : Token) : Outline :=
  if !l.inFlow && l.margin ≤ column then
    { l with columns := column :: l.columns, tokens := l.tokens.insertIdxIfInBounds position t }
  else l

/-- Opens a list or record for the token that comes next. -/
def openBlockHere (l : Outline) (p : Placed) (t : Token) : Outline :=
  l.openBlock p.column l.tokens.size t

/-- Ends the lists and records whose columns come after the first `width` columns. -/
def closeBlocks (l : Outline) (width : Nat) : Outline :=
  if l.inFlow then l
  else
    let ended := l.columns.takeWhile (width ≤ ·)
    { l with
      columns := l.columns.dropWhile (width ≤ ·)
      tokens := l.tokens ++ ended.map fun _ => Token.closeBlock }

/-- Gives up the key that may have started, if that is possible. -/
def dropKey? (l : Outline) : Option Outline :=
  match l.keyStart with
  | some k => if k.required then none else some { l with keyStart := none }
  | none => some l

/-- Gives up every key that is over where a character stands. -/
def dropOverKeys? (l : Outline) (p : Placed) : Option Outline :=
  let ended (k : Option KeyStart) : Bool := k.any (·.isOver p)
  if (l.keyStart :: l.outerKeyStarts).any fun k => ended k && k.any (·.required) then none
  else
    some { l with
      keyStart := if ended l.keyStart then none else l.keyStart
      outerKeyStarts := l.outerKeyStarts.map fun k => if ended k then none else k }

/-- Notes that a key may start at a character. -/
def startKey? (l : Outline) (p : Placed) : Option Outline :=
  if l.keyAllowed then do
    let l ← l.dropKey?
    let required := !l.inFlow && l.columns.head? == some p.column
    return { l with keyStart := some ⟨p, l.tokens.size, required⟩ }
  else some l

/-- Says whether a key may come next. -/
def allowKey (l : Outline) (allowed : Bool) : Outline :=
  { l with keyAllowed := allowed }

/-- Leaves a document: nothing in it remains open. -/
def leaveDocument? (l : Outline) : Option Outline :=
  (l.closeBlocks 0).dropKey?.map (·.allowKey false)

/-- Opens a bracket, unless that is one too many. -/
def openBracket? (l : Outline) (p : Placed) (t : Token) : Option Outline := do
  guard (l.outerKeyStarts.length < depthLimit)
  let l ← l.startKey? p
  return { l with keyStart := none, outerKeyStarts := l.keyStart :: l.outerKeyStarts }
    |>.allowKey true |>.push t

def closeBracket? (l : Outline) (t : Token) : Option Outline := do
  let l ← l.dropKey?
  let l := match l.outerKeyStarts with
    | k :: ks => { l with keyStart := k, outerKeyStarts := ks }
    | [] => l
  return l.allowKey false |>.push t

def addComma? (l : Outline) : Option Outline := do
  return (← l.dropKey?).allowKey true |>.push .comma

def addItem? (l : Outline) (p : Placed) : Option Outline := do
  guard (l.inFlow || l.keyAllowed)
  return (← (l.openBlockHere p .openBlockList).dropKey?).allowKey true |>.push .item

def addKey? (l : Outline) (p : Placed) : Option Outline := do
  guard (l.inFlow || l.keyAllowed)
  return (← (l.openBlockHere p .openBlockRecord).dropKey?).allowKey (!l.inFlow) |>.push .key

/-- Adds a colon. What may have been a key is one then. -/
def addValue? (l : Outline) (p : Placed) : Option Outline :=
  match l.keyStart with
  | some k =>
    some <| { l with keyStart := none, tokens := l.tokens.insertIdxIfInBounds k.token .key }
      |>.openBlock k.place.column k.token .openBlockRecord
      |>.allowKey false |>.push .value
  | none => do
    guard (l.inFlow || l.keyAllowed)
    return l.openBlockHere p .openBlockRecord |>.allowKey (!l.inFlow) |>.push .value

/-- Adds a token that may be, or start, a key. -/
def addNode? (l : Outline) (p : Placed) (t : Token) : Option Outline := do
  return (← l.startKey? p).allowKey false |>.push t

end Outline

/-- Whether a character is a byte order mark at the start of a line, where it says nothing. -/
def Placed.isOrderMark (p : Placed) : Bool :=
  p.column == 0 && p.char == '\uFEFF'

/-- Moves to the next token: over blanks, comments and line breaks, after which a key may start
outside brackets. A tab is no blank where a key may start there. -/
def toToken (inFlow : Bool) : (keyAllowed inComment : Bool) → List Placed → Bool × List Placed
  | keyAllowed, _, [] => (keyAllowed, [])
  | keyAllowed, inComment, p :: rest =>
    if isBreak p.char then toToken inFlow (keyAllowed || !inFlow) false rest
    else if inComment || p.isOrderMark || p.char == ' ' ||
        (p.char == '\t' && (inFlow || !keyAllowed)) then
      toToken inFlow keyAllowed inComment rest
    else if p.char == '#' then toToken inFlow keyAllowed true rest
    else (keyAllowed, p :: rest)

/-- Reads the name of an anchor. A gap follows it, or one of a few marks. -/
def anchorName? (text : List Placed) : Option (String × List Placed) :=
  let (name, rest) := run isNameChar text
  let ends (c : Char) : Bool := "?:,]\x7d%@\x60".toList.contains c
  if !name.isEmpty && (isGap (next? rest) || (next? rest).any ends) then
    some (String.ofList name, rest)
  else none

namespace Outline

/-- Reads a plain scalar that starts with the character `p`. -/
def readPlain? (l : Outline) (p : Placed) (rest : List Placed) : Option (Outline × List Placed) := do
  let s ← plain? l.inFlow l.margin (p :: rest)
  return ((← l.addNode? p (.scalar .plain s.text)).allowKey s.broken, s.rest)

/-- Reads the token that starts with the character `p`. -/
def readAt? (l : Outline) (p : Placed) (rest : List Placed) : Option (Outline × List Placed) :=
  match p.char with
  | '[' => return (← l.openBracket? p .openList, rest)
  | '\x7b' => return (← l.openBracket? p .openRecord, rest)
  | ']' => return (← l.closeBracket? .closeList, rest)
  | '\x7d' => return (← l.closeBracket? .closeRecord, rest)
  | ',' => return (← l.addComma?, rest)
  | '-' =>
    if isGap (next? rest) then return (← l.addItem? p, rest) else l.readPlain? p rest
  | '?' =>
    if l.inFlow || isGap (next? rest) then return (← l.addKey? p, rest)
    else l.readPlain? p rest
  | ':' =>
    if l.inFlow || isGap (next? rest) then return (← l.addValue? p, rest)
    else l.readPlain? p rest
  | '*' => do
    let (name, rest) ← anchorName? rest
    return (← l.addNode? p (.reference name), rest)
  | '&' => do
    let (name, rest) ← anchorName? rest
    return (← l.addNode? p (.anchor name), rest)
  | '!' => do
    let (t, rest) ← tag? l.inFlow (p :: rest)
    return (← l.addNode? p (.tag t), rest)
  | '|' | '>' => do
    guard (!l.inFlow)
    let folded := p.char == '>'
    let (s, rest) ← block? folded (l.columns.headD 0) l.margin rest
    let t := Token.scalar (if folded then .quoted else .literal) s
    return ((← l.dropKey?).allowKey true |>.push t, rest)
  | '\'' | '"' => do
    let (s, rest) ← quoted? p.char rest
    return (← l.addNode? p (.scalar .quoted s), rest)
  | '#' | '%' | '@' | '\x60' | '\t' => none
  | _ => l.readPlain? p rest

/-- Reads the next token, which starts a text: a mark of a document or one inside it. -/
def read? (l : Outline) (p : Placed) (rest : List Placed) : Option (Outline × List Placed) := do
  let l ← l.dropOverKeys? p
  let l := l.closeBlocks (p.column + 1)
  if p.column = 0 ∧ p.char = '%' then
    let (d, rest) ← directive? rest
    return ((← l.leaveDocument?).push (.directive d), rest)
  else
    match marker? (p :: rest) with
    | some c =>
      let t := if c == '-' then Token.documentStart else .documentEnd
      return ((← l.leaveDocument?).push t, rest.drop 2)
    | none => l.readAt? p rest

/-- Reads a text of at most `n` tokens. -/
def tokensFrom? : Nat → Outline → List Placed → Option (Array Token)
  | 0, _, _ => none
  | n + 1, l, text =>
    match toToken l.inFlow l.keyAllowed false text with
    | (_, []) => l.leaveDocument?.map (·.tokens)
    | (allowed, p :: rest) => do
      let (l, rest) ← (l.allowKey allowed).read? p rest
      tokensFrom? n l rest

end Outline

/-- The tokens of a text. There are not more of them than characters. -/
def tokens? (s : String) : Option (List Token) := do
  let text ← place? s
  return (← Outline.empty.tokensFrom? (text.length + 1) text).toList

end CommandGrammar.Yaml
