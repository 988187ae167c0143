import CommandGrammar.Yaml.Scalar.Gap

/-!
# Plain scalars

A plain scalar ends before a comment, a colon that a gap follows, a line that is indented too little
and, inside brackets, before a comma or bracket. Inside brackets a colon next to one of these is an
error.
-/

namespace CommandGrammar.Yaml

/-- A comma, a bracket or a brace. -/
def isFlowIndicator (c : Char) : Bool :=
  c == ',' || c == '[' || c == ']' || c == '\x7b' || c == '\x7d'

/-- A character that may not follow a colon inside brackets. -/
def isAfterColon (c : Char) : Bool :=
  c == '?' || isFlowIndicator c

structure PlainScalar where
  text : String
  /-- Whether line breaks follow it. -/
  broken : Bool
  rest : List Placed

/-- Whether a character cannot go on with a plain scalar after the gap `g`. -/
def endsPlain (inFlow : Bool) (margin : Nat) (g : Gap) (p : Placed) (rest : List Placed) : Bool :=
  (g.isBroken && ((!inFlow && p.column < margin) || (marker? (p :: rest)).isSome)) ||
    (!g.isEmpty && p.char == '#') ||
    (p.char == ':' && isGap (next? rest)) ||
    (inFlow && isFlowIndicator p.char)

/-- Reads a plain scalar, of which `acc` has been read, latest first. Its lines are indented to the
column `margin`; a tab may not come before it. -/
def plainFrom? (inFlow : Bool) (margin : Nat) : List Placed → Gap → List Char → Option PlainScalar
  | [], g, acc => some ⟨String.ofList acc.reverse, g.isBroken, []⟩
  | p :: rest, g, acc =>
    if isBreak p.char then plainFrom? inFlow margin rest (g.addBreak p.char) acc
    else if isBlank p.char then
      if g.isBroken && p.char == '\t' && p.column < margin then none
      else plainFrom? inFlow margin rest (g.addBlank p.char) acc
    else if inFlow && p.char == ':' && (next? rest).any isAfterColon then none
    else if endsPlain inFlow margin g p rest then
      some ⟨String.ofList acc.reverse, g.isBroken, p :: rest⟩
    else plainFrom? inFlow margin rest .empty (p.char :: (g.text ++ acc))

/-- Reads the plain scalar that a text starts with. -/
def plain? (inFlow : Bool) (margin : Nat) (text : List Placed) : Option PlainScalar :=
  plainFrom? inFlow margin text .empty []

end CommandGrammar.Yaml
