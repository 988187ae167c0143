import CommandGrammar.Yaml.Place

/-!
# Gaps between words

A scalar that is not in a block may go on over several lines. Between two words of one line, its
blanks are kept. Where a line ends, the blanks around the break are dropped and the break becomes
a space; of several breaks, the first is dropped and the others are kept.
-/

namespace CommandGrammar.Yaml

/-- What has been read since the last word of a scalar; characters come latest first. -/
inductive Gap where
  | blanks (cs : List Char)
  | breaks (first : Char) (more : List Char)
  /-- The breaks after one that is escaped. -/
  | escaped (more : List Char)

namespace Gap

def empty : Gap :=
  blanks []

def isEmpty : Gap → Bool
  | blanks [] => true
  | _ => false

/-- Whether a line has ended. -/
def isBroken : Gap → Bool
  | blanks _ => false
  | _ => true

def addBlank (c : Char) : Gap → Gap
  | blanks cs => blanks (c :: cs)
  | g => g

def addBreak (c : Char) : Gap → Gap
  | blanks _ => breaks c []
  | breaks first more => breaks first (c :: more)
  | escaped more => escaped (c :: more)

/-- What the scalar has in place of the gap, latest first. -/
def text : Gap → List Char
  | blanks cs => cs
  | breaks first more =>
    if first != '\n' then more ++ [first]
    else if more.isEmpty then [' ']
    else more
  | escaped more => more

end Gap

end CommandGrammar.Yaml
