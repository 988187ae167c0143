/-!
# Blank text

A key or a name needs a character that shows. `isBlankText` picks out the texts without one: those
made of white space only, the empty text among them.
-/

namespace CommandGrammar.Text

/-- White space as Unicode counts it: the 25 code points of the property `White_Space`. -/
def isBlank (c : Char) : Bool :=
  let n := c.toNat
  (9 ≤ n && n ≤ 13) || n == 0x20 || n == 0x85 || n == 0xA0 || n == 0x1680 ||
    (0x2000 ≤ n && n ≤ 0x200A) || n == 0x2028 || n == 0x2029 || n == 0x202F || n == 0x205F ||
    n == 0x3000

/-- No character of the text shows. -/
def isBlankText (s : String) : Bool :=
  s.toList.all isBlank

/-- The text without the white space at its end. -/
def trimEnd (s : String) : String :=
  String.ofList (s.toList.reverse.dropWhile isBlank).reverse

end CommandGrammar.Text
