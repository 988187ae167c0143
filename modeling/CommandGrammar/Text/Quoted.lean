import CommandGrammar.Text.Extender
import CommandGrammar.Text.Unseen

/-!
# Quoted text

How a text is shown to the maker of a program: between double quotes, with a backslash form for
quotes, backslashes and what would not show.
-/

namespace CommandGrammar.Text

/-- Whether a character is written by its number. An extender is, because it would join the mark in
front of it; but the voice marks of halfwidth letters keep a place of their own. -/
def isHidden (c : Char) : Bool :=
  isUnseen c || (isExtender c && c != '\uFF9E' && c != '\uFF9F')

/-- The hexadecimal digits of `n`, in lower case. -/
def hex (n : Nat) : String :=
  String.ofList (Nat.toDigits 16 n)

def quoteChar (c : Char) : String :=
  if c = '"' then "\\\""
  else if c = '\\' then "\\\\"
  else if c = '\x00' then "\\0"
  else if c = '\t' then "\\t"
  else if c = '\n' then "\\n"
  else if c = '\r' then "\\r"
  else if isHidden c then "\\u\x7b" ++ hex c.toNat ++ "\x7d"
  else String.ofList [c]

def quote (s : String) : String :=
  "\"" ++ String.join (s.toList.map quoteChar) ++ "\""

end CommandGrammar.Text
