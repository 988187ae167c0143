import CommandGrammar.Document.Basic
import CommandGrammar.Text.Hex
import CommandGrammar.Yaml.Place

/-!
# Tags

A tag is written in full between angle brackets, or as a handle and what follows it. A handle
stands for the start of a tag; a document may define handles in front. Any byte of a tag may be
written as a percent sign and two hexadecimal digits, and the bytes of a longer character then
come one by one. So a tag is a list of bytes, and what they say is found at the end.
-/

namespace CommandGrammar.Yaml

/-- A character of a tag. -/
def isUriChar (c : Char) : Bool :=
  isNameChar c || ";/?:@&=+$.%!~*'()".toList.contains c

/-- A character of a tag that is written in full. -/
def isFullUriChar (c : Char) : Bool :=
  isUriChar c || c == ',' || c == '[' || c == ']'

/-- The number of bytes after the first of a character. -/
def bytesAfter? (n : Nat) : Option Nat :=
  if n < 0x80 then some 0
  else if 0xC0 ≤ n ∧ n < 0xE0 then some 1
  else if 0xE0 ≤ n ∧ n < 0xF0 then some 2
  else if 0xF0 ≤ n ∧ n < 0xF8 then some 3
  else none

/-- The bytes of a tag; `due` more of them belong to the character before. -/
def uriBytes? : Nat → List Char → Option (List UInt8)
  | 0, [] => some []
  | _ + 1, [] => none
  | due, '%' :: a :: b :: cs => do
    let n := (← hexDigit? a) * 16 + (← hexDigit? b)
    let due ← match due with
      | 0 => bytesAfter? n
      | due + 1 => if 0x80 ≤ n ∧ n < 0xC0 then some due else none
    return n.toUInt8 :: (← uriBytes? due cs)
  | 0, c :: cs => if c == '%' then none else return c.toNat.toUInt8 :: (← uriBytes? 0 cs)
  | _ + 1, _ :: _ => none

/-- The bytes of a tag up to a byte zero, which ends it. -/
def uri? (cs : List Char) : Option (List UInt8) :=
  (uriBytes? 0 cs).map fun bytes => bytes.takeWhile (· != 0)

/-- A tag as it is written. The handle is empty for a tag in full. -/
structure WrittenTag where
  handle : String
  suffix : List UInt8
  deriving Repr

def bytesOf (s : String) : List UInt8 :=
  s.toUTF8.data.toList

/-- Reads a handle, which starts with an exclamation mark and may end in one. -/
def handle? (text : List Placed) : Option (String × List Placed) :=
  match text with
  | p :: rest =>
    if p.char == '!' then
      let (name, rest) := run isNameChar rest
      if next? rest = some '!' then some (String.ofList ('!' :: name ++ ['!']), rest.tail)
      else some (String.ofList ('!' :: name), rest)
    else none
  | [] => none

/-- Whether a handle has an exclamation mark at both ends. -/
def isClosedHandle (handle : String) : Bool :=
  2 ≤ handle.length && handle.toList.getLast? == some '!'

/-- Reads a tag in full, after its opening bracket. -/
def fullTag? (text : List Placed) : Option (WrittenTag × List Placed) := do
  let (cs, rest) := run isFullUriChar text
  guard (!cs.isEmpty)
  guard (next? rest = some '>')
  return (⟨"", ← uri? cs⟩, rest.tail)

/-- Reads a tag that starts with a handle. A name without a second mark belongs to the tag. -/
def shortTag? (text : List Placed) : Option (WrittenTag × List Placed) := do
  let (handle, rest) ← handle? text
  let (cs, rest) := run isUriChar rest
  let suffix ← uri? cs
  if isClosedHandle handle then
    guard (!cs.isEmpty)
    return (⟨handle, suffix⟩, rest)
  else
    let suffix := bytesOf (String.ofList handle.toList.tail) ++ suffix
    return (if suffix.isEmpty then ⟨"", bytesOf "!"⟩ else ⟨"!", suffix⟩, rest)

/-- Reads the tag that a text starts with. A gap follows it or, inside brackets, a comma. -/
def tag? (inFlow : Bool) (text : List Placed) : Option (WrittenTag × List Placed) := do
  let (tag, rest) ← if next? text.tail = some '<' then fullTag? text.tail.tail else shortTag? text
  guard (isGap (next? rest) || (inFlow && next? rest == some ','))
  return (tag, rest)

/-- The start of the tags of the core schema. -/
def corePrefix : String := "tag:yaml.org,2002:"

/-- What the handles of every document stand for. -/
def commonHandles : List (String × List UInt8) :=
  [("!", bytesOf "!"), ("!!", bytesOf corePrefix)]

/-- The bytes of a tag, for the handles of a document. -/
def resolveTag? (handles : List (String × List UInt8)) (t : WrittenTag) : Option (List UInt8) :=
  if t.handle.isEmpty then some t.suffix
  else ((handles ++ commonHandles).lookup t.handle).map (· ++ t.suffix)

/-- The tags of the core schema that settle the type of a scalar. -/
def coreTags : List (List UInt8 × Tag) :=
  [("bool", Tag.bool), ("int", .integer), ("float", .number), ("null", .null)].map
    fun (name, tag) => (bytesOf (corePrefix ++ name), tag)

/-- What the bytes of a tag say. -/
def tagOf (bytes : List UInt8) : Tag :=
  match bytes with
  | [] => .other
  | first :: name =>
    if first = '!'.toUInt8 then
      match String.fromUTF8? ⟨(if name.isEmpty then bytes else name).toArray⟩ with
      | some name => .named name
      | none => .nameless
    else (coreTags.lookup bytes).getD .other

end CommandGrammar.Yaml
