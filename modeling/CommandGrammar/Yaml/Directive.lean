import CommandGrammar.Yaml.Tag

/-!
# Directives

Lines in front of a document that start with a percent sign: one says which version of the
notation it is in, the others what the handles of its tags stand for.
-/

namespace CommandGrammar.Yaml

inductive Directive where
  | version
  | handle (name : String) (start : List UInt8)
  deriving Repr

/-- Reads a number of at most nine digits. -/
def versionNumber? (text : List Placed) : Option (Nat × List Placed) :=
  let (digits, rest) := run Char.isDigit text
  if digits.isEmpty || 9 < digits.length then none
  else some (digits.foldl (fun n c => n * 10 + (c.toNat - '0'.toNat)) 0, rest)

/-- Reads a version, which is 1.1 or 1.2. -/
def version? (text : List Placed) : Option (Directive × List Placed) := do
  let (major, rest) ← versionNumber? text
  guard (next? rest = some '.')
  let (minor, rest) ← versionNumber? rest.tail
  guard (major = 1 ∧ (minor = 1 ∨ minor = 2))
  return (.version, rest)

/-- Reads a handle and what it stands for. -/
def handleDefinition? (text : List Placed) : Option (Directive × List Placed) := do
  let (name, rest) ← handle? text
  guard (name = "!" ∨ isClosedHandle name)
  guard ((next? rest).any isBlank)
  let (cs, rest) := run isFullUriChar (skip isBlank rest)
  guard (!cs.isEmpty)
  guard (isGap (next? rest))
  return (.handle name (← uri? cs), rest)

/-- Reads a directive, after its percent sign, and the rest of its line. -/
def directive? (text : List Placed) : Option (Directive × List Placed) := do
  let (name, rest) := run isNameChar text
  guard (isGap (next? rest))
  let rest := skip isBlank rest
  let (d, rest) ← match String.ofList name with
    | "YAML" => version? rest
    | "TAG" => handleDefinition? rest
    | _ => none
  return (d, ← skipComment? rest)

/-- The handles that directives define. A version is given at most once, and so is a handle. -/
def handlesOf? (ds : List Directive) : Option (List (String × List UInt8)) :=
  let handles := ds.filterMap fun
    | .version => none
    | .handle name start => some (name, start)
  if ds.length ≤ handles.length + 1 ∧ (handles.map (·.1)).Nodup then some handles else none

end CommandGrammar.Yaml
