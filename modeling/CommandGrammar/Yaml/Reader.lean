import CommandGrammar.Yaml.Node

/-!
# Documents from YAML text

A text holds one document. Every alias is replaced by the node that it stands for, which must be
finite: lists and records may be nested 128 deep, and the number of replacements is limited by the
size of the text.
-/

namespace CommandGrammar.Yaml

namespace Node

mutual

/-- The nodes with anchors, in the order in which they start. -/
def anchored : Node → List (Nat × Node)
  | reference _ => []
  | n@(scalar p ..) => (p.anchor.map fun a => (a, n)).toList
  | n@(list p items) => (p.anchor.map fun a => (a, n)).toList ++ anchoredItems items
  | n@(record p fields) => (p.anchor.map fun a => (a, n)).toList ++ anchoredFields fields

def anchoredItems : List Node → List (Nat × Node)
  | [] => []
  | n :: ns => n.anchored ++ anchoredItems ns

def anchoredFields : List (Node × Node) → List (Nat × Node)
  | [] => []
  | (k, v) :: rest => k.anchored ++ v.anchored ++ anchoredFields rest

end

mutual

/-- The number of scalars, aliases, and starts and ends of lists and records. -/
def size : Node → Nat
  | reference _ | scalar .. => 1
  | list _ items => sizeItems items + 2
  | record _ fields => sizeFields fields + 2

def sizeItems : List Node → Nat
  | [] => 0
  | n :: ns => n.size + sizeItems ns

def sizeFields : List (Node × Node) → Nat
  | [] => 0
  | (k, v) :: rest => k.size + v.size + sizeFields rest

end

/-- The document of a node's content. -/
def under (p : Properties) (d : Document) : Document :=
  match p.tag with
  | some tag => .tagged tag d
  | none => d

/-- What stands at a node: itself, or what an alias stands for. The state is the number of
replacements that are left. -/
def target (anchored : List (Nat × Node)) : Node → StateT Nat Option Node
  | reference a => do
    match ← get with
    | 0 => failure
    | left + 1 =>
      set left
      StateT.lift (anchored.lookup a)
  | n => pure n

/-- The document of a node in which at most `depth` lists and records are nested. -/
def toDocument (anchored : List (Nat × Node)) (depth : Nat) (n : Node) :
    StateT Nat Option Document := do
  match ← n.target anchored with
  | reference _ => failure
  | scalar p style s => return under p (.written style s)
  | list p items =>
    match depth with
    | 0 => failure
    | depth + 1 => return under p (.list (← items.mapM (toDocument anchored depth)))
  | record p fields =>
    match depth with
    | 0 => failure
    | depth + 1 =>
      return under p <| .record <| ← fields.mapM fun (k, v) => do
        return (← toDocument anchored depth k, ← toDocument anchored depth v)

end Node

/-- The number of replacements for each part of a text. -/
def replacementLimit : Nat := 100

/-- The document in a YAML text. -/
def read? (s : String) : Option Document := do
  let n ← Node.ofTokens? (← tokens? s)
  (n.toDocument n.anchored.reverse depthLimit).run' (replacementLimit * n.size)

end CommandGrammar.Yaml
