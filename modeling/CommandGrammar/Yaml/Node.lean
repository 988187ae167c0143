import CommandGrammar.Yaml.Token

/-!
# YAML nodes

Tokens are read from the left with the open lists and records on a stack, the innermost first. A
node may be left out wherever a mark announces one; it is an empty scalar then. Some lists and
records end without a token of their own: those that the next token cannot go on with.

An anchor gets the number of different names before it, and an alias the number that its name has
then. A name may be given again, so two anchors can have one number: the later one counts.
-/

namespace CommandGrammar.Yaml

/-- What is written in front of a node. -/
structure Properties where
  anchor : Option Nat
  tag : Option Tag
  deriving Repr

namespace Properties

def none : Properties :=
  ⟨.none, .none⟩

def isNone (p : Properties) : Bool :=
  p.anchor.isNone && p.tag.isNone

end Properties

inductive Node where
  | reference (anchor : Nat)
  | scalar (p : Properties) (style : ScalarStyle) (s : String)
  | list (p : Properties) (items : List Node)
  | record (p : Properties) (fields : List (Node × Node))
  deriving Repr

namespace Node

/-- The node in place of one that is left out. -/
def missing (p : Properties) : Node :=
  scalar p .plain ""

end Node

/-- What an open record waits for. -/
inductive Slot where
  | key
  /-- A key without a value. -/
  | loneKey
  | value (key : Node)

/-- The fields of an open record, latest first. -/
structure Fields where
  complete : List (Node × Node)
  slot : Slot

namespace Fields

def none : Fields :=
  ⟨[], .key⟩

def put (f : Fields) (n : Node) : Fields :=
  match f.slot with
  | .key => ⟨f.complete, .value n⟩
  | .loneKey => ⟨(n, .missing .none) :: f.complete, .key⟩
  | .value k => ⟨(k, n) :: f.complete, .key⟩

end Fields

/-- An open list or record. What it holds comes latest first. -/
inductive Frame where
  | blockList (p : Properties) (items : List Node)
  /-- A list in the column of the record that it belongs to. -/
  | levelList (p : Properties) (items : List Node)
  | blockRecord (p : Properties) (fields : Fields)
  | flowList (p : Properties) (items : List Node)
  | flowRecord (p : Properties) (fields : Fields)
  /-- A record of one field, which stands in a list without brackets of its own. -/
  | pair (fields : Fields)

/-- What may come next. -/
inductive Expected where
  /-- A node with the properties that have been read. -/
  | node (p : Properties)
  /-- An entry of a list or record in brackets, or its end. -/
  | entry
  /-- What can follow a node. -/
  | more
  /-- Nothing but marks that end a document; the node is complete. -/
  | nothing (n : Node)

structure State where
  frames : List Frame
  expected : Expected
  handles : List (String × List UInt8)
  /-- The names of anchors, with the numbers that they stand for. -/
  anchors : List (String × Nat)

namespace State

/-- Goes on after a complete node. -/
def proceed (s : State) (frames : List Frame) : State :=
  { s with frames, expected := .more }

/-- Puts a complete node where it belongs. -/
def put (s : State) (frames : List Frame) (n : Node) : State :=
  match frames with
  | [] => { s with frames := [], expected := .nothing n }
  | .blockList p items :: rest => s.proceed (.blockList p (n :: items) :: rest)
  | .levelList p items :: rest => s.proceed (.levelList p (n :: items) :: rest)
  | .flowList p items :: rest => s.proceed (.flowList p (n :: items) :: rest)
  | .blockRecord p f :: rest => s.proceed (.blockRecord p (f.put n) :: rest)
  | .flowRecord p f :: rest => s.proceed (.flowRecord p (f.put n) :: rest)
  | .pair f :: rest =>
    match f.put n with
    | ⟨fields, .value k⟩ => s.proceed (.pair ⟨fields, .value k⟩ :: rest)
    | ⟨fields, _⟩ => s.put rest (.record .none fields)

/-- Puts an empty scalar in place of a node that is left out. -/
def putMissing (s : State) (p : Properties) : State :=
  s.put s.frames (.missing p)

/-- Waits for a node. -/
def await (s : State) (frames : List Frame) : State :=
  { s with frames, expected := .node .none }

/-- Whether a key of the innermost record has no value yet. -/
def valueDue (s : State) : Bool :=
  match s.frames with
  | .blockRecord _ ⟨_, .value _⟩ :: _ => true
  | .flowRecord _ ⟨_, .value _⟩ :: _ => true
  | .pair ⟨_, .value _⟩ :: _ => true
  | _ => false

/-- Leaves out the value of a key that is followed by something else than the mark of a value. -/
def leaveValue (s : State) (t : Token) : State :=
  if s.valueDue && !(t matches .value) then s.putMissing .none else s

/-- Ends what the next token cannot go on with. -/
def leave (s : State) (t : Token) : State :=
  match s.frames, t with
  | .levelList .. :: _, .item => s
  | .levelList p items :: rest, t => (s.put rest (.list p items.reverse)).leaveValue t
  | _, t => s.leaveValue t

/-- Ends the innermost list or record. -/
def close? (s : State) (t : Token) : Option State :=
  match s.frames, t with
  | .blockList p items :: rest, .closeBlock => some (s.put rest (.list p items.reverse))
  | .flowList p items :: rest, .closeList => some (s.put rest (.list p items.reverse))
  | .blockRecord p ⟨fields, .key⟩ :: rest, .closeBlock =>
    some (s.put rest (.record p fields.reverse))
  | .flowRecord p ⟨fields, .key⟩ :: rest, .closeRecord =>
    some (s.put rest (.record p fields.reverse))
  | _, _ => none

/-- Reads a token after a complete node. -/
def more? (s : State) (t : Token) : Option State :=
  let s := s.leave t
  match s.expected, s.frames, t with
  | .nothing _, _, .documentEnd => some s
  | _, .blockList .. :: _, .item => some (s.await s.frames)
  | _, .levelList .. :: _, .item => some (s.await s.frames)
  | _, .blockRecord _ ⟨_, .key⟩ :: _, .key => some (s.await s.frames)
  | _, .flowList .. :: _, .comma => some { s with expected := .entry }
  | _, .flowRecord _ ⟨_, .key⟩ :: _, .comma => some { s with expected := .entry }
  | _, _, .value => if s.valueDue then some (s.await s.frames) else none
  | _, _, t => s.close? t

/-- Whether the node that is wanted may be left out altogether in front of a token. -/
def allowsMissing (s : State) (t : Token) : Bool :=
  match s.frames with
  | .blockList .. :: _ => (t matches .item | .closeBlock)
  | .levelList .. :: _ => (t matches .item | .key | .value | .closeBlock)
  | .blockRecord .. :: _ => (t matches .key | .value | .closeBlock)
  | .flowRecord _ ⟨_, .key⟩ :: _ => (t matches .value | .comma | .closeRecord)
  | .flowRecord _ ⟨_, .value _⟩ :: _ => (t matches .comma | .closeRecord)
  | .pair ⟨_, .key⟩ :: _ => (t matches .value | .comma | .closeList)
  | .pair ⟨_, .value _⟩ :: _ => (t matches .comma | .closeList)
  | _ => false

/-- Reads a token in place of a node that is left out. In a list, a mark for a key that is left out
takes the token after it along. -/
def missing? (s : State) (t : Token) : Option State :=
  if s.allowsMissing t then
    match s.frames with
    | .pair ⟨_, .key⟩ :: _ => some (s.putMissing .none)
    | _ => (s.putMissing .none).more? t
  else none

/-- Whether lists and records may be written in columns. -/
def allowsBlock (s : State) : Bool :=
  match s.frames with
  | .flowList .. :: _ | .flowRecord .. :: _ | .pair .. :: _ => false
  | _ => true

/-- Adds an anchor to the properties of a node. -/
def addAnchor (s : State) (p : Properties) (name : String) : State :=
  let number := s.anchors.length
  { s with
    expected := .node { p with anchor := some number }
    anchors := (name, number) :: s.anchors.filter (·.1 != name) }

/-- Opens a list or record. -/
def enter (s : State) (f : Frame) (e : Expected) : State :=
  { s with frames := f :: s.frames, expected := e }

/-- Reads a token that starts the content of a node with properties. -/
def content? (s : State) (p : Properties) (t : Token) : Option State :=
  match s.frames, t with
  | _, .scalar style text => some (s.put s.frames (.scalar p style text))
  | _, .openList => some (s.enter (.flowList p []) .entry)
  | _, .openRecord => some (s.enter (.flowRecord p .none) .entry)
  | _, .openBlockList => if s.allowsBlock then some (s.enter (.blockList p []) .more) else none
  | _, .openBlockRecord =>
    if s.allowsBlock then some (s.enter (.blockRecord p .none) .more) else none
  | .blockRecord .. :: _, .item => some (s.enter (.levelList p []) (.node .none))
  | _, t => if p.isNone then s.missing? t else (s.putMissing p).more? t

/-- Reads a token of a node with properties. If it does not belong to the node, that is an empty
scalar, provided that there are properties. -/
def node? (s : State) (p : Properties) (t : Token) : Option State :=
  match t with
  | .anchor name => if p.anchor.isNone then some (s.addAnchor p name) else none
  | .tag w => do
    guard p.tag.isNone
    let bytes ← resolveTag? s.handles w
    return { s with expected := .node { p with tag := some (tagOf bytes) } }
  | .reference name => do
    guard p.isNone
    return s.put s.frames (.reference (← s.anchors.lookup name))
  | t => s.content? p t

/-- Reads a token where an entry in brackets may start. -/
def entry? (s : State) (t : Token) : Option State :=
  match s.frames, t with
  | .flowList .. :: _, .closeList => s.close? t
  | .flowRecord .. :: _, .closeRecord => s.close? t
  | .flowList .. :: _, .key => some (s.await (.pair .none :: s.frames))
  | .flowRecord .. :: _, .key => some (s.await s.frames)
  | .flowRecord p f :: rest, t =>
    { s with frames := .flowRecord p { f with slot := .loneKey } :: rest }.node? .none t
  | _, t => s.node? .none t

def step? (s : State) (t : Token) : Option State :=
  match s.expected with
  | .node p => s.node? p t
  | .entry => s.entry? t
  | .more | .nothing _ => s.more? t

/-- The node that has been read at the end of the tokens. One that would start there is empty. -/
def result? (s : State) : Option Node :=
  match s.frames, s.expected with
  | [], .nothing n => some n
  | [], .node p => some (.missing p)
  | _, _ => none

end State

namespace Node

/-- Reads what follows the start of a document. -/
def ofBody? (start : State) (body : List Token) : Option Node := do
  (← body.foldlM State.step? start).result?

/-- Reads the one document of a list of tokens. A document with directives has a mark where it
starts, and after such a mark the document may be empty. -/
def ofTokens? (ts : List Token) : Option Node := do
  let directives := ts.filterMap fun
    | .directive d => some d
    | _ => none
  let start : State := ⟨[], .node .none, ← handlesOf? directives, []⟩
  match ts.dropWhile (· matches .directive _) with
  | .documentStart :: .documentEnd :: body => ofBody? (start.putMissing .none) body
  | .documentStart :: body => ofBody? start body
  | body => if directives.isEmpty then ofBody? start body else none

end Node

end CommandGrammar.Yaml
