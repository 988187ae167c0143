import CommandGrammar.Json.Token

/-!
# Documents from JSON text

Tokens are read from the left with the open lists and records on a stack, the innermost first. The
text must hold one value, and lists and records may be nested 127 deep.
-/

namespace CommandGrammar.Json

/-- A list or record that is still open. What it holds comes latest first; a record can have a key
that waits for its value. -/
inductive Frame where
  | list (items : List Document)
  | record (fields : List (Document × Document)) (key : String)

/-- What may come next. -/
inductive Expected where
  | value
  | valueOrClose
  | key
  | keyOrClose
  | colon
  | commaOrClose
  /-- The text must end; the value is complete. -/
  | nothing (d : Document)

structure State where
  frames : List Frame
  expected : Expected

/-- The number of levels that are too many. -/
def depthLimit : Nat := 128

/-- Puts a complete value where it belongs. -/
def State.put (frames : List Frame) (d : Document) : State :=
  match frames with
  | [] => ⟨[], .nothing d⟩
  | .list items :: rest => ⟨.list (d :: items) :: rest, .commaOrClose⟩
  | .record fields key :: rest => ⟨.record ((.text key, d) :: fields) "" :: rest, .commaOrClose⟩

/-- Opens a list or record. -/
def State.enter? (frames : List Frame) (f : Frame) (e : Expected) : Option State :=
  if frames.length + 1 < depthLimit then some ⟨f :: frames, e⟩ else none

/-- Closes the innermost list or record. -/
def State.leave? (frames : List Frame) (t : Token) : Option State :=
  match frames, t with
  | .list items :: rest, .closeList => some (.put rest (.list items.reverse))
  | .record fields _ :: rest, .closeRecord => some (.put rest (.record fields.reverse))
  | _, _ => none

/-- Reads a token where a value is wanted. -/
def State.value? (frames : List Frame) : Token → Option State
  | .text s => some (.put frames (.text s))
  | .scalar d => some (.put frames d)
  | .openList => State.enter? frames (.list []) .valueOrClose
  | .openRecord => State.enter? frames (.record [] "") .keyOrClose
  | _ => none

def State.step? (s : State) (t : Token) : Option State :=
  match s.expected, t with
  | .value, t => State.value? s.frames t
  | .valueOrClose, .closeList => State.leave? s.frames .closeList
  | .valueOrClose, t => State.value? s.frames t
  | .keyOrClose, .closeRecord => State.leave? s.frames .closeRecord
  | .key, .text key | .keyOrClose, .text key =>
    match s.frames with
    | .record fields _ :: rest => some ⟨.record fields key :: rest, .colon⟩
    | _ => none
  | .colon, .colon => some ⟨s.frames, .value⟩
  | .commaOrClose, .comma =>
    match s.frames with
    | .list _ :: _ => some ⟨s.frames, .value⟩
    | .record _ _ :: _ => some ⟨s.frames, .key⟩
    | [] => none
  | .commaOrClose, t => State.leave? s.frames t
  | _, _ => none

/-- The document in a JSON text. -/
def read? (s : String) : Option Document := do
  let tokens ← tokens? s
  match ← tokens.foldlM State.step? ⟨[], .value⟩ with
  | ⟨[], .nothing d⟩ => some d
  | _ => none

end CommandGrammar.Json
