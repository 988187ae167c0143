/-!
# Words of a command

The words after the name of a command are read from the left, and the first that is out of place
or asks for help decides. An option has a value, which is attached to it by an equals sign or is the
next word; it is given once. A double dash makes everything after it plain words, whatever they look
like.
-/

namespace CommandGrammar

/-- Why no command is run. -/
inductive Stop where
  | misuse
  | help
  | version
  deriving DecidableEq, Repr

/-- What the words after a command can be. -/
structure Usable where
  /-- The options, each with a test of its values. -/
  options : List (String × (String → Bool))
  /-- The plain words that there may be before a double dash. -/
  plain : String → Bool

structure Words where
  verbose : Bool := false
  options : List (String × String) := []
  /-- The plain words before a double dash. -/
  plain : List String := []
  /-- The words after it. -/
  rest : List String := []
  deriving Repr

namespace Words

/-- The name of a long option, and the value that is attached to it. -/
def longOption? (word : String) : Option (String × Option String) :=
  match word.toList with
  | '-' :: '-' :: cs =>
    let value :=
      match cs.dropWhile (· != '=') with
      | [] => none
      | _ :: value => some (String.ofList value)
    some (String.ofList (cs.takeWhile (· != '=')), value)
  | _ => none

/-- Whether a word cannot be the value of the option before it. A dash alone can. -/
def isOption (word : String) : Bool :=
  match word.toList with
  | '-' :: _ :: _ => true
  | _ => false

/-- What a word stops that starts with one dash: the letter for help comes first in it, or it means
nothing. -/
def shortStop (word : String) : Stop :=
  match word.toList with
  | '-' :: 'h' :: _ => .help
  | _ => .misuse

/-- Adds the value of an option. -/
def addOption (w : Words) (name value : String) : Words :=
  { w with options := (name, value) :: w.options }

/-- Reads words after others. -/
def read (u : Usable) (w : Words) : List String → Except Stop Words
  | [] => .ok w
  | "--" :: rest => .ok { w with rest }
  | word :: rest =>
    match longOption? word with
    | some ("verbose", none) =>
      if w.verbose then .error .misuse else read u { w with verbose := true } rest
    | some ("help", none) => .error .help
    | some (name, value) =>
      match u.options.lookup name, w.options.lookup name with
      | some takes, none =>
        match value, rest with
        | some value, rest =>
          if takes value then read u (w.addOption name value) rest else .error .misuse
        | none, value :: rest =>
          if takes value && !isOption value then read u (w.addOption name value) rest
          else .error .misuse
        | none, [] => .error .misuse
      | _, _ => .error .misuse
    | none =>
      if isOption word then .error (shortStop word)
      else if u.plain word then read u { w with plain := w.plain ++ [word] } rest
      else .error .misuse

/-- The value of an option that must be given. -/
def required (w : Words) (option : String) : Except Stop String :=
  match w.options.lookup option with
  | some value => .ok value
  | none => .error .misuse

end Words

end CommandGrammar
