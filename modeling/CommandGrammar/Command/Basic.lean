import CommandGrammar.Command.Words
import CommandGrammar.Grammar.Text

/-!
# Commands

The tool works on grammar files: it checks a command line against one, shows the usage of one, or
says whether some of them can be used.
-/

namespace CommandGrammar

inductive Command where
  | check (path : String) (format : Format) (tokens : List String)
  | usage (path : String)
  | validate (paths : List String)
  deriving DecidableEq, Repr

namespace Command

/-- A path that may be given. -/
def isPath (word : String) : Bool :=
  !word.isEmpty

/-- The option for the path of a grammar. -/
def grammarOption : String × (String → Bool) :=
  ("grammar", isPath)

def formatNames : List (String × Format) := [("json", .json), ("yaml", .yaml)]

/-- The option for the format of a report. -/
def formatOption : String × (String → Bool) :=
  ("format", fun word => (formatNames.lookup word).isSome)

/-- The format of a report; without a choice it is JSON. -/
def reportFormat (w : Words) : Format :=
  ((w.options.lookup formatOption.1).bind fun word => formatNames.lookup word).getD .json

/-- The names that may stand in front of words. -/
def names : List String := ["check", "usage", "validate", "help"]

/-- What asking for help comes to, which is about the tool or about one name. -/
def helpStop : List String → Stop
  | [] => .help
  | [name] => if names.contains name then .help else .misuse
  | _ => .misuse

/-- The command of a name, with the words after it. -/
def ofWords (name : String) (words : List String) : Except Stop Command :=
  match name with
  | "check" => do
    let w ← Words.read ⟨[grammarOption, formatOption], fun _ => false⟩ {} words
    return .check (← w.required grammarOption.1) (reportFormat w) w.rest
  | "usage" => do
    let w ← Words.read ⟨[grammarOption], fun _ => false⟩ {} words
    let path ← w.required grammarOption.1
    if w.rest.isEmpty then return .usage path else throw .misuse
  | "validate" => do
    let w ← Words.read ⟨[], isPath⟩ {} words
    let paths := w.plain ++ w.rest
    if !paths.isEmpty && paths.all isPath then return .validate paths else throw .misuse
  | "help" => .error (helpStop words)
  | _ => .error .misuse

/-- The command in the words after the name of the tool. What the tool has to say is accepted in
front of the command once. -/
def ofArgs : List String → Except Stop Command
  | [] => .error .misuse
  | "--verbose" :: words =>
    match words with
    | [] | "--verbose" :: _ => .error .misuse
    | _ => ofArgs words
  | "--version" :: _ => .error .version
  | "--help" :: _ => .error .help
  | word :: words =>
    match word.toList with
    | '-' :: 'V' :: _ => .error .version
    | _ => if Words.isOption word then .error (Words.shortStop word) else ofWords word words

end Command

end CommandGrammar
