import CommandGrammar.Command.Basic
import CommandGrammar.Grammar.Encode

/-!
# Running commands

A command reads the files that it needs and ends with what it prints. A grammar that cannot be used
ends it with a message; so does a command line that does not fit a grammar, with a report.
-/

namespace CommandGrammar

namespace Command

/-- Builds the grammar in a file. -/
def build (files : Files) (path : String) : Except Exit BuiltGrammar := do
  let built := do (← Grammar.load files path).build files
  built.mapError fun e => ⟨1, "", "error: " ++ path ++ ": " ++ e.message ++ "\n"⟩

/-- The name of the program for a check: what the grammar says, or the name of its file. -/
def programName (b : BuiltGrammar) (path : String) : String :=
  if b.session.program = "" then (Files.stem? path).getD "" else b.session.program

def reportText (format : Format) (r : Report) : String :=
  Text.trimEnd (format.write r.toDocument) ++ "\n"

/-- Checks a command line against a built grammar. -/
def checkWith (b : BuiltGrammar) (program : String) (format : Format) (tokens : List String) :
    Exit :=
  let b := b.withErrorMode .exit
  let result := b.session.validateArgs (program :: tokens)
  match result.1.exit? result.2, (b.conclude result).2 with
  | some e, _ => e
  | none, .ok report => ⟨0, reportText format report, ""⟩
  | none, .error e => ⟨1, "", "error: " ++ e.message ++ "\n"⟩

def run (files : Files) : Command → Exit
  | check path format tokens =>
    match build files path with
    | .error e => e
    | .ok b => checkWith b (programName b path) format tokens
  | usage path =>
    match build files path with
    | .error e => e
    | .ok b => ⟨0, b.session.usage, ""⟩
  | validate paths =>
    match paths.mapM (build files) with
    | .error e => e
    | .ok built => ⟨0, "Validated " ++ toString built.length ++ " grammar file(s).\n", ""⟩

end Command

/-- How the tool ends without running a command. -/
def Stop.exit : Stop → Exit
  | .version => ⟨0, "argtree 0.1.0\n", ""⟩
  | .help => ⟨0, synopsis, ""⟩
  | .misuse => ⟨2, "", "error: this is not a command\n\n" ++ synopsis⟩
where
  synopsis : String :=
    "Usage: argtree check --grammar <GRAMMAR> [--format json|yaml] [-- <TOKENS>...]\n" ++
    "       argtree usage --grammar <GRAMMAR>\n" ++
    "       argtree validate <INPUTS>...\n"

/-- Runs the tool on the words after its name. -/
def runTool (files : Files) (args : List String) : Exit :=
  match Command.ofArgs args with
  | .ok command => command.run files
  | .error stop => stop.exit

end CommandGrammar
