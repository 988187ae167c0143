import CommandGrammar.Pass.Reading
import CommandGrammar.Scheme.Registration
import CommandGrammar.Scheme.Usage
import CommandGrammar.Text.Quoted

/-!
# Sessions

A session is a scheme in use: it has the name of the program, it remembers what the last pass found,
and it says whether a failure is handed back or ends the program.
-/

namespace CommandGrammar

/-- What becomes of a failure. -/
inductive ErrorMode where
  /-- It is printed, and the program ends. -/
  | exit
  | return
  deriving DecidableEq, Repr

def ErrorMode.name : ErrorMode → String
  | .exit => "exit"
  | .return => "return"

structure Session where
  scheme : Scheme := {}
  program : String := ""
  errorMode : ErrorMode := .exit
  pass : Pass := {}

/-- A program that ends: its exit code and what it printed. -/
structure Exit where
  code : Nat
  stdout : String
  stderr : String
  deriving DecidableEq, Repr

namespace Session

variable (t : Session)

def reset : Session := { t with pass := {} }

/-- Reads a command line without the name of the program. What an earlier pass found is forgotten.
-/
def parse (tokens : List String) : Session × Except ParseError Scheme.Outcome :=
  let (pass, outcome) := t.scheme.parse tokens
  ({ t with pass }, outcome)

/-- Reads a command line whose first word, if there is one, names the program from now on. -/
def validateArgs (argv : List String) : Session × Except ParseError Scheme.Outcome :=
  match argv with
  | [] => t.parse []
  | program :: tokens => { t with program }.parse tokens

def usageSummary : String := t.scheme.usageSummary t.program

def usageHelp : String := t.scheme.usageHelp

def usage : String := t.scheme.usage t.program

/-- What is printed on a failure: the error, the command line as far as it was read, and the
usage. -/
def failureReport (e : ParseError) : String :=
  "Error: " ++ e.message ++ "\nSuccessfully parsed: " ++
    String.join (t.program :: t.pass.consumed.map (" " ++ ·)) ++ "\n\n" ++ t.usage

/-- How the program ends after a pass, if it does: with the usage when help was asked for, with a
report on a failure. -/
def exit? (outcome : Except ParseError Scheme.Outcome) : Option Exit :=
  match t.errorMode, outcome with
  | .return, _ => none
  | .exit, .ok .parsed => none
  | .exit, .ok .help => some ⟨0, t.usage, ""⟩
  | .exit, .error e => some ⟨1, "", t.failureReport e⟩

/-- The value of an argument, read as a type. -/
def valueAs? (id : ArgId) (type : ValueType) : Option Value :=
  (t.pass.value? id).bind (Value.asType? type)

/-- The key of the member used in a group. -/
def chosenKey? (group : GroupId) : Option String :=
  (t.pass.chosen? group).bind t.scheme.key?

/-- A summary of the session for its maker. -/
def describe : String :=
  let mode :=
    match t.errorMode with
    | .exit => "Exit"
    | .return => "Return"
  "Parser \x7b program: " ++ Text.quote t.program ++
    ", stores: " ++ toString t.scheme.stores.length ++
    ", flags: " ++ toString t.scheme.flags.length ++
    ", groups: " ++ toString t.scheme.groups.length ++
    ", positionals: " ++ toString t.scheme.args.length ++
    ", error_mode: " ++ mode ++ ", .. \x7d"

end Session

end CommandGrammar
