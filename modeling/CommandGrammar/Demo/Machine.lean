import CommandGrammar.Pipeline.Conversion
import CommandGrammar.Pipeline.Range
import CommandGrammar.Session

/-!
# A scheme made by hand

A machine takes a power output and a speed, and may be given a file. The program says what it was
told, or ends with a report. The flag for the power has a trigger, whose note is printed as soon
as the flag has matched.
-/

namespace CommandGrammar.Demo

/-- The scheme of the machine, with what is asked of it after a pass. -/
structure Machine where
  scheme : Scheme
  watts : ArgId
  slow : FlagId
  medium : FlagId
  fast : FlagId
  filePath : ArgId

namespace Machine

def build (files : Files) : Except SchemeError Machine := do
  let (s, power, powerStore) ←
    ({} : Scheme).addComplexFlag Scheme.root "-p" .optional "Specify power output."
  let s ← s.setTrigger power fun _ => "Triggered power flag\n"
  let range : Range Int := ⟨0, 50, true, true⟩
  let (s, watts) ← s.addArg powerStore
    { name := "number_watts"
      policy := .mandatory
      description := "An integer representing the number of watts."
      pipeline := ((Pipeline.integer (Literal.int .i32)).andThen range.step).map (.int .i32) }
  let (s, _, speedStore) ←
    s.addComplexFlag Scheme.root "--speed" .mandatory "Specify the speed."
  let (s, speeds) ← s.addGroup speedStore .mandatory
  let (s, slow) ← s.addMember speeds "slow" ""
  let (s, medium) ← s.addMember speeds "medium" ""
  let (s, fast) ← s.addMember speeds "fast" ""
  let (s, _, fileStore) ←
    s.addComplexFlag Scheme.root "--file" .optional "Read the specified file."
  let (s, filePath) ← s.addArg fileStore
    { name := "file_path"
      policy := .mandatory
      description := "Path to an existing file."
      pipeline := (Pipeline.existingFile files).map .path }
  let (s, _) ← s.enableHelp
  return { scheme := s, watts, slow, medium, fast, filePath }

variable (m : Machine)

/-- What is printed after a pass that succeeded. -/
def summary (p : Pass) : String :=
  let power := (p.value? m.watts).map fun v => "Accepted power output of " ++ Shown.text v ++ " W\n"
  let speed :=
    if p.isMatched m.slow then "Running slowly.\n"
    else if p.isMatched m.medium then "Running normally.\n"
    else if p.isMatched m.fast then "Running fast.\n"
    else ""
  let file := (p.value? m.filePath).map fun v => "Reading " ++ Shown.text v ++ "\n"
  power.getD "" ++ speed ++ file.getD ""

/-- Runs the machine on a command line, the name of the program first. -/
def runOn (argv : List String) : Exit :=
  let (t, outcome) := ({ scheme := m.scheme } : Session).validateArgs argv
  let notes := String.join (t.pass.fired.map (·.note))
  match t.exit? outcome with
  | some e => { e with stdout := notes ++ e.stdout }
  | none => ⟨0, notes ++ m.summary t.pass, ""⟩

end Machine

/-- Runs the program of the machine on the words after its name. -/
def runMachine (files : Files) (args : List String) : Exit :=
  match Machine.build files with
  | .ok m => m.runOn ("power_speed" :: args)
  | .error e => ⟨1, "", e.message ++ "\n"⟩

end CommandGrammar.Demo
