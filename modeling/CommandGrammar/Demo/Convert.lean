import CommandGrammar.Grammar.Encode
import CommandGrammar.Grammar.Text

/-!
# A scheme made from a grammar file

A program that converts files describes its command line in a grammar file. It prints its usage,
and then what it found on its command line.
-/

namespace CommandGrammar.Demo

/-- The grammar file of the program. -/
def convertText : String :=
  "\nprogram: convert\n" ++
  "help: true\n" ++
  "args:\n" ++
  "  - name: input\n" ++
  "    description: File to convert.\n" ++
  "flags:\n" ++
  "  - key: --format\n" ++
  "    policy: optional\n" ++
  "    description: Output format.\n" ++
  "    args:\n" ++
  "      - name: format\n" ++
  "        convert: \x7b type: choice, values: [json, yaml] \x7d\n" ++
  "  - exclusive: optional\n" ++
  "    members:\n" ++
  "      - key: --quiet\n" ++
  "        description: Print nothing.\n" ++
  "      - key: --verbose\n" ++
  "        description: Print every step.\n"

/-- Runs the program on the words after its name. -/
def runConvert (args : List String) : Exit :=
  match do (← Grammar.ofText .yaml convertText).build .empty with
  | .error e => ⟨1, "", e.message ++ "\n"⟩
  | .ok b =>
    let usage := b.session.usage ++ "\n"
    match b.parse args with
    | (_, .ok report) => ⟨0, usage ++ Json.writePretty report.toDocument ++ "\n", ""⟩
    | (b, .error e) => ⟨1, usage, b.session.failureReport e⟩

end CommandGrammar.Demo
