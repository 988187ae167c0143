import CommandGrammar.Files.Tree
import CommandGrammar.Grammar.Decode
import CommandGrammar.Grammar.Encode
import CommandGrammar.Json.Printer
import CommandGrammar.Json.Reader
import CommandGrammar.Yaml.Printer
import CommandGrammar.Yaml.Reader

/-!
# Grammar files

Grammars are kept in files of two formats, told apart by the extension of the path. The format is
decided before the file is looked at.
-/

namespace CommandGrammar

inductive Format where
  | json
  | yaml
  deriving DecidableEq, Repr

namespace Format

/-- The format of a file, by the extension of its path. -/
def ofPath? (path : String) : Option Format :=
  match Files.extension? path with
  | some "json" => some json
  | some "yaml" | some "yml" => some yaml
  | _ => none

/-- The error for a text that cannot be decoded. -/
def fault : Format → GrammarError
  | json => .json
  | yaml => .yaml

/-- What the format grants to records. -/
def rules : Format → Document.Rules
  | json => .typed
  | yaml => .untyped

def read? : Format → String → Option Document
  | json => Json.read?
  | yaml => Yaml.read?

def write : Format → Document → String
  | json => Json.writePretty
  | yaml => Yaml.write

/-- Decodes what a text describes. -/
def decode {α : Type} (f : Format) (ofDocument? : Document.Rules → Document → Option α)
    (s : String) : Except GrammarError α :=
  match (f.read? s).bind (ofDocument? f.rules) with
  | some a => .ok a
  | none => .error f.fault

end Format

def Policy.ofText (f : Format) (s : String) : Except GrammarError Policy :=
  f.decode Policy.ofDocument? s

def Converter.ofText (f : Format) (s : String) : Except GrammarError Converter :=
  f.decode Converter.ofDocument? s

namespace Grammar

def ofText (f : Format) (s : String) : Except GrammarError Grammar :=
  f.decode ofDocument? s

def toText (f : Format) (g : Grammar) : String :=
  f.write g.toDocument

/-- The format for a path. -/
def formatOf (path : String) : Except GrammarError Format :=
  match Format.ofPath? path with
  | some f => .ok f
  | none => .error (.unsupportedFormat path)

/-- Loads a grammar from a file. A directory can be opened, but holds no text. -/
def load (files : Files) (path : String) : Except GrammarError Grammar := do
  let f ← formatOf path
  match files.look path with
  | .error fault => .error (.io fault)
  | .ok .directory => .error f.fault
  | .ok (.file content) =>
    match String.fromUTF8? content with
    | none => .error f.fault
    | some s => ofText f s

/-- Saves a grammar to a file of a directory tree. -/
def save (g : Grammar) (tree : Files.Tree) (path : String) : Except GrammarError Files.Tree := do
  let f ← formatOf path
  (tree.write path (g.toText f).toUTF8).mapError .io

end Grammar

end CommandGrammar
