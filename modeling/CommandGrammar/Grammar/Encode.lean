import CommandGrammar.Document.Basic
import CommandGrammar.Grammar.Basic
import CommandGrammar.Grammar.Build

/-!
# Grammars and reports as documents

Fields come in the order in which they are declared. The name of a program, arguments and flags are
left out when there are none; everything else is written, defaults too.
-/

namespace CommandGrammar

def Value.toDocument : Value → Document
  | .int _ n => .integer n
  | .float x => .number x
  | .bool b => .bool b
  | .char c => .text (String.ofList [c])
  | .text s | .path s => .text s

def Policy.toDocument (p : Policy) : Document := .text p.name

namespace Converter

def optional {α : Type} (f : α → Document) : Option α → Document
  | none => .null
  | some a => f a

/-- The settings of a converter with bounds. -/
def boundFields {α : Type} (f : α → Document) (b : Bounds α) : List (String × Document) :=
  [("min", optional f b.min), ("max", optional f b.max), ("min_inclusive", .bool b.minInclusive),
    ("max_inclusive", .bool b.maxInclusive)]

def toDocument : Converter → Document
  | text => .object [("type", .text "text")]
  | integer b => .object (("type", .text "integer") :: boundFields .integer b)
  | unsigned b => .object (("type", .text "unsigned") :: boundFields .integer b)
  | number b => .object (("type", .text "number") :: boundFields .number b)
  | choice values =>
    .object [("type", .text "choice"), ("values", .list (values.map .text))]
  | existingFile => .object [("type", .text "existing_file")]
  | existingDirectory => .object [("type", .text "existing_dir")]

end Converter

def ArgSpec.toDocument (a : ArgSpec) : Document :=
  .object [("name", .text a.name), ("policy", a.policy.toDocument),
    ("description", .text a.description), ("convert", a.converter.toDocument)]

/-- A field for a list, if there is anything in it. -/
def listField (name : String) (items : List Document) : List (String × Document) :=
  if items.isEmpty then [] else [(name, .list items)]

namespace FlagEntry

mutual

def toDocument : FlagEntry → Document
  | .flag policy ⟨key, description, args, flags⟩ =>
    .object ([("key", .text key), ("policy", policy.toDocument),
      ("description", .text description)] ++ listField "args" (args.map ArgSpec.toDocument) ++
      listField "flags" (listToDocuments flags))
  | .group policy members =>
    .object [("exclusive", policy.toDocument), ("members", .list (membersToDocuments members))]

def memberToDocument : FlagSpec → Document
  | ⟨key, description, args, flags⟩ =>
    .object ([("key", .text key), ("description", .text description)] ++
      listField "args" (args.map ArgSpec.toDocument) ++ listField "flags" (listToDocuments flags))

def listToDocuments : List FlagEntry → List Document
  | [] => []
  | e :: es => toDocument e :: listToDocuments es

def membersToDocuments : List FlagSpec → List Document
  | [] => []
  | spec :: specs => memberToDocument spec :: membersToDocuments specs

end

end FlagEntry

def Grammar.toDocument (g : Grammar) : Document :=
  .object ((g.program.map fun p => ("program", Document.text p)).toList ++
    [("help", .bool g.help)] ++
    listField "args" (g.args.map ArgSpec.toDocument) ++
    listField "flags" (FlagEntry.listToDocuments g.flags))

def Report.toDocument (r : Report) : Document :=
  .object [("help_requested", .bool r.helpRequested), ("flags", .list (r.flags.map .text)),
    ("values", .object (r.values.entries.map fun (name, v) => (name, v.toDocument))),
    ("choices", .object (r.choices.entries.map fun (name, key) => (name, .text key)))]

end CommandGrammar
