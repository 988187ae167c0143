import CommandGrammar.Grammar.Converter
import CommandGrammar.Grammar.Table
import CommandGrammar.Session

/-!
# Building grammars

Building registers everything that a grammar describes, in the order in which it is written, and
notes the path of every node: the keys of the flags above it, then its own key or name. The path
of a group ends in the keys of its members. A report tells by path what a pass found.
-/

namespace CommandGrammar

/-- The keys that lead to a node, and its own. -/
abbrev NodePath := List String

def NodePath.text (p : NodePath) : String :=
  "/".intercalate p

/-- A scheme in the making and the paths of its nodes so far. -/
structure Draft where
  scheme : Scheme := {}
  flags : List (NodePath × FlagId) := []
  args : List (NodePath × ArgId) := []
  groups : List (NodePath × GroupId) := []

namespace Draft

/-- A registration on behalf of a grammar. -/
def register {α : Type} (r : Except SchemeError α) : Except GrammarError α :=
  r.mapError .scheme

def addArgs (files : Files) (store : StoreId) (parent : NodePath) (d : Draft) :
    List ArgSpec → Except GrammarError Draft
  | [] => .ok d
  | arg :: args => do
    let pipeline ← arg.converter.pipeline files arg.name
    let (scheme, id) ← register (d.scheme.addArg store
      { name := arg.name, policy := arg.policy, description := arg.description, pipeline })
    let d := { d with scheme, args := d.args ++ [(parent ++ [arg.name], id)] }
    addArgs files store parent d args

/-- Notes a flag that was just added. -/
def noteFlag (d : Draft) (scheme : Scheme) (path : NodePath) (id : FlagId) : Draft :=
  { d with scheme, flags := d.flags ++ [(path, id)] }

mutual

/-- Adds the entries of a scope to its store. -/
def addEntries (files : Files) (store : StoreId) (parent : NodePath) (d : Draft) :
    List FlagEntry → Except GrammarError Draft
  | [] => .ok d
  | e :: es => do
    let d ← addEntry files store parent d e
    addEntries files store parent d es

def addEntry (files : Files) (store : StoreId) (parent : NodePath) (d : Draft) :
    FlagEntry → Except GrammarError Draft
  | .flag policy ⟨key, description, args, flags⟩ => do
    let path := parent ++ [key]
    if (FlagSpec.mk key description args flags).isComplex then
      let (scheme, id, children) ← register (d.scheme.addComplexFlag store key policy description)
      let d ← addArgs files children path (d.noteFlag scheme path id) args
      addEntries files children path d flags
    else
      let (scheme, id) ← register (d.scheme.addFlag store key policy description)
      return d.noteFlag scheme path id
  | .group policy members => do
    let (scheme, id) ← register (d.scheme.addGroup store policy)
    let label := parent ++ ["|".intercalate (members.map (·.key))]
    addMembers files id parent { d with scheme, groups := d.groups ++ [(label, id)] } members

/-- Adds the members of a group. -/
def addMembers (files : Files) (group : GroupId) (parent : NodePath) (d : Draft) :
    List FlagSpec → Except GrammarError Draft
  | [] => .ok d
  | spec :: specs => do
    let d ← addMember files group parent d spec
    addMembers files group parent d specs

def addMember (files : Files) (group : GroupId) (parent : NodePath) (d : Draft) :
    FlagSpec → Except GrammarError Draft
  | ⟨key, description, args, flags⟩ => do
    let path := parent ++ [key]
    if (FlagSpec.mk key description args flags).isComplex then
      let (scheme, id, children) ← register (d.scheme.addComplexMember group key description)
      let d ← addArgs files children path (d.noteFlag scheme path id) args
      addEntries files children path d flags
    else
      let (scheme, id) ← register (d.scheme.addMember group key description)
      return d.noteFlag scheme path id

end

end Draft

/-- What a pass found, by path. -/
structure Report where
  helpRequested : Bool
  /-- The flags that matched, in the order in which the grammar declares them. -/
  flags : List String
  values : Table Value
  choices : Table String
  deriving Repr, BEq

/-- A session with the paths of its nodes. -/
structure BuiltGrammar where
  session : Session
  flags : List (NodePath × FlagId)
  args : List (NodePath × ArgId)
  groups : List (NodePath × GroupId)

namespace Grammar

/-- Builds a session that hands failures back. -/
def build (files : Files) (g : Grammar) : Except GrammarError BuiltGrammar := do
  let d ← Draft.addArgs files Scheme.root [] {} g.args
  let d ← Draft.addEntries files Scheme.root [] d g.flags
  let scheme ←
    if g.help then
      let (scheme, _) ← Draft.register d.scheme.enableHelp
      pure scheme
    else pure d.scheme
  return {
    session := { scheme, program := g.program.getD "", errorMode := .return }
    flags := d.flags
    args := d.args
    groups := d.groups }

end Grammar

namespace BuiltGrammar

variable (b : BuiltGrammar)

def report (outcome : Scheme.Outcome) : Report :=
  let pass := b.session.pass
  { helpRequested := outcome = .help
    flags := (b.flags.filter fun (_, id) => pass.isMatched id).map fun (path, _) => path.text
    values := .ofList (b.args.filterMap fun (path, id) =>
      (pass.value? id).map fun v => (path.text, v))
    choices := .ofList (b.groups.filterMap fun (path, id) =>
      (b.session.chosenKey? id).map fun key => (path.text, key)) }

/-- The report on a pass that has just been made. -/
def conclude (r : Session × Except ParseError Scheme.Outcome) :
    BuiltGrammar × Except ParseError Report :=
  let b := { b with session := r.1 }
  (b, r.2.map b.report)

/-- Reads a command line without the name of the program. -/
def parse (tokens : List String) : BuiltGrammar × Except ParseError Report :=
  b.conclude (b.session.parse tokens)

/-- Reads a command line with the name of the program. -/
def parseArgs (argv : List String) : BuiltGrammar × Except ParseError Report :=
  b.conclude (b.session.validateArgs argv)

def withErrorMode (mode : ErrorMode) : BuiltGrammar :=
  { b with session := { b.session with errorMode := mode } }

/-- The paths of all flags, in the order in which the grammar declares them. -/
def flagPaths : List String :=
  b.flags.map fun (path, _) => path.text

end BuiltGrammar

end CommandGrammar
