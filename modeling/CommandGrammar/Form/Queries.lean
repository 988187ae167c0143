import CommandGrammar.Form.Reading
import CommandGrammar.Form.Usage

/-!
# What is asked of a form

The queries are answered from the nodes. A handle that leads nowhere has an empty answer; only the
member that was used in a group is followed without a check.
-/

namespace CommandGrammar

namespace Form

variable (form : Form)

def isMatched (id : FlagId) : Bool := (form.flags[id.index]?).any (·.matched)

def isGroupMatched (id : GroupId) : Bool := (form.groups[id.index]?).any (·.matched)

def isFilled (id : ArgId) : Bool := (form.args[id.index]?).any (·.matched)

/-- The value of an argument, read as a type. -/
def valueAs? (id : ArgId) (type : ValueType) : Option Value :=
  ((form.args[id.index]?).bind (·.value)).bind (Value.asType? type)

/-- The member of a group that was used. -/
def chosen? (id : GroupId) : Option FlagId := (form.groups[id.index]?).bind (·.chosen)

def key? (id : FlagId) : Option String := (form.flags[id.index]?).map (·.flag.key)

def argName? (id : ArgId) : Option String := (form.args[id.index]?).map (·.arg.name)

def members (id : GroupId) : List FlagId :=
  ((form.groups[id.index]?).map (·.group.members)).getD []

def counts? (id : StoreId) : Option (Tally × Tally) :=
  (form.stores[id.index]?).map fun st => (st.flagTally, st.argTally)

end Form

namespace Act

open Scheme (Outcome)

/-- The key of the member used in a group. -/
def chosenKey? (group : GroupId) : Act (Option String) := do
  match (← get).chosen? group with
  | none => return none
  | some first => return some (← keyOf first)

/-- Reads a command line whose first word, if there is one, names the program from now on. -/
def validateArgs (argv : List String) : Act (Except ParseError Outcome) := do
  match argv with
  | [] => parse []
  | program :: tokens =>
    modify fun form => { form with program }
    parse tokens

/-- How the program ends after a pass, if it does. -/
def exit? (outcome : Except ParseError Outcome) : Act (Option Exit) := do
  match (← get).errorMode, outcome with
  | .return, _ => return none
  | .exit, .ok .parsed => return none
  | .exit, .ok .help => return some ⟨0, ← usage, ""⟩
  | .exit, .error e => return some ⟨1, "", ← failureReport e⟩

end Act

end CommandGrammar
