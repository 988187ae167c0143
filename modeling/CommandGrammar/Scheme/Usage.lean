import CommandGrammar.Scheme.Basic

/-!
# Usage texts

The summary of a store lists its arguments and then its flags and groups, brackets around what is
optional; a flag is followed by the summary of its own store, and the members of a group are
alternatives. The help of a store has a block for everything with a description, four spaces deeper
with each level.

A store is only descended into from a store with a smaller number. Every scheme built by
registrations nests its stores in that order, so nothing is left out.
-/

namespace CommandGrammar.Scheme

variable (s : Scheme)

/-- What the summary of a store says of an argument. -/
def argSummary (id : ArgId) : String :=
  match s.arg? id with
  | some arg => " " ++ arg.policy.bracket arg.name
  | none => ""

/-- What the summary of a store says of a flag or group, given what is said of single flags. -/
def entrySummary (unit : FlagId → String) : Entry → String
  | .flag id =>
    match s.flag? id with
    | some flag => " " ++ flag.policy.bracket (unit id)
    | none => ""
  | .group id =>
    match s.group? id with
    | some group =>
      if group.members.isEmpty then ""
      else " " ++ group.policy.bracket ("|".intercalate (group.members.map unit))
    | none => ""

/-- The summary of a store; each unit in it starts with a space. -/
def summary (store : StoreId) : String :=
  let unit (id : FlagId) : String :=
    match s.flag? id with
    | none => ""
    | some flag =>
      flag.key ++
        match flag.children with
        | none => ""
        | some child =>
          if _h : store.index < child.index ∧ child.index < s.stores.length then
            summary child
          else ""
  String.join ((s.argsOf store).map s.argSummary) ++
    String.join ((s.entriesOf store).map (s.entrySummary unit))
termination_by s.stores.length - store.index

/-- A flag in a summary: its key and the summary of its own store. -/
def flagSummary (id : FlagId) : String :=
  match s.flag? id with
  | none => ""
  | some flag =>
    flag.key ++
      match flag.children with
      | none => ""
      | some child => s.summary child

/-- A line break and the indentation of a level. -/
def newLine (level : Nat) : String :=
  "\n" ++ String.join (List.replicate level "    ")

/-- The help line of an argument with a description. -/
def argHelp (level : Nat) (id : ArgId) : String :=
  match s.arg? id with
  | none => ""
  | some arg =>
    if arg.description.isEmpty then ""
    else
      newLine level ++ arg.name ++ (if arg.policy.isOptional then " [optional]" else "") ++ ": " ++
        arg.description

/-- The flags that an entry of a store stands for. -/
def entryFlags : Entry → List FlagId
  | .flag id => [id]
  | .group id => s.members id

/-- The help of a store, at a level. -/
def storeHelp (store : StoreId) (level : Nat) : String :=
  let flagHelp (id : FlagId) : String :=
    match s.flag? id with
    | none => ""
    | some flag =>
      if flag.description.isEmpty then ""
      else
        newLine level ++ s.flagSummary id ++ newLine level ++
          (if flag.policy.isOptional then "[optional] " else "") ++ flag.description ++
          match flag.children with
          | none => ""
          | some child =>
            if _h : store.index < child.index ∧ child.index < s.stores.length then
              storeHelp child (level + 1)
            else ""
  String.join ((s.argsOf store).map (s.argHelp level)) ++
    String.join (((s.entriesOf store).flatMap s.entryFlags).map flagHelp)
termination_by s.stores.length - store.index

/-- The summary line of a program. -/
def usageSummary (program : String) : String :=
  "Usage: " ++ program ++ s.summary root

/-- The help of all of the scheme. -/
def usageHelp : String :=
  s.storeHelp root 1

def usage (program : String) : String :=
  s.usageSummary program ++ "\n\nArguments:" ++ s.usageHelp ++ "\n"

end CommandGrammar.Scheme
