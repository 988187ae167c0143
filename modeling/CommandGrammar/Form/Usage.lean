import CommandGrammar.Form.Basic

/-!
# Usage texts in place

The usage texts as they are written from a form. A store is entered whenever a flag has it, with no
regard to its number.
-/

namespace CommandGrammar

namespace Act

open Scheme (newLine root)

def argSummary (id : ArgId) : Act String := do
  let arg := (← argAt id).arg
  return " " ++ arg.policy.bracket arg.name

end Act

open Act Scheme

mutual

def StoreId.summary (store : StoreId) : Act String := do
  let args ← (← storeAt store).args.mapM argSummary
  let entries ← (← entriesOf store).mapM fun entry => entry |>.summary
  return String.join args ++ String.join entries
partial_fixpoint

def Entry.summary (entry : Entry) : Act String := do
  match entry with
  | .flag id => return " " ++ (← flagAt id).flag.policy.bracket (← id |>.summary)
  | .group id =>
    let group := (← groupAt id).group
    if group.members.isEmpty then return ""
    else
      let members ← group.members.mapM fun member => member |>.summary
      return " " ++ group.policy.bracket ("|".intercalate members)
partial_fixpoint

/-- A flag in a summary: its key and the summary of its own store. -/
def FlagId.summary (id : FlagId) : Act String := do
  let flag := (← flagAt id).flag
  match flag.children with
  | none => return flag.key
  | some child => return flag.key ++ (← child |>.summary)
partial_fixpoint

end

namespace Act

/-- The help line of an argument with a description. -/
def argHelp (level : Nat) (id : ArgId) : Act String := do
  let arg := (← argAt id).arg
  return if arg.description.isEmpty then ""
    else newLine level ++ arg.name ++ (if arg.policy.isOptional then " [optional]" else "") ++
      ": " ++ arg.description

/-- The flags that an entry of a store stands for. -/
def entryFlags : Entry → Act (List FlagId)
  | .flag id => return [id]
  | .group id => return (← groupAt id).group.members

end Act

mutual

def StoreId.help (store : StoreId) (level : Nat) : Act String := do
  let args ← (← storeAt store).args.mapM (argHelp level)
  let flags ← (← entriesOf store).mapM entryFlags
  let blocks ← flags.flatten.mapM fun id => id |>.help level
  return String.join args ++ String.join blocks
partial_fixpoint

/-- The block of a flag with a description, and those of its own store behind it. -/
def FlagId.help (id : FlagId) (level : Nat) : Act String := do
  let flag := (← flagAt id).flag
  if flag.description.isEmpty then return ""
  else
    let block := newLine level ++ (← id.summary) ++ newLine level ++
      (if flag.policy.isOptional then "[optional] " else "") ++ flag.description
    match flag.children with
    | none => return block
    | some child => return block ++ (← child |>.help (level + 1))
partial_fixpoint

end

namespace Act

def usageSummary : Act String :=
  return "Usage: " ++ (← get).program ++ (← root.summary)

def usageHelp : Act String := root.help 1

def usage : Act String :=
  return (← usageSummary) ++ "\n\nArguments:" ++ (← usageHelp) ++ "\n"

def failureReport (e : ParseError) : Act String := do
  let form ← get
  return "Error: " ++ e.message ++ "\nSuccessfully parsed: " ++
    String.join (form.program :: form.consumed.map (" " ++ ·)) ++ "\n\n" ++ (← usage)

end Act

end CommandGrammar
