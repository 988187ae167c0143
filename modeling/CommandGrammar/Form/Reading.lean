import CommandGrammar.Form.Basic

/-!
# Reading a command line in place

The pass over a command line as it runs on a form: it goes by positions among the tokens, marks the
nodes that match, and reads its own marks. A flag with a store of its own calls for the reading of
that store, and the store for the matching of its flags.
-/

namespace CommandGrammar

/-- The form without the marks of the last pass. -/
def Form.cleared (form : Form) : Form :=
  { form with
    flags := form.flags.map fun cell => { cell with matched := false }
    groups := form.groups.map fun cell => { cell with matched := false, chosen := none }
    args := form.args.map fun cell => { cell with matched := false, value := none }
    consumed := []
    fired := [] }

namespace Act

def keyOf (id : FlagId) : Act String := return (← flagAt id).flag.key

def flagOption (id : FlagId) : Act String := do
  let cell ← flagAt id
  return cell.flag.policy.bracket cell.flag.key

/-- The options of an entry: none when the flag has matched, or a member of the group was used. -/
def entryOptions : Entry → Act (List String)
  | .flag id => do
    let cell ← flagAt id
    return if cell.matched then [] else [cell.flag.policy.bracket cell.flag.key]
  | .group id => do
    let cell ← groupAt id
    if cell.chosen.isSome then return []
    cell.group.members.mapM flagOption

def availableFlags (store : StoreId) : Act (List String) :=
  return (← (← entriesOf store).mapM entryOptions).flatten

def availableArgs (store : StoreId) : Act (List String) := do
  let cells ← (← storeAt store).args.mapM argAt
  return (cells.filter fun cell => !cell.matched).map fun cell =>
    cell.arg.policy.bracket cell.arg.name

def unexpected (store : StoreId) (token : String) : Act ParseError :=
  return .unexpectedArgument token ((← availableFlags store) ++ (← availableArgs store))

/-- Takes a member of a group, unless one was used before. -/
def choose (group : GroupId) (id : FlagId) : Act (Option ParseError) := do
  match (← groupAt group).chosen with
  | some first =>
    let members := (← groupAt group).group.members
    return some (.exclusiveConflict (← keyOf first) (← keyOf id) (← members.mapM keyOf))
  | none =>
    updateGroup group fun cell => { cell with chosen := some id, matched := true }
    return none

/-- Starts a flag whose key was read, or says why it cannot be. -/
def start (id : FlagId) (cell : FlagCell) : Act (Option ParseError) :=
  if cell.matched then return some (.repeatedFlag cell.flag.key)
  else
    match cell.flag.group with
    | none => return none
    | some group => choose group id

/-- Marks a flag and fires its trigger. -/
def complete (id : FlagId) : Act Unit := do
  updateFlag id fun cell => { cell with matched := true }
  let flag := (← flagAt id).flag
  match flag.trigger with
  | none => return
  | some t =>
    modify fun form => { form with fired := form.fired ++ [⟨id, flag.key, t flag.key⟩] }

/-- Offers a token to the arguments at some places of a store. -/
def offer (store : StoreId) (token : String) : List Nat → Act Offer
  | [] => return .declined
  | place :: places => do
    match (← storeAt store).args[place]? with
    | none => throw (.place store place)
    | some id =>
      let cell ← argAt id
      if cell.matched then offer store token places
      else
        match (cell.arg.pipeline.run token).result with
        | .ok v =>
          updateArg id fun cell => { cell with matched := true, value := some v }
          return .taken id cell.arg.policy v
        | .error reason =>
          match cell.arg.policy with
          | .mandatory => return .refused cell.arg.name reason
          | .optional => offer store token places

/-- Offers a token to all arguments of a store, counted before the first is asked. -/
def offerAll (store : StoreId) (token : String) : Act Offer := do
  offer store token (List.range (← storeAt store).args.length)

/-- How a store ends that stops before a token, or behind the last one. -/
def close (store : StoreId) (met : Met) (next : Option String) : Act Ending := do
  let required ← storeAt store
  if met.flags < required.flagTally.mandatory then
    match next with
    | none => return .failed (.missingMandatoryFlag (← availableFlags store))
    | some token => return .failed (← unexpected store token)
  else if met.args < required.argTally.mandatory then
    match next with
    | none => return .failed (.missingMandatoryArgument (← availableArgs store))
    | some token => return .failed (← unexpected store token)
  else return .closed

end Act

open Act

mutual

/-- Reads tokens into a store that has met some of its units, from a position on. The answer has the
position at which it stopped. -/
def StoreId.read (store : StoreId) (tokens : List String) (met : Met) (position : Nat) :
    Act (Ending × Nat) := do
  match tokens[position]? with
  | none => return (← close store met none, position)
  | some token =>
    match (← storeAt store).keys.lookup token with
    | some id =>
      match ← id |>.matchKey tokens position with
      | (.closed, position) =>
        store |>.read tokens (met.countFlag (← flagAt id).flag.policy) position
      | stopped => return stopped
    | none =>
      match ← offerAll store token with
      | .taken _ policy _ => store |>.read tokens (met.countArg policy) (position + 1)
      | .refused name reason => return (.failed (.conversionFailure name reason), position)
      | .declined => return (← close store met (some token), position)
partial_fixpoint

/-- Matches a flag whose key stands at a position, and what may follow it. -/
def FlagId.matchKey (id : FlagId) (tokens : List String) (position : Nat) :
    Act (Ending × Nat) := do
  let cell ← flagAt id
  match ← start id cell with
  | some e => return (.failed e, position)
  | none =>
    if (← get).help = some id then
      updateFlag id fun cell => { cell with matched := true }
      return (.help, position + 1)
    else
      match cell.flag.children with
      | none =>
        complete id
        return (.closed, position + 1)
      | some child =>
        match ← child |>.read tokens {} (position + 1) with
        | (.closed, position) =>
          complete id
          return (.closed, position)
        | stopped => return stopped
partial_fixpoint

end

namespace Act

open Scheme (root Outcome)

/-- Takes all marks away. -/
def reset : Act Unit := modify Form.cleared

/-- The tokens before a position. -/
def before (tokens : List String) (position : Nat) : Act (List String) :=
  if position ≤ tokens.length then return tokens.take position else throw (.position position)

/-- How a pass ends whose root has stopped at a position. -/
def conclude (tokens : List String) : Ending → Nat → Act (Except ParseError Outcome)
  | .help, _ => return .ok .help
  | .failed e, _ => return .error e
  | .closed, position =>
    match tokens[position]? with
    | none => return .ok .parsed
    | some token => return .error (← unexpected root token)

/-- Reads a command line, without the name of the program, from the root. -/
def parse (tokens : List String) : Act (Except ParseError Outcome) := do
  reset
  let (ending, position) ← root.read tokens {} 0
  let outcome ← conclude tokens ending position
  let consumed ← before tokens position
  modify fun form => { form with consumed }
  return outcome

end Act

end CommandGrammar
