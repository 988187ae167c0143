import CommandGrammar.Scheme.Basic

/-!
# What a pass over a command line has found

A pass keeps what was found so far and nothing else: the flags, groups and arguments that matched,
the member chosen in a group, the values of arguments, the triggers that fired and the tokens that
were consumed. What is not in it was not found, so a new pass starts from the empty one.
-/

namespace CommandGrammar

/-- A trigger that fired, and what it wrote down. -/
structure Firing where
  flag : FlagId
  key : String
  note : String
  deriving DecidableEq, Repr

structure Pass where
  matched : List FlagId := []
  groups : List GroupId := []
  chosen : List (GroupId × FlagId) := []
  filled : List ArgId := []
  values : List (ArgId × Value) := []
  fired : List Firing := []
  consumed : List String := []

namespace Pass

variable (p : Pass)

/-- Whether a flag has matched. -/
def isMatched (id : FlagId) : Bool := p.matched.contains id

/-- Whether a group has matched. -/
def isGroupMatched (id : GroupId) : Bool := p.groups.contains id

/-- The member of a group that was used. -/
def chosen? (id : GroupId) : Option FlagId := p.chosen.lookup id

/-- The value of an argument. -/
def value? (id : ArgId) : Option Value := p.values.lookup id

/-- Whether an argument has matched. -/
def isFilled (id : ArgId) : Bool := p.filled.contains id

def mark (id : FlagId) : Pass := { p with matched := p.matched ++ [id] }

def choose (group : GroupId) (flag : FlagId) : Pass :=
  { p with groups := p.groups ++ [group], chosen := p.chosen ++ [(group, flag)] }

def fill (id : ArgId) (v : Value) : Pass :=
  { p with filled := p.filled ++ [id], values := p.values ++ [(id, v)] }

/-- Marks a flag and fires its trigger. -/
def complete (id : FlagId) (flag : Flag) : Pass :=
  match flag.trigger with
  | none => p.mark id
  | some t => { p.mark id with fired := p.fired ++ [⟨id, flag.key, t flag.key⟩] }

end Pass

namespace Scheme

variable (s : Scheme) (p : Pass)

def flagOption (id : FlagId) : Option String :=
  (s.flag? id).map fun f => f.policy.bracket f.key

/-- The flags of a level that could still be used: those that have not matched, and all members of
a group in which none was used. -/
def availableFlags (store : StoreId) : List String :=
  (s.entriesOf store).flatMap fun
    | .flag id => if p.isMatched id then [] else (s.flagOption id).toList
    | .group id =>
      if (p.chosen? id).isSome then [] else (s.members id).filterMap s.flagOption

/-- The arguments of a level that have not matched. -/
def availableArgs (store : StoreId) : List String :=
  ((s.argsOf store).filter fun id => !p.isFilled id).filterMap fun id =>
    (s.arg? id).map fun a => a.policy.bracket a.name

/-- The error for a token that nothing at a level can take. -/
def unexpected (store : StoreId) (token : String) : ParseError :=
  .unexpectedArgument token (s.availableFlags p store ++ s.availableArgs p store)

end Scheme

end CommandGrammar
