import CommandGrammar.Scheme.Basic
import CommandGrammar.Text.Blank

/-!
# Registrations

Schemes grow by registrations. Each either gives the grown scheme and the number of what it added,
or is refused, with the scheme as it was. A key must show, and must be new at its level; a name of
an argument must show.
-/

namespace CommandGrammar.Scheme

/-- The key of the flag that asks for help. -/
def helpKey : String := "--help"

def helpDescription : String := "Print this help message."

variable (s : Scheme)

def updateStore (id : StoreId) (f : Store → Store) : Scheme :=
  { s with stores := s.stores.modify id.index f }

def updateFlag (id : FlagId) (f : Flag → Flag) : Scheme :=
  { s with flags := s.flags.modify id.index f }

def updateGroup (id : GroupId) (f : Group → Group) : Scheme :=
  { s with groups := s.groups.modify id.index f }

/-- Why a key cannot be added at a level, if it cannot. -/
def keyFault? (store : StoreId) (key : String) : Option SchemeError :=
  match s.store? store with
  | none => some .unknownStore
  | some st =>
    if Text.isBlankText key then some .emptyKey
    else if (st.keys.lookup key).isSome then some (.duplicateKey key)
    else none

/-- Adds a flag under its key, in no listing yet. -/
def insertFlag (store : StoreId) (flag : Flag) : Except SchemeError (Scheme × FlagId) :=
  match s.keyFault? store flag.key with
  | some e => .error e
  | none =>
    let id : FlagId := ⟨s.flags.length⟩
    let s := { s with flags := s.flags ++ [flag] }
    .ok (s.updateStore store fun st => { st with keys := st.keys ++ [(flag.key, id)] }, id)

/-- Lists a flag in a store, as a unit of its own. -/
def listFlag (store : StoreId) (id : FlagId) (policy : Policy) : Scheme :=
  s.updateStore store fun st =>
    { st with entries := st.entries ++ [.flag id], flagTally := st.flagTally.count policy }

/-- Lists a flag in a group. The first member makes the group a unit of its store. -/
def listMember (group : GroupId) (id : FlagId) : Scheme :=
  match s.group? group with
  | none => s
  | some g =>
    let s := s.updateGroup group fun g => { g with members := g.members ++ [id] }
    if g.members.isEmpty then
      s.updateStore g.store fun st => { st with flagTally := st.flagTally.count g.policy }
    else s

/-- Gives a flag a new, empty store. -/
def nest (id : FlagId) : Scheme × StoreId :=
  let children : StoreId := ⟨s.stores.length⟩
  let s := { s with stores := s.stores ++ [({} : Store)] }
  (s.updateFlag id fun f => { f with children := some children }, children)

def addFlag (store : StoreId) (key : String) (policy : Policy) (description : String) :
    Except SchemeError (Scheme × FlagId) := do
  let (s, id) ← s.insertFlag store
    { key, policy, description, children := none, group := none, trigger := none }
  return (s.listFlag store id policy, id)

/-- Adds a flag with a store of its own. -/
def addComplexFlag (store : StoreId) (key : String) (policy : Policy) (description : String) :
    Except SchemeError (Scheme × FlagId × StoreId) := do
  let (s, id) ← s.addFlag store key policy description
  let (s, children) := s.nest id
  return (s, id, children)

def addArg (store : StoreId) (arg : Positional) : Except SchemeError (Scheme × ArgId) :=
  match s.store? store with
  | none => .error .unknownStore
  | some _ =>
    if Text.isBlankText arg.name then .error .emptyArgumentName
    else
      let id : ArgId := ⟨s.args.length⟩
      let s := { s with args := s.args ++ [arg] }
      .ok (s.updateStore store fun st =>
        { st with args := st.args ++ [id], argTally := st.argTally.count arg.policy }, id)

def addGroup (store : StoreId) (policy : Policy) : Except SchemeError (Scheme × GroupId) :=
  match s.store? store with
  | none => .error .unknownStore
  | some _ =>
    let id : GroupId := ⟨s.groups.length⟩
    let group : Group := { store, policy, members := [] }
    let s := { s with groups := s.groups ++ [group] }
    .ok (s.updateStore store fun st => { st with entries := st.entries ++ [.group id] }, id)

/-- Adds a flag to a group, whose policy it takes. -/
def addMember (group : GroupId) (key : String) (description : String) :
    Except SchemeError (Scheme × FlagId) :=
  match s.group? group with
  | none => .error .unknownGroup
  | some g => do
    let (s, id) ← s.insertFlag g.store
      { key, policy := g.policy, description, children := none, group := some group,
        trigger := none }
    return (s.listMember group id, id)

/-- Adds a flag with a store of its own to a group. -/
def addComplexMember (group : GroupId) (key : String) (description : String) :
    Except SchemeError (Scheme × FlagId × StoreId) := do
  let (s, id) ← s.addMember group key description
  let (s, children) := s.nest id
  return (s, id, children)

/-- Adds the flag that asks for help to the root, unless there is one. -/
def enableHelp : Except SchemeError (Scheme × FlagId) :=
  match s.help with
  | some id => .ok (s, id)
  | none => do
    let (s, id) ← s.addFlag root helpKey .optional helpDescription
    return ({ s with help := some id }, id)

/-- Gives a flag a trigger, in place of the one it had. -/
def setTrigger (id : FlagId) (trigger : Trigger) : Except SchemeError Scheme :=
  match s.flag? id with
  | none => .error .unknownFlag
  | some _ => .ok (s.updateFlag id fun f => { f with trigger := some trigger })

/-- The units of a store: those of its flags and groups, and its arguments. -/
def counts? (store : StoreId) : Option (Tally × Tally) :=
  (s.store? store).map fun st => (st.flagTally, st.argTally)

end CommandGrammar.Scheme
