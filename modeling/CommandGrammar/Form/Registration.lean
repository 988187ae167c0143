import CommandGrammar.Form.Basic

/-!
# Registrations in place

The registrations as they run on a form. New nodes come without marks, and the stores, groups and
flags that they are entered in are got by number.
-/

namespace CommandGrammar

/-- A computation on a form that can be refused. What it has changed by then stays changed. -/
abbrev Entering (α : Type) := ExceptT SchemeError Act α

namespace Entering

def refuse (fault : Bool) (e : SchemeError) : Entering Unit :=
  if fault then throw e else return

def checkStore (store : StoreId) : Entering Unit := do
  refuse ((← get).stores.length ≤ store.index) .unknownStore

/-- The store and the policy of the members of a group. -/
def groupHome (group : GroupId) : Entering (StoreId × Policy) := do
  match (← get).groups[group.index]? with
  | none => throw .unknownGroup
  | some cell => return (cell.group.store, cell.group.policy)

def insertFlag (store : StoreId) (key : String) (policy : Policy) (description : String)
    (group : Option GroupId) : Entering FlagId := do
  checkStore store
  refuse (Text.isBlankText key) .emptyKey
  refuse ((← Act.storeAt store).keys.lookup key).isSome (.duplicateKey key)
  let id : FlagId := ⟨(← get).flags.length⟩
  let flag : Flag := { key, policy, description, children := none, group, trigger := none }
  modify fun form => { form with flags := form.flags ++ [{ flag }] }
  Act.updateStore store fun st => { st with keys := st.keys ++ [(key, id)] }
  return id

/-- Lists a flag in a store, as a unit of its own. -/
def listFlag (store : StoreId) (id : FlagId) (policy : Policy) : Act Unit := do
  Act.updateStore store fun st => { st with entries := st.entries ++ [.flag id] }
  Act.updateStore store fun st => { st with flagTally := st.flagTally.count policy }

/-- Lists a flag in a group. The first member makes the group a unit of its store. -/
def listMember (group : GroupId) (id : FlagId) : Act Unit := do
  Act.updateGroup group fun cell =>
    { cell with group := { cell.group with members := cell.group.members ++ [id] } }
  let g := (← Act.groupAt group).group
  if g.members.length = 1 then
    Act.updateStore g.store fun st => { st with flagTally := st.flagTally.count g.policy }

/-- Gives a flag a new, empty store. -/
def nest (id : FlagId) : Act StoreId := do
  let children : StoreId := ⟨(← get).stores.length⟩
  modify fun form => { form with stores := form.stores ++ [({} : Store)] }
  Act.updateFlag id fun cell => { cell with flag := { cell.flag with children := some children } }
  return children

def addFlag (store : StoreId) (key : String) (policy : Policy) (description : String) :
    Entering FlagId := do
  let id ← insertFlag store key policy description none
  listFlag store id policy
  return id

def addComplexFlag (store : StoreId) (key : String) (policy : Policy) (description : String) :
    Entering (FlagId × StoreId) := do
  let id ← insertFlag store key policy description none
  listFlag store id policy
  return (id, ← nest id)

theorem addComplexFlag_eq (store : StoreId) (key : String) (policy : Policy)
    (description : String) : addComplexFlag store key policy description = do
      let id ← addFlag store key policy description
      return (id, ← nest id) := by
  simp only [addComplexFlag, addFlag, bind_assoc, pure_bind]

def addArg (store : StoreId) (arg : Positional) : Entering ArgId := do
  checkStore store
  refuse (Text.isBlankText arg.name) .emptyArgumentName
  let id : ArgId := ⟨(← get).args.length⟩
  modify fun form => { form with args := form.args ++ [{ arg }] }
  Act.updateStore store fun st =>
    { st with args := st.args ++ [id], argTally := st.argTally.count arg.policy }
  return id

def addGroup (store : StoreId) (policy : Policy) : Entering GroupId := do
  checkStore store
  let id : GroupId := ⟨(← get).groups.length⟩
  let group : Group := { store, policy, members := [] }
  modify fun form => { form with groups := form.groups ++ [{ group }] }
  Act.updateStore store fun st => { st with entries := st.entries ++ [.group id] }
  return id

def addMember (group : GroupId) (key description : String) : Entering FlagId := do
  let (store, policy) ← groupHome group
  let id ← insertFlag store key policy description (some group)
  listMember group id
  return id

def addComplexMember (group : GroupId) (key description : String) :
    Entering (FlagId × StoreId) := do
  let (store, policy) ← groupHome group
  let id ← insertFlag store key policy description (some group)
  listMember group id
  return (id, ← nest id)

theorem addComplexMember_eq (group : GroupId) (key description : String) :
    addComplexMember group key description = do
      let id ← addMember group key description
      return (id, ← nest id) := by
  simp only [addComplexMember, addMember, bind_assoc, pure_bind]

def enableHelp : Entering FlagId := do
  match (← get).help with
  | some id => return id
  | none =>
    let id ← addFlag Scheme.root Scheme.helpKey .optional Scheme.helpDescription
    modify fun form => { form with help := some id }
    return id

def setTrigger (id : FlagId) (trigger : Trigger) : Entering Unit := do
  match (← get).flags[id.index]? with
  | none => throw .unknownFlag
  | some _ =>
    Act.updateFlag id fun cell => { cell with flag := { cell.flag with trigger := some trigger } }

end Entering

end CommandGrammar
