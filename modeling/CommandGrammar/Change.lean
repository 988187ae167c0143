import CommandGrammar.Session

/-!
# Changes in place

A session grows in place: a registration checks what it is given and changes the session one step at
a time. A refusal stops it where it is, and what it has changed by then stays changed.
-/

namespace CommandGrammar

/-- A computation that changes a session as it goes, and that can be refused. -/
abbrev Change (α : Type) := ExceptT SchemeError (StateM Session) α

namespace Change

variable {α β : Type}

/-- What a change answers to a session, and the session then. -/
def on (x : Change α) (t : Session) : Except SchemeError α × Session :=
  x.run.run t

theorem on_pure (a : α) (t : Session) : (pure a : Change α).on t = (.ok a, t) := rfl

theorem on_get (t : Session) : (get : Change Session).on t = (.ok t, t) := rfl

theorem on_bind (x : Change α) (f : α → Change β) (t : Session) :
    (x >>= f).on t =
      match x.on t with
      | (.ok a, t') => (f a).on t'
      | (.error e, t') => (.error e, t') := by
  have hbind : (x >>= f).on t = (ExceptT.bindCont f (x.on t).1).run (x.on t).2 := rfl
  rw [hbind]
  rcases x.on t with ⟨e | a, t'⟩ <;> rfl

def grow (f : Scheme → Scheme) : Change Unit :=
  modify fun t => { t with scheme := f t.scheme }

theorem on_grow (f : Scheme → Scheme) (t : Session) :
    (grow f).on t = (.ok (), { t with scheme := f t.scheme }) := rfl

def refuseIf (fault : Scheme → Bool) (e : SchemeError) : Change Unit := do
  if fault (← get).scheme then
    throw e

theorem on_refuseIf_bind (fault : Scheme → Bool) (e : SchemeError) (f : Unit → Change α)
    (t : Session) :
    (refuseIf fault e >>= f).on t = if fault t.scheme then (.error e, t) else (f ()).on t := by
  rw [on_bind, refuseIf, on_bind, on_get]
  dsimp only
  by_cases h : fault t.scheme = true
  · rw [if_pos h, if_pos h]
    rfl
  · rw [if_neg h, if_neg h, on_pure]

def checkStore (store : StoreId) : Change Unit :=
  refuseIf (fun s => s.stores.length ≤ store.index) .unknownStore

/-- The store and the policy of the members of a group. -/
def groupHome (group : GroupId) : Change (StoreId × Policy) := do
  match (← get).scheme.group? group with
  | none => throw .unknownGroup
  | some g => return (g.store, g.policy)

def insertFlag (store : StoreId) (key : String) (policy : Policy) (description : String)
    (group : Option GroupId) : Change FlagId := do
  checkStore store
  refuseIf (fun _ => Text.isBlankText key) .emptyKey
  refuseIf (fun s => (s.keyed? store key).isSome) (.duplicateKey key)
  let id : FlagId := ⟨(← get).scheme.flags.length⟩
  let flag : Flag := { key, policy, description, children := none, group, trigger := none }
  grow fun s => { s with flags := s.flags ++ [flag] }
  grow fun s => s.updateStore store fun st => { st with keys := st.keys ++ [(key, id)] }
  return id

def pushEntry (store : StoreId) (entry : Entry) : Change Unit :=
  grow fun s => s.updateStore store fun st => { st with entries := st.entries ++ [entry] }

def countFlag (store : StoreId) (policy : Policy) : Change Unit :=
  grow fun s => s.updateStore store fun st => { st with flagTally := st.flagTally.count policy }

def nest (id : FlagId) : Change StoreId := do
  let children : StoreId := ⟨(← get).scheme.stores.length⟩
  grow fun s => { s with stores := s.stores ++ [({} : Store)] }
  grow fun s => s.updateFlag id fun f => { f with children := some children }
  return children

/-- The first member makes the group a unit of its store. -/
def attachMember (group : GroupId) (id : FlagId) : Change Unit := do
  grow fun s => s.updateGroup group fun g => { g with members := g.members ++ [id] }
  match (← get).scheme.group? group with
  | none => return
  | some g => if g.members.length = 1 then countFlag g.store g.policy

def addFlag (store : StoreId) (key : String) (policy : Policy) (description : String) :
    Change FlagId := do
  let id ← insertFlag store key policy description none
  pushEntry store (.flag id)
  countFlag store policy
  return id

def addComplexFlag (store : StoreId) (key : String) (policy : Policy) (description : String) :
    Change (FlagId × StoreId) := do
  let id ← insertFlag store key policy description none
  pushEntry store (.flag id)
  countFlag store policy
  let children ← nest id
  return (id, children)

theorem addComplexFlag_eq (store : StoreId) (key : String) (policy : Policy)
    (description : String) : addComplexFlag store key policy description = do
      let id ← addFlag store key policy description
      let children ← nest id
      return (id, children) := by
  simp only [addComplexFlag, addFlag, bind_assoc, pure_bind]

def addArg (store : StoreId) (arg : Positional) : Change ArgId := do
  checkStore store
  refuseIf (fun _ => Text.isBlankText arg.name) .emptyArgumentName
  let id : ArgId := ⟨(← get).scheme.args.length⟩
  grow fun s => { s with args := s.args ++ [arg] }
  grow fun s => s.updateStore store fun st => { st with args := st.args ++ [id] }
  grow fun s => s.updateStore store fun st => { st with argTally := st.argTally.count arg.policy }
  return id

def addGroup (store : StoreId) (policy : Policy) : Change GroupId := do
  checkStore store
  let id : GroupId := ⟨(← get).scheme.groups.length⟩
  grow fun s => { s with groups := s.groups ++ [({ store, policy, members := [] } : Group)] }
  pushEntry store (.group id)
  return id

def addMember (group : GroupId) (key description : String) : Change FlagId := do
  let (store, policy) ← groupHome group
  let id ← insertFlag store key policy description (some group)
  attachMember group id
  return id

def addComplexMember (group : GroupId) (key description : String) :
    Change (FlagId × StoreId) := do
  let (store, policy) ← groupHome group
  let id ← insertFlag store key policy description (some group)
  attachMember group id
  let children ← nest id
  return (id, children)

theorem addComplexMember_eq (group : GroupId) (key description : String) :
    addComplexMember group key description = do
      let id ← addMember group key description
      let children ← nest id
      return (id, children) := by
  simp only [addComplexMember, addMember, bind_assoc, pure_bind]

def enableHelp : Change FlagId := do
  match (← get).scheme.help with
  | some id => return id
  | none =>
    let id ← addFlag Scheme.root Scheme.helpKey .optional Scheme.helpDescription
    grow fun s => { s with help := some id }
    return id

def setTrigger (id : FlagId) (trigger : Trigger) : Change Unit := do
  match (← get).scheme.flag? id with
  | none => throw .unknownFlag
  | some _ => grow fun s => s.updateFlag id fun f => { f with trigger := some trigger }

end Change

end CommandGrammar
