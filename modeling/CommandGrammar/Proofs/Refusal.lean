import CommandGrammar.Change
import CommandGrammar.Proofs.Script

/-!
# Refused registrations

A registration checks everything before it changes anything, so one that is refused leaves the
session as it was, and a script of registrations gives the same without those that are refused.

The changes in place are compared with the growth of schemes: `Performs` says that both give the
same, and that nothing is changed by a refusal. What is never refused can come behind such a change,
and checks can come before it. A change with a check in its middle has no reason to be one.
-/

namespace CommandGrammar

open Change

variable {α β : Type}

/-- What is handed out for a registration that is granted. -/
inductive Grant where
  | flag (id : FlagId)
  | complexFlag (id : FlagId) (children : StoreId)
  | arg (id : ArgId)
  | group (id : GroupId)
  | trigger
  deriving DecidableEq, Repr

/-- The scheme after a registration, and what is handed out for it. -/
def Scheme.grant (s : Scheme) : Registration → Except SchemeError (Scheme × Grant)
  | .flag store key policy description =>
    (s.addFlag store key policy description).map fun (s, id) => (s, .flag id)
  | .complexFlag store key policy description =>
    (s.addComplexFlag store key policy description).map fun (s, id, children) =>
      (s, .complexFlag id children)
  | .arg store arg => (s.addArg store arg).map fun (s, id) => (s, .arg id)
  | .group store policy => (s.addGroup store policy).map fun (s, id) => (s, .group id)
  | .member group key description =>
    (s.addMember group key description).map fun (s, id) => (s, .flag id)
  | .complexMember group key description =>
    (s.addComplexMember group key description).map fun (s, id, children) =>
      (s, .complexFlag id children)
  | .help => s.enableHelp.map fun (s, id) => (s, .flag id)
  | .trigger flag trigger => (s.setTrigger flag trigger).map fun s => (s, .trigger)

theorem map_fst_granting (x : Except SchemeError (Scheme × α)) (f : α → Grant) :
    x.map (·.1) = (x.map fun (s, a) => (s, f a)).map (·.1) := by
  rcases x with e | ⟨s, a⟩ <;> rfl

theorem Scheme.register_eq_grant (s : Scheme) (r : Registration) :
    s.register r = (s.grant r).map (·.1) := by
  cases r with
  | flag | arg | group | member | help => exact map_fst_granting _ _
  | complexFlag | complexMember =>
    exact map_fst_granting _ fun (id, children) => .complexFlag id children
  | trigger flag trigger =>
    rw [register, grant]
    rcases s.setTrigger flag trigger with e | s <;> rfl

def Change.register : Registration → Change Grant
  | .flag store key policy description => return .flag (← addFlag store key policy description)
  | .complexFlag store key policy description => do
    let (id, children) ← addComplexFlag store key policy description
    return .complexFlag id children
  | .arg store arg => return .arg (← addArg store arg)
  | .group store policy => return .group (← addGroup store policy)
  | .member group key description => return .flag (← addMember group key description)
  | .complexMember group key description => do
    let (id, children) ← addComplexMember group key description
    return .complexFlag id children
  | .help => return .flag (← enableHelp)
  | .trigger flag trigger => do
    setTrigger flag trigger
    return .trigger

namespace Session

variable (t : Session)

/-- The session takes the scheme that it is given, and nothing when there is none. -/
def commit : Except SchemeError (Scheme × α) → Except SchemeError α × Session
  | .ok (scheme, a) => (.ok a, { t with scheme })
  | .error e => (.error e, t)

def perform (r : Registration) : Except SchemeError Grant × Session :=
  (Change.register r).on t

/-- The answers to the registrations of a script, and the session after the last. -/
def performAll : Session → List Registration → List (Except SchemeError Grant) × Session
  | t, [] => ([], t)
  | t, r :: rs =>
    let (answer, t) := t.perform r
    let (answers, t) := t.performAll rs
    (answer :: answers, t)

/-- The script without the registrations that are refused. -/
def granted (rs : List Registration) : List Registration :=
  ((rs.zip (t.performAll rs).1).filter (·.2.isOk)).map (·.1)

/-- Registrations in place do what the growth of the scheme does, and those that are refused leave
no trace: neither in the session, nor in what is handed out later. -/
structure Traceless : Prop where
  agrees : ∀ r, t.perform r = t.commit (t.scheme.grant r)
  reached : ∀ rs, (t.performAll rs).2 = (rs.map .register).foldl call t
  refused : ∀ {r e}, (t.perform r).1 = .error e → (t.perform r).2 = t
  granted : ∀ rs, t.performAll (t.granted rs) =
    ((t.performAll rs).1.filter (·.isOk), (t.performAll rs).2)

end Session

/-- A change does what the growth of the scheme does, or nothing when that is refused. -/
def Performs (x : Change α) (g : Scheme → Except SchemeError (Scheme × α)) : Prop :=
  ∀ t, x.on t = t.commit (g t.scheme)

/-! ## Faults of keys -/

section Faults

variable (s : Scheme) (store : StoreId)

theorem Scheme.store?_eq_none_iff : s.store? store = none ↔ s.stores.length ≤ store.index :=
  List.getElem?_eq_none_iff

theorem Scheme.keyFault?_eq (key : String) :
    s.keyFault? store key =
      if s.stores.length ≤ store.index then some .unknownStore
      else if Text.isBlankText key then some .emptyKey
      else if (s.keyed? store key).isSome then some (.duplicateKey key)
      else none := by
  rcases h : s.store? store with _ | st
  · simp [keyFault?, h, (s.store?_eq_none_iff store).1 h]
  · have hlt : ¬ s.stores.length ≤ store.index := by
      simp [← s.store?_eq_none_iff, h]
    have hk : s.keyed? store key = st.keys.lookup key := by simp [keyed?, h]
    rw [if_neg hlt, hk]
    simp only [keyFault?, h]

end Faults

/-! ## Checks before changes -/

namespace Performs

variable {x : Change α} {g : Scheme → Except SchemeError (Scheme × α)}

/-- What comes behind is never refused. -/
theorem followed {f : α → Change β} {h : α → Scheme → Scheme × β} (hx : Performs x g)
    (hf : ∀ a, Performs (f a) fun s => .ok (h a s)) :
    Performs (x >>= f) fun s => (g s).map fun (s, a) => h a s := by
  intro t
  rw [on_bind, hx]
  dsimp only
  rcases g t.scheme with e | ⟨s, a⟩
  · rfl
  · exact hf a { t with scheme := s }

theorem behind_store {store : StoreId} {g : Store → Scheme → Except SchemeError (Scheme × α)}
    (hx : ∀ st, Performs x (g st)) :
    Performs (do checkStore store; x) fun s =>
      match s.store? store with
      | none => .error .unknownStore
      | some st => g st s := by
  intro t
  simp only [checkStore, on_refuseIf_bind, decide_eq_true_eq, ← t.scheme.store?_eq_none_iff]
  rcases h : t.scheme.store? store with _ | st
  · rfl
  · exact hx st t

theorem behind_group {group : GroupId} {f : StoreId × Policy → Change α}
    {g : Group → Scheme → Except SchemeError (Scheme × α)}
    (hf : ∀ gr : Group, Performs (f (gr.store, gr.policy)) (g gr)) :
    Performs (groupHome group >>= f) fun s =>
      match s.group? group with
      | none => .error .unknownGroup
      | some gr => g gr s := by
  intro t
  rw [groupHome, on_bind, on_bind, on_get]
  dsimp only
  rcases h : t.scheme.group? group with _ | gr
  · rfl
  · exact hf gr t

/-! ## Registrations -/

theorem insertFlag (store : StoreId) (key : String) (policy : Policy) (description : String)
    (group : Option GroupId) :
    Performs (insertFlag store key policy description group) fun s =>
      s.insertFlag store { key, policy, description, children := none, group, trigger := none } := by
  intro t
  simp only [Change.insertFlag, checkStore, on_refuseIf_bind, Scheme.insertFlag,
    Scheme.keyFault?_eq, decide_eq_true_eq]
  split
  · rfl
  · split
    · rfl
    · split <;> rfl

theorem listFlag (store : StoreId) (policy : Policy) (id : FlagId) :
    Performs (do pushEntry store (.flag id); countFlag store policy; return id) fun s =>
      .ok (s.listFlag store id policy, id) := by
  intro t
  simp only [pushEntry, countFlag, on_bind, on_grow, on_pure, Session.commit, Scheme.listFlag,
    Scheme.updateStore, List.modify_modify_eq]
  rfl

theorem attachMember (group : GroupId) (id : FlagId) :
    Performs (attachMember group id) fun s => .ok (s.listMember group id, ()) := by
  intro t
  let f (g : Group) : Group := { g with members := g.members ++ [id] }
  have hg : (t.scheme.updateGroup group f).group? group = (t.scheme.group? group).map f := by
    simp [Scheme.group?, Scheme.updateGroup]
  simp only [Change.attachMember, on_bind, on_grow, on_get, Scheme.listMember]
  rw [hg]
  rcases h : t.scheme.group? group with _ | g
  · have hm : t.scheme.groups.modify group.index f = t.scheme.groups :=
      List.modify_eq_self (List.getElem?_eq_none_iff.1 h)
    rw [Scheme.updateGroup, hm]
    rfl
  · -- one member is there now if there was none before
    simp only [Option.map_some, f, List.length_append, List.length_singleton,
      Nat.add_eq_right, List.length_eq_zero_iff, List.isEmpty_iff]
    split <;> rfl

theorem nest (id : FlagId) : Performs (nest id) fun s => .ok (s.nest id) := fun _ => rfl

theorem nested {x : Change FlagId} {g : Scheme → Except SchemeError (Scheme × FlagId)}
    (hx : Performs x g) :
    Performs (do let id ← x; let children ← Change.nest id; return (id, children)) fun s => do
      let (s, id) ← g s
      let (s, children) := s.nest id
      return (s, id, children) :=
  hx.followed fun id =>
    (nest id).followed (h := fun children s => (s, id, children)) fun _ _ => rfl

theorem addFlag (store : StoreId) (key : String) (policy : Policy) (description : String) :
    Performs (addFlag store key policy description) fun s =>
      s.addFlag store key policy description :=
  (insertFlag store key policy description none).followed fun id => listFlag store policy id

theorem addComplexFlag (store : StoreId) (key : String) (policy : Policy) (description : String) :
    Performs (addComplexFlag store key policy description) fun s =>
      s.addComplexFlag store key policy description := by
  rw [addComplexFlag_eq]
  exact (addFlag store key policy description).nested

theorem addArg (store : StoreId) (arg : Positional) :
    Performs (addArg store arg) fun s => s.addArg store arg := by
  refine behind_store fun _ t => ?_
  rw [on_refuseIf_bind]
  split
  · rfl
  · simp only [on_bind, on_get, on_grow, on_pure, Session.commit, Scheme.updateStore,
      List.modify_modify_eq]
    rfl

theorem addGroup (store : StoreId) (policy : Policy) :
    Performs (addGroup store policy) fun s => s.addGroup store policy :=
  behind_store fun _ _ => rfl

theorem addMember (group : GroupId) (key description : String) :
    Performs (addMember group key description) fun s => s.addMember group key description :=
  behind_group fun g =>
    (insertFlag g.store key g.policy description (some group)).followed fun id =>
      (attachMember group id).followed (h := fun _ s => (s, id)) fun _ _ => rfl

theorem addComplexMember (group : GroupId) (key description : String) :
    Performs (addComplexMember group key description) fun s =>
      s.addComplexMember group key description := by
  rw [addComplexMember_eq]
  exact (addMember group key description).nested

theorem enableHelp : Performs enableHelp fun s => s.enableHelp := by
  have hadd : Performs (do
      let id ← Change.addFlag Scheme.root Scheme.helpKey .optional Scheme.helpDescription
      grow fun s => { s with help := some id }
      return id) _ :=
    (addFlag _ _ _ _).followed (h := fun id s => ({ s with help := some id }, id)) fun _ _ => rfl
  intro t
  rw [Change.enableHelp, on_bind, on_get]
  dsimp only [Scheme.enableHelp]
  rcases t.scheme.help with _ | id
  · exact hadd t
  · rfl

theorem setTrigger (id : FlagId) (trigger : Trigger) (a : α) :
    Performs (do setTrigger id trigger; return a) fun s =>
      (s.setTrigger id trigger).map (·, a) := by
  intro t
  rw [Change.setTrigger, on_bind, on_bind, on_get]
  dsimp only [Scheme.setTrigger]
  rcases t.scheme.flag? id with _ | f <;> rfl

theorem granting (hx : Performs x g) (f : α → Grant) :
    Performs (do return f (← x)) fun s => (g s).map fun (s, a) => (s, f a) :=
  hx.followed (h := fun a s => (s, f a)) fun _ _ => rfl

theorem register (r : Registration) : Performs (register r) fun s => s.grant r := by
  cases r with
  | flag store key policy description => exact (addFlag store key policy description).granting _
  | complexFlag store key policy description =>
    exact (addComplexFlag store key policy description).granting fun (id, children) =>
      .complexFlag id children
  | arg store arg => exact (addArg store arg).granting _
  | group store policy => exact (addGroup store policy).granting _
  | member group key description => exact (addMember group key description).granting _
  | complexMember group key description =>
    exact (addComplexMember group key description).granting fun (id, children) =>
      .complexFlag id children
  | help => exact enableHelp.granting _
  | trigger flag trigger => exact setTrigger flag trigger _

end Performs

/-! ## Scripts of registrations -/

namespace Session

variable (t : Session)

theorem perform_eq (r : Registration) : t.perform r = t.commit (t.scheme.grant r) :=
  Performs.register r t

theorem perform_session (r : Registration) : (t.perform r).2 = t.call (.register r) := by
  rw [perform_eq, call, Scheme.register_eq_grant]
  rcases t.scheme.grant r with e | ⟨s, answer⟩ <;> rfl

theorem perform_refused {r : Registration} {e : SchemeError} (h : (t.perform r).1 = .error e) :
    (t.perform r).2 = t := by
  rw [perform_eq] at h ⊢
  rcases hg : t.scheme.grant r with e' | ⟨s, answer⟩
  · rfl
  · rw [hg] at h
    cases h

theorem performAll_cons (r : Registration) (rs : List Registration) :
    t.performAll (r :: rs) = ((t.perform r).1 :: ((t.perform r).2.performAll rs).1,
      ((t.perform r).2.performAll rs).2) := rfl

theorem performAll_session (rs : List Registration) :
    (t.performAll rs).2 = (rs.map .register).foldl call t := by
  induction rs generalizing t with
  | nil => rfl
  | cons r rs ih =>
    rw [List.map_cons, List.foldl_cons, ← perform_session]
    exact ih _

theorem granted_cons_of_ok {r : Registration} {answer : Grant} (h : (t.perform r).1 = .ok answer)
    (rs : List Registration) : t.granted (r :: rs) = r :: (t.perform r).2.granted rs := by
  simp [granted, performAll_cons, h, Except.isOk, Except.toBool]

theorem granted_cons_of_error {r : Registration} {e : SchemeError}
    (h : (t.perform r).1 = .error e) (rs : List Registration) :
    t.granted (r :: rs) = t.granted rs := by
  simp [granted, performAll_cons, h, t.perform_refused h, Except.isOk, Except.toBool]

theorem performAll_granted (rs : List Registration) :
    t.performAll (t.granted rs) = ((t.performAll rs).1.filter (·.isOk), (t.performAll rs).2) := by
  -- both scripts come to a registration that is granted in the same session
  induction rs generalizing t with
  | nil => rfl
  | cons r rs ih =>
    rcases h : (t.perform r).1 with e | answer
    · rw [t.granted_cons_of_error h, ih, performAll_cons, t.perform_refused h, h]
      simp [Except.isOk, Except.toBool]
    · rw [t.granted_cons_of_ok h, performAll_cons, performAll_cons, ih, h]
      simp [Except.isOk, Except.toBool]

/-- Whatever a session went through before, a registration that is refused leaves no trace in it. -/
theorem after_traceless (script : List Call) : (after script).Traceless where
  agrees := perform_eq _
  reached := performAll_session _
  refused := perform_refused _
  granted := performAll_granted _

example : (({} : Session).performAll [.group Scheme.root .optional, .member ⟨0⟩ "-a" "",
      .member ⟨0⟩ "-a" "", .complexMember ⟨1⟩ "-b" "", .flag ⟨1⟩ "-b" .mandatory "",
      .complexFlag Scheme.root "-b" .mandatory ""]).1 =
    [.ok (.group ⟨0⟩), .ok (.flag ⟨0⟩), .error (.duplicateKey "-a"), .error .unknownGroup,
      .error .unknownStore, .ok (.complexFlag ⟨1⟩ ⟨1⟩)] := by
  decide +kernel

end Session

end CommandGrammar
