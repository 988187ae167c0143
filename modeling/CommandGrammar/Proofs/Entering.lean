import CommandGrammar.Form.Registration
import CommandGrammar.Proofs.Marks
import CommandGrammar.Proofs.Refusal
import CommandGrammar.Proofs.Registration

/-!
# Registrations by number

A registration in place does what the growth of the scheme does, and stops at no trap. Handles are
checked before they are followed; what is followed without a check is the number of a node that was
added just before, or the store of a group, which is there as long as the group is.
-/

namespace CommandGrammar

/-- On the form of a session a registration ends, at no trap, and leaves the form of the session
that takes the scheme, or the same form when it is refused. -/
def Entering.Yields {α : Type} (x : Entering α) (t : Session)
    (r : Except SchemeError (Scheme × α)) : Prop :=
  Act.Gives x.run t (t.commit r).1 (t.commit r).2

namespace Scheme

theorem insertFlag_eq (s : Scheme) (store : StoreId) (flag : Flag) :
    s.insertFlag store flag = match s.store? store with
      | none => .error .unknownStore
      | some st =>
        if Text.isBlankText flag.key then .error .emptyKey
        else if (st.keys.lookup flag.key).isSome then .error (.duplicateKey flag.key)
        else .ok (s.withFlag store flag, ⟨s.flags.length⟩) := by
  unfold insertFlag keyFault?
  rcases s.store? store with _ | st
  · rfl
  · dsimp only
    split_ifs <;> rfl

end Scheme

namespace Entering

variable {α β : Type} {x : Entering α} {f : α → Entering β} {t : Session} {s s' : Scheme} {a : α}
  {b : β} {e : SchemeError} {r : Except SchemeError (Scheme × α)}

namespace Yields

theorem pure : (pure a : Entering α).Yields t (.ok (t.scheme, a)) := Act.Gives.pure

theorem throw : (throw e : Entering α).Yields t (.error e) := Act.Gives.pure

theorem get : (get : Entering Form).Yields t (.ok (t.scheme, t.form)) :=
  Act.Gives.get.map

theorem modify {g : Form → Form} (h : g t.form = (t.under s).form) :
    (modify g : Entering PUnit).Yields t (.ok (s, ())) :=
  (Act.Gives.modify h).map

theorem lift {y : Act α} (h : y.Gives t a (t.under s)) :
    (liftM y : Entering α).Yields t (.ok (s, a)) :=
  h.map

theorem bind (h : x.Yields t (.ok (s, a)))
    (h' : (f a).Yields (t.under s) (.ok (s', b))) :
    (x >>= f).Yields t (.ok (s', b)) :=
  Act.Gives.bind h h'

theorem read {r : Except SchemeError (Scheme × β)} (h : x.Yields t (.ok (t.scheme, a)))
    (h' : (f a).Yields t r) : (x >>= f).Yields t r :=
  Act.Gives.bind h h'

theorem refused (h : x.Yields t (.error e)) : (x >>= f).Yields t (.error e) :=
  Act.Gives.bind h Act.Gives.pure

/-- What comes behind is never refused. -/
theorem followed {h : α → Scheme → Scheme × β} (hx : x.Yields t r)
    (hf : ∀ s a, r = .ok (s, a) → (f a).Yields (t.under s) (.ok (h a s))) :
    (x >>= f).Yields t (r.map fun (s, a) => h a s) := by
  rcases r with e | ⟨s, a⟩
  · exact hx.refused
  · exact hx.bind (hf s a rfl)

theorem refuse {fault : Bool} (h : fault = true) :
    (Entering.refuse fault e).Yields t (.error e) := by
  rw [h]
  exact throw

theorem passed {fault : Bool} (h : fault = false) :
    (Entering.refuse fault e).Yields t (.ok (t.scheme, ())) := by
  rw [h]
  exact pure

/-- What comes behind a check may rely on it. -/
theorem checked {fault : Bool} {f : Unit → Entering α}
    (h : fault = false → (f ()).Yields t r) :
    (Entering.refuse fault e >>= f).Yields t (if fault then .error e else r) := by
  rcases fault
  · exact (passed rfl).read (h rfl)
  · exact (refuse rfl).refused

end Yields

/-! ## Changes in place -/

section Parts

variable {store : StoreId} {st : Store} {id : FlagId} {flag : Flag}

theorem listFlag_gives (hst : t.scheme.store? store = some st) (policy : Policy) :
    (listFlag store id policy).Gives t () (t.under (t.scheme.listFlag store id policy)) := by
  let list (st : Store) : Store := { st with entries := st.entries ++ [.flag id] }
  have hst' : (t.scheme.updateStore store list).store? store = some (list st) := by
    rw [Scheme.store?_updateStore, hst, Option.map_some, if_pos rfl]
  have hcount := Act.updateStore_gives (t := t.under (t.scheme.updateStore store list)) hst'
    fun st => { st with flagTally := st.flagTally.count policy }
  have htwice : (t.scheme.updateStore store list).updateStore store (fun st =>
      { st with flagTally := st.flagTally.count policy }) = t.scheme.listFlag store id policy := by
    simp only [Scheme.listFlag, Scheme.updateStore, List.modify_modify_eq]
    rfl
  exact (Act.updateStore_gives hst list).bind (htwice ▸ hcount)

theorem nest_gives (hf : t.scheme.flag? id = some flag) :
    (nest id).Gives t (t.scheme.nest id).2 (t.under (t.scheme.nest id).1) := by
  let s : Scheme := { t.scheme with stores := t.scheme.stores ++ [({} : Store)] }
  let own (f : Flag) : Flag := { f with children := some ⟨t.scheme.stores.length⟩ }
  exact Act.Gives.get.bind ((Act.Gives.modify (u := t.under s) rfl).bind
    ((Act.updateFlag_gives (t := t.under s) hf own).bind .pure))

theorem listMember_gives {group : GroupId} {g : Group} (hg : t.scheme.group? group = some g)
    (hst : t.scheme.store? g.store = some st) :
    (listMember group id).Gives t () (t.under (t.scheme.listMember group id)) := by
  let join (g : Group) : Group := { g with members := g.members ++ [id] }
  let s : Scheme := t.scheme.updateGroup group join
  have hg' : s.group? group = some (join g) := by
    have hg : t.scheme.groups[group.index]? = some g := hg
    simp [s, Scheme.group?, Scheme.updateGroup, hg]
  refine (Act.updateGroup_gives hg join).bind
    ((Act.groupAt_gives (t := t.under s) hg').bind ?_)
  simp only [Scheme.listMember, hg, join, List.length_append, List.length_singleton,
    Nat.add_eq_right, List.length_eq_zero_iff, List.isEmpty_iff]
  split_ifs
  · exact Act.updateStore_gives (t := t.under s) hst _
  · exact .pure

end Parts

/-! ## Registrations -/

section Registrations

variable {store : StoreId}

theorem checkStore_yields {f : Unit → Entering α}
    {r : Store → Except SchemeError (Scheme × α)}
    (h : ∀ st, t.scheme.store? store = some st → (f ()).Yields t (r st)) :
    (checkStore store >>= f).Yields t (match t.scheme.store? store with
      | none => .error .unknownStore
      | some st => r st) := by
  rcases hst : t.scheme.store? store with _ | st
  · have hle := (t.scheme.store?_eq_none_iff store).1 hst
    exact .refused (.read .get (.refuse (decide_eq_true hle)))
  · have hlt : ¬t.scheme.stores.length ≤ store.index := by
      rw [← t.scheme.store?_eq_none_iff, hst]
      exact nofun
    exact .read (.read .get (.passed (decide_eq_false hlt))) (h st hst)

theorem insertFlag_yields (hp : t.pass.Within t.scheme) (store : StoreId) (key : String)
    (policy : Policy) (description : String) (group : Option GroupId) :
    (insertFlag store key policy description group).Yields t (t.scheme.insertFlag store
      { key, policy, description, children := none, group, trigger := none }) := by
  let flag : Flag := { key, policy, description, children := none, group, trigger := none }
  let s : Scheme := { t.scheme with flags := t.scheme.flags ++ [flag] }
  have hpush : { t.form with flags := t.form.flags ++ [({ flag } : FlagCell)] } =
      (t.under s).form :=
    congrArg (fun flags => { t.form with flags }) (hp.flagCells_concat flag).symm
  have hlen : t.form.flags.length = t.scheme.flags.length := List.length_mapIdx
  rw [Scheme.insertFlag_eq]
  refine checkStore_yields fun st hst => .checked fun _ =>
    .read (.lift (Act.storeAt_gives hst)) (.checked fun _ => .read .get ?_)
  dsimp only
  rw [hlen]
  refine (Yields.modify hpush).bind
    ((Yields.lift (Act.updateStore_gives (t := t.under s) hst _)).bind ?_)
  exact .pure

theorem addFlag_yields (hp : t.pass.Within t.scheme) (store : StoreId) (key : String)
    (policy : Policy) (description : String) :
    (addFlag store key policy description).Yields t
      (t.scheme.addFlag store key policy description) := by
  refine (insertFlag_yields hp store key policy description none).followed
    (h := fun id s => (s.listFlag store id policy, id)) fun s id h => ?_
  obtain ⟨st, hst, -, -, rfl⟩ := Scheme.insertFlag_ok h
  let s := t.scheme.withFlag store ⟨key, policy, description, none, none, none⟩
  have hst' : s.store? store = some _ :=
    (Scheme.store?_withFlag store).trans (congrArg (Option.map _) hst)
  refine (Yields.lift (listFlag_gives (t := t.under s) hst' policy)).bind ?_
  exact .pure

theorem exists_flag_of_addFlag {key description : String} {policy : Policy} {id : FlagId}
    (h : s.addFlag store key policy description = .ok (s', id)) : ∃ f, s'.flag? id = some f := by
  obtain ⟨⟨s₁, id₁⟩, hi, h⟩ := Scheme.exists_of_bind_ok h
  cases h
  obtain ⟨-, -, -, rfl, rfl⟩ := Scheme.insertFlag_ok hi
  let flag : Flag := ⟨key, policy, description, none, none, none⟩
  have hnew : (s.withFlag store flag).flag? ⟨s.flags.length⟩ = some flag :=
    Scheme.flag?_withFlag_new
  exact ⟨flag, hnew⟩

theorem addArg_yields (hp : t.pass.Within t.scheme) (store : StoreId) (arg : Positional) :
    (addArg store arg).Yields t (t.scheme.addArg store arg) := by
  let s : Scheme := { t.scheme with args := t.scheme.args ++ [arg] }
  have hpush : { t.form with args := t.form.args ++ [({ arg } : ArgCell)] } = (t.under s).form :=
    congrArg (fun args => { t.form with args }) (hp.argCells_concat arg).symm
  have hlen : t.form.args.length = t.scheme.args.length := List.length_mapIdx
  refine checkStore_yields fun st hst => .checked fun _ => .read .get ?_
  dsimp only
  rw [hlen]
  refine (Yields.modify hpush).bind
    ((Yields.lift (Act.updateStore_gives (t := t.under s) hst _)).bind ?_)
  exact .pure

theorem addGroup_yields (hp : t.pass.Within t.scheme) (store : StoreId) (policy : Policy) :
    (addGroup store policy).Yields t (t.scheme.addGroup store policy) := by
  let group : Group := { store, policy, members := [] }
  let s : Scheme := { t.scheme with groups := t.scheme.groups ++ [group] }
  have hpush : { t.form with groups := t.form.groups ++ [({ group } : GroupCell)] } =
      (t.under s).form :=
    congrArg (fun groups => { t.form with groups }) (hp.groupCells_concat group).symm
  have hlen : t.form.groups.length = t.scheme.groups.length := List.length_mapIdx
  refine checkStore_yields fun st hst => .read .get ?_
  dsimp only
  rw [hlen]
  refine (Yields.modify hpush).bind
    ((Yields.lift (Act.updateStore_gives (t := t.under s) hst _)).bind ?_)
  exact .pure

theorem groupHome_yields {group : GroupId} {f : StoreId × Policy → Entering α}
    {r : Group → Except SchemeError (Scheme × α)}
    (h : ∀ g, t.scheme.group? group = some g → (f (g.store, g.policy)).Yields t (r g)) :
    (groupHome group >>= f).Yields t (match t.scheme.group? group with
      | none => .error .unknownGroup
      | some g => r g) := by
  have hcell : t.form.groups[group.index]? = (t.scheme.group? group).map fun g =>
      { group := g, matched := t.pass.isGroupMatched group, chosen := t.pass.chosen? group } :=
    List.getElem?_mapIdx
  rcases hg : t.scheme.group? group with _ | g <;> rw [hg] at hcell
  · refine .refused (.read .get ?_)
    rw [hcell]
    exact .throw
  · refine .read (.read .get ?_) (h g hg)
    rw [hcell]
    exact .pure

theorem addMember_yields (hp : t.pass.Within t.scheme) (group : GroupId)
    (key description : String) :
    (addMember group key description).Yields t (t.scheme.addMember group key description) := by
  refine groupHome_yields fun g hg => ?_
  refine (insertFlag_yields hp g.store key g.policy description (some group)).followed
    (h := fun id s => (s.listMember group id, id)) fun s id h => ?_
  obtain ⟨st, hst, -, -, rfl⟩ := Scheme.insertFlag_ok h
  let s := t.scheme.withFlag g.store ⟨key, g.policy, description, none, some group, none⟩
  have hst' : s.store? g.store = some _ :=
    (Scheme.store?_withFlag g.store).trans (congrArg (Option.map _) hst)
  refine (Yields.lift (listMember_gives (t := t.under s) hg hst')).bind ?_
  exact .pure

theorem exists_flag_of_addMember {group : GroupId} {key description : String} {id : FlagId}
    (h : s.addMember group key description = .ok (s', id)) : ∃ f, s'.flag? id = some f := by
  rcases hg : s.group? group with _ | g <;> simp only [Scheme.addMember, hg] at h
  · cases h
  · obtain ⟨⟨s₁, id₁⟩, hi, h⟩ := Scheme.exists_of_bind_ok h
    cases h
    obtain ⟨-, -, -, rfl, rfl⟩ := Scheme.insertFlag_ok hi
    let flag : Flag := ⟨key, g.policy, description, none, some group, none⟩
    have hg' : (s.withFlag g.store flag).group? group = some g := hg
    have hnew : (s.withFlag g.store flag).flag? ⟨s.flags.length⟩ = some flag :=
      Scheme.flag?_withFlag_new
    refine ⟨flag, ?_⟩
    dsimp only
    rw [Scheme.listMember_eq hg']
    exact hnew

/-- A flag that was added can be given a store. -/
theorem nested_yields {x : Entering FlagId} {r : Except SchemeError (Scheme × FlagId)}
    (hx : x.Yields t r) (hr : ∀ s id, r = .ok (s, id) → ∃ f, s.flag? id = some f) :
    Yields (do let id ← x; return (id, ← nest id)) t (do
      let (s, id) ← r
      let (s, children) := s.nest id
      return (s, id, children)) := by
  refine hx.followed (h := fun id s => ((s.nest id).1, id, (s.nest id).2)) fun s id h => ?_
  obtain ⟨f, hf⟩ := hr s id h
  refine (Yields.lift (nest_gives (t := t.under s) hf)).bind ?_
  exact .pure

theorem enableHelp_yields (hp : t.pass.Within t.scheme) :
    enableHelp.Yields t t.scheme.enableHelp := by
  refine .read .get ?_
  rw [Scheme.enableHelp, Session.form]
  rcases t.scheme.help with _ | id
  · refine (addFlag_yields hp _ _ _ _).followed (h := fun id s => ({ s with help := some id }, id))
      fun s id _ => (Yields.modify (s := { s with help := some id }) rfl).bind ?_
    exact .pure
  · exact .pure

theorem setTrigger_yields (id : FlagId) (trigger : Trigger) (a : α) :
    Yields (do setTrigger id trigger; return a) t
      ((t.scheme.setTrigger id trigger).map (·, a)) := by
  have hcell : t.form.flags[id.index]? = (t.scheme.flag? id).map fun flag =>
      { flag, matched := t.pass.isMatched id } :=
    List.getElem?_mapIdx
  rw [Scheme.setTrigger]
  rcases hf : t.scheme.flag? id with _ | f <;> rw [hf] at hcell
  · refine .refused (.read .get ?_)
    rw [hcell]
    exact .throw
  · let fire (f : Flag) : Flag := { f with trigger := some trigger }
    have hset : (setTrigger id trigger).Yields t
        (.ok (t.scheme.updateFlag id fire, ())) := by
      refine .read .get ?_
      rw [hcell]
      exact .lift (Act.updateFlag_gives hf fire)
    refine hset.bind ?_
    exact .pure

theorem addComplexFlag_yields (hp : t.pass.Within t.scheme) (store : StoreId) (key : String)
    (policy : Policy) (description : String) :
    (addComplexFlag store key policy description).Yields t
      (t.scheme.addComplexFlag store key policy description) := by
  rw [addComplexFlag_eq]
  exact nested_yields (addFlag_yields hp _ _ _ _) fun _ _ => exists_flag_of_addFlag

theorem addComplexMember_yields (hp : t.pass.Within t.scheme) (group : GroupId)
    (key description : String) :
    (addComplexMember group key description).Yields t
      (t.scheme.addComplexMember group key description) := by
  rw [addComplexMember_eq]
  exact nested_yields (addMember_yields hp _ _ _) fun _ _ => exists_flag_of_addMember

def register : Registration → Entering Grant
  | .flag store key policy description => return .flag (← addFlag store key policy description)
  | .complexFlag store key policy description => do
    let (id, children) ← addComplexFlag store key policy description
    return .complexFlag id children
  | .arg store arg => return .arg (← addArg store arg)
  | .group store policy => return .group (← addGroup store policy)
  | .member group key description => return .flag (← addMember group key description)
  | .complexMember group key description => do
    let (id, children) ← addComplexMember group key description
    return .complexFlag id children
  | .help => return .flag (← enableHelp)
  | .trigger flag trigger => do
    setTrigger flag trigger
    return .trigger

theorem Yields.granting (hx : x.Yields t r) (f : α → Grant) :
    Yields (do return f (← x)) t (r.map fun (s, a) => (s, f a)) :=
  hx.followed (h := fun a s => (s, f a)) fun _ _ _ => .pure

theorem register_yields (hp : t.pass.Within t.scheme) (r : Registration) :
    (register r).Yields t (t.scheme.grant r) := by
  cases r with
  | flag store key policy description => exact (addFlag_yields hp _ _ _ _).granting _
  | complexFlag store key policy description =>
    exact (addComplexFlag_yields hp _ _ _ _).granting fun (id, children) =>
      .complexFlag id children
  | arg store arg => exact (addArg_yields hp _ _).granting _
  | group store policy => exact (addGroup_yields hp _ _).granting _
  | member group key description => exact (addMember_yields hp _ _ _).granting _
  | complexMember group key description =>
    exact (addComplexMember_yields hp _ _ _).granting fun (id, children) =>
      .complexFlag id children
  | help => exact (enableHelp_yields hp).granting _
  | trigger id trigger => exact setTrigger_yields id trigger _

end Registrations

end Entering

end CommandGrammar
