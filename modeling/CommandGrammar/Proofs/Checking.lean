import CommandGrammar.Grammar.Build
import CommandGrammar.Grammar.Check
import CommandGrammar.Proofs.Registration

/-!
# Checked grammars can be built

The check keeps a list of the keys seen in a scope; building registers them in the store of the
scope. Both go through a grammar in the same order. While they do, the keys seen are those of the
store: what is registered below a flag goes into stores that are new, and leaves the keys of all
others alone. So both succeed, or both fail, and with the same fault unless an argument has two:
its name is checked first, and its converter is built first.
-/

namespace CommandGrammar

/-- Faults of what a grammar says. -/
inductive GrammarError.OfContent : GrammarError → Prop where
  | emptyKey : OfContent (.scheme .emptyKey)
  | emptyArgumentName : OfContent (.scheme .emptyArgumentName)
  | duplicateKey (key : String) : OfContent (.scheme (.duplicateKey key))
  | invalidConverter (argument : String) (fault : ConverterFault) :
    OfContent (.invalidConverter argument fault)

/-- Two faults of one grammar: the same, or those of one argument. -/
inductive GrammarError.Matches : GrammarError → GrammarError → Prop where
  | same {e : GrammarError} (h : e.OfContent) : Matches e e
  | argument {name : String} {fault : ConverterFault} (h : Text.isBlankText name = true) :
    Matches (.scheme .emptyArgumentName) (.invalidConverter name fault)

theorem GrammarError.Matches.ofContent {e e' : GrammarError} (h : e.Matches e') : e'.OfContent := by
  cases h with
  | same h => exact h
  | argument => exact .invalidConverter _ _

/-- Both succeed, with related results, or both fail, with matching faults. -/
inductive Agrees {α β : Type} (R : α → β → Prop) :
    Except GrammarError α → Except GrammarError β → Prop where
  | ok {a b} (h : R a b) : Agrees R (.ok a) (.ok b)
  | error {e e'} (h : e.Matches e') : Agrees R (.error e) (.error e')

section Agrees

variable {α β γ δ : Type} {R : α → β → Prop} {x : Except GrammarError α} {y : Except GrammarError β}

theorem Agrees.imp {R' : α → β → Prop} (h : Agrees R x y) (hr : ∀ {a b}, R a b → R' a b) :
    Agrees R' x y := by
  cases h with
  | ok h => exact .ok (hr h)
  | error h => exact .error h

theorem Agrees.and_left (h : Agrees R x y) : Agrees (fun a b => x = .ok a ∧ R a b) x y := by
  cases h with
  | ok h => exact .ok ⟨rfl, h⟩
  | error h => exact .error h

theorem Agrees.bind {R' : γ → δ → Prop} {f : α → Except GrammarError γ}
    {g : β → Except GrammarError δ} (h : Agrees R x y)
    (hf : ∀ {a b}, R a b → Agrees R' (f a) (g b)) : Agrees R' (x >>= f) (y >>= g) := by
  cases h with
  | ok h => exact hf h
  | error h => exact .error h

/-- What goes on on one side only cannot fail. -/
theorem Agrees.bind_right {R' : α → δ → Prop} {g : β → Except GrammarError δ} (h : Agrees R x y)
    (hg : ∀ {a b}, R a b → ∃ c, g b = .ok c ∧ R' a c) : Agrees R' x (y >>= g) := by
  cases h with
  | ok h =>
    obtain ⟨c, hc, h⟩ := hg h
    change Agrees R' _ (g _)
    rw [hc]
    exact .ok h
  | error h => exact .error h

theorem Agrees.map_left {R' : γ → β → Prop} {f : α → γ} (h : Agrees R x y)
    (hf : ∀ {a b}, R a b → R' (f a) b) : Agrees R' (x >>= fun a => pure (f a)) y := by
  cases h with
  | ok h => exact .ok (hf h)
  | error h => exact .error h

end Agrees

theorem Draft.register_bind {α β : Type} (x : Except SchemeError α) (f : α → Except SchemeError β) :
    Draft.register (x >>= f) = Draft.register x >>= fun a => Draft.register (f a) := by
  cases x <;> rfl

namespace Scheme

/-- The keys of a known store are those seen in a scope. -/
structure Scope (s : Scheme) (store : StoreId) (seen : List String) : Prop where
  known : store.index < s.stores.length
  keys : ∀ key, key ∈ seen ↔ ∃ id, (key, id) ∈ s.keysOf store

/-- What registrations in a store, and in stores that are new, leave as it was. -/
structure Extends (s s' : Scheme) (store : StoreId) : Prop where
  stores_le : s.stores.length ≤ s'.stores.length
  keys_other : ∀ {other : StoreId}, other ≠ store → other.index < s.stores.length →
    ∀ {x}, x ∈ s'.keysOf other ↔ x ∈ s.keysOf other
  group_store : ∀ {id g}, s.group? id = some g → ∃ g', s'.group? id = some g' ∧ g'.store = g.store
  help : s'.help = s.help

/-- A scheme grown by registrations in a store, and the keys seen there since. -/
structure Grown (s s' : Scheme) (store : StoreId) (seen : List String) : Prop extends
  Extends s s' store, Scope s' store seen

variable {s s' s'' : Scheme} {store child : StoreId} {seen seen' : List String}

/-- Registrations in another store count if that store is new. -/
theorem Extends.trans (h : s.Extends s' store) (h' : s'.Extends s'' child)
    (hc : child = store ∨ s.stores.length ≤ child.index) : s.Extends s'' store where
  stores_le := h.stores_le.trans h'.stores_le
  keys_other {other} hne hlt x := by
    have hne' : other ≠ child := by
      rintro rfl
      rcases hc with hc | hc
      · exact hne hc
      · omega
    exact (h'.keys_other hne' (hlt.trans_le h.stores_le)).trans (h.keys_other hne hlt)
  group_store hg := by
    obtain ⟨g', hg', hs'⟩ := h.group_store hg
    obtain ⟨g'', hg'', hs''⟩ := h'.group_store hg'
    exact ⟨g'', hg'', hs''.trans hs'⟩
  help := h'.help.trans h.help

theorem Scope.extends (h : s.Scope store seen) (he : s.Extends s' child) (hne : store ≠ child) :
    s'.Scope store seen where
  known := h.known.trans_le he.stores_le
  keys key := by
    simp only [he.keys_other hne h.known]
    exact h.keys key

theorem Scope.grown_refl (h : s.Scope store seen) : s.Grown s store seen :=
  { h with
    stores_le := le_rfl
    keys_other := fun _ _ => Iff.rfl
    group_store := fun hg => ⟨_, hg, rfl⟩
    help := rfl }

theorem Grown.trans (h : s.Grown s' store seen) (h' : s'.Grown s'' store seen') :
    s.Grown s'' store seen' :=
  { h.toExtends.trans h'.toExtends (.inl rfl), h'.toScope with }

/-- What is registered in a new store is registered below its owner. -/
theorem Grown.inner (h : s.Grown s' store seen) (hs : store.index < s.stores.length)
    (hc : s.stores.length ≤ child.index) (h' : s'.Extends s'' child) : s.Grown s'' store seen := by
  have hne : store ≠ child := by
    rintro rfl
    omega
  exact { h.toExtends.trans h' (.inr hc), h.toScope.extends h' hne with }

section Updates

variable {id : FlagId} {flag : Flag} {policy : Policy}

/-- An update that leaves the keys of all stores alone. -/
theorem Scope.grown_of_keys (h : s.Scope store seen) (hl : s.stores.length ≤ s'.stores.length)
    (hk : ∀ {other x}, x ∈ s'.keysOf other ↔ x ∈ s.keysOf other)
    (hg : ∀ {id g}, s.group? id = some g → ∃ g', s'.group? id = some g' ∧ g'.store = g.store)
    (hh : s'.help = s.help) : s.Grown s' store seen where
  stores_le := hl
  keys_other _ _ _ := hk
  group_store := hg
  help := hh
  known := h.known.trans_le hl
  keys key := by
    simp only [hk]
    exact h.keys key

theorem Scope.withFlag (h : s.Scope store seen) :
    s.Grown (s.withFlag store flag) store (flag.key :: seen) := by
  obtain ⟨st, hst⟩ := exists_store?_of_lt h.known
  have hlen : (s.withFlag store flag).stores.length = s.stores.length := by
    simp [Scheme.withFlag, updateStore]
  exact {
    stores_le := hlen.ge
    keys_other := fun hne _ _ => by simp [mem_keysOf_withFlag hst, hne]
    group_store := fun hg => ⟨_, hg, rfl⟩
    help := rfl
    known := hlen ▸ h.known
    keys := fun key => by simp [h.keys, mem_keysOf_withFlag hst, exists_or, or_comm] }

theorem Scope.listFlag (h : s.Scope store seen) (listed : StoreId) :
    s.Grown (s.listFlag listed id policy) store seen :=
  h.grown_of_keys (by simp [Scheme.listFlag, updateStore]) (by simp [keysOf_listFlag])
    (fun hg => ⟨_, hg, rfl⟩) rfl

theorem Scope.withMember (h : s.Scope store seen) {group : GroupId} {g : Group} :
    s.Grown (s.withMember group g id) store seen := by
  refine h.grown_of_keys (by simp [Scheme.withMember, updateStore, updateGroup])
    (by simp [keysOf_withMember]) (fun {_ _} hg' => ?_) rfl
  refine ⟨_, by rw [group?_withMember, hg']; rfl, ?_⟩
  split_ifs <;> rfl

theorem Scope.nest (h : s.Scope store seen) : s.Grown (s.nest id).1 store seen :=
  h.grown_of_keys (by simp [Scheme.nest, updateFlag]) mem_keysOf_nest
    (fun hg => ⟨_, hg, rfl⟩) rfl

theorem scope_nest (id : FlagId) : (s.nest id).1.Scope (s.nest id).2 [] where
  known := by simp [Scheme.nest, updateFlag]
  keys key := by
    have hnone : s.store? (s.nest id).2 = none := List.getElem?_eq_none le_rfl
    simp only [mem_keysOf_nest]
    simp [keysOf, hnone]

theorem Scope.withArg (h : s.Scope store seen) (placed : StoreId) (arg : Positional) :
    s.Grown (s.withArg placed arg) store seen :=
  h.grown_of_keys (by simp [Scheme.withArg, updateStore]) (by simp [keysOf_withArg])
    (fun hg => ⟨_, hg, rfl⟩) rfl

theorem Scope.withGroup (h : s.Scope store seen) (listed : StoreId) (policy : Policy) :
    s.Grown (s.withGroup listed policy) store seen :=
  h.grown_of_keys (by simp [Scheme.withGroup, updateStore]) (by simp [keysOf_withGroup])
    (fun hg => ⟨_, group?_withGroup hg, rfl⟩) rfl

end Updates

section Registrations

variable {key description : String} {policy : Policy}

/-- A flag with a key that was not seen is inserted. -/
theorem insertFlag_agrees (hs : s.Scope store seen) (flag : Flag) :
    Agrees (fun seen' x => s.Grown x.1 store seen' ∧ x.1.groups = s.groups)
      (Grammar.addKey seen flag.key) (Draft.register (s.insertFlag store flag)) := by
  obtain ⟨st, hst⟩ := exists_store?_of_lt hs.known
  have hkeys : (st.keys.lookup flag.key).isSome = seen.contains flag.key := by
    rw [Bool.eq_iff_iff, List.lookup_isSome_iff, List.contains_iff_mem, hs.keys]
    simp [keysOf, hst]
  unfold Grammar.addKey insertFlag keyFault?
  simp only [hst, hkeys]
  split_ifs with hb hc
  · exact .error (.same .emptyKey)
  · exact .error (.same (.duplicateKey _))
  · exact .ok ⟨hs.withFlag, rfl⟩

theorem addFlag_agrees (hs : s.Scope store seen) :
    Agrees (fun seen' x => s.Grown x.1 store seen') (Grammar.addKey seen key)
      (Draft.register (s.addFlag store key policy description)) := by
  rw [addFlag, Draft.register_bind]
  refine (insertFlag_agrees hs
    { key, policy, description, children := none, group := none, trigger := none }).bind_right ?_
  rintro seen' ⟨s', id⟩ ⟨h, -⟩
  exact ⟨_, rfl, h.trans (h.toScope.listFlag store)⟩

theorem addMember_agrees {group : GroupId} {g : Group} (hg : s.group? group = some g)
    (hs : s.Scope g.store seen) :
    Agrees (fun seen' x => s.Grown x.1 g.store seen') (Grammar.addKey seen key)
      (Draft.register (s.addMember group key description)) := by
  simp only [addMember, hg]
  rw [Draft.register_bind]
  refine (insertFlag_agrees hs
    { key, policy := g.policy, description, children := none, group := some group,
      trigger := none }).bind_right ?_
  rintro seen' ⟨s', id⟩ ⟨h, hgroups⟩
  have hg' : s'.group? group = some g := by
    rw [group?, hgroups]
    exact hg
  refine ⟨_, rfl, ?_⟩
  rw [listMember_eq hg']
  exact h.trans h.toScope.withMember

/-- A flag gets a new store, in which no key was seen. -/
structure Nested (s s' : Scheme) (store child : StoreId) (seen : List String) : Prop extends
    Grown s s' store seen where
  inner : s'.Scope child []
  new : s.stores.length ≤ child.index

theorem Grown.nested (h : s.Grown s' store seen) (id : FlagId) :
    s.Nested (s'.nest id).1 store (s'.nest id).2 seen :=
  { h.trans h.toScope.nest with
    inner := scope_nest id
    new := h.stores_le }

theorem addComplexFlag_agrees (hs : s.Scope store seen) :
    Agrees (fun seen' x => s.Nested x.1 store x.2.2 seen') (Grammar.addKey seen key)
      (Draft.register (s.addComplexFlag store key policy description)) := by
  rw [addComplexFlag, Draft.register_bind]
  exact (addFlag_agrees hs).bind_right fun {seen' x} h => ⟨_, rfl, h.nested _⟩

theorem addComplexMember_agrees {group : GroupId} {g : Group} (hg : s.group? group = some g)
    (hs : s.Scope g.store seen) :
    Agrees (fun seen' x => s.Nested x.1 g.store x.2.2 seen') (Grammar.addKey seen key)
      (Draft.register (s.addComplexMember group key description)) := by
  rw [addComplexMember, Draft.register_bind]
  exact (addMember_agrees hg hs).bind_right fun {seen' x} h => ⟨_, rfl, h.nested _⟩

theorem addArg_eq (hs : s.Scope store seen) (arg : Positional) :
    s.addArg store arg = if Text.isBlankText arg.name then .error .emptyArgumentName
      else .ok (s.withArg store arg, ⟨s.args.length⟩) := by
  obtain ⟨st, hst⟩ := exists_store?_of_lt hs.known
  simp only [addArg, hst]
  rfl

theorem addGroup_eq (hs : s.Scope store seen) (policy : Policy) :
    s.addGroup store policy = .ok (s.withGroup store policy, ⟨s.groups.length⟩) := by
  obtain ⟨st, hst⟩ := exists_store?_of_lt hs.known
  simp only [addGroup, hst]
  rfl

end Registrations

end Scheme

section Grammar

open Scheme

variable {files : Files} {store : StoreId} {seen : List String}

theorem Converter.pipeline_error {c : Converter} {name : String} {e : GrammarError}
    (h : c.pipeline files name = .error e) : ∃ fault, e = .invalidConverter name fault := by
  unfold Converter.pipeline at h
  split at h
  · cases h
    exact ⟨_, rfl⟩
  · cases h

theorem addArgs_agrees (files : Files) (store : StoreId) (parent : NodePath) {seen : List String} :
    ∀ (args : List ArgSpec) {d : Draft}, d.scheme.Scope store seen →
      Agrees (fun _ d' => d.scheme.Grown d'.scheme store seen) (Grammar.checkArgs files args)
        (d.addArgs files store parent args)
  | [], _, hs => .ok hs.grown_refl
  | arg :: args, d, hs => by
    rw [Grammar.checkArgs, Draft.addArgs]
    rcases hp : arg.converter.pipeline files arg.name with e | pipeline
    · obtain ⟨fault, rfl⟩ := Converter.pipeline_error hp
      by_cases hb : Text.isBlankText arg.name = true
      · rw [if_pos hb]
        exact .error (.argument hb)
      · rw [if_neg hb]
        exact .error (.same (.invalidConverter _ _))
    · by_cases hb : Text.isBlankText arg.name = true
      · simp only [hb, if_true, addArg_eq hs]
        exact .error (.same .emptyArgumentName)
      · simp only [hb, addArg_eq hs]
        have h := hs.withArg store
          { name := arg.name, policy := arg.policy, description := arg.description, pipeline }
        exact (addArgs_agrees files store parent args h.toScope).imp fun hr => h.trans hr

/-- A flag is added with all that may follow it, if all of that agrees. -/
theorem checkSpec_agrees {d : Draft} {key description : String} {args : List ArgSpec}
    {flags : List FlagEntry} (path : NodePath)
    {complex : Except GrammarError (Scheme × FlagId × StoreId)}
    {simple : Except GrammarError (Scheme × FlagId)} (hs : d.scheme.Scope store seen)
    (hcomplex : Agrees (fun seen' x => d.scheme.Nested x.1 store x.2.2 seen')
      (Grammar.addKey seen key) complex)
    (hsimple : Agrees (fun seen' x => d.scheme.Grown x.1 store seen')
      (Grammar.addKey seen key) simple)
    (ih : ∀ {d : Draft} (child : StoreId) (path : NodePath), d.scheme.Scope child [] →
      Agrees (fun seen' d' => d.scheme.Grown d'.scheme child seen')
        (Grammar.checkEntries files [] flags) (d.addEntries files child path flags)) :
    Agrees (fun seen' d' => d.scheme.Grown d'.scheme store seen')
      (Grammar.checkSpec files seen ⟨key, description, args, flags⟩)
      (if (FlagSpec.mk key description args flags).isComplex then do
        let (scheme, id, children) ← complex
        let d ← (d.noteFlag scheme path id).addArgs files children path args
        d.addEntries files children path flags
      else do
        let (scheme, id) ← simple
        return d.noteFlag scheme path id) := by
  rw [Grammar.checkSpec]
  split_ifs with hc
  · refine hcomplex.bind ?_
    rintro seen' ⟨scheme, id, child⟩ h
    refine (addArgs_agrees files child path args (d := d.noteFlag scheme path id) h.inner).bind ?_
    intro _ d₁ hargs
    refine (ih child path hargs.toScope).map_left (f := fun _ => seen') fun hflags => ?_
    exact h.toGrown.inner hs.known h.new (hargs.toExtends.trans hflags.toExtends (.inl rfl))
  · obtain ⟨rfl, rfl⟩ : args = [] ∧ flags = [] := by
      simpa [FlagSpec.isComplex, FlagSpec.args, FlagSpec.flags] using hc
    refine hsimple.bind ?_
    rintro seen' ⟨scheme, id⟩ h
    simp only [Grammar.checkArgs, Grammar.checkEntries]
    exact .ok h

mutual

theorem addEntries_agrees (files : Files) : ∀ (es : List FlagEntry) {d : Draft} {seen : List String}
    (store : StoreId) (parent : NodePath), d.scheme.Scope store seen →
      Agrees (fun seen' d' => d.scheme.Grown d'.scheme store seen')
        (Grammar.checkEntries files seen es) (d.addEntries files store parent es)
  | [], _, _, store, parent, hs => .ok hs.grown_refl
  | e :: es, d, seen, store, parent, hs => by
    rw [Grammar.checkEntries, Draft.addEntries]
    refine (addEntry_agrees files e store parent hs).bind fun h => ?_
    exact (addEntries_agrees files es store parent h.toScope).imp h.trans

theorem addEntry_agrees (files : Files) : ∀ (e : FlagEntry) {d : Draft} {seen : List String}
    (store : StoreId) (parent : NodePath), d.scheme.Scope store seen →
      Agrees (fun seen' d' => d.scheme.Grown d'.scheme store seen')
        (Grammar.checkEntry files seen e) (d.addEntry files store parent e)
  | .flag policy ⟨key, description, args, flags⟩, d, seen, store, parent, hs => by
    rw [Grammar.checkEntry, Draft.addEntry]
    exact checkSpec_agrees _ hs (addComplexFlag_agrees hs) (addFlag_agrees hs)
      fun child path => addEntries_agrees files flags child path
  | .group policy members, d, seen, store, parent, hs => by
    rw [Grammar.checkEntry, Draft.addEntry, addGroup_eq hs]
    have h := hs.withGroup store policy
    exact (addMembers_agrees files members parent group?_withGroup_new h.toScope).imp h.trans

theorem addMembers_agrees (files : Files) : ∀ (specs : List FlagSpec) {d : Draft}
    {seen : List String} {group : GroupId} {g : Group} (parent : NodePath),
    d.scheme.group? group = some g → d.scheme.Scope g.store seen →
      Agrees (fun seen' d' => d.scheme.Grown d'.scheme g.store seen')
        (Grammar.checkSpecs files seen specs) (d.addMembers files group parent specs)
  | [], _, _, _, _, _, _, hs => .ok hs.grown_refl
  | spec :: specs, d, seen, group, g, parent, hg, hs => by
    rw [Grammar.checkSpecs, Draft.addMembers]
    refine (addSpec_agrees files spec parent hg hs).bind fun h => ?_
    -- the group has got a member, and is still in the same store
    obtain ⟨g', hg', hstore⟩ := h.group_store hg
    rw [← hstore] at h ⊢
    exact (addMembers_agrees files specs parent hg' h.toScope).imp h.trans

theorem addSpec_agrees (files : Files) : ∀ (spec : FlagSpec) {d : Draft} {seen : List String}
    {group : GroupId} {g : Group} (parent : NodePath),
    d.scheme.group? group = some g → d.scheme.Scope g.store seen →
      Agrees (fun seen' d' => d.scheme.Grown d'.scheme g.store seen')
        (Grammar.checkSpec files seen spec) (d.addMember files group parent spec)
  | ⟨key, description, args, flags⟩, d, seen, group, g, parent, hg, hs => by
    rw [Draft.addMember]
    exact checkSpec_agrees _ hs (addComplexMember_agrees hg hs) (addMember_agrees hg hs)
      fun child path => addEntries_agrees files flags child path

end

theorem addKey_eq_ok {key : String} {seen' : List String}
    (h : Grammar.addKey seen key = .ok seen') : seen' = key :: seen := by
  unfold Grammar.addKey at h
  split_ifs at h
  cases h
  rfl

theorem checkSpec_eq_ok {spec : FlagSpec} {seen' : List String}
    (h : Grammar.checkSpec files seen spec = .ok seen') : seen' = spec.key :: seen := by
  obtain ⟨key, description, args, flags⟩ := spec
  rw [Grammar.checkSpec] at h
  obtain ⟨seen₁, hkey, h⟩ := exists_of_bind_ok h
  obtain ⟨-, -, h⟩ := exists_of_bind_ok h
  obtain ⟨-, -, h⟩ := exists_of_bind_ok h
  cases h
  exact addKey_eq_ok hkey

theorem checkSpecs_eq_ok : ∀ {specs : List FlagSpec} {seen seen' : List String},
    Grammar.checkSpecs files seen specs = .ok seen' →
      ∀ key, key ∈ seen' ↔ key ∈ seen ∨ specs.any (·.key == key) = true
  | [], seen, seen', h, key => by
    rw [Grammar.checkSpecs] at h
    cases h
    simp
  | spec :: specs, seen, seen', h, key => by
    rw [Grammar.checkSpecs] at h
    obtain ⟨seen₁, hspec, h⟩ := exists_of_bind_ok h
    obtain rfl := checkSpec_eq_ok hspec
    rw [checkSpecs_eq_ok h key, List.mem_cons, List.any_cons, Bool.or_eq_true, beq_iff_eq,
      eq_comm (a := key), or_left_comm, or_assoc]

/-- The keys seen in a scope are those that its entries declare. -/
theorem checkEntries_eq_ok : ∀ {es : List FlagEntry} {seen seen' : List String},
    Grammar.checkEntries files seen es = .ok seen' →
      ∀ key, key ∈ seen' ↔ key ∈ seen ∨ es.any (·.declares key) = true
  | [], seen, seen', h, key => by
    rw [Grammar.checkEntries] at h
    cases h
    simp
  | e :: es, seen, seen', h, key => by
    rw [Grammar.checkEntries] at h
    obtain ⟨seen₁, hentry, h⟩ := exists_of_bind_ok h
    have hspecs : Grammar.checkSpecs files seen e.specs = .ok seen₁ := by
      rcases e with ⟨policy, spec⟩ | ⟨policy, members⟩
      · rw [Grammar.checkEntry] at hentry
        simp only [FlagEntry.specs, Grammar.checkSpecs, hentry]
        rfl
      · rwa [Grammar.checkEntry] at hentry
    rw [checkEntries_eq_ok h key, checkSpecs_eq_ok hspecs key, List.any_cons, Bool.or_eq_true,
      or_assoc]
    rfl

/-- The flag that asks for help is added last, to the root. -/
theorem enableHelp_agrees {d : Draft} (hs : d.scheme.Scope root seen) (hh : d.scheme.help = none) :
    Agrees (fun _ _ => True) (Grammar.addKey seen helpKey)
      (Draft.register d.scheme.enableHelp) := by
  unfold enableHelp
  simp only [hh, Draft.register_bind]
  exact (addFlag_agrees hs).bind_right fun _ => ⟨_, rfl, trivial⟩

theorem addKey_helpKey (seen : List String) : Grammar.addKey seen helpKey =
    if helpKey ∈ seen then .error (.scheme (.duplicateKey helpKey)) else .ok (helpKey :: seen) := by
  have hb : Text.isBlankText helpKey = false := by decide +kernel
  simp [Grammar.addKey, hb]

theorem scope_empty : ({} : Scheme).Scope root [] where
  known := Nat.one_pos
  keys key := by simp [keysOf, store?, root]

/-- The key of the flag that asks for help is refused if an entry of the root declares it. -/
theorem check_agrees (files : Files) (g : Grammar) :
    Agrees (fun _ _ => True) (g.check files) (g.build files) := by
  unfold Grammar.check Grammar.build
  refine (addArgs_agrees files root [] g.args (d := {}) scope_empty).bind ?_
  intro _ d hargs
  refine (addEntries_agrees files g.flags root [] hargs.toScope).and_left.bind ?_
  rintro seen d' ⟨hseen, hflags⟩
  rcases hhelp : g.help
  · exact .ok trivial
  · have hdeclared : helpKey ∈ seen ↔ (g.flags.any fun e => e.declares helpKey) = true := by
      simpa using checkEntries_eq_ok hseen helpKey
    have htail : (if (g.flags.any fun e => e.declares helpKey) = true then
        throw (.scheme (.duplicateKey helpKey)) else pure ()) =
          Grammar.addKey seen helpKey >>= fun _ => pure () := by
      simp only [addKey_helpKey, hdeclared]
      split_ifs <;> rfl
    have hhelped : d'.scheme.help = none := hflags.help.trans hargs.help
    simp only [Bool.true_and, if_true]
    rw [htail]
    exact (enableHelp_agrees hflags.toScope hhelped).bind fun _ => .ok trivial

end Grammar

/-- A grammar passes the check exactly if it can be built. If it cannot, that is for what it says:
building never refers to a store, group or flag that is not there. -/
theorem Grammar.check_ok_iff_build_ok (files : Files) (g : Grammar) :
    (g.check files = .ok () ↔ ∃ b, g.build files = .ok b) ∧
      ∀ e, g.build files = .error e → e.OfContent := by
  have h := check_agrees files g
  generalize g.check files = x, g.build files = y at h
  cases h with
  | ok => exact ⟨by simp, fun e hb => by cases hb⟩
  | error h =>
    refine ⟨by simp, fun e hb => ?_⟩
    cases hb
    exact h.ofContent

end CommandGrammar
