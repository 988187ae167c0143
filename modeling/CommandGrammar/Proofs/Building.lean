import CommandGrammar.Proofs.Depiction
import CommandGrammar.Proofs.Registration

/-!
# What a built grammar shows

The tree that the arenas of a built grammar show is the tree of the grammar, and the tables of its
paths are what one meets on the way through it: an argument, flag or group under the keys that lead
to it, in the order of the declarations, with its own number. Each registration adds a node at the
end of a store or of a group, and leaves what was added before as it was; so the tree of a scope
grows entry by entry, and the tree below a flag is complete before the next entry is added.
-/

namespace CommandGrammar

open Scheme (root)

/-! ## Rows of the tables -/

/-- A table gets rows for the numbers from `n` up to `n'`. -/
structure Logged {ι : Type} (index : ι → Nat) (n n' : Nat)
    (before after new : List (NodePath × ι)) : Prop where
  rows : after = before ++ new
  numbers : new.map (fun x => index x.2) = List.range' n new.length
  count : n' = n + new.length

theorem Logged.refl {ι : Type} {index : ι → Nat} {n : Nat} {rows : List (NodePath × ι)} :
    Logged index n n rows rows [] :=
  ⟨(List.append_nil _).symm, rfl, rfl⟩

theorem Logged.trans {ι : Type} {index : ι → Nat} {n n' n'' : Nat}
    {rows rows' rows'' new new' : List (NodePath × ι)} (h : Logged index n n' rows rows' new)
    (h' : Logged index n' n'' rows' rows'' new') :
    Logged index n n'' rows rows'' (new ++ new') where
  rows := by rw [h'.rows, h.rows, List.append_assoc]
  numbers := by
    rw [List.map_append, h.numbers, h'.numbers, h.count, List.length_append, List.range'_append_1]
  count := by rw [h'.count, h.count, List.length_append, Nat.add_assoc]

theorem Logged.one {ι : Type} {index : ι → Nat} {n : Nat} {rows : List (NodePath × ι)}
    {path : NodePath} {id : ι} (h : index id = n) :
    Logged index n (n + 1) rows (rows ++ [(path, id)]) [(path, id)] :=
  ⟨rfl, by simp [h], rfl⟩

theorem Logged.of_empty {ι : Type} {index : ι → Nat} {n : Nat} {rows new : List (NodePath × ι)}
    (h : Logged index 0 n [] rows new) :
    rows = new ∧ new.map (fun x => index x.2) = List.range n ∧ n = new.length := by
  obtain ⟨hrows, hnumbers, hcount⟩ := h
  rw [List.nil_append] at hrows
  rw [Nat.zero_add] at hcount
  exact ⟨hrows, by rw [hnumbers, hcount, List.range_eq_range'], hcount⟩

namespace Draft

/-- The tables get rows for what is met, and the arenas nothing else. -/
structure Notes (d d' : Draft) (visits : List (NodePath × Handle)) : Prop where
  flags : Logged FlagId.index d.scheme.flags.length d'.scheme.flags.length d.flags d'.flags
    (visits.filterMap Handle.flag?)
  args : Logged ArgId.index d.scheme.args.length d'.scheme.args.length d.args d'.args
    (visits.filterMap Handle.arg?)
  groups : Logged GroupId.index d.scheme.groups.length d'.scheme.groups.length d.groups d'.groups
    (visits.filterMap Handle.group?)

variable {d d' d'' : Draft} {vs ws : List (NodePath × Handle)}

theorem Notes.refl (d : Draft) : d.Notes d [] :=
  ⟨.refl, .refl, .refl⟩

theorem Notes.trans (h : d.Notes d' vs) (h' : d'.Notes d'' ws) : d.Notes d'' (vs ++ ws) where
  flags := by
    rw [List.filterMap_append]
    exact h.flags.trans h'.flags
  args := by
    rw [List.filterMap_append]
    exact h.args.trans h'.args
  groups := by
    rw [List.filterMap_append]
    exact h.groups.trans h'.groups

end Draft

/-! ## What the registrations add -/

namespace Scheme

variable {s s' s'' : Scheme} {store : StoreId} {group : Option GroupId} {id : FlagId} {flag : Flag}

/-- A flag is added to a store, or to a group of that store, with nothing else in either. -/
structure AddsFlag (s s' : Scheme) (store : StoreId) (group : Option GroupId) (id : FlagId)
    (flag : Flag) : Prop extends Keeps s s' store group where
  known : store.index < s.stores.length
  help : s'.help = s.help
  flag_eq : s'.flag? id = some flag
  args_eq : s'.argsOf store = s.argsOf store
  listing_eq : s'.listing store = s.listing store ++ if group.isNone then [.flag id] else []
  member : ∀ {gid g}, group = some gid → s.group? gid = some g →
    s'.group? gid = some { g with members := g.members ++ [id] }

/-- The flag has the next number, and nothing else got one. -/
structure NumbersFlag (s s' : Scheme) (id : FlagId) : Prop where
  id_eq : id = ⟨s.flags.length⟩
  flags : s'.flags.length = s.flags.length + 1
  args : s'.args.length = s.args.length
  groups : s'.groups.length = s.groups.length

theorem argsOf_updateStore {f : Store → Store} {id : StoreId} (hf : ∀ st, (f st).args = st.args)
    (store : StoreId) : (s.updateStore id f).argsOf store = s.argsOf store := by
  rw [argsOf, store?_updateStore, Option.map_map, argsOf]
  congr 2
  funext st
  by_cases h : store = id <;> simp [h, hf]

theorem keeps_updateStore (s : Scheme) (store : StoreId) (f : Store → Store)
    (group : Option GroupId) : s.Keeps (s.updateStore store f) store group where
  stores_le := by simp [updateStore]
  store? {other st} hne hst := by
    rw [store?_updateStore, hst, Option.map_some, if_neg hne]
  flag? h := h
  group? _ h := h
  arg? h := h

theorem keeps_withFlag (s : Scheme) (store : StoreId) (flag : Flag) (group : Option GroupId) :
    s.Keeps (s.withFlag store flag) store group where
  stores_le := by simp [withFlag, updateStore]
  store? {other st} hne hst := by
    rw [store?_withFlag, hst, Option.map_some, if_neg hne]
  flag? h := flag?_withFlag h
  group? _ h := h
  arg? h := h

theorem keeps_withMember (s : Scheme) (gid : GroupId) (g : Group) (id : FlagId) :
    s.Keeps (s.withMember gid g id) g.store (some gid) where
  stores_le := by simp [withMember, updateStore, updateGroup]
  store? {other st} hne hst := by
    rw [store?_withMember, hst, Option.map_some, if_neg hne]
  flag? h := h
  group? {other g'} hne hg' := by
    rw [group?_withMember, hg', Option.map_some, if_neg]
    rintro rfl
    exact hne rfl
  arg? h := h

theorem argsOf_withFlag (other : StoreId) :
    (s.withFlag store flag).argsOf other = s.argsOf other :=
  argsOf_updateStore (by intro _; rfl) other

theorem listing_listFlag {st : Store} (hst : s.store? store = some st) (policy : Policy) :
    (s.listFlag store id policy).listing store = s.listing store ++ [.flag id] := by
  simp [listing, listFlag, store?_updateStore, hst]

theorem addFlag_adds {key description : String} {policy : Policy}
    (h : s.addFlag store key policy description = .ok (s', id)) :
    s.AddsFlag s' store none id ⟨key, policy, description, none, none, none⟩ ∧
      s.NumbersFlag s' id := by
  obtain ⟨⟨s₁, id₁⟩, hi, h⟩ := exists_of_bind_ok h
  cases h
  obtain ⟨st, hst, -, rfl, rfl⟩ := insertFlag_ok hi
  have hst₁ : (s.withFlag store ⟨key, policy, description, none, none, none⟩).store? store =
      some { st with keys := st.keys ++ [(key, ⟨s.flags.length⟩)] } := by
    rw [store?_withFlag, hst, Option.map_some, if_pos rfl]
  have hflag : (s.withFlag store ⟨key, policy, description, none, none, none⟩).flag?
      ⟨s.flags.length⟩ = some ⟨key, policy, description, none, none, none⟩ := flag?_withFlag_new
  have hkeeps := (keeps_withFlag s store ⟨key, policy, description, none, none, none⟩ none).trans
    (keeps_updateStore _ store (fun st => { st with
      entries := st.entries ++ [.flag ⟨s.flags.length⟩],
      flagTally := st.flagTally.count policy }) none) (.inl rfl) (by simp)
  refine ⟨{ hkeeps with
    known := lt_of_store? hst
    help := rfl
    flag_eq := hflag
    args_eq := (argsOf_updateStore (by intro _; rfl) store).trans (argsOf_withFlag store)
    listing_eq := ?_
    member := by simp }, ⟨rfl, by simp [listFlag, withFlag, updateStore], rfl, rfl⟩⟩
  rw [listing_listFlag hst₁, listing_withFlag]
  rfl

theorem addMember_adds {gid : GroupId} {g : Group} {key description : String}
    (hg : s.group? gid = some g) (h : s.addMember gid key description = .ok (s', id)) :
    s.AddsFlag s' g.store (some gid) id ⟨key, g.policy, description, none, some gid, none⟩ ∧
      s.NumbersFlag s' id := by
  simp only [addMember, hg] at h
  obtain ⟨⟨s₁, id₁⟩, hi, h⟩ := exists_of_bind_ok h
  cases h
  obtain ⟨st, hst, -, rfl, rfl⟩ := insertFlag_ok hi
  have hg₁ : (s.withFlag g.store
      ⟨key, g.policy, description, none, some gid, none⟩).group? gid = some g := hg
  have hflag : (s.withFlag g.store
      ⟨key, g.policy, description, none, some gid, none⟩).flag? ⟨s.flags.length⟩ =
        some ⟨key, g.policy, description, none, some gid, none⟩ := flag?_withFlag_new
  rw [listMember_eq hg₁]
  have hkeeps := (keeps_withFlag s g.store ⟨key, g.policy, description, none, some gid, none⟩
    (some gid)).trans (keeps_withMember _ gid g ⟨s.flags.length⟩) (.inl rfl) (by simp)
  refine ⟨{ hkeeps with
    known := lt_of_store? hst
    help := rfl
    flag_eq := hflag
    args_eq := (argsOf_updateStore (by intro _; rfl) g.store).trans (argsOf_withFlag g.store)
    listing_eq := ?_
    member := fun {gid' g'} hgid hg' => ?_ }, ⟨rfl, ?_, rfl, ?_⟩⟩
  · rw [listing_withMember, listing_withFlag]
    exact (List.append_nil _).symm
  · cases hgid
    rw [hg] at hg'
    cases hg'
    rw [group?_withMember, hg₁, Option.map_some, if_pos rfl]
  · simp [withMember, withFlag, updateStore, updateGroup]
  · simp [withMember, withFlag, updateStore, updateGroup]

/-- A flag that was just added gets a store. -/
theorem AddsFlag.nest (h : s.AddsFlag s' store group id flag) (hid : id = ⟨s.flags.length⟩) :
    s.AddsFlag (s'.nest id).1 store group id { flag with children := some (s'.nest id).2 } where
  stores_le := h.stores_le.trans (by simp [Scheme.nest, updateFlag])
  store? hne hst := store?_nest_of_lt (h.store? hne hst)
  flag? {other f} hf := by
    -- the flag that gets the store is the last one, and `other` was there before it
    have hne : other ≠ id := by
      rintro rfl
      have hlt := lt_of_flag? hf
      rw [hid] at hlt
      exact lt_irrefl _ hlt
    rw [flag?_nest, h.flag? hf, Option.map_some, if_neg hne]
  group? hne hg := h.group? hne hg
  arg? ha := h.arg? ha
  known := h.known
  help := h.help
  flag_eq := by
    rw [flag?_nest, h.flag_eq, Option.map_some, if_pos rfl]
    rfl
  args_eq := by
    obtain ⟨st, hst⟩ := exists_store?_of_lt (h.known.trans_le h.stores_le)
    rw [argsOf, store?_nest_of_lt hst, ← hst]
    exact h.args_eq
  listing_eq := by
    obtain ⟨st, hst⟩ := exists_store?_of_lt (h.known.trans_le h.stores_le)
    rw [listing, store?_nest_of_lt hst, ← hst]
    exact h.listing_eq
  member hgid hg := h.member hgid hg

/-- The new store of a flag is known, behind all others, and empty. -/
theorem level_nest (s : Scheme) (id : FlagId) : (s.nest id).1.Level (s.nest id).2 [] [] := by
  have hst : (s.nest id).1.store? (s.nest id).2 = some {} := List.getElem?_concat_length
  exact ⟨lt_of_store? hst, by rw [argsOf, hst]; rfl, by simp, by rw [listing, hst]; rfl⟩

/-- What happens in a new store does not matter to the one in which the flag is. -/
theorem AddsFlag.inner {child : StoreId} (h : s.AddsFlag s' store group id flag)
    (h' : s'.Keeps s'' child none) (hh : s''.help = s'.help)
    (hc : s.stores.length ≤ child.index) : s.AddsFlag s'' store group id flag := by
  have hne : store ≠ child := by
    rintro rfl
    have := h.known
    omega
  have hst := h'.store?_eq hne (h.known.trans_le h.stores_le)
  exact { h.toKeeps.trans h' (.inr hc) (by simp) with
    known := h.known
    help := hh.trans h.help
    flag_eq := h'.flag? h.flag_eq
    args_eq := by
      rw [argsOf, hst]
      exact h.args_eq
    listing_eq := by
      rw [listing, hst]
      exact h.listing_eq
    member := fun hgid hg => h'.group? (by simp) (h.member hgid hg) }

/-- A flag is added with a store of its own, in which nothing is yet. -/
structure AddsComplex (s s' : Scheme) (store : StoreId) (group : Option GroupId) (id : FlagId)
    (flag : Flag) (child : StoreId) : Prop extends AddsFlag s s' store group id flag where
  children : flag.children = some child
  empty : s'.Level child [] []
  new : s.stores.length ≤ child.index

theorem AddsFlag.complex (h : s.AddsFlag s' store group id flag) (hn : s.NumbersFlag s' id) :
    s.AddsComplex (s'.nest id).1 store group id { flag with children := some (s'.nest id).2 }
        (s'.nest id).2 ∧ s.NumbersFlag (s'.nest id).1 id :=
  ⟨{ h.nest hn.id_eq with
      children := rfl
      empty := level_nest s' id
      new := h.stores_le },
    ⟨hn.id_eq, by simpa [Scheme.nest, updateFlag] using hn.flags, hn.args, hn.groups⟩⟩

theorem addComplexFlag_adds {key description : String} {policy : Policy} {child : StoreId}
    (h : s.addComplexFlag store key policy description = .ok (s', id, child)) :
    s.AddsComplex s' store none id ⟨key, policy, description, some child, none, none⟩ child ∧
      s.NumbersFlag s' id := by
  obtain ⟨⟨s₁, id₁⟩, hi, h⟩ := exists_of_bind_ok h
  cases h
  obtain ⟨hadds, hn⟩ := addFlag_adds hi
  exact hadds.complex hn

theorem addComplexMember_adds {gid : GroupId} {g : Group} {key description : String}
    {child : StoreId} (hg : s.group? gid = some g)
    (h : s.addComplexMember gid key description = .ok (s', id, child)) :
    s.AddsComplex s' g.store (some gid) id
        ⟨key, g.policy, description, some child, some gid, none⟩ child ∧ s.NumbersFlag s' id := by
  obtain ⟨⟨s₁, id₁⟩, hi, h⟩ := exists_of_bind_ok h
  cases h
  obtain ⟨hadds, hn⟩ := addMember_adds hg hi
  exact hadds.complex hn

end Scheme

/-! ## What a scope adds -/

namespace Draft

variable {d d' d'' : Draft} {files : Files} {store : StoreId} {parent : NodePath}

theorem register_eq_ok {α : Type} {r : Except SchemeError α} {a : α} (h : register r = .ok a) :
    r = .ok a := by
  cases r with
  | error e => cases h
  | ok b =>
    cases h
    rfl

/-- Arguments and entries are added to a store, and noted. -/
structure Adds (d d' : Draft) (store : StoreId) (args : List (ArgId × Positional))
    (branches : List Branch) (visits : List (NodePath × Handle)) : Prop extends
    d.scheme.Keeps d'.scheme store none where
  help : d'.scheme.help = d.scheme.help
  args_eq : d'.scheme.argsOf store = d.scheme.argsOf store ++ args.map (·.1)
  arg : ∀ x ∈ args, d'.scheme.arg? x.1 = some x.2
  listing_eq : d'.scheme.listing store = d.scheme.listing store ++ branches.map Branch.entry
  shown : Branch.AllShownIn d'.scheme store branches
  notes : d.Notes d' visits

theorem Adds.refl (d : Draft) (store : StoreId) : d.Adds d store [] [] [] :=
  { Scheme.Keeps.refl d.scheme store none with
    help := rfl
    args_eq := (List.append_nil _).symm
    arg := by simp
    listing_eq := (List.append_nil _).symm
    shown := trivial
    notes := .refl d }

theorem Adds.trans {as as' : List (ArgId × Positional)} {bs bs' : List Branch}
    {vs vs' : List (NodePath × Handle)} (h : d.Adds d' store as bs vs)
    (h' : d'.Adds d'' store as' bs' vs') : d.Adds d'' store (as ++ as') (bs ++ bs') (vs ++ vs') :=
  { h.toKeeps.trans h'.toKeeps (.inl rfl) (by simp) with
    help := h'.help.trans h.help
    args_eq := by rw [h'.args_eq, h.args_eq, List.map_append, List.append_assoc]
    arg := fun x hx => (List.mem_append.1 hx).elim (fun hx => h'.arg? (h.arg x hx)) (h'.arg x)
    listing_eq := by rw [h'.listing_eq, h.listing_eq, List.map_append, List.append_assoc]
    shown := Branch.allShownIn_append.2
      ⟨h'.toKeeps.branches (by simp) bs le_rfl (.inr rfl) h.shown, h'.shown⟩
    notes := h.notes.trans h'.notes }

theorem addArg_adds {arg : Positional} {s' : Scheme} {id : ArgId}
    (h : d.scheme.addArg store arg = .ok (s', id)) :
    d.Adds { d with scheme := s', args := d.args ++ [(parent ++ [arg.name], id)] } store
      [(id, arg)] [] (argVisits parent [(id, arg)]) := by
  obtain ⟨st, hst, rfl, rfl⟩ := Scheme.addArg_ok h
  exact {
    stores_le := by simp [Scheme.withArg, Scheme.updateStore]
    store? := fun {other st'} hne hst' => by
      rw [Scheme.store?_withArg, hst', Option.map_some, if_neg hne]
    flag? := fun hf => hf
    group? := fun _ hg => hg
    arg? := Scheme.arg?_withArg
    help := rfl
    args_eq := by simp [Scheme.argsOf, Scheme.store?_withArg, hst]
    arg := by simpa using Scheme.arg?_withArg_new
    listing_eq := by simp [Scheme.listing_withArg]
    shown := trivial
    notes := ⟨.refl, by
      change Logged _ _ (d.scheme.args ++ [arg]).length _ _ _
      rw [List.length_append]
      exact .one rfl, .refl⟩ }

theorem addArgs_adds : ∀ (specs : List ArgSpec) {d d' : Draft},
    d.addArgs files store parent specs = .ok d' → ∃ args,
      args.map (·.2) = specs.map (·.positional files) ∧
        d.Adds d' store args [] (argVisits parent args)
  | [], d, d', h => by
    cases h
    exact ⟨[], rfl, .refl d store⟩
  | spec :: specs, d, d', h => by
    rw [addArgs] at h
    obtain ⟨pipeline, hp, h⟩ := Scheme.exists_of_bind_ok h
    obtain rfl : spec.converter.convert files = pipeline := by
      unfold Converter.pipeline at hp
      split at hp
      · cases hp
      · exact Except.ok.inj hp
    obtain ⟨⟨s', id⟩, hr, h⟩ := Scheme.exists_of_bind_ok h
    obtain ⟨args, hargs, hadds⟩ := addArgs_adds specs h
    exact ⟨(id, spec.positional files) :: args, by rw [List.map_cons, hargs]; rfl,
      (addArg_adds (register_eq_ok hr)).trans hadds⟩

/-- A scope with its arguments and its entries below a flag is one level. -/
theorem Adds.level {args : List (ArgId × Positional)} {bs : List Branch}
    {vs : List (NodePath × Handle)} (h : d.Adds d' store args bs vs)
    (hl : d.scheme.Level store [] []) : d'.scheme.Level store args bs where
  known := hl.known.trans_le h.stores_le
  args_eq := by rw [h.args_eq, hl.args_eq]; rfl
  arg := h.arg
  listing_eq := by rw [h.listing_eq, hl.listing_eq]; rfl

theorem noteFlag_notes {s' : Scheme} {id : FlagId} {path : NodePath}
    (h : d.scheme.NumbersFlag s' id) : d.Notes (d.noteFlag s' path id) [(path, .flag id)] where
  flags := by
    change Logged _ _ s'.flags.length _ _ _
    rw [h.flags]
    exact .one (by rw [h.id_eq])
  args := by
    change Logged _ _ s'.args.length _ _ _
    rw [h.args]
    exact .refl
  groups := by
    change Logged _ _ s'.groups.length _ _ _
    rw [h.groups]
    exact .refl

/-- Members are added to a group, and noted. -/
structure AddsMembers (d d' : Draft) (gid : GroupId) (g : Group) (members : List Twig)
    (visits : List (NodePath × Handle)) : Prop extends
    d.scheme.Keeps d'.scheme g.store (some gid) where
  help : d'.scheme.help = d.scheme.help
  args_eq : d'.scheme.argsOf g.store = d.scheme.argsOf g.store
  listing_eq : d'.scheme.listing g.store = d.scheme.listing g.store
  group_eq : d'.scheme.group? gid = some { g with members := g.members ++ members.map Twig.id }
  shown : Twig.AllShownIn d'.scheme g.store members
  notes : d.Notes d' visits

theorem AddsMembers.refl (d : Draft) {gid : GroupId} {g : Group}
    (hg : d.scheme.group? gid = some g) : d.AddsMembers d gid g [] [] :=
  { Scheme.Keeps.refl d.scheme g.store (some gid) with
    help := rfl
    args_eq := rfl
    listing_eq := rfl
    group_eq := by rw [hg, List.map_nil, List.append_nil]
    shown := trivial
    notes := .refl d }

theorem AddsMembers.cons {gid : GroupId} {g : Group} {t : Twig} {ts : List Twig}
    {vs vs' : List (NodePath × Handle)} (hg : d.scheme.group? gid = some g)
    (hshown : t.ShownIn d'.scheme g.store)
    (h : d.scheme.AddsFlag d'.scheme g.store (some gid) t.id t.flag) (hnotes : d.Notes d' vs)
    (h' : d'.AddsMembers d'' gid { g with members := g.members ++ [t.id] } ts vs') :
    d.AddsMembers d'' gid g (t :: ts) (vs ++ vs') :=
  { h.toKeeps.trans h'.toKeeps (.inl rfl) (fun _ hid => .inl hid) with
    help := h'.help.trans h.help
    args_eq := h'.args_eq.trans h.args_eq
    listing_eq := by
      refine h'.listing_eq.trans (h.listing_eq.trans ?_)
      exact List.append_nil _
    group_eq := by
      rw [h'.group_eq, List.map_cons, List.append_assoc]
      rfl
    shown := by
      refine ⟨h'.toKeeps.twig (fun gid' g' hid hg' => ?_) t le_rfl hshown, h'.shown⟩
      cases hid
      obtain rfl := Option.some.inj ((h.member rfl hg).symm.trans hg')
      rfl
    notes := hnotes.trans h'.notes }

/-- A group is added with its members. -/
theorem addGroup_adds {policy : Policy} {ts : List Twig} {members : List FlagSpec} {st : Store}
    {vs : List (NodePath × Handle)} (hst : d.scheme.store? store = some st)
    (hkeys : ts.map (·.flag.key) = members.map (·.key))
    (h : AddsMembers { d with
      scheme := d.scheme.withGroup store policy,
      groups := d.groups ++
        [(parent ++ ["|".intercalate (members.map (·.key))], ⟨d.scheme.groups.length⟩)] } d'
      ⟨d.scheme.groups.length⟩ ⟨store, policy, []⟩ ts vs) :
    d.Adds d' store [] [.group ⟨d.scheme.groups.length⟩ policy ts]
      ((parent ++ ["|".intercalate (ts.map (·.flag.key))], .group ⟨d.scheme.groups.length⟩) ::
        vs) := by
  have hkeeps : d.scheme.Keeps (d.scheme.withGroup store policy) store none := {
    stores_le := by simp [Scheme.withGroup, Scheme.updateStore]
    store? := fun {other st'} hne hst' => by
      rw [Scheme.store?_withGroup, hst', Option.map_some, if_neg hne]
    flag? := fun hf => hf
    group? := fun _ hg => Scheme.group?_withGroup hg
    arg? := fun ha => ha }
  have hnew : ∀ id : GroupId, some ⟨d.scheme.groups.length⟩ = some id →
      none = some id ∨ d.scheme.groups.length ≤ id.index := by
    intro id hid
    cases hid
    exact .inr le_rfl
  have hnote : Notes d { d with
      scheme := d.scheme.withGroup store policy,
      groups := d.groups ++
        [(parent ++ ["|".intercalate (members.map (·.key))], ⟨d.scheme.groups.length⟩)] }
      [(parent ++ ["|".intercalate (members.map (·.key))],
        .group ⟨d.scheme.groups.length⟩)] := by
    refine ⟨.refl, .refl, ?_⟩
    change Logged _ _ (d.scheme.groups ++ [_]).length _ _ _
    rw [List.length_append]
    exact .one rfl
  exact { hkeeps.trans h.toKeeps (.inl rfl) hnew with
    help := h.help
    args_eq := by
      rw [h.args_eq, List.map_nil, List.append_nil]
      exact Scheme.argsOf_updateStore (by intro _; rfl) store
    arg := by simp
    listing_eq := by
      rw [h.listing_eq]
      simp [Scheme.listing, Scheme.store?_withGroup, hst, Branch.entry]
    shown := ⟨⟨h.group_eq, h.shown⟩, trivial⟩
    notes := by
      rw [hkeys]
      exact (hnote.trans h.notes :) }

/-- A flag is added with all that may follow it. -/
theorem exists_twig {policy : Policy} {group : Option GroupId} {key description : String}
    {args : List ArgSpec} {flags : List FlagEntry}
    {complex : Except GrammarError (Scheme × FlagId × StoreId)}
    {simple : Except GrammarError (Scheme × FlagId)}
    (hcomplex : ∀ {s id child}, complex = .ok (s, id, child) →
      d.scheme.AddsComplex s store group id
        ⟨key, policy, description, some child, group, none⟩ child ∧ d.scheme.NumbersFlag s id)
    (hsimple : ∀ {s id}, simple = .ok (s, id) →
      d.scheme.AddsFlag s store group id ⟨key, policy, description, none, group, none⟩ ∧
        d.scheme.NumbersFlag s id)
    (ih : ∀ {d d' : Draft} {store : StoreId} {parent : NodePath},
      d.addEntries files store parent flags = .ok d' → ∃ bs, Branch.AllDepict files bs flags ∧
        d.Adds d' store [] bs (Branch.allVisits parent bs))
    (h : (if (FlagSpec.mk key description args flags).isComplex then do
        let (scheme, id, children) ← complex
        let path := parent ++ [key]
        let d ← (d.noteFlag scheme path id).addArgs files children path args
        d.addEntries files children path flags
      else do
        let (scheme, id) ← simple
        return d.noteFlag scheme (parent ++ [key]) id) = .ok d') :
    ∃ t : Twig, t.Depicts files policy group ⟨key, description, args, flags⟩ ∧
      t.ShownIn d'.scheme store ∧ d.scheme.AddsFlag d'.scheme store group t.id t.flag ∧
        d.Notes d' (t.visits parent) := by
  split_ifs at h with hc
  · obtain ⟨⟨s, id, child⟩, hr, h⟩ := Scheme.exists_of_bind_ok h
    obtain ⟨hadds, hn⟩ := hcomplex hr
    obtain ⟨d₁, hargs, h⟩ := Scheme.exists_of_bind_ok h
    obtain ⟨as, has, hadds₁⟩ := addArgs_adds args hargs
    obtain ⟨bs, hbs, hadds₂⟩ := ih h
    -- all of this happens in the new store, so the flag stays as it was added
    have hscope := hadds₁.trans hadds₂
    rw [List.append_nil, List.nil_append] at hscope
    have hflag := hadds.toAddsFlag.inner hscope.toKeeps hscope.help hadds.new
    refine ⟨.complex id ⟨key, policy, description, some child, group, none⟩ as bs,
      ⟨hc, ⟨child, rfl⟩, has, hbs⟩, ⟨hflag.flag_eq, child, rfl, hflag.known.trans_le hadds.new,
        hscope.level hadds.empty, hscope.shown⟩, hflag, ?_⟩
    exact (noteFlag_notes hn).trans hscope.notes
  · obtain ⟨⟨s, id⟩, hr, h⟩ := Scheme.exists_of_bind_ok h
    cases h
    obtain ⟨hadds, hn⟩ := hsimple hr
    exact ⟨.simple id ⟨key, policy, description, none, group, none⟩,
      ⟨by simpa using hc, rfl⟩, ⟨hadds.flag_eq, rfl⟩, hadds, noteFlag_notes hn⟩

mutual

theorem addEntries_adds : ∀ (es : List FlagEntry) {d d' : Draft} {store : StoreId}
    {parent : NodePath}, d.addEntries files store parent es = .ok d' →
      ∃ bs, Branch.AllDepict files bs es ∧ d.Adds d' store [] bs (Branch.allVisits parent bs)
  | [], d, d', store, parent, h => by
    cases h
    exact ⟨[], trivial, .refl d store⟩
  | e :: es, d, d', store, parent, h => by
    rw [addEntries] at h
    obtain ⟨d₁, he, h⟩ := Scheme.exists_of_bind_ok h
    obtain ⟨b, hb, hadds⟩ := addEntry_adds e he
    obtain ⟨bs, hbs, hadds'⟩ := addEntries_adds es h
    exact ⟨b :: bs, ⟨hb, hbs⟩, hadds.trans hadds'⟩

theorem addEntry_adds : ∀ (e : FlagEntry) {d d' : Draft} {store : StoreId} {parent : NodePath},
    d.addEntry files store parent e = .ok d' →
      ∃ b : Branch, b.Depicts files e ∧ d.Adds d' store [] [b] (b.visits parent)
  | .flag policy ⟨key, description, args, flags⟩, d, d', store, parent, h => by
    rw [addEntry] at h
    obtain ⟨t, ht, hshown, hadds, hnotes⟩ := exists_twig
      (fun hr => Scheme.addComplexFlag_adds (register_eq_ok hr))
      (fun hr => Scheme.addFlag_adds (register_eq_ok hr)) (addEntries_adds flags) h
    exact ⟨.flag t, ht, { hadds.toKeeps with
      help := hadds.help
      args_eq := by simpa using hadds.args_eq
      arg := by simp
      listing_eq := hadds.listing_eq
      shown := ⟨hshown, trivial⟩
      notes := hnotes }⟩
  | .group policy members, d, d', store, parent, h => by
    rw [addEntry] at h
    obtain ⟨⟨s₁, gid⟩, hr, h⟩ := Scheme.exists_of_bind_ok h
    obtain ⟨st, hst, rfl, rfl⟩ := Scheme.addGroup_ok (register_eq_ok hr)
    obtain ⟨ts, hts, hadds⟩ := addMembers_adds members Scheme.group?_withGroup_new h
    refine ⟨.group ⟨d.scheme.groups.length⟩ policy ts, ⟨rfl, hts⟩, ?_⟩
    exact addGroup_adds hst hts.keys hadds

/-- Members go to the group, and their keys to its store. -/
theorem addMembers_adds : ∀ (specs : List FlagSpec) {d d' : Draft} {gid : GroupId} {g : Group}
    {parent : NodePath}, d.scheme.group? gid = some g →
      d.addMembers files gid parent specs = .ok d' →
        ∃ ts, Twig.AllDepict files g.policy (some gid) ts specs ∧
          d.AddsMembers d' gid g ts (Twig.allVisits parent ts)
  | [], d, d', gid, g, parent, hg, h => by
    cases h
    exact ⟨[], trivial, .refl d hg⟩
  | ⟨key, description, args, flags⟩ :: specs, d, d', gid, g, parent, hg, h => by
    rw [addMembers] at h
    obtain ⟨d₁, hspec, h⟩ := Scheme.exists_of_bind_ok h
    rw [addMember] at hspec
    obtain ⟨t, ht, hshown, hadds, hnotes⟩ := exists_twig
      (fun hr => Scheme.addComplexMember_adds hg (register_eq_ok hr))
      (fun hr => Scheme.addMember_adds hg (register_eq_ok hr)) (addEntries_adds flags) hspec
    obtain ⟨ts, hts, hmembers⟩ := addMembers_adds specs (hadds.member rfl hg) h
    exact ⟨t :: ts, ⟨ht, hts⟩, .cons hg hshown hadds hnotes hmembers⟩

end

end Draft

/-! ## Building is a script -/

namespace Draft

variable {P : Scheme → Prop} {files : Files}

theorem map_fst_of_register {α : Type} {r : Except SchemeError (Scheme × α)} {s : Scheme} {a : α}
    (h : register r = .ok (s, a)) : r.map (·.1) = .ok s := by
  rw [register_eq_ok h]
  rfl

theorem addArgs_invariant (hr : ∀ s r s', P s → Scheme.register s r = .ok s' → P s') :
    ∀ (args : List ArgSpec) {d d' : Draft} {store : StoreId} {parent : NodePath},
      d.addArgs files store parent args = .ok d' → P d.scheme → P d'.scheme
  | [], d, d', store, parent, h, hd => by
    cases h
    exact hd
  | arg :: args, d, d', store, parent, h, hd => by
    rw [addArgs] at h
    obtain ⟨pipeline, -, h⟩ := Scheme.exists_of_bind_ok h
    obtain ⟨⟨s, id⟩, ha, h⟩ := Scheme.exists_of_bind_ok h
    exact addArgs_invariant hr args h (hr _ (.arg store _) _ hd (map_fst_of_register ha))

mutual

theorem addEntries_invariant (hr : ∀ s r s', P s → Scheme.register s r = .ok s' → P s') :
    ∀ (es : List FlagEntry) {d d' : Draft} {store : StoreId} {parent : NodePath},
      d.addEntries files store parent es = .ok d' → P d.scheme → P d'.scheme
  | [], d, d', store, parent, h, hd => by
    cases h
    exact hd
  | e :: es, d, d', store, parent, h, hd => by
    rw [addEntries] at h
    obtain ⟨d₁, he, h⟩ := Scheme.exists_of_bind_ok h
    exact addEntries_invariant hr es h (addEntry_invariant hr e he hd)

theorem addEntry_invariant (hr : ∀ s r s', P s → Scheme.register s r = .ok s' → P s') :
    ∀ (e : FlagEntry) {d d' : Draft} {store : StoreId} {parent : NodePath},
      d.addEntry files store parent e = .ok d' → P d.scheme → P d'.scheme
  | .flag policy ⟨key, description, args, flags⟩, d, d', store, parent, h, hd => by
    rw [addEntry] at h
    split_ifs at h with hc
    · obtain ⟨⟨s, id, child⟩, ha, h⟩ := Scheme.exists_of_bind_ok h
      obtain ⟨d₁, hargs, h⟩ := Scheme.exists_of_bind_ok h
      exact addEntries_invariant hr flags h (addArgs_invariant hr args hargs
        (hr _ (.complexFlag store key policy description) _ hd (map_fst_of_register ha)))
    · obtain ⟨⟨s, id⟩, ha, h⟩ := Scheme.exists_of_bind_ok h
      cases h
      exact hr _ (.flag store key policy description) _ hd (map_fst_of_register ha)
  | .group policy members, d, d', store, parent, h, hd => by
    rw [addEntry] at h
    obtain ⟨⟨s, id⟩, ha, h⟩ := Scheme.exists_of_bind_ok h
    exact addMembers_invariant hr members h
      (hr _ (.group store policy) _ hd (map_fst_of_register ha))

theorem addMembers_invariant (hr : ∀ s r s', P s → Scheme.register s r = .ok s' → P s') :
    ∀ (specs : List FlagSpec) {d d' : Draft} {gid : GroupId} {parent : NodePath},
      d.addMembers files gid parent specs = .ok d' → P d.scheme → P d'.scheme
  | [], d, d', gid, parent, h, hd => by
    cases h
    exact hd
  | ⟨key, description, args, flags⟩ :: specs, d, d', gid, parent, h, hd => by
    rw [addMembers] at h
    obtain ⟨d₁, hspec, h⟩ := Scheme.exists_of_bind_ok h
    refine addMembers_invariant hr specs h ?_
    rw [addMember] at hspec
    split_ifs at hspec with hc
    · obtain ⟨⟨s, id, child⟩, ha, hspec⟩ := Scheme.exists_of_bind_ok hspec
      obtain ⟨d₂, hargs, hspec⟩ := Scheme.exists_of_bind_ok hspec
      exact addEntries_invariant hr flags hspec (addArgs_invariant hr args hargs
        (hr _ (.complexMember gid key description) _ hd (map_fst_of_register ha)))
    · obtain ⟨⟨s, id⟩, ha, hspec⟩ := Scheme.exists_of_bind_ok hspec
      cases hspec
      exact hr _ (.member gid key description) _ hd (map_fst_of_register ha)

end

end Draft

/-- What the empty scheme has and registrations keep, the scheme of a built grammar has. -/
theorem Grammar.build_scheme {P : Scheme → Prop} {files : Files} {g : Grammar} {b : BuiltGrammar}
    (h0 : P {}) (hr : ∀ s r s', P s → Scheme.register s r = .ok s' → P s')
    (h : g.build files = .ok b) : P b.session.scheme := by
  unfold build at h
  obtain ⟨d₁, hargs, h⟩ := Scheme.exists_of_bind_ok h
  obtain ⟨d, hentries, h⟩ := Scheme.exists_of_bind_ok h
  have hd := Draft.addEntries_invariant hr g.flags hentries
    (Draft.addArgs_invariant hr g.args hargs h0)
  split_ifs at h
  · obtain ⟨⟨s, id⟩, ha, h⟩ := Scheme.exists_of_bind_ok h
    cases h
    exact hr _ .help _ hd (Draft.map_fst_of_register ha)
  · cases h
    exact hd

theorem Grammar.build_wellFormed {files : Files} {g : Grammar} {b : BuiltGrammar}
    (h : g.build files = .ok b) : b.session.scheme.WellFormed :=
  build_scheme Scheme.empty_wellFormed (fun _ _ _ hs h => Scheme.register_wellFormed hs h) h

/-! ## Built grammars -/

namespace Scheme

/-- The flag that asks for help, as it is registered. -/
def helpFlag : Flag where
  key := helpKey
  policy := .optional
  description := helpDescription
  children := none
  group := none
  trigger := none

/-- The entry that asks for help, if there is one. -/
def helpBranches (s : Scheme) : List Branch :=
  s.help.toList.map fun id => .flag (.simple id helpFlag)

end Scheme

namespace Grammar

variable {files : Files} {g : Grammar} {b : BuiltGrammar}

/-- A built grammar has what its scope adds to the empty scheme, and the flag that asks for help
behind that if the grammar wants one. -/
structure Built (files : Files) (g : Grammar) (b : BuiltGrammar) (d : Draft)
    (args : List (ArgId × Positional)) (branches : List Branch) : Prop where
  args_eq : args.map (·.2) = g.args.map (·.positional files)
  depict : Branch.AllDepict files branches g.flags
  adds : Draft.Adds {} d root args branches (argVisits [] args ++ Branch.allVisits [] branches)
  flags_eq : b.flags = d.flags
  argIds_eq : b.args = d.args
  groups_eq : b.groups = d.groups
  help : g.help = false ∧ b.session.scheme = d.scheme ∨ g.help = true ∧ ∃ s id,
    b.session.scheme = { s with help := some id } ∧
      d.scheme.AddsFlag s root none id Scheme.helpFlag ∧ d.scheme.NumbersFlag s id

theorem exists_built (h : g.build files = .ok b) :
    ∃ d args branches, Built files g b d args branches := by
  unfold build at h
  obtain ⟨d₁, hargs, h⟩ := Scheme.exists_of_bind_ok h
  obtain ⟨d, hentries, h⟩ := Scheme.exists_of_bind_ok h
  obtain ⟨args, has, hadds⟩ := Draft.addArgs_adds g.args hargs
  obtain ⟨bs, hbs, hadds'⟩ := Draft.addEntries_adds g.flags hentries
  have hall := hadds.trans hadds'
  rw [List.append_nil, List.nil_append] at hall
  refine ⟨d, args, bs, ?_⟩
  split_ifs at h with hhelp
  · obtain ⟨⟨s, id⟩, hr, h⟩ := Scheme.exists_of_bind_ok h
    cases h
    have hnone : d.scheme.help = none := hall.help
    have henable := Draft.register_eq_ok hr
    simp only [Scheme.enableHelp, hnone] at henable
    obtain ⟨⟨s₁, id₁⟩, hadd, henable⟩ := Scheme.exists_of_bind_ok henable
    cases henable
    exact ⟨has, hbs, hall, rfl, rfl, rfl, .inr ⟨hhelp, s₁, id₁, rfl, Scheme.addFlag_adds hadd⟩⟩
  · cases h
    exact ⟨has, hbs, hall, rfl, rfl, rfl, .inl ⟨by simpa using hhelp, rfl⟩⟩

/-- The entries of the root are those of the grammar, and the one that asks for help. -/
theorem Built.shown {d : Draft} {args : List (ArgId × Positional)} {branches : List Branch}
    (h : Built files g b d args branches) :
    b.session.scheme.Level root args (branches ++ b.session.scheme.helpBranches) ∧
      Branch.AllShownIn b.session.scheme root (branches ++ b.session.scheme.helpBranches) := by
  have hlevel : d.scheme.Level root args branches :=
    h.adds.level ⟨Nat.one_pos, rfl, by simp, rfl⟩
  rcases h.help with ⟨-, hs⟩ | ⟨-, s, id, hs, hadd, -⟩
  · have hnone : d.scheme.helpBranches = [] := by
      rw [Scheme.helpBranches, h.adds.help]
      rfl
    rw [hs, hnone, List.append_nil]
    exact ⟨hlevel, h.adds.shown⟩
  · have hkeeps : d.scheme.Keeps { s with help := some id } root none :=
      { hadd.toKeeps with }
    have hhelp : Branch.AllShownIn { s with help := some id } root
        [.flag (.simple id Scheme.helpFlag)] := ⟨⟨hadd.flag_eq, rfl⟩, trivial⟩
    rw [hs]
    refine ⟨⟨hlevel.known.trans_le hkeeps.stores_le, ?_, ?_, ?_⟩,
      Branch.allShownIn_append.2
        ⟨hkeeps.branches (by simp) branches le_rfl (.inr rfl) h.adds.shown, hhelp⟩⟩
    · exact hadd.args_eq.trans hlevel.args_eq
    · exact fun x hx => hkeeps.arg? (hlevel.arg x hx)
    · refine hadd.listing_eq.trans ?_
      rw [hlevel.listing_eq, List.map_append]
      rfl

/-- The flag that asks for help has a number, but no path. -/
theorem Built.numbers {d : Draft} {args : List (ArgId × Positional)} {branches : List Branch}
    (h : Built files g b d args branches) : b.session.scheme.help.isSome = g.help ∧
      b.session.scheme.flags.length = d.scheme.flags.length + g.help.toNat ∧
      b.session.scheme.args.length = d.scheme.args.length ∧
      b.session.scheme.groups.length = d.scheme.groups.length := by
  rcases h.help with ⟨hg, hs⟩ | ⟨hg, s, id, hs, -, hn⟩
  · rw [hs, hg, h.adds.help]
    exact ⟨rfl, rfl, rfl, rfl⟩
  · rw [hs, hg]
    exact ⟨rfl, hn.flags, hn.args, hn.groups⟩

theorem exists_ok_of_any {ε α : Type} {x : Except ε α} {p : α → Bool}
    (h : x.toOption.any p = true) : ∃ a, x = .ok a ∧ p a = true := by
  cases x with
  | error e => cases h
  | ok a => exact ⟨a, rfl, h⟩

/-- What is met on the way through the tree has the paths that the grammar declares. -/
theorem Built.labels {d : Draft} {args : List (ArgId × Positional)} {branches : List Branch}
    (h : Built files g b d args branches) :
    (argVisits [] args ++ Branch.allVisits [] branches).map Handle.label = g.labels := by
  rw [List.map_append, argVisits_labels [] h.args_eq, Branch.allVisits_labels branches [] h.depict]
  rfl

/-- The rows of a table, in texts, are the paths of a kind. -/
theorem map_text_rows {ι : Type} {kind : Handle.Kind}
    {row? : NodePath × Handle → Option (NodePath × ι)}
    (hrow : ∀ x, (row? x).map (·.1.text) = Handle.pathOf? kind (Handle.label x))
    {visits : List (NodePath × Handle)} (hvisits : visits.map Handle.label = g.labels) :
    (visits.filterMap row?).map (·.1.text) = g.pathsOf kind := by
  rw [List.map_filterMap, pathsOf, ← hvisits, List.filterMap_map]
  exact List.filterMap_congr fun x _ => hrow x

/-- Walking the arenas of a built grammar gives back the grammar, and behind its entries the one
that asks for help if it wants one. The tables list what is met on the way, in that order and with
its path, whose text is the one that the grammar declares; their numbers are all numbers there are,
each once, but for that of the flag for help. -/
theorem build_faithful (files : Files) (g : Grammar) (b : BuiltGrammar)
    (h : g.build files = .ok b) :
    (b.session.scheme.argNodes root).map (·.2) = g.args.map (·.positional files) ∧
      ∃ branches, b.session.scheme.branches root = branches ++ b.session.scheme.helpBranches ∧
        Branch.AllDepict files branches g.flags ∧ b.session.scheme.help.isSome = g.help ∧
        let visits := argVisits [] (b.session.scheme.argNodes root) ++ Branch.allVisits [] branches
        b.flags = visits.filterMap Handle.flag? ∧ b.args = visits.filterMap Handle.arg? ∧
          b.groups = visits.filterMap Handle.group? ∧
          b.flagPaths = g.pathsOf .flag ∧ b.args.map (·.1.text) = g.pathsOf .arg ∧
          b.groups.map (·.1.text) = g.pathsOf .group ∧
          b.flags.map (·.2.index) = List.range b.flags.length ∧
          b.session.scheme.flags.length = b.flags.length + g.help.toNat ∧
          b.args.map (·.2.index) = List.range b.session.scheme.args.length ∧
          b.groups.map (·.2.index) = List.range b.session.scheme.groups.length := by
  obtain ⟨d, args, branches, hb⟩ := exists_built h
  obtain ⟨hlevel, hshown⟩ := hb.shown
  obtain ⟨hhelp, hflags, hargs, hgroups⟩ := hb.numbers
  obtain ⟨hfrows, hfnumbers, hfcount⟩ := hb.adds.notes.flags.of_empty
  obtain ⟨harows, hanumbers, -⟩ := hb.adds.notes.args.of_empty
  obtain ⟨hgrows, hgnumbers, -⟩ := hb.adds.notes.groups.of_empty
  rw [hlevel.argNodes_eq]
  refine ⟨hb.args_eq, branches, Scheme.branches_shown hlevel hshown, hb.depict, hhelp,
    hb.flags_eq.trans hfrows, hb.argIds_eq.trans harows, hb.groups_eq.trans hgrows,
    ?_, ?_, ?_, ?_, ?_, ?_, ?_⟩
  · rw [BuiltGrammar.flagPaths, hb.flags_eq, hfrows]
    exact map_text_rows (fun ⟨_, x⟩ => by cases x <;> rfl) hb.labels
  · rw [hb.argIds_eq, harows]
    exact map_text_rows (fun ⟨_, x⟩ => by cases x <;> rfl) hb.labels
  · rw [hb.groups_eq, hgrows]
    exact map_text_rows (fun ⟨_, x⟩ => by cases x <;> rfl) hb.labels
  · rw [hb.flags_eq, hfrows, hfnumbers, hfcount]
  · rw [hflags, hb.flags_eq, hfrows, hfcount]
  · rw [hb.argIds_eq, harows, hanumbers, hargs]
  · rw [hb.groups_eq, hgrows, hgnumbers, hgroups]

/-- A speed that is a choice, one of them with a limit, and an input. -/
def drive : Grammar where
  program := some "drive"
  help := true
  args := [⟨"input", .mandatory, "", .existingFile⟩]
  flags := [.flag .mandatory ⟨"--speed", "How fast.", [], [.group .mandatory [
    ⟨"slow", "", [], []⟩,
    ⟨"fast", "", [], [.flag .optional ⟨"--limit", "",
      [⟨"speed_limit", .mandatory, "In km/h.", .unsigned ⟨none, some 50, true, true⟩⟩], []⟩]⟩]]⟩]

theorem drive_build_faithful : ∃ b branches, drive.build Files.empty = .ok b ∧
    (b.session.scheme.argNodes root).map (·.2) = drive.args.map (·.positional Files.empty) ∧
      b.session.scheme.branches root = branches ++ b.session.scheme.helpBranches ∧
        Branch.AllDepict Files.empty branches drive.flags ∧
          b.session.scheme.flags.length = b.flags.length + 1 ∧
            b.flagPaths = ["--speed", "--speed/slow", "--speed/fast", "--speed/fast/--limit"] ∧
              b.args.map (·.1.text) = ["input", "--speed/fast/--limit/speed_limit"] ∧
                b.groups.map (·.1.text) = ["--speed/slow|fast"] := by
  have hok : (drive.build Files.empty).toOption.any (fun b => b.flags.length = 4) = true := by
    decide +kernel
  obtain ⟨b, hb, -⟩ := exists_ok_of_any hok
  obtain ⟨hargs, branches, htree, hdepict, -, -, -, -, hflagPaths, hargPaths, hgroupPaths, -,
    hflags, -⟩ := build_faithful Files.empty drive b hb
  have hlabels : drive.pathsOf .flag =
        ["--speed", "--speed/slow", "--speed/fast", "--speed/fast/--limit"] ∧
      drive.pathsOf .arg = ["input", "--speed/fast/--limit/speed_limit"] ∧
        drive.pathsOf .group = ["--speed/slow|fast"] := by
    decide +kernel
  exact ⟨b, branches, hb, hargs, htree, hdepict, hflags, hflagPaths.trans hlabels.1,
    hargPaths.trans hlabels.2.1, hgroupPaths.trans hlabels.2.2⟩

end Grammar

end CommandGrammar
