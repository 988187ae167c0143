import CommandGrammar.Proofs.Arena
import CommandGrammar.Proofs.Script

/-!
# Registrations keep the arenas

A registration is a few updates of single lists, in an order that leaves something open in between:
a new flag has a key before it is listed or is a member of its group. Each update keeps the parts of
`Arena` that it does not touch and extends the others by what it adds, and the registrations are
chains of such updates.
-/

namespace CommandGrammar.Scheme

variable {s s' : Scheme}

section UpdateStore

variable {f : Store → Store} {id : StoreId}

theorem store?_updateStore (store : StoreId) :
    (s.updateStore id f).store? store =
      (s.store? store).map fun st => if store = id then f st else st :=
  getElem?_modify_of_injective (fun _ _ => StoreId.ext) s.stores f id store

theorem keysOf_updateStore (hf : ∀ st, (f st).keys = st.keys) (store : StoreId) :
    (s.updateStore id f).keysOf store = s.keysOf store := by
  rw [keysOf, store?_updateStore, Option.map_map, keysOf]
  congr 2
  funext st
  by_cases h : store = id <;> simp [h, hf]

theorem listing_updateStore (hf : ∀ st, (f st).entries = st.entries) (store : StoreId) :
    (s.updateStore id f).listing store = s.listing store := by
  rw [listing, store?_updateStore, Option.map_map, listing]
  congr 2
  funext st
  by_cases h : store = id <;> simp [h, hf]

/-- What a change of a store leaves alone covers what it covered. -/
theorem covers_updateStore {g : Store → List Nat} {n : Nat} (h : Covers (s.stores.flatMap g) n)
    (hf : ∀ st, g (f st) = g st) : Covers ((s.updateStore id f).stores.flatMap g) n := by
  simp only [updateStore]
  rw [flatMap_modify _ _ _ _ hf]
  exact h

theorem Tallied.argTally_updateStore (ha : s.Tallied) {store : StoreId} {st' : Store}
    (h : ((s.store? store).map fun st => if store = id then f st else st) = some st')
    (hf : ∀ st, (f st).args = st.args) (ht : ∀ st, (f st).argTally = st.argTally) :
    st'.argTally = .ofUnits (st'.args.filterMap s.argPolicy?) := by
  obtain ⟨st, hst, rfl⟩ := Option.map_eq_some_iff.1 h
  have := ha.argTally hst
  split_ifs
  · rw [hf, ht]
    exact this
  · exact this

/-- A scheme with the same keys, and with more in its listings. -/
theorem Linked.of_keys (ha : s.Linked) (hk : ∀ store, s'.keysOf store = s.keysOf store)
    (hf : ∀ id, s'.flag? id = s.flag? id) (hh : s'.help = s.help)
    (hl : ∀ {store e}, e ∈ s.listing store → e ∈ s'.listing store)
    (flag_listed : ∀ {store id}, .flag id ∈ s'.listing store →
      ∃ f, s.flag? id = some f ∧ f.group = none ∧ (f.key, id) ∈ s.keysOf store)
    (group_listed : ∀ {store id}, .group id ∈ s'.listing store →
      ∃ g, s'.group? id = some g ∧ g.store = store)
    (member : ∀ {group g id}, s'.group? group = some g → id ∈ g.members →
      ∃ f, s.flag? id = some f ∧ f.group = some group ∧ f.policy = g.policy ∧
        (f.key, id) ∈ s.keysOf g.store) : s'.Linked where
  key_eq hx := by
    rw [hk] at hx
    rw [key?, hf]
    exact ha.key_eq hx
  keys_nodup store := by
    rw [hk]
    exact ha.keys_nodup store
  flag_listed he := by
    simp only [hk, hf]
    exact flag_listed he
  group_listed := group_listed
  member hg hm := by
    simp only [hk, hf]
    exact member hg hm
  deeper hx hid := by
    rw [hk] at hx
    rw [hf] at hid
    exact ha.deeper hx hid
  help_flag hid := by
    rw [hh] at hid
    obtain ⟨f, hfl, h1, h2, h3, h4⟩ := ha.help_flag hid
    exact ⟨f, (hf _).trans hfl, h1, h2, h3, hl h4⟩

end UpdateStore

section InsertFlag

variable {store : StoreId} {flag : Flag}

/-- The scheme with one more flag, keyed in a store. -/
def withFlag (s : Scheme) (store : StoreId) (flag : Flag) : Scheme :=
  let id : FlagId := ⟨s.flags.length⟩
  let s := { s with flags := s.flags ++ [flag] }
  s.updateStore store fun st => { st with keys := st.keys ++ [(flag.key, id)] }

/-- A flag that is inserted has a new key in a known store, and the next number. -/
theorem insertFlag_ok {id : FlagId} (h : s.insertFlag store flag = .ok (s', id)) :
    ∃ st, s.store? store = some st ∧ (∀ x ∈ st.keys, x.1 ≠ flag.key) ∧
      id = ⟨s.flags.length⟩ ∧ s' = s.withFlag store flag := by
  unfold insertFlag keyFault? at h
  rcases hst : s.store? store with _ | st <;> simp only [hst] at h
  · simp at h
  · split_ifs at h with h1 h2
    · simp only [Except.ok.injEq, Prod.mk.injEq] at h
      obtain ⟨rfl, rfl⟩ := h
      refine ⟨st, rfl, fun x hx hk => h2 ?_, rfl, rfl⟩
      rw [List.lookup_isSome_iff]
      exact ⟨x, hx, by simp [hk]⟩

theorem store?_withFlag (other : StoreId) :
    (s.withFlag store flag).store? other = (s.store? other).map fun st =>
      if other = store then { st with keys := st.keys ++ [(flag.key, ⟨s.flags.length⟩)] } else st :=
  store?_updateStore other

theorem flag?_withFlag {id : FlagId} {f : Flag} (h : s.flag? id = some f) :
    (s.withFlag store flag).flag? id = some f := by
  change (s.flags ++ [flag])[id.index]? = some f
  rw [List.getElem?_append_left (lt_of_flag? h)]
  exact h

theorem flag?_withFlag_new : (s.withFlag store flag).flag? ⟨s.flags.length⟩ = some flag :=
  List.getElem?_concat_length

theorem mem_keysOf_withFlag {st : Store} (hst : s.store? store = some st) {other : StoreId}
    {x : String × FlagId} : x ∈ (s.withFlag store flag).keysOf other ↔
      x ∈ s.keysOf other ∨ other = store ∧ x = (flag.key, ⟨s.flags.length⟩) := by
  rw [mem_keysOf, mem_keysOf, store?_withFlag]
  by_cases ho : other = store
  · subst ho
    simp [hst]
  · simp [ho]

theorem listing_withFlag (other : StoreId) :
    (s.withFlag store flag).listing other = s.listing other :=
  listing_updateStore (by intro _; rfl) other

theorem Covered.withFlag (ha : s.Covered []) {st : Store} (hst : s.store? store = some st)
    (hc : flag.children = none) : (s.withFlag store flag).Covered [⟨s.flags.length⟩] where
  keyed := by
    have hp := flatMap_modify_perm (fun st : Store => st.keys.map (·.2.index)) (fun st : Store =>
      { st with keys := st.keys ++ [(flag.key, ⟨s.flags.length⟩)] }) (by simp; rfl) hst
    simpa [Scheme.withFlag, updateStore] using ha.keyed.concat hp
  listed := by
    simp only [Scheme.withFlag, updateStore]
    rw [flatMap_modify _ _ _ _ (by intro _; rfl)]
    simpa using ha.listed.concat (by simp)
  grouped := covers_updateStore ha.grouped fun _ => rfl
  placed := covers_updateStore ha.placed fun _ => rfl
  nested := by simpa [Scheme.withFlag, updateStore, hc] using ha.nested

theorem Linked.withFlag (ha : s.Linked) {st : Store} (hst : s.store? store = some st)
    (hnew : ∀ x ∈ st.keys, x.1 ≠ flag.key) (hc : flag.children = none) :
    (s.withFlag store flag).Linked where
  key_eq {other key id} hx := by
    rcases (mem_keysOf_withFlag hst).1 hx with hx | ⟨-, hx⟩
    · obtain ⟨f, hf, rfl⟩ := exists_flag_of_key? (ha.key_eq hx)
      simp [key?, flag?_withFlag hf]
    · cases hx
      simp [key?, flag?_withFlag_new]
  keys_nodup other := by
    have hn := ha.keys_nodup other
    rw [keysOf, store?_withFlag]
    by_cases ho : other = store
    · subst ho
      simp only [keysOf, hst, Option.map_some, Option.getD_some, ↓reduceIte, List.map_append,
        List.map_cons, List.map_nil] at hn ⊢
      refine List.Nodup.append hn (List.nodup_singleton _) ?_
      simpa using fun x hx => hnew (flag.key, x) hx rfl
    · simpa [ho, keysOf] using hn
  flag_listed {other id} he := by
    rw [listing_withFlag] at he
    obtain ⟨f, hf, hg, hk⟩ := ha.flag_listed he
    exact ⟨f, flag?_withFlag hf, hg, (mem_keysOf_withFlag hst).2 (.inl hk)⟩
  group_listed {other id} he := by
    rw [listing_withFlag] at he
    exact ha.group_listed he
  member hg hm := by
    obtain ⟨f, hf, h1, h2, hk⟩ := ha.member hg hm
    exact ⟨f, flag?_withFlag hf, h1, h2, (mem_keysOf_withFlag hst).2 (.inl hk)⟩
  deeper {other key id f child} hx hf hch := by
    rcases (mem_keysOf_withFlag hst).1 hx with hx | ⟨-, hx⟩
    · obtain ⟨f', hf', -⟩ := exists_flag_of_key? (ha.key_eq hx)
      rw [flag?_withFlag hf'] at hf
      cases hf
      exact ha.deeper hx hf' hch
    · cases hx
      rw [flag?_withFlag_new] at hf
      cases hf
      rw [hc] at hch
      cases hch
  help_flag hid := by
    obtain ⟨f, hf, h1, h2, h3, h4⟩ := ha.help_flag hid
    exact ⟨f, flag?_withFlag hf, h1, h2, h3, by rwa [listing_withFlag]⟩

theorem Tallied.withFlag (hl : s.Linked) (ha : s.Tallied) : (s.withFlag store flag).Tallied where
  flagTally {other st'} hst' := by
    rw [store?_withFlag, Option.map_eq_some_iff] at hst'
    obtain ⟨st, hst, rfl⟩ := hst'
    have hunit : st.entries.filterMap (s.withFlag store flag).unitPolicy? =
        st.entries.filterMap s.unitPolicy? := by
      refine List.filterMap_congr fun e he => ?_
      rcases e with id | id
      · obtain ⟨f, hf, -⟩ := hl.flag_listed (mem_listing.2 ⟨st, hst, he⟩)
        simp [unitPolicy?, hf, flag?_withFlag hf]
      · rfl
    have := ha.flagTally hst
    split_ifs <;> simpa [hunit] using this
  argTally hst' := by
    rw [store?_withFlag] at hst'
    exact ha.argTally_updateStore hst' (fun _ => rfl) fun _ => rfl

end InsertFlag

section ListFlag

variable {store : StoreId} {id : FlagId} {f : Flag}

theorem mem_listing_listFlag {st : Store} (hst : s.store? store = some st) {other : StoreId}
    {e : Entry} {policy : Policy} : e ∈ (s.listFlag store id policy).listing other ↔
      e ∈ s.listing other ∨ other = store ∧ e = .flag id := by
  rw [mem_listing, mem_listing, listFlag, store?_updateStore]
  by_cases ho : other = store
  · subst ho
    simp [hst]
  · simp [ho]

theorem keysOf_listFlag (policy : Policy) (other : StoreId) :
    (s.listFlag store id policy).keysOf other = s.keysOf other :=
  keysOf_updateStore (by intro _; rfl) other

theorem Covered.listFlag (ha : s.Covered [id]) {st : Store} (hst : s.store? store = some st)
    (policy : Policy) : (s.listFlag store id policy).Covered [] where
  keyed := covers_updateStore ha.keyed fun _ => rfl
  listed := by
    have hp := flatMap_modify_perm (fun st : Store => st.entries.filterMap Entry.flagIndex?)
      (fun st : Store => { st with
        entries := st.entries ++ [.flag id], flagTally := st.flagTally.count policy })
      (m := [id.index]) (by simp [Entry.flagIndex?]) hst
    refine ha.listed.of_perm ?_
    simp only [List.map_nil, List.append_nil, List.map_cons]
    refine (hp.append_right _).trans ?_
    simp only [List.append_assoc]
    exact List.perm_append_comm.append_left _
  grouped := covers_updateStore ha.grouped fun st => by simp [Entry.groupIndex?]
  placed := covers_updateStore ha.placed fun _ => rfl
  nested := by simpa [Scheme.listFlag, updateStore] using ha.nested

theorem Linked.listFlag (ha : s.Linked) {st : Store} (hst : s.store? store = some st)
    (hf : s.flag? id = some f) (hg : f.group = none) (hk : (f.key, id) ∈ s.keysOf store)
    (policy : Policy) : (s.listFlag store id policy).Linked := by
  refine ha.of_keys (keysOf_listFlag policy) (fun _ => rfl) rfl
    (fun he => (mem_listing_listFlag hst).2 (.inl he)) (fun he => ?_) (fun he => ?_) ha.member
  · rcases (mem_listing_listFlag hst).1 he with h | ⟨rfl, h⟩
    · exact ha.flag_listed h
    · cases h
      exact ⟨f, hf, hg, hk⟩
  · rcases (mem_listing_listFlag hst).1 he with he | ⟨-, he⟩
    · exact ha.group_listed he
    · cases he

theorem Tallied.listFlag (ha : s.Tallied) (hf : s.flag? id = some f) :
    (s.listFlag store id f.policy).Tallied where
  flagTally {other st'} hst' := by
    rw [Scheme.listFlag, store?_updateStore, Option.map_eq_some_iff] at hst'
    obtain ⟨st, hst, rfl⟩ := hst'
    have := ha.flagTally hst
    change _ = Tally.ofUnits (List.filterMap s.unitPolicy? _)
    have hu : s.unitPolicy? (.flag id) = some f.policy := by simp [unitPolicy?, hf]
    split_ifs
    · simp [hu, this, Tally.ofUnits_concat]
    · exact this
  argTally hst' := by
    rw [Scheme.listFlag, store?_updateStore] at hst'
    exact ha.argTally_updateStore hst' (fun _ => rfl) fun _ => rfl

end ListFlag

section ListMember

variable {group : GroupId} {g : Group} {id : FlagId} {f : Flag}

/-- The scheme with one more member in a group. -/
def withMember (s : Scheme) (group : GroupId) (g : Group) (id : FlagId) : Scheme :=
  let s := s.updateGroup group fun g => { g with members := g.members ++ [id] }
  s.updateStore g.store fun st =>
    { st with flagTally := if g.members.isEmpty then st.flagTally.count g.policy else st.flagTally }

theorem listMember_eq (hg : s.group? group = some g) :
    s.listMember group id = s.withMember group g id := by
  by_cases he : g.members.isEmpty = true
  · simp [listMember, withMember, hg, he]
  · have hid : ∀ (l : List Store) i, l.modify i (fun st => st) = l := fun l i =>
      List.ext_getElem? fun j => by simp [List.getElem?_modify]
    simp [listMember, withMember, hg, he, updateStore, hid]

theorem store?_withMember (other : StoreId) :
    (s.withMember group g id).store? other = (s.store? other).map fun st =>
      if other = g.store then { st with flagTally :=
        if g.members.isEmpty then st.flagTally.count g.policy else st.flagTally } else st :=
  store?_updateStore other

theorem keysOf_withMember (other : StoreId) :
    (s.withMember group g id).keysOf other = s.keysOf other :=
  keysOf_updateStore (by intro _; rfl) other

theorem listing_withMember (other : StoreId) :
    (s.withMember group g id).listing other = s.listing other :=
  listing_updateStore (by intro _; rfl) other

theorem group?_withMember (other : GroupId) : (s.withMember group g id).group? other =
    (s.group? other).map fun g =>
      if other = group then { g with members := g.members ++ [id] } else g :=
  getElem?_modify_of_injective (fun _ _ => GroupId.ext) s.groups _ group other

theorem Covered.withMember (ha : s.Covered [id]) (hg : s.group? group = some g) :
    (s.withMember group g id).Covered [] where
  keyed := covers_updateStore ha.keyed fun _ => rfl
  listed := by
    simp only [Scheme.withMember, updateStore, updateGroup]
    rw [flatMap_modify _ _ _ _ (by intro _; rfl)]
    have hp := flatMap_modify_perm (fun g : Group => g.members.map (·.index))
      (fun g : Group => { g with members := g.members ++ [id] }) (m := [id.index])
      (by simp) hg
    refine ha.listed.of_perm ?_
    simp only [List.map_nil, List.append_nil, List.map_cons, List.append_assoc]
    exact hp.append_left _
  grouped := by
    simp only [Scheme.withMember, updateStore, updateGroup, List.length_modify]
    rw [flatMap_modify _ _ _ _ (by intro _; rfl)]
    exact ha.grouped
  placed := covers_updateStore ha.placed fun _ => rfl
  nested := by simpa [Scheme.withMember, updateStore, updateGroup] using ha.nested

theorem Linked.withMember (ha : s.Linked) (hg : s.group? group = some g)
    (hf : s.flag? id = some f) (hfg : f.group = some group) (hp : f.policy = g.policy)
    (hk : (f.key, id) ∈ s.keysOf g.store) : (s.withMember group g id).Linked := by
  refine ha.of_keys keysOf_withMember (fun _ => rfl) rfl
    (fun he => by rwa [listing_withMember]) (fun he => ?_) (fun he => ?_) (fun hg' hm => ?_)
  · rw [listing_withMember] at he
    exact ha.flag_listed he
  · rw [listing_withMember] at he
    obtain ⟨g', hg', rfl⟩ := ha.group_listed he
    refine ⟨_, by rw [group?_withMember, hg']; rfl, ?_⟩
    split_ifs <;> rfl
  · rw [group?_withMember, Option.map_eq_some_iff] at hg'
    obtain ⟨g₀, hg₀, rfl⟩ := hg'
    split_ifs at hm ⊢ with ho
    · subst ho
      obtain rfl : g₀ = g := Option.some.inj (hg₀.symm.trans hg)
      rcases List.mem_append.1 hm with hm | hm
      · exact ha.member (g := g₀) hg hm
      · rw [List.mem_singleton] at hm
        subst hm
        exact ⟨f, hf, hfg, hp, hk⟩
    · exact ha.member hg₀ hm

/-- Only the policy of the group as a unit can change: with its first member it gets one. -/
theorem unitPolicy?_withMember (hg : s.group? group = some g) (e : Entry) :
    (s.withMember group g id).unitPolicy? e =
      if e = .group group then some g.policy else s.unitPolicy? e := by
  rcases e with id' | id'
  · rfl
  · simp only [unitPolicy?, group?_withMember, Entry.group.injEq]
    split_ifs with h
    · subst h
      simp [hg]
    · simp

theorem Tallied.withMember (hc : s.Covered [id]) (hl : s.Linked) (ha : s.Tallied)
    (hg : s.group? group = some g) (hm : .group group ∈ s.listing g.store) :
    (s.withMember group g id).Tallied where
  flagTally {other st'} hst' := by
    rw [store?_withMember, Option.map_eq_some_iff] at hst'
    obtain ⟨st, hst, rfl⟩ := hst'
    have ht := ha.flagTally hst
    have hn := hc.listing_nodup other
    simp only [listing, hst, Option.map_some, Option.getD_some] at hn
    have hout : other ≠ g.store → .group group ∉ st.entries := by
      intro ho he
      obtain ⟨g', hg', hs⟩ := hl.group_listed (mem_listing.2 ⟨st, hst, he⟩)
      rw [hg] at hg'
      cases hg'
      exact ho hs.symm
    have hsame : (∀ e ∈ st.entries, e = .group group → s.unitPolicy? e = some g.policy) →
        st.entries.filterMap (s.withMember group g id).unitPolicy? =
          st.entries.filterMap s.unitPolicy? := by
      intro h
      refine List.filterMap_congr fun e he => ?_
      rw [unitPolicy?_withMember hg]
      split_ifs with hge
      · exact (h e he hge).symm
      · rfl
    -- in its own store the group counts from its first member on; no other store lists it
    split_ifs with ho he
    · subst ho
      obtain ⟨st₁, hst₁, hm⟩ := mem_listing.1 hm
      obtain rfl : st = st₁ := Option.some.inj (hst.symm.trans hst₁)
      have hp := filterMap_perm_of_gain (u := s.unitPolicy?)
        (v := (s.withMember group g id).unitPolicy?) (a := .group group) (b := g.policy)
        (by simp [unitPolicy?, hg, List.isEmpty_iff.1 he]) (by rw [unitPolicy?_withMember hg, if_pos rfl])
        (fun e hne => by rw [unitPolicy?_withMember hg, if_neg hne]) hn hm
      rw [ht, ← Tally.ofUnits_concat]
      exact (Tally.ofUnits_perm hp).symm
    · rw [hsame fun e _ hge => by
        simpa [hge, unitPolicy?, hg] using he]
      exact ht
    · rw [hsame fun e he hge => absurd (hge ▸ he) (hout ho)]
      exact ht
  argTally hst' := by
    rw [store?_withMember] at hst'
    exact ha.argTally_updateStore hst' (fun _ => rfl) fun _ => rfl

end ListMember

section Nest

variable {id : FlagId} {f : Flag}

theorem flag?_updateFlag {h : Flag → Flag} (other : FlagId) : (s.updateFlag id h).flag? other =
    (s.flag? other).map fun f => if other = id then h f else f :=
  getElem?_modify_of_injective (fun _ _ => FlagId.ext) s.flags h id other

theorem flag?_nest (other : FlagId) : (s.nest id).1.flag? other = (s.flag? other).map fun f =>
    if other = id then { f with children := some ⟨s.stores.length⟩ } else f :=
  flag?_updateFlag other

theorem store?_nest {store : StoreId} {st : Store} (h : (s.nest id).1.store? store = some st) :
    s.store? store = some st ∨ st = {} := by
  change (s.stores ++ [({} : Store)])[store.index]? = some st at h
  rw [List.getElem?_append] at h
  split_ifs at h with hlt
  · exact .inl h
  · exact .inr (List.mem_singleton.1 (List.mem_of_getElem? h))

theorem store?_nest_of_lt {store : StoreId} {st : Store} (h : s.store? store = some st) :
    (s.nest id).1.store? store = some st := by
  change (s.stores ++ [({} : Store)])[store.index]? = some st
  rw [List.getElem?_append_left (lt_of_store? h)]
  exact h

theorem mem_keysOf_nest {store : StoreId} {x : String × FlagId} :
    x ∈ (s.nest id).1.keysOf store ↔ x ∈ s.keysOf store := by
  rw [mem_keysOf, mem_keysOf]
  refine ⟨fun ⟨st, hst, hx⟩ => ?_, fun ⟨st, hst, hx⟩ => ⟨st, store?_nest_of_lt hst, hx⟩⟩
  rcases store?_nest hst with h | rfl
  · exact ⟨st, h, hx⟩
  · simp at hx

theorem mem_listing_nest {store : StoreId} {e : Entry} :
    e ∈ (s.nest id).1.listing store ↔ e ∈ s.listing store := by
  rw [mem_listing, mem_listing]
  refine ⟨fun ⟨st, hst, hx⟩ => ?_, fun ⟨st, hst, hx⟩ => ⟨st, store?_nest_of_lt hst, hx⟩⟩
  rcases store?_nest hst with h | rfl
  · exact ⟨st, h, hx⟩
  · simp at hx

/-- A flag gets a new store: nothing is in it, and no other flag has it. -/
theorem Covered.nest (ha : s.Covered []) (hf : s.flag? id = some f) (hc : f.children = none) :
    (s.nest id).1.Covered [] where
  keyed := by simpa [Scheme.nest, updateFlag] using ha.keyed
  listed := by simpa [Scheme.nest, updateFlag] using ha.listed
  grouped := by simpa [Scheme.nest, updateFlag] using ha.grouped
  placed := by simpa [Scheme.nest, updateFlag] using ha.placed
  nested := by
    have hp := flatMap_modify_perm (fun f : Flag => (f.children.map (·.index)).toList)
      (fun f : Flag => { f with children := some ⟨s.stores.length⟩ })
      (m := [s.stores.length]) (by simp [hc]) hf
    simpa [Scheme.nest, updateFlag] using ha.nested.concat (hp.cons _)

theorem Linked.nest (ha : s.Linked) (hh : s.help ≠ some id) : (s.nest id).1.Linked where
  key_eq {store key id'} hx := by
    obtain ⟨f', hf', rfl⟩ := exists_flag_of_key? (ha.key_eq (mem_keysOf_nest.1 hx))
    rw [key?, flag?_nest, hf']
    simp only [Option.map_some]
    split_ifs <;> rfl
  keys_nodup store := by
    rcases h : (s.nest id).1.store? store with _ | st
    · simp [keysOf, h]
    · have hn := ha.keys_nodup store
      rcases store?_nest h with h' | rfl
      · simpa [keysOf, h, h'] using hn
      · simp [keysOf, h]
  flag_listed {store id'} he := by
    obtain ⟨f', hf', hg, hk⟩ := ha.flag_listed (mem_listing_nest.1 he)
    refine ⟨_, by rw [flag?_nest, hf']; rfl, ?_⟩
    rw [mem_keysOf_nest]
    split_ifs <;> exact ⟨hg, hk⟩
  group_listed he := ha.group_listed (mem_listing_nest.1 he)
  member {group g id'} hg hm := by
    obtain ⟨f', hf', h1, h2, h3⟩ := ha.member hg hm
    refine ⟨_, by rw [flag?_nest, hf']; rfl, ?_⟩
    rw [mem_keysOf_nest]
    split_ifs <;> exact ⟨h1, h2, h3⟩
  deeper {store key id' f' child} hx hf' hch := by
    rw [mem_keysOf_nest] at hx
    rw [flag?_nest, Option.map_eq_some_iff] at hf'
    obtain ⟨f₀, hf₀, rfl⟩ := hf'
    split_ifs at hch with ho
    · obtain ⟨st, hst, -⟩ := mem_keysOf.1 hx
      cases hch
      exact lt_of_store? hst
    · exact ha.deeper hx hf₀ hch
  help_flag {id'} hid := by
    obtain ⟨f', hf', h1, h2, h3, h4⟩ := ha.help_flag hid
    have hne : id' ≠ id := fun h => hh (h ▸ hid)
    exact ⟨f', by simp [flag?_nest, hf', hne], h1, h2, h3, mem_listing_nest.2 h4⟩

theorem Tallied.nest (ha : s.Tallied) : (s.nest id).1.Tallied where
  flagTally {store st} hst := by
    have hunit : (s.nest id).1.unitPolicy? = s.unitPolicy? := by
      funext e
      rcases e with id' | id'
      · simp only [unitPolicy?, flag?_nest, Option.map_map]
        congr 1
        funext f
        simp only [Function.comp_apply]
        split_ifs <;> rfl
      · rfl
    rw [hunit]
    rcases store?_nest hst with h | rfl
    · exact ha.flagTally h
    · rfl
  argTally {store st} hst := by
    rcases store?_nest hst with h | rfl
    · exact ha.argTally h
    · rfl

end Nest

section AddArg

variable {store : StoreId} {arg : Positional}

/-- The scheme with one more argument, placed in a store. -/
def withArg (s : Scheme) (store : StoreId) (arg : Positional) : Scheme :=
  let id : ArgId := ⟨s.args.length⟩
  let s := { s with args := s.args ++ [arg] }
  s.updateStore store fun st =>
    { st with args := st.args ++ [id], argTally := st.argTally.count arg.policy }

theorem addArg_ok {id : ArgId} (h : s.addArg store arg = .ok (s', id)) :
    ∃ st, s.store? store = some st ∧ id = ⟨s.args.length⟩ ∧ s' = s.withArg store arg := by
  unfold addArg at h
  rcases hst : s.store? store with _ | st <;> simp only [hst] at h
  · simp at h
  · split_ifs at h
    simp only [Except.ok.injEq, Prod.mk.injEq] at h
    exact ⟨st, rfl, h.2.symm, h.1.symm⟩

theorem store?_withArg (other : StoreId) :
    (s.withArg store arg).store? other = (s.store? other).map fun st =>
      if other = store then { st with
        args := st.args ++ [⟨s.args.length⟩], argTally := st.argTally.count arg.policy } else st :=
  store?_updateStore other

theorem keysOf_withArg (other : StoreId) : (s.withArg store arg).keysOf other = s.keysOf other :=
  keysOf_updateStore (by intro _; rfl) other

theorem listing_withArg (other : StoreId) :
    (s.withArg store arg).listing other = s.listing other :=
  listing_updateStore (by intro _; rfl) other

theorem arg?_withArg {id : ArgId} {a : Positional} (h : s.arg? id = some a) :
    (s.withArg store arg).arg? id = some a := by
  change (s.args ++ [arg])[id.index]? = some a
  rw [List.getElem?_append_left (List.getElem?_eq_some_iff.1 h).1]
  exact h

theorem arg?_withArg_new : (s.withArg store arg).arg? ⟨s.args.length⟩ = some arg :=
  List.getElem?_concat_length

theorem Covered.withArg (ha : s.Covered []) {st : Store} (hst : s.store? store = some st) :
    (s.withArg store arg).Covered [] where
  keyed := covers_updateStore ha.keyed fun _ => rfl
  listed := by
    simp only [Scheme.withArg, updateStore]
    rw [flatMap_modify _ _ _ _ (by intro _; rfl)]
    exact ha.listed
  grouped := covers_updateStore ha.grouped fun _ => rfl
  placed := by
    have hp := flatMap_modify_perm (fun st : Store => st.args.map (·.index)) (fun st : Store =>
      { st with args := st.args ++ [⟨s.args.length⟩], argTally := st.argTally.count arg.policy })
      (m := [s.args.length]) (by simp) hst
    simpa [Scheme.withArg, updateStore] using ha.placed.concat hp
  nested := by simpa [Scheme.withArg, updateStore] using ha.nested

theorem Linked.withArg (ha : s.Linked) : (s.withArg store arg).Linked := by
  refine ha.of_keys keysOf_withArg (fun _ => rfl) rfl (fun he => by rwa [listing_withArg])
    (fun he => ?_) (fun he => ?_) ha.member
  · rw [listing_withArg] at he
    exact ha.flag_listed he
  · rw [listing_withArg] at he
    exact ha.group_listed he

theorem Tallied.withArg (hc : s.Covered []) (ha : s.Tallied) : (s.withArg store arg).Tallied where
  flagTally {other st'} hst' := by
    rw [store?_withArg, Option.map_eq_some_iff] at hst'
    obtain ⟨st, hst, rfl⟩ := hst'
    have := ha.flagTally hst
    split_ifs <;> exact this
  argTally {other st'} hst' := by
    rw [store?_withArg, Option.map_eq_some_iff] at hst'
    obtain ⟨st, hst, rfl⟩ := hst'
    have ht := ha.argTally hst
    have hold : st.args.filterMap (s.withArg store arg).argPolicy? =
        st.args.filterMap s.argPolicy? := by
      refine List.filterMap_congr fun id hid => ?_
      obtain ⟨a, hf⟩ := hc.exists_arg (mem_argsOf.2 ⟨st, hst, hid⟩)
      rw [argPolicy?, argPolicy?, hf, arg?_withArg hf]
    split_ifs
    · simp [hold, ht, argPolicy?, arg?_withArg_new, Tally.ofUnits_concat]
    · rw [hold]
      exact ht

end AddArg

section AddGroup

variable {store : StoreId} {policy : Policy}

/-- The scheme with one more group, listed in a store and without members. -/
def withGroup (s : Scheme) (store : StoreId) (policy : Policy) : Scheme :=
  let id : GroupId := ⟨s.groups.length⟩
  let group : Group := { store, policy, members := [] }
  let s := { s with groups := s.groups ++ [group] }
  s.updateStore store fun st => { st with entries := st.entries ++ [.group id] }

theorem addGroup_ok {id : GroupId} (h : s.addGroup store policy = .ok (s', id)) :
    ∃ st, s.store? store = some st ∧ id = ⟨s.groups.length⟩ ∧ s' = s.withGroup store policy := by
  unfold addGroup at h
  rcases hst : s.store? store with _ | st <;> simp only [hst] at h
  · simp at h
  · simp only [Except.ok.injEq, Prod.mk.injEq] at h
    exact ⟨st, rfl, h.2.symm, h.1.symm⟩

theorem store?_withGroup (other : StoreId) :
    (s.withGroup store policy).store? other = (s.store? other).map fun st =>
      if other = store then { st with entries := st.entries ++ [.group ⟨s.groups.length⟩] } else st :=
  store?_updateStore other

theorem keysOf_withGroup (other : StoreId) :
    (s.withGroup store policy).keysOf other = s.keysOf other :=
  keysOf_updateStore (by intro _; rfl) other

theorem mem_listing_withGroup {st : Store} (hst : s.store? store = some st) {other : StoreId}
    {e : Entry} : e ∈ (s.withGroup store policy).listing other ↔
      e ∈ s.listing other ∨ other = store ∧ e = .group ⟨s.groups.length⟩ := by
  rw [mem_listing, mem_listing, store?_withGroup]
  by_cases ho : other = store
  · subst ho
    simp [hst]
  · simp [ho]

theorem group?_withGroup {id : GroupId} {g : Group} (h : s.group? id = some g) :
    (s.withGroup store policy).group? id = some g := by
  change (s.groups ++ [_])[id.index]? = some g
  rw [List.getElem?_append_left (List.getElem?_eq_some_iff.1 h).1]
  exact h

theorem group?_withGroup_new : (s.withGroup store policy).group? ⟨s.groups.length⟩ =
    some { store, policy, members := [] } :=
  List.getElem?_concat_length

theorem Covered.withGroup (ha : s.Covered []) {st : Store} (hst : s.store? store = some st) :
    (s.withGroup store policy).Covered [] where
  keyed := covers_updateStore ha.keyed fun _ => rfl
  listed := by
    have hf : ∀ st : Store, (st.entries ++ [Entry.group ⟨s.groups.length⟩]).filterMap
        Entry.flagIndex? = st.entries.filterMap Entry.flagIndex? := fun st => by
      simp [Entry.flagIndex?]
    simp only [Scheme.withGroup, updateStore]
    rw [flatMap_modify _ _ _ _ (by exact hf)]
    simpa using ha.listed
  grouped := by
    have hp := flatMap_modify_perm (fun st : Store => st.entries.filterMap Entry.groupIndex?)
      (fun st : Store => { st with entries := st.entries ++ [.group ⟨s.groups.length⟩] })
      (m := [s.groups.length]) (by simp [Entry.groupIndex?]) hst
    simpa [Scheme.withGroup, updateStore] using ha.grouped.concat hp
  placed := covers_updateStore ha.placed fun _ => rfl
  nested := by simpa [Scheme.withGroup, updateStore] using ha.nested

theorem Linked.withGroup (ha : s.Linked) {st : Store} (hst : s.store? store = some st) :
    (s.withGroup store policy).Linked := by
  refine ha.of_keys keysOf_withGroup (fun _ => rfl) rfl
    (fun he => (mem_listing_withGroup hst).2 (.inl he)) (fun he => ?_) (fun he => ?_)
    (fun {group g id} hg hm => ?_)
  · rcases (mem_listing_withGroup hst).1 he with h | ⟨-, h⟩
    · exact ha.flag_listed h
    · cases h
  · rcases (mem_listing_withGroup hst).1 he with h | ⟨rfl, h⟩
    · obtain ⟨g, hg, hs⟩ := ha.group_listed h
      exact ⟨g, group?_withGroup hg, hs⟩
    · cases h
      exact ⟨_, group?_withGroup_new, rfl⟩
  · change (s.groups ++ [_])[group.index]? = some g at hg
    rw [List.getElem?_append] at hg
    split_ifs at hg
    · exact ha.member hg hm
    · obtain rfl := List.mem_singleton.1 (List.mem_of_getElem? hg)
      simp at hm

theorem Tallied.withGroup (hl : s.Linked) (ha : s.Tallied) :
    (s.withGroup store policy).Tallied where
  flagTally {other st'} hst' := by
    rw [store?_withGroup, Option.map_eq_some_iff] at hst'
    obtain ⟨st, hst, rfl⟩ := hst'
    have ht := ha.flagTally hst
    have hold : st.entries.filterMap (s.withGroup store policy).unitPolicy? =
        st.entries.filterMap s.unitPolicy? := by
      refine List.filterMap_congr fun e he => ?_
      rcases e with id | id
      · rfl
      · obtain ⟨g, hg, -⟩ := hl.group_listed (mem_listing.2 ⟨st, hst, he⟩)
        rw [unitPolicy?, unitPolicy?, hg, group?_withGroup hg]
    split_ifs
    · simp [hold, ht, unitPolicy?, group?_withGroup_new]
    · rw [hold]
      exact ht
  argTally hst' := by
    rw [store?_withGroup] at hst'
    exact ha.argTally_updateStore hst' (fun _ => rfl) fun _ => rfl

end AddGroup

section Whole

theorem insertFlag_arena {store : StoreId} {flag : Flag} {id : FlagId} (ha : s.WellFormed)
    (hc : flag.children = none) (h : s.insertFlag store flag = .ok (s', id)) :
    s'.Arena [id] ∧ id = ⟨s.flags.length⟩ ∧ s'.flag? id = some flag ∧
      (flag.key, id) ∈ s'.keysOf store ∧ s'.groups = s.groups ∧ s'.help = s.help := by
  obtain ⟨st, hst, hnew, rfl, rfl⟩ := insertFlag_ok h
  exact ⟨⟨ha.toCovered.withFlag hst hc, ha.toLinked.withFlag hst hnew hc,
    ha.toTallied.withFlag ha.toLinked⟩, rfl, flag?_withFlag_new,
    (mem_keysOf_withFlag hst).2 (.inr ⟨rfl, rfl⟩), rfl, rfl⟩

theorem exists_of_bind_ok {ε α β : Type} {x : Except ε α} {f : α → Except ε β} {b : β}
    (h : x >>= f = .ok b) : ∃ a, x = .ok a ∧ f a = .ok b := by
  cases x with
  | error e => cases h
  | ok a => exact ⟨a, rfl, h⟩

theorem exists_of_map_ok {ε α β : Type} {x : Except ε α} {f : α → β} {b : β}
    (h : x.map f = .ok b) : ∃ a, x = .ok a ∧ f a = b := by
  cases x with
  | error e => cases h
  | ok a => exact ⟨a, rfl, Except.ok.inj h⟩

/-- A flag that was added is the next one, and has no content yet. -/
theorem addFlag_wellFormed {store : StoreId} {key description : String} {policy : Policy}
    {id : FlagId} (ha : s.WellFormed)
    (h : s.addFlag store key policy description = .ok (s', id)) :
    s'.WellFormed ∧ id = ⟨s.flags.length⟩ ∧ s'.help = s.help ∧ .flag id ∈ s'.listing store ∧
      ∃ f, s'.flag? id = some f ∧ f.children = none ∧ f.key = key ∧ f.policy = policy := by
  obtain ⟨⟨s₁, id₁⟩, hi, h⟩ := exists_of_bind_ok h
  cases h
  obtain ⟨h1, h2, h3, h4, -, h6⟩ := insertFlag_arena ha rfl hi
  obtain ⟨st, hst, -⟩ := mem_keysOf.1 h4
  exact ⟨⟨h1.toCovered.listFlag hst policy, h1.toLinked.listFlag hst h3 rfl h4 policy,
    h1.toTallied.listFlag h3⟩, h2, h6, (mem_listing_listFlag hst).2 (.inr ⟨rfl, rfl⟩),
    _, h3, rfl, rfl, rfl⟩

theorem addMember_wellFormed {group : GroupId} {key description : String} {id : FlagId}
    (ha : s.WellFormed) (h : s.addMember group key description = .ok (s', id)) :
    s'.WellFormed ∧ id = ⟨s.flags.length⟩ ∧ s'.help = s.help ∧
      ∃ f, s'.flag? id = some f ∧ f.children = none := by
  rcases hg : s.group? group with _ | g <;> simp only [addMember, hg] at h
  · cases h
  · obtain ⟨⟨s₁, id₁⟩, hi, h⟩ := exists_of_bind_ok h
    cases h
    obtain ⟨h1, h2, h3, h4, h5, h6⟩ := insertFlag_arena ha rfl hi
    have hg₁ : s₁.group? group = some g := by rw [group?, h5]; exact hg
    rw [listMember_eq hg₁]
    exact ⟨⟨h1.toCovered.withMember hg₁, h1.toLinked.withMember hg₁ h3 rfl rfl h4,
      h1.toTallied.withMember h1.toCovered h1.toLinked hg₁ (h1.group_mem_listing hg₁)⟩,
      h2, h6, _, h3, rfl⟩

theorem nest_wellFormed {id : FlagId} {f : Flag} (ha : s'.WellFormed)
    (hs : s.WellFormed) (hid : id = ⟨s.flags.length⟩) (hh : s'.help = s.help)
    (hf : s'.flag? id = some f) (hc : f.children = none) : (s'.nest id).1.WellFormed := by
  have hne : s'.help ≠ some id := by
    intro h
    rw [hh] at h
    obtain ⟨f', hf', -⟩ := hs.help_flag h
    have := lt_of_flag? hf'
    rw [hid] at this
    exact lt_irrefl _ this
  exact ⟨ha.toCovered.nest hf hc, ha.toLinked.nest hne, ha.toTallied.nest⟩

theorem withHelp_wellFormed {id : FlagId} {f : Flag} (ha : s.WellFormed)
    (hf : s.flag? id = some f) (hk : f.key = helpKey) (hp : f.policy = .optional)
    (hc : f.children = none) (hl : .flag id ∈ s.listing root) :
    { s with help := some id }.WellFormed where
  toCovered := { ha.toCovered with }
  toLinked := { ha.toLinked with
    help_flag := fun hid => by
      cases hid
      exact ⟨f, hf, hk, hp, hc, hl⟩ }
  toTallied := { ha.toTallied with }

theorem setTrigger_ok {id : FlagId} {trigger : Trigger}
    (h : s.setTrigger id trigger = .ok s') :
    s' = s.updateFlag id fun f => { f with trigger := some trigger } := by
  unfold setTrigger at h
  split at h
  · cases h
  · exact (Except.ok.inj h).symm

theorem flag?_trigger {id other : FlagId} {trigger : Trigger} {f : Flag}
    (h : s.flag? other = some f) :
    ∃ f', (s.updateFlag id fun f => { f with trigger := some trigger }).flag? other = some f' ∧
      f'.key = f.key ∧ f'.policy = f.policy ∧ f'.group = f.group ∧ f'.children = f.children := by
  refine ⟨_, by rw [flag?_updateFlag, h]; rfl, ?_⟩
  split_ifs <;> exact ⟨rfl, rfl, rfl, rfl⟩

theorem trigger_wellFormed {id : FlagId} {trigger : Trigger} (ha : s.WellFormed) :
    (s.updateFlag id fun f => { f with trigger := some trigger }).WellFormed where
  keyed := by simpa [updateFlag] using ha.keyed
  listed := by simpa [updateFlag] using ha.listed
  grouped := ha.grouped
  placed := ha.placed
  nested := by
    simp only [updateFlag]
    rw [flatMap_modify _ _ _ _ (by intro _; rfl)]
    exact ha.nested
  key_eq hx := by
    obtain ⟨f, hf, rfl⟩ := exists_flag_of_key? (ha.key_eq hx)
    obtain ⟨f', hf', hk, -⟩ := flag?_trigger hf
    rw [key?, hf', Option.map_some, hk]
  keys_nodup := ha.keys_nodup
  flag_listed he := by
    obtain ⟨f, hf, hg, hk⟩ := ha.flag_listed he
    obtain ⟨f', hf', h1, -, h3, -⟩ := flag?_trigger hf
    exact ⟨f', hf', h3.trans hg, by rw [h1]; exact hk⟩
  group_listed := ha.group_listed
  member hg hm := by
    obtain ⟨f, hf, h1, h2, hk⟩ := ha.member hg hm
    obtain ⟨f', hf', h3, h4, h5, -⟩ := flag?_trigger hf
    exact ⟨f', hf', h5.trans h1, h4.trans h2, by rw [h3]; exact hk⟩
  deeper {store key id' f child} hx hf hch := by
    obtain ⟨f₀, hf₀, -⟩ := exists_flag_of_key? (ha.key_eq hx)
    obtain ⟨f', hf', -, -, -, h4⟩ := flag?_trigger hf₀
    obtain rfl := Option.some.inj (hf'.symm.trans hf)
    exact ha.deeper hx hf₀ (h4.symm.trans hch)
  flagTally hst := by
    rw [ha.flagTally hst]
    congr 2
    funext e
    rcases e with id' | id'
    · simp only [unitPolicy?, flag?_updateFlag, Option.map_map]
      congr 1
      funext f
      simp only [Function.comp_apply]
      split_ifs <;> rfl
    · rfl
  argTally := ha.argTally
  help_flag hid := by
    obtain ⟨f, hf, h1, h2, h3, h4⟩ := ha.help_flag hid
    obtain ⟨f', hf', h5, h6, -, h8⟩ := flag?_trigger hf
    exact ⟨f', hf', h5.trans h1, h6.trans h2, h8.trans h3, h4⟩

theorem register_wellFormed {r : Registration} (ha : s.WellFormed)
    (h : s.register r = .ok s') : s'.WellFormed := by
  cases r with
  | flag store key policy description =>
    obtain ⟨⟨s₁, id⟩, hr, rfl⟩ := exists_of_map_ok h
    exact (addFlag_wellFormed ha hr).1
  | complexFlag store key policy description =>
    obtain ⟨⟨s₁, id, child⟩, hr, rfl⟩ := exists_of_map_ok h
    obtain ⟨⟨s₂, id₂⟩, hi, hr⟩ := exists_of_bind_ok hr
    cases hr
    obtain ⟨h1, h2, h3, -, f, h4, h5, -⟩ := addFlag_wellFormed ha hi
    exact nest_wellFormed h1 ha h2 h3 h4 h5
  | arg store arg =>
    obtain ⟨⟨s₁, id⟩, hr, rfl⟩ := exists_of_map_ok h
    obtain ⟨st, hst, -, rfl⟩ := addArg_ok hr
    exact ⟨ha.toCovered.withArg hst, ha.toLinked.withArg, ha.toTallied.withArg ha.toCovered⟩
  | group store policy =>
    obtain ⟨⟨s₁, id⟩, hr, rfl⟩ := exists_of_map_ok h
    obtain ⟨st, hst, -, rfl⟩ := addGroup_ok hr
    exact ⟨ha.toCovered.withGroup hst, ha.toLinked.withGroup hst,
      ha.toTallied.withGroup ha.toLinked⟩
  | member group key description =>
    obtain ⟨⟨s₁, id⟩, hr, rfl⟩ := exists_of_map_ok h
    exact (addMember_wellFormed ha hr).1
  | complexMember group key description =>
    obtain ⟨⟨s₁, id, child⟩, hr, rfl⟩ := exists_of_map_ok h
    obtain ⟨⟨s₂, id₂⟩, hi, hr⟩ := exists_of_bind_ok hr
    cases hr
    obtain ⟨h1, h2, h3, f, h4, h5⟩ := addMember_wellFormed ha hi
    exact nest_wellFormed h1 ha h2 h3 h4 h5
  | help =>
    obtain ⟨⟨s₁, id⟩, hr, rfl⟩ := exists_of_map_ok h
    unfold enableHelp at hr
    split at hr
    · cases hr
      exact ha
    · obtain ⟨⟨s₂, id₂⟩, hi, hr⟩ := exists_of_bind_ok hr
      cases hr
      obtain ⟨h1, -, -, h4, f, h5, h6, h7, h8⟩ := addFlag_wellFormed ha hi
      exact withHelp_wellFormed h1 h5 h7 h8 h6 h4
  | trigger flag trigger =>
    rw [setTrigger_ok h]
    exact trigger_wellFormed ha

theorem empty_wellFormed : ({} : Scheme).WellFormed := by
  have hst : ∀ {store : StoreId} {st : Store}, ({} : Scheme).store? store = some st → st = {} :=
    fun h => List.mem_singleton.1 (List.mem_of_getElem? h)
  have hk : ∀ {store : StoreId} {x}, x ∉ ({} : Scheme).keysOf store := by
    intro store x h
    obtain ⟨st, h, hx⟩ := mem_keysOf.1 h
    rw [hst h] at hx
    simp at hx
  have hl : ∀ {store : StoreId} {x}, x ∉ ({} : Scheme).listing store := by
    intro store x h
    obtain ⟨st, h, hx⟩ := mem_listing.1 h
    rw [hst h] at hx
    simp at hx
  exact {
    keyed := List.Perm.refl _
    listed := List.Perm.refl _
    grouped := List.Perm.refl _
    placed := List.Perm.refl _
    nested := List.Perm.refl _
    key_eq := fun h => absurd h hk
    keys_nodup := fun store => by
      rw [List.eq_nil_iff_forall_not_mem.2 fun x => hk (x := x)]
      exact List.nodup_nil
    flag_listed := fun h => absurd h hl
    group_listed := fun h => absurd h hl
    member := fun h => by simp [group?] at h
    deeper := fun h => absurd h hk
    flagTally := fun h => by rw [hst h]; rfl
    argTally := fun h => by rw [hst h]; rfl
    help_flag := fun h => by cases h }

end Whole

end CommandGrammar.Scheme

namespace CommandGrammar.Session

theorem after_wellFormed (script : List Call) : (after script).scheme.WellFormed :=
  after_scheme Scheme.empty_wellFormed (fun _ _ _ ha h => Scheme.register_wellFormed ha h) script

end CommandGrammar.Session
