import CommandGrammar.Proofs.Registration

/-!
# Where the nodes of a scheme stand

`Placement` says for every single node what `Arena` says of the lists of a scheme: how often it
stands where, that what is referred to exists, how the stores form a tree, and what the tallies
count. No script of registrations, refused or not, and passes leads out of it.
-/

namespace CommandGrammar.Scheme

variable (s : Scheme)

def KeyedOnce (store : StoreId) (key : String) (id : FlagId) : Prop :=
  (key, id) ∈ s.keysOf store ∧ ((s.keysOf store).map (·.2)).count id = 1 ∧
    ∀ other key', (key', id) ∈ s.keysOf other → other = store

/-- A flag outside groups stands in the listing of its store alone, a member in that of its group
alone; the group is one of the same store and policy. -/
def ListedOnce (store : StoreId) (id : FlagId) (f : Flag) : Prop :=
  match f.group with
  | none => (s.listing store).count (.flag id) = 1 ∧
      (∀ other, .flag id ∈ s.listing other → other = store) ∧ ∀ group, id ∉ s.members group
  | some group => (s.members group).count id = 1 ∧ (∀ other, id ∈ s.members other → other = group) ∧
      (∀ other, .flag id ∉ s.listing other) ∧
      ∃ g, s.group? group = some g ∧ g.store = store ∧ g.policy = f.policy

/-- How many units of each policy a store lists, a group without members being none. -/
def unitCounts (entries : List Entry) : Tally :=
  ⟨entries.countP fun e => s.unitPolicy? e = some .mandatory,
    entries.countP fun e => s.unitPolicy? e = some .optional⟩

def argCounts (args : List ArgId) : Tally :=
  ⟨args.countP fun id => s.argPolicy? id = some .mandatory,
    args.countP fun id => s.argPolicy? id = some .optional⟩

structure Placement : Prop where
  flag : ∀ {id f}, s.flag? id = some f →
    ∃ store, s.KeyedOnce store f.key id ∧ s.ListedOnce store id f
  keys_distinct : ∀ store, ((s.keysOf store).map (·.1)).Nodup
  group : ∀ {id g}, s.group? id = some g → (s.listing g.store).count (.group id) = 1 ∧
    ∀ other, .group id ∈ s.listing other → other = g.store
  arg : ∀ {id a}, s.arg? id = some a →
    ∃ store, (s.argsOf store).count id = 1 ∧ ∀ other, id ∈ s.argsOf other → other = store
  key_known : ∀ {store key id}, (key, id) ∈ s.keysOf store → s.key? id = some key
  flag_known : ∀ {store id}, .flag id ∈ s.listing store → ∃ f, s.flag? id = some f
  group_known : ∀ {store id}, .group id ∈ s.listing store → ∃ g, s.group? id = some g
  member_known : ∀ {group id}, id ∈ s.members group → ∃ f, s.flag? id = some f
  arg_known : ∀ {store id}, id ∈ s.argsOf store → ∃ a, s.arg? id = some a
  root_known : ∃ st, s.store? root = some st
  owner : ∀ {store st}, s.store? store = some st → store ≠ root →
    ∃! id, ∃ f, s.flag? id = some f ∧ f.children = some store
  child : ∀ {id f child}, s.flag? id = some f → f.children = some child →
    child ≠ root ∧ ∃ st, s.store? child = some st
  deeper : ∀ {store key id f child}, (key, id) ∈ s.keysOf store → s.flag? id = some f →
    f.children = some child → store.index < child.index
  rooted : ∀ {store st}, s.store? store = some st → s.Below root store
  flagTally : ∀ {store st}, s.store? store = some st → st.flagTally = s.unitCounts st.entries
  argTally : ∀ {store st}, s.store? store = some st → st.argTally = s.argCounts st.args

variable {s}

theorem mem_members {group : GroupId} {id : FlagId} :
    id ∈ s.members group ↔ ∃ g, s.group? group = some g ∧ id ∈ g.members := by
  rcases h : s.group? group with _ | g <;> simp [members, h]

theorem ofUnits_filterMap {α : Type} (policy? : α → Option Policy) (l : List α) :
    Tally.ofUnits (l.filterMap policy?) =
      ⟨l.countP fun x => policy? x = some .mandatory,
        l.countP fun x => policy? x = some .optional⟩ := by
  simp only [Tally.ofUnits, List.count_filterMap]
  congr 1 <;> exact List.countP_congr fun x _ => by simp

namespace Arena

theorem keyedOnce (ha : s.WellFormed) {store : StoreId} {key : String} {id : FlagId}
    (hk : (key, id) ∈ s.keysOf store) : s.KeyedOnce store key id := by
  refine ⟨hk, ?_, fun other key' h => ha.key_store_unique h hk⟩
  obtain ⟨st, hst, hm⟩ := mem_keysOf.1 hk
  have hn : (st.keys.map (·.2)).Nodup := by
    have := nodup_of_store? ha.keyed.nodup hst
    rw [show (fun x : String × FlagId => x.2.index) = FlagId.index ∘ Prod.snd from rfl,
      ← List.map_map] at this
    exact this.of_map _
  simp only [keysOf, hst, Option.map_some, Option.getD_some]
  exact List.count_eq_one_of_mem hn (List.mem_map_of_mem hm)

theorem listedOnce (ha : s.WellFormed) {store : StoreId} {key : String} {id : FlagId} {f : Flag}
    (hk : (key, id) ∈ s.keysOf store) (hf : s.flag? id = some f) : s.ListedOnce store id f := by
  have hlisted : ∀ other, .flag id ∈ s.listing other → f.group = none ∧ other = store := by
    intro other he
    obtain ⟨f', hf', hg, hk'⟩ := ha.flag_listed he
    obtain rfl := Option.some.inj (hf'.symm.trans hf)
    exact ⟨hg, ha.key_store_unique hk' hk⟩
  have hmember : ∀ other, id ∈ s.members other → f.group = some other := by
    intro other hm
    obtain ⟨g, hg, hm⟩ := mem_members.1 hm
    obtain ⟨f', hf', h, -⟩ := ha.member hg hm
    obtain rfl := Option.some.inj (hf'.symm.trans hf)
    exact h
  unfold ListedOnce
  rcases ha.listed_of_key hk hf with ⟨hg, he⟩ | ⟨group, g, hfg, hg, hm, hp, hs, -⟩
  · rw [hg]
    refine ⟨List.count_eq_one_of_mem (ha.listing_nodup store) he,
      fun other h => (hlisted other h).2, fun group hm => ?_⟩
    have := hmember group hm
    rw [hg] at this
    cases this
  · rw [hfg]
    have hms : s.members group = g.members := by simp [members, hg]
    refine ⟨?_, fun other h => ?_, fun other h => ?_, g, hg, hs, hp.symm⟩
    · rw [hms]
      exact List.count_eq_one_of_mem (ha.members_nodup hg) hm
    · have := hmember other h
      rw [hfg] at this
      exact (Option.some.inj this).symm
    · have := (hlisted other h).1
      rw [hfg] at this
      cases this

theorem placement (ha : s.WellFormed) : s.Placement where
  flag hf := by
    obtain ⟨store, hk⟩ := ha.exists_key_store hf
    exact ⟨store, ha.keyedOnce hk, ha.listedOnce hk hf⟩
  keys_distinct := ha.keys_nodup
  group {id g} hg := by
    refine ⟨List.count_eq_one_of_mem (ha.listing_nodup _) (ha.group_mem_listing hg), ?_⟩
    intro other he
    obtain ⟨g', hg', rfl⟩ := ha.group_listed he
    obtain rfl := Option.some.inj (hg'.symm.trans hg)
    rfl
  arg h := by
    obtain ⟨store, hs⟩ := ha.exists_arg_store h
    exact ⟨store, List.count_eq_one_of_mem (ha.args_nodup store) hs,
      fun other ho => ha.arg_store_unique ho hs⟩
  key_known := ha.key_eq
  flag_known he := by
    obtain ⟨f, hf, -⟩ := ha.flag_listed he
    exact ⟨f, hf⟩
  group_known he := by
    obtain ⟨g, hg, -⟩ := ha.group_listed he
    exact ⟨g, hg⟩
  member_known hm := by
    obtain ⟨g, hg, hm⟩ := mem_members.1 hm
    obtain ⟨f, hf, -⟩ := ha.member hg hm
    exact ⟨f, hf⟩
  arg_known := ha.exists_arg
  root_known := ha.exists_root
  owner hst hr := by
    obtain ⟨id, f, hf, hch⟩ := ha.exists_owner hst hr
    refine ⟨id, ⟨f, hf, hch⟩, fun id' ⟨f', hf', hch'⟩ => ha.owner_unique hf' hf hch' hch⟩
  child hf hch := ⟨ha.child_ne_root hf hch, ha.exists_child hf hch⟩
  deeper := ha.deeper
  rooted := ha.below_root
  flagTally hst := (ha.flagTally hst).trans (ofUnits_filterMap _ _)
  argTally hst := (ha.argTally hst).trans (ofUnits_filterMap _ _)

end Arena

end CommandGrammar.Scheme

namespace CommandGrammar.Session

/-- Whatever is registered, in whatever order and with whatever passes in between, every node
stands where it belongs, once. -/
theorem after_placement (script : List Call) : (after script).scheme.Placement :=
  (after_wellFormed script).placement

end CommandGrammar.Session
