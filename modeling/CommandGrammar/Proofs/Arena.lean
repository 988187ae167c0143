import CommandGrammar.Scheme.Registration
import Mathlib.Data.List.Nodup
import Mathlib.Data.List.Range
import Mathlib.Data.List.Perm.Basic
import Mathlib.Logic.Relation

/-!
# The arenas of a scheme

A scheme keeps its stores, flags, groups and arguments in four lists, and its parts refer to each
other by number. `Arena` says that these references fit together: every number is used exactly
once where a node is keyed, listed, placed or nested, what is listed at a level belongs to it, and
the tallies of a store are the units that it lists. It has a list of loose flags, which have a key
but are in no listing yet; a scheme between two registrations has none.

The consequences below are what a pass relies on: a flag, group or argument has one home, a nested
store has one owner, and levels get deeper with each nesting.
-/

namespace CommandGrammar

namespace Entry

def flagIndex? : Entry → Option Nat
  | flag id => some id.index
  | group _ => none

def groupIndex? : Entry → Option Nat
  | flag _ => none
  | group id => some id.index

end Entry

def Tally.ofUnits (units : List Policy) : Tally :=
  ⟨units.count .mandatory, units.count .optional⟩

theorem Tally.ofUnits_perm {us vs : List Policy} (h : us.Perm vs) : ofUnits us = ofUnits vs := by
  simp [ofUnits, h.count_eq]

theorem Tally.ofUnits_concat (us : List Policy) (p : Policy) :
    ofUnits (us ++ [p]) = (ofUnits us).count p := by
  cases p <;> simp [ofUnits, count]

/-- Each number below `n`, once. -/
def Covers (ids : List Nat) (n : Nat) : Prop := ids.Perm (List.range n)

namespace Covers

variable {ids ids' : List Nat} {n : Nat}

theorem nodup (h : Covers ids n) : ids.Nodup := h.nodup_iff.2 List.nodup_range

theorem mem_iff (h : Covers ids n) {i : Nat} : i ∈ ids ↔ i < n := by
  rw [List.Perm.mem_iff h, List.mem_range]

theorem of_perm (h : Covers ids n) (hp : ids'.Perm ids) : Covers ids' n := hp.trans h

theorem concat (h : Covers ids n) (hp : ids'.Perm (ids ++ [n])) : Covers ids' (n + 1) := by
  refine hp.trans ?_
  rw [List.range_succ]
  exact h.append_right [n]

end Covers

section Modify

variable {α β : Type*}

theorem flatMap_modify (f : α → List β) (g : α → α) :
    ∀ (l : List α) (i : Nat), (∀ a, f (g a) = f a) → (l.modify i g).flatMap f = l.flatMap f
  | [], _, _ => by simp
  | a :: l, 0, h => by simp [h]
  | a :: l, i + 1, h => by simp [flatMap_modify f g l i h]

theorem getElem?_modify_of_injective {ι : Type*} [DecidableEq ι] {index : ι → Nat}
    (hi : Function.Injective index) (l : List α) (f : α → α) (i j : ι) :
    (l.modify (index i) f)[index j]? = l[index j]?.map fun a => if j = i then f a else a := by
  rw [List.getElem?_modify]
  by_cases h : j = i
  · subst h
    simp
  · have : index i ≠ index j := fun h' => h (hi h').symm
    simp [h, this]

/-- What one element gains, the whole list gains. -/
theorem flatMap_modify_perm (f : α → List β) (g : α → α) {m : List β} {a : α}
    (h : f (g a) = f a ++ m) :
    ∀ {l : List α} {i : Nat}, l[i]? = some a →
      ((l.modify i g).flatMap f).Perm (l.flatMap f ++ m)
  | [], _, hi => by simp at hi
  | b :: l, 0, hi => by
    cases hi
    simp only [List.modify_zero_cons, List.flatMap_cons, h, List.append_assoc]
    exact List.perm_append_comm.append_left _
  | b :: l, i + 1, hi => by
    simp only [List.modify_succ_cons, List.flatMap_cons, List.append_assoc]
    exact (flatMap_modify_perm f g h (by simpa using hi)).append_left _

/-- An element of a list without repetitions stands in one of the parts. -/
theorem index_eq_of_mem_flatMap {f : α → List β} {x : β} :
    ∀ {l : List α} {i j : Nat} {a b : α}, (l.flatMap f).Nodup → l[i]? = some a → l[j]? = some b →
      x ∈ f a → x ∈ f b → i = j := by
  intro l i j a b hn hi hj ha hb
  rw [List.nodup_flatMap] at hn
  by_contra hne
  rcases Nat.lt_or_gt_of_ne hne with h | h
  · obtain ⟨hi', rfl⟩ := List.getElem?_eq_some_iff.1 hi
    obtain ⟨hj', rfl⟩ := List.getElem?_eq_some_iff.1 hj
    exact List.pairwise_iff_getElem.1 hn.2 i j hi' hj' h ha hb
  · obtain ⟨hi', rfl⟩ := List.getElem?_eq_some_iff.1 hi
    obtain ⟨hj', rfl⟩ := List.getElem?_eq_some_iff.1 hj
    exact List.pairwise_iff_getElem.1 hn.2 j i hj' hi' h hb ha

/-- An element of a list without repetitions that gets an image adds that image. -/
theorem filterMap_perm_of_gain {u v : α → Option β} {a : α} {b : β} (hu : u a = none)
    (hv : v a = some b) (huv : ∀ x, x ≠ a → v x = u x) :
    ∀ {l : List α}, l.Nodup → a ∈ l → (l.filterMap v).Perm (l.filterMap u ++ [b])
  | [], _, h => by simp at h
  | x :: l, hn, h => by
    obtain ⟨hx, hn⟩ := List.nodup_cons.1 hn
    by_cases hxa : x = a
    · subst hxa
      have hl : l.filterMap v = l.filterMap u :=
        List.filterMap_congr fun y hy => huv y fun hyx => hx (hyx ▸ hy)
      rw [List.filterMap_cons_some hv, List.filterMap_cons_none hu, hl]
      exact (List.perm_append_singleton _ _).symm
    · have ih := filterMap_perm_of_gain hu hv huv hn
        ((List.mem_cons.1 h).resolve_left fun hax => hxa hax.symm)
      simp only [List.filterMap_cons, huv x hxa]
      rcases u x with _ | y
      · exact ih
      · exact ih.cons y

theorem lookup_eq_some_of_mem {α β : Type} [BEq α] [LawfulBEq α] {a : α} {b : β} :
    ∀ {l : List (α × β)}, (l.map (·.1)).Nodup → (a, b) ∈ l → l.lookup a = some b
  | [], _, h => by simp at h
  | (c, d) :: l, hn, h => by
    simp only [List.map_cons, List.nodup_cons, List.mem_map, not_exists, not_and] at hn
    rcases List.mem_cons.1 h with h | h
    · cases h
      simp
    · have hne : (a == c) = false := by simpa using fun hac => hn.1 (a, b) h hac
      rw [List.lookup_cons, hne]
      exact lookup_eq_some_of_mem hn.2 h

theorem mem_of_lookup_eq_some {α β : Type} [BEq α] [LawfulBEq α] {a : α} {b : β}
    {l : List (α × β)} (h : l.lookup a = some b) : (a, b) ∈ l := by
  obtain ⟨l₁, l₂, rfl, -⟩ := List.lookup_eq_some_iff.1 h
  simp

end Modify

namespace Scheme

variable (s : Scheme)

def keysOf (store : StoreId) : List (String × FlagId) :=
  ((s.store? store).map (·.keys)).getD []

/-- The flags and groups of a store in the order in which they were added. -/
def listing (store : StoreId) : List Entry :=
  ((s.store? store).map (·.entries)).getD []

/-- The policy of a unit: a flag outside groups is one, a group with members is one. -/
def unitPolicy? : Entry → Option Policy
  | .flag id => (s.flag? id).map (·.policy)
  | .group id => (s.group? id).bind fun g => if g.members.isEmpty then none else some g.policy

def argPolicy? (id : ArgId) : Option Policy := (s.arg? id).map (·.policy)

/-- A store is that of a flag of another one. -/
def Nests (store child : StoreId) : Prop :=
  ∃ key id f, (key, id) ∈ s.keysOf store ∧ s.flag? id = some f ∧ f.children = some child

/-- A store is another one or nested in it, at any depth. -/
abbrev Below (store child : StoreId) : Prop := Relation.ReflTransGen s.Nests store child

/-- Every flag has one key and one listing, every group one listing, every argument one place, and
every store but the root one owner. The loose flags have no listing yet. -/
structure Covered (loose : List FlagId) : Prop where
  keyed : Covers (s.stores.flatMap fun st => st.keys.map (·.2.index)) s.flags.length
  listed : Covers (s.stores.flatMap (fun st => st.entries.filterMap Entry.flagIndex?) ++
    s.groups.flatMap (fun g => g.members.map (·.index)) ++ loose.map (·.index)) s.flags.length
  grouped : Covers (s.stores.flatMap fun st => st.entries.filterMap Entry.groupIndex?)
    s.groups.length
  placed : Covers (s.stores.flatMap fun st => st.args.map (·.index)) s.args.length
  nested : Covers (root.index :: s.flags.flatMap fun f => (f.children.map (·.index)).toList)
    s.stores.length

/-- What is listed at a level belongs to it, and levels get deeper. -/
structure Linked : Prop where
  key_eq : ∀ {store key id}, (key, id) ∈ s.keysOf store → s.key? id = some key
  keys_nodup : ∀ store, ((s.keysOf store).map (·.1)).Nodup
  flag_listed : ∀ {store id}, .flag id ∈ s.listing store →
    ∃ f, s.flag? id = some f ∧ f.group = none ∧ (f.key, id) ∈ s.keysOf store
  group_listed : ∀ {store id}, .group id ∈ s.listing store →
    ∃ g, s.group? id = some g ∧ g.store = store
  member : ∀ {group g id}, s.group? group = some g → id ∈ g.members →
    ∃ f, s.flag? id = some f ∧ f.group = some group ∧ f.policy = g.policy ∧
      (f.key, id) ∈ s.keysOf g.store
  deeper : ∀ {store key id f child}, (key, id) ∈ s.keysOf store → s.flag? id = some f →
    f.children = some child → store.index < child.index
  help_flag : ∀ {id}, s.help = some id → ∃ f, s.flag? id = some f ∧ f.key = helpKey ∧
    f.policy = .optional ∧ f.children = none ∧ .flag id ∈ s.listing root

/-- The tallies of a store are those of the units and arguments that it lists. -/
structure Tallied : Prop where
  flagTally : ∀ {store st}, s.store? store = some st →
    st.flagTally = .ofUnits (st.entries.filterMap s.unitPolicy?)
  argTally : ∀ {store st}, s.store? store = some st →
    st.argTally = .ofUnits (st.args.filterMap s.argPolicy?)

/-- The references between the parts of a scheme fit together. -/
structure Arena (loose : List FlagId) : Prop extends Covered s loose, Linked s, Tallied s

abbrev WellFormed : Prop := s.Arena []

variable {s}

section Lookups

theorem mem_keysOf {store : StoreId} {x : String × FlagId} :
    x ∈ s.keysOf store ↔ ∃ st, s.store? store = some st ∧ x ∈ st.keys := by
  rcases h : s.store? store with _ | st <;> simp [keysOf, h]

theorem mem_listing {store : StoreId} {e : Entry} :
    e ∈ s.listing store ↔ ∃ st, s.store? store = some st ∧ e ∈ st.entries := by
  rcases h : s.store? store with _ | st <;> simp [listing, h]

theorem mem_argsOf {store : StoreId} {id : ArgId} :
    id ∈ s.argsOf store ↔ ∃ st, s.store? store = some st ∧ id ∈ st.args := by
  rcases h : s.store? store with _ | st <;> simp [argsOf, h]

theorem lt_of_store? {store : StoreId} {st : Store} (h : s.store? store = some st) :
    store.index < s.stores.length := (List.getElem?_eq_some_iff.1 h).1

theorem lt_of_flag? {id : FlagId} {f : Flag} (h : s.flag? id = some f) :
    id.index < s.flags.length := (List.getElem?_eq_some_iff.1 h).1

theorem exists_flag_of_key? {id : FlagId} {key : String} (h : s.key? id = some key) :
    ∃ f, s.flag? id = some f ∧ f.key = key := by
  simpa only [key?, Option.map_eq_some_iff] using h

theorem keyed?_eq_some_iff (hl : s.Linked) {store : StoreId} {token : String} {id : FlagId} :
    s.keyed? store token = some id ↔ (token, id) ∈ s.keysOf store := by
  rw [keyed?, Option.bind_eq_some_iff, mem_keysOf]
  refine exists_congr fun st => and_congr_right fun hst => ⟨mem_of_lookup_eq_some, fun h => ?_⟩
  have hn := hl.keys_nodup store
  exact lookup_eq_some_of_mem (by simpa [keysOf, hst] using hn) h

theorem exists_store?_of_lt {n : Nat} (h : n < s.stores.length) :
    ∃ st, s.store? ⟨n⟩ = some st := ⟨_, List.getElem?_eq_getElem h⟩

theorem exists_mem_flatMap_stores {α : Type} {f : Store → List α} {x : α}
    (h : x ∈ s.stores.flatMap f) : ∃ store st, s.store? store = some st ∧ x ∈ f st := by
  obtain ⟨st, hst, hx⟩ := List.mem_flatMap.1 h
  obtain ⟨n, hn⟩ := List.mem_iff_getElem?.1 hst
  exact ⟨⟨n⟩, st, hn, hx⟩

end Lookups

section Homes

variable {loose : List FlagId}

/-- What is listed without repetitions over all stores has one store. -/
theorem store_eq_of_mem {α : Type} {f : Store → List α} {x : α} {a b : StoreId} {sa sb : Store}
    (hn : (s.stores.flatMap f).Nodup) (ha : s.store? a = some sa) (hb : s.store? b = some sb)
    (hxa : x ∈ f sa) (hxb : x ∈ f sb) : a = b :=
  StoreId.ext (index_eq_of_mem_flatMap hn ha hb hxa hxb)

theorem nodup_of_store? {α : Type} {f : Store → List α} {store : StoreId} {st : Store}
    (hn : (s.stores.flatMap f).Nodup) (h : s.store? store = some st) : (f st).Nodup :=
  (List.nodup_flatMap.1 hn).1 st (List.mem_of_getElem? h)

theorem mem_nested {id : FlagId} {f : Flag} {child : StoreId} (hf : s.flag? id = some f)
    (hch : f.children = some child) :
    child.index ∈ s.flags.flatMap fun f => (f.children.map (·.index)).toList :=
  List.mem_flatMap.2 ⟨f, List.mem_of_getElem? hf, by simp [hch]⟩

namespace Covered

theorem key_store_unique (hc : s.Covered loose) {a b : StoreId} {k l : String} {id : FlagId}
    (ha : (k, id) ∈ s.keysOf a) (hb : (l, id) ∈ s.keysOf b) : a = b := by
  obtain ⟨sa, hsa, ha⟩ := mem_keysOf.1 ha
  obtain ⟨sb, hsb, hb⟩ := mem_keysOf.1 hb
  exact store_eq_of_mem (x := id.index) hc.keyed.nodup hsa hsb
    (List.mem_map_of_mem ha) (List.mem_map_of_mem hb)

theorem arg_store_unique (hc : s.Covered loose) {a b : StoreId} {id : ArgId}
    (ha : id ∈ s.argsOf a) (hb : id ∈ s.argsOf b) : a = b := by
  obtain ⟨sa, hsa, ha⟩ := mem_argsOf.1 ha
  obtain ⟨sb, hsb, hb⟩ := mem_argsOf.1 hb
  exact store_eq_of_mem (x := id.index) hc.placed.nodup hsa hsb
    (List.mem_map_of_mem ha) (List.mem_map_of_mem hb)

theorem args_nodup (hc : s.Covered loose) (store : StoreId) : (s.argsOf store).Nodup := by
  rcases h : s.store? store with _ | st
  · simp [argsOf, h]
  · simpa [argsOf, h] using (nodup_of_store? hc.placed.nodup h).of_map _

theorem entries_nodup : ∀ {es : List Entry}, (es.filterMap Entry.flagIndex?).Nodup →
    (es.filterMap Entry.groupIndex?).Nodup → es.Nodup
  | [], _, _ => List.nodup_nil
  | .flag id :: es, hf, hg => by
    simp only [List.filterMap_cons, Entry.flagIndex?, Entry.groupIndex?, List.nodup_cons,
      List.mem_filterMap, not_exists, not_and] at hf hg
    exact List.nodup_cons.2 ⟨fun h => hf.1 _ h rfl, entries_nodup hf.2 hg⟩
  | .group id :: es, hf, hg => by
    simp only [List.filterMap_cons, Entry.flagIndex?, Entry.groupIndex?, List.nodup_cons,
      List.mem_filterMap, not_exists, not_and] at hf hg
    exact List.nodup_cons.2 ⟨fun h => hg.1 _ h rfl, entries_nodup hf hg.2⟩

theorem listing_nodup (hc : s.Covered loose) (store : StoreId) : (s.listing store).Nodup := by
  rcases h : s.store? store with _ | st
  · simp [listing, h]
  · have hl := (List.nodup_append.1 (List.nodup_append.1 hc.listed.nodup).1).1
    simpa [listing, h] using
      entries_nodup (nodup_of_store? hl h) (nodup_of_store? hc.grouped.nodup h)

theorem members_nodup (hc : s.Covered loose) {id : GroupId} {g : Group}
    (hg : s.group? id = some g) : g.members.Nodup := by
  have hl := (List.nodup_append.1 (List.nodup_append.1 hc.listed.nodup).1).2.1
  exact ((List.nodup_flatMap.1 hl).1 g (List.mem_of_getElem? hg)).of_map _

theorem owner_unique (hc : s.Covered loose) {a b : FlagId} {f g : Flag} {child : StoreId}
    (ha : s.flag? a = some f) (hb : s.flag? b = some g) (hf : f.children = some child)
    (hg : g.children = some child) : a = b := by
  have hn := (List.nodup_cons.1 hc.nested.nodup).2
  exact FlagId.ext (index_eq_of_mem_flatMap (x := child.index) hn ha hb (by simp [hf])
    (by simp [hg]))

theorem child_ne_root (hc : s.Covered loose) {id : FlagId} {f : Flag} {child : StoreId}
    (hf : s.flag? id = some f) (hch : f.children = some child) : child ≠ root := by
  rintro rfl
  exact (List.nodup_cons.1 hc.nested.nodup).1 (mem_nested hf hch)

theorem exists_child (hc : s.Covered loose) {id : FlagId} {f : Flag} {child : StoreId}
    (hf : s.flag? id = some f) (hch : f.children = some child) :
    ∃ st, s.store? child = some st :=
  exists_store?_of_lt (hc.nested.mem_iff.1 (List.mem_cons_of_mem _ (mem_nested hf hch)))

theorem exists_root (hc : s.Covered loose) : ∃ st, s.store? root = some st :=
  exists_store?_of_lt (hc.nested.mem_iff.1 List.mem_cons_self)

theorem exists_owner (hc : s.Covered loose) {store : StoreId} {st : Store}
    (hst : s.store? store = some st) (hr : store ≠ root) :
    ∃ id f, s.flag? id = some f ∧ f.children = some store := by
  have hm := hc.nested.mem_iff.2 (lt_of_store? hst)
  rcases List.mem_cons.1 hm with h | h
  · exact absurd (StoreId.ext h) hr
  · obtain ⟨f, hf, hx⟩ := List.mem_flatMap.1 h
    obtain ⟨n, hn⟩ := List.mem_iff_getElem?.1 hf
    simp only [Option.mem_toList, Option.map_eq_some_iff] at hx
    obtain ⟨child, hch, hx⟩ := hx
    exact ⟨⟨n⟩, f, hn, by rw [hch, StoreId.ext hx]⟩

theorem exists_arg_store (hc : s.Covered loose) {id : ArgId} {a : Positional}
    (ha : s.arg? id = some a) : ∃ store, id ∈ s.argsOf store := by
  have hm := hc.placed.mem_iff.2 (List.getElem?_eq_some_iff.1 ha).1
  obtain ⟨store, st, hst, hx⟩ := exists_mem_flatMap_stores hm
  obtain ⟨id', hid, hx⟩ := List.mem_map.1 hx
  exact ⟨store, mem_argsOf.2 ⟨st, hst, ArgId.ext hx ▸ hid⟩⟩

theorem exists_arg (hc : s.Covered loose) {store : StoreId} {id : ArgId}
    (h : id ∈ s.argsOf store) : ∃ a, s.arg? id = some a := by
  obtain ⟨st, hst, h⟩ := mem_argsOf.1 h
  have hm : id.index ∈ s.stores.flatMap fun st => st.args.map (·.index) :=
    List.mem_flatMap.2 ⟨st, List.mem_of_getElem? hst, List.mem_map_of_mem h⟩
  exact ⟨_, List.getElem?_eq_getElem (hc.placed.mem_iff.1 hm)⟩

end Covered

namespace Arena

theorem exists_key_store (ha : s.Arena loose) {id : FlagId} {f : Flag}
    (hf : s.flag? id = some f) : ∃ store, (f.key, id) ∈ s.keysOf store := by
  have hm := ha.keyed.mem_iff.2 (lt_of_flag? hf)
  obtain ⟨store, st, hst, hx⟩ := exists_mem_flatMap_stores hm
  obtain ⟨⟨key, id'⟩, hk, hx⟩ := List.mem_map.1 hx
  obtain rfl : id' = id := FlagId.ext hx
  have hk : (key, id') ∈ s.keysOf store := mem_keysOf.2 ⟨st, hst, hk⟩
  obtain ⟨f', hf', rfl⟩ := exists_flag_of_key? (ha.key_eq hk)
  rw [hf] at hf'
  cases hf'
  exact ⟨store, hk⟩

theorem group_mem_listing (ha : s.Arena loose) {id : GroupId} {g : Group}
    (hg : s.group? id = some g) : .group id ∈ s.listing g.store := by
  have hm := ha.grouped.mem_iff.2 (List.getElem?_eq_some_iff.1 hg).1
  obtain ⟨store, st, hst, hx⟩ := exists_mem_flatMap_stores hm
  obtain ⟨e, he, hx⟩ := List.mem_filterMap.1 hx
  rcases e with id' | id'
  · cases hx
  · obtain rfl : id' = id := GroupId.ext (Option.some.inj hx)
    have he : .group id' ∈ s.listing store := mem_listing.2 ⟨st, hst, he⟩
    obtain ⟨g', hg', rfl⟩ := ha.group_listed he
    rw [hg] at hg'
    cases hg'
    exact he

theorem listed_cases (ha : s.WellFormed) {id : FlagId} {f : Flag} (hf : s.flag? id = some f) :
    (f.group = none ∧ ∃ store, .flag id ∈ s.listing store ∧ (f.key, id) ∈ s.keysOf store) ∨
      ∃ group g, f.group = some group ∧ s.group? group = some g ∧ id ∈ g.members ∧
        f.policy = g.policy ∧ (f.key, id) ∈ s.keysOf g.store := by
  have hm := ha.listed.mem_iff.2 (lt_of_flag? hf)
  simp only [List.map_nil, List.append_nil] at hm
  rcases List.mem_append.1 hm with hm | hm
  · obtain ⟨store, st, hst, hx⟩ := exists_mem_flatMap_stores hm
    obtain ⟨e, he, hx⟩ := List.mem_filterMap.1 hx
    rcases e with id' | id'
    · obtain rfl : id' = id := FlagId.ext (Option.some.inj hx)
      have he : .flag id' ∈ s.listing store := mem_listing.2 ⟨st, hst, he⟩
      obtain ⟨f', hf', hg, hk⟩ := ha.flag_listed he
      rw [hf] at hf'
      cases hf'
      exact .inl ⟨hg, store, he, hk⟩
    · cases hx
  · obtain ⟨g, hg, hx⟩ := List.mem_flatMap.1 hm
    obtain ⟨n, hn⟩ := List.mem_iff_getElem?.1 hg
    obtain ⟨id', hid, hx⟩ := List.mem_map.1 hx
    obtain rfl : id' = id := FlagId.ext hx
    have hgr : s.group? ⟨n⟩ = some g := hn
    obtain ⟨f', hf', h1, h2, h3⟩ := ha.member hgr hid
    rw [hf] at hf'
    cases hf'
    exact .inr ⟨⟨n⟩, g, h1, hgr, hid, h2, h3⟩

/-- The listing of the store in which a flag is keyed has the flag, or the group of which it is a
member. -/
theorem listed_of_key (ha : s.WellFormed) {store : StoreId} {key : String} {id : FlagId} {f : Flag}
    (hk : (key, id) ∈ s.keysOf store) (hf : s.flag? id = some f) :
    (f.group = none ∧ .flag id ∈ s.listing store) ∨
      ∃ group g, f.group = some group ∧ s.group? group = some g ∧ id ∈ g.members ∧
        f.policy = g.policy ∧ g.store = store ∧ .group group ∈ s.listing store := by
  rcases ha.listed_cases hf with ⟨hg, store', he, hk'⟩ | ⟨group, g, h1, h2, h3, h4, h5⟩
  · cases ha.key_store_unique hk hk'
    exact .inl ⟨hg, he⟩
  · cases ha.key_store_unique hk h5
    exact .inr ⟨group, g, h1, h2, h3, h4, rfl, ha.group_mem_listing h2⟩

theorem exists_store_of_owner (ha : s.Arena loose) {id : FlagId} {f : Flag} {child : StoreId}
    (hf : s.flag? id = some f) (hch : f.children = some child) : ∃ store, s.Nests store child := by
  obtain ⟨store, hk⟩ := ha.exists_key_store hf
  exact ⟨store, f.key, id, f, hk, hf, hch⟩

theorem index_lt_of_nests (ha : s.Arena loose) {a b : StoreId} (h : s.Nests a b) :
    a.index < b.index := by
  obtain ⟨key, id, f, hk, hf, hch⟩ := h
  exact ha.deeper hk hf hch

theorem nests_unique (ha : s.Arena loose) {a b c : StoreId} (h : s.Nests a c)
    (h' : s.Nests b c) : a = b := by
  obtain ⟨k, id, f, hk, hf, hch⟩ := h
  obtain ⟨k', id', f', hk', hf', hch'⟩ := h'
  obtain rfl := ha.owner_unique hf hf' hch hch'
  exact ha.key_store_unique hk hk'

/-- Every store can be reached from the root. -/
theorem below_root (ha : s.Arena loose) {store : StoreId} {st : Store}
    (hst : s.store? store = some st) : s.Below root store := by
  obtain ⟨n⟩ := store
  induction n using Nat.strong_induction_on generalizing st with
  | _ n ih =>
    by_cases hr : (⟨n⟩ : StoreId) = root
    · rw [hr]
    · obtain ⟨id, f, hf, hch⟩ := ha.exists_owner hst hr
      obtain ⟨⟨m⟩, hs⟩ := ha.exists_store_of_owner hf hch
      have hlt := ha.index_lt_of_nests hs
      obtain ⟨key, id', f', hk, hf', hch'⟩ := hs
      obtain ⟨st', hst', -⟩ := mem_keysOf.1 hk
      exact (ih m hlt hst').tail ⟨key, id', f', hk, hf', hch'⟩

end Arena

end Homes

end Scheme

end CommandGrammar
