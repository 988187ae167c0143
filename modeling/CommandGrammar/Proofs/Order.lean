import CommandGrammar.Proofs.Registration

/-!
# The order of registration

A registration adds one thing after another to a scheme, each behind what was there: in its store,
in its group, among the arguments. So the lists of a scheme are in the order of registration,
whatever happens in between, and what was numbered keeps its number.
-/

namespace CommandGrammar.Scheme

open Relation

/-- One thing is added to a scheme. -/
inductive Gains (s : Scheme) : Scheme → Prop where
  | flag (store : StoreId) (flag : Flag) : Gains s (s.withFlag store flag)
  | entry (store : StoreId) (id : FlagId) (policy : Policy) : Gains s (s.listFlag store id policy)
  | member (group : GroupId) (id : FlagId) : Gains s (s.listMember group id)
  | store (id : FlagId) : Gains s (s.nest id).1
  | arg (store : StoreId) (arg : Positional) : Gains s (s.withArg store arg)
  | group (store : StoreId) (policy : Policy) : Gains s (s.withGroup store policy)
  | help (id : FlagId) : Gains s { s with help := some id }
  | trigger (id : FlagId) (trigger : Trigger) :
    Gains s (s.updateFlag id fun f => { f with trigger := some trigger })

/-- Everything is listed in a second scheme as in the first one, with more behind it. -/
structure Lengthens (s s' : Scheme) : Prop where
  listing : ∀ store, s.listing store <+: s'.listing store
  members : ∀ group, s.members group <+: s'.members group
  args : ∀ store, s.argsOf store <+: s'.argsOf store

variable {s s' s'' : Scheme}

theorem Lengthens.refl (s : Scheme) : s.Lengthens s :=
  ⟨fun _ => List.prefix_rfl, fun _ => List.prefix_rfl, fun _ => List.prefix_rfl⟩

theorem Lengthens.trans (h : s.Lengthens s') (h' : s'.Lengthens s'') : s.Lengthens s'' :=
  ⟨fun store => (h.listing store).trans (h'.listing store),
    fun group => (h.members group).trans (h'.members group),
    fun store => (h.args store).trans (h'.args store)⟩

/-- Every store and every group has kept what it lists. -/
theorem lengthens_of_parts
    (hs : ∀ store st, s.store? store = some st → ∃ st', s'.store? store = some st' ∧
      st.entries <+: st'.entries ∧ st.args <+: st'.args)
    (hg : ∀ group g, s.group? group = some g → ∃ g', s'.group? group = some g' ∧
      g.members <+: g'.members) : s.Lengthens s' where
  listing store := by
    rcases h : s.store? store with _ | st
    · simp [Scheme.listing, h]
    · obtain ⟨st', h', he, -⟩ := hs store st h
      simpa [Scheme.listing, h, h'] using he
  members group := by
    rcases h : s.group? group with _ | g
    · simp [Scheme.members, h]
    · obtain ⟨g', h', hm⟩ := hg group g h
      simpa [Scheme.members, h, h'] using hm
  args store := by
    rcases h : s.store? store with _ | st
    · simp [argsOf, h]
    · obtain ⟨st', h', -, ha⟩ := hs store st h
      simpa [argsOf, h, h'] using ha

theorem lengthens_of_eq (hs : s'.stores = s.stores) (hg : s'.groups = s.groups) :
    s.Lengthens s' := by
  refine lengthens_of_parts (fun store st h => ⟨st, ?_, List.prefix_rfl, List.prefix_rfl⟩)
    fun group g h => ⟨g, ?_, List.prefix_rfl⟩
  · rw [store?, hs]
    exact h
  · rw [group?, hg]
    exact h

theorem lengthens_updateStore {id : StoreId} {f : Store → Store}
    (he : ∀ st, st.entries <+: (f st).entries) (ha : ∀ st, st.args <+: (f st).args) :
    s.Lengthens (s.updateStore id f) := by
  refine lengthens_of_parts (fun store st h => ?_) fun group g h => ⟨g, h, List.prefix_rfl⟩
  refine ⟨if store = id then f st else st, by rw [store?_updateStore, h]; rfl, ?_⟩
  split_ifs
  · exact ⟨he st, ha st⟩
  · exact ⟨List.prefix_rfl, List.prefix_rfl⟩

theorem lengthens_updateGroup {id : GroupId} {f : Group → Group}
    (hm : ∀ g, g.members <+: (f g).members) : s.Lengthens (s.updateGroup id f) := by
  refine lengthens_of_parts (fun store st h => ⟨st, h, List.prefix_rfl, List.prefix_rfl⟩)
    fun group g h => ?_
  refine ⟨if group = id then f g else g, ?_, ?_⟩
  · refine (getElem?_modify_of_injective (fun _ _ => GroupId.ext) s.groups f id group).trans ?_
    exact congrArg (Option.map _) h
  · split_ifs
    · exact hm g
    · exact List.prefix_rfl

theorem lengthens_withFlag (store : StoreId) (flag : Flag) :
    s.Lengthens (s.withFlag store flag) :=
  (lengthens_of_eq rfl rfl : s.Lengthens { s with flags := s.flags ++ [flag] }).trans
    (lengthens_updateStore (fun _ => List.prefix_rfl) fun _ => List.prefix_rfl)

theorem lengthens_listFlag (store : StoreId) (id : FlagId) (policy : Policy) :
    s.Lengthens (s.listFlag store id policy) :=
  lengthens_updateStore (fun _ => List.prefix_append _ _) fun _ => List.prefix_rfl

theorem lengthens_listMember (group : GroupId) (id : FlagId) :
    s.Lengthens (s.listMember group id) := by
  rcases hg : s.group? group with _ | g
  · simp only [listMember, hg]
    exact .refl s
  · rw [listMember_eq hg]
    exact (lengthens_updateGroup fun _ => List.prefix_append _ _).trans
      (lengthens_updateStore (fun _ => List.prefix_rfl) fun _ => List.prefix_rfl)

theorem lengthens_nest (id : FlagId) : s.Lengthens (s.nest id).1 :=
  lengthens_of_parts
    (fun _ st h => ⟨st, store?_nest_of_lt h, List.prefix_rfl, List.prefix_rfl⟩)
    fun _ g h => ⟨g, h, List.prefix_rfl⟩

theorem lengthens_withArg (store : StoreId) (arg : Positional) :
    s.Lengthens (s.withArg store arg) :=
  (lengthens_of_eq rfl rfl : s.Lengthens { s with args := s.args ++ [arg] }).trans
    (lengthens_updateStore (fun _ => List.prefix_rfl) fun _ => List.prefix_append _ _)

theorem lengthens_withGroup (store : StoreId) (policy : Policy) :
    s.Lengthens (s.withGroup store policy) := by
  refine lengthens_of_parts (fun other st h => ?_)
    fun _ g h => ⟨g, group?_withGroup h, List.prefix_rfl⟩
  rw [store?_withGroup, h]
  refine ⟨_, rfl, ?_⟩
  split_ifs
  · exact ⟨List.prefix_append _ _, List.prefix_rfl⟩
  · exact ⟨List.prefix_rfl, List.prefix_rfl⟩

section Registrations

theorem addFlag_gains {store : StoreId} {key description : String} {policy : Policy}
    {id : FlagId} (h : s.addFlag store key policy description = .ok (s', id)) :
    ReflTransGen Gains s s' := by
  obtain ⟨⟨s₁, id₁⟩, hi, h⟩ := exists_of_bind_ok h
  cases h
  obtain ⟨-, -, -, -, rfl⟩ := insertFlag_ok hi
  exact .tail (.single (.flag _ _)) (.entry _ _ _)

theorem addMember_gains {group : GroupId} {key description : String} {id : FlagId}
    (h : s.addMember group key description = .ok (s', id)) : ReflTransGen Gains s s' := by
  rcases hg : s.group? group with _ | g <;> simp only [addMember, hg] at h
  · cases h
  · obtain ⟨⟨s₁, id₁⟩, hi, h⟩ := exists_of_bind_ok h
    cases h
    obtain ⟨-, -, -, -, rfl⟩ := insertFlag_ok hi
    exact .tail (.single (.flag _ _)) (.member _ _)

theorem register_gains {r : Registration} (h : s.register r = .ok s') :
    ReflTransGen Gains s s' := by
  cases r with
  | flag store key policy description =>
    obtain ⟨⟨s₁, id⟩, hr, rfl⟩ := exists_of_map_ok h
    exact addFlag_gains hr
  | complexFlag store key policy description =>
    obtain ⟨⟨s₁, id, child⟩, hr, rfl⟩ := exists_of_map_ok h
    obtain ⟨⟨s₂, id₂⟩, hi, hr⟩ := exists_of_bind_ok hr
    cases hr
    exact (addFlag_gains hi).tail (.store _)
  | arg store arg =>
    obtain ⟨⟨s₁, id⟩, hr, rfl⟩ := exists_of_map_ok h
    obtain ⟨-, -, -, rfl⟩ := addArg_ok hr
    exact .single (.arg _ _)
  | group store policy =>
    obtain ⟨⟨s₁, id⟩, hr, rfl⟩ := exists_of_map_ok h
    obtain ⟨-, -, -, rfl⟩ := addGroup_ok hr
    exact .single (.group _ _)
  | member group key description =>
    obtain ⟨⟨s₁, id⟩, hr, rfl⟩ := exists_of_map_ok h
    exact addMember_gains hr
  | complexMember group key description =>
    obtain ⟨⟨s₁, id, child⟩, hr, rfl⟩ := exists_of_map_ok h
    obtain ⟨⟨s₂, id₂⟩, hi, hr⟩ := exists_of_bind_ok hr
    cases hr
    exact (addMember_gains hi).tail (.store _)
  | help =>
    obtain ⟨⟨s₁, id⟩, hr, rfl⟩ := exists_of_map_ok h
    unfold enableHelp at hr
    split at hr
    · cases hr
      exact .refl
    · obtain ⟨⟨s₂, id₂⟩, hi, hr⟩ := exists_of_bind_ok hr
      cases hr
      exact (addFlag_gains hi).tail (.help _)
  | trigger flag trigger =>
    rw [setTrigger_ok h]
    exact .single (.trigger _ _)

end Registrations

theorem Gains.lengthens (h : s.Gains s') : s.Lengthens s' := by
  cases h with
  | flag store flag => exact lengthens_withFlag store flag
  | entry store id policy => exact lengthens_listFlag store id policy
  | member group id => exact lengthens_listMember group id
  | store id => exact lengthens_nest id
  | arg store arg => exact lengthens_withArg store arg
  | group store policy => exact lengthens_withGroup store policy
  | help id => exact lengthens_of_eq rfl rfl
  | trigger id trigger => exact lengthens_of_eq rfl rfl

theorem listMember_args (group : GroupId) (id : FlagId) :
    (s.listMember group id).args = s.args := by
  rcases hg : s.group? group with _ | g
  · simp only [listMember, hg]
  · rw [listMember_eq hg]
    rfl

theorem Gains.args (h : s.Gains s') : s.args <+: s'.args := by
  cases h with
  | arg store arg => exact List.prefix_append _ _
  | member group id => exact (listMember_args group id).symm ▸ List.prefix_rfl
  | flag | entry | store | group | help | trigger => exact List.prefix_rfl

theorem lengthens_of_gains (h : ReflTransGen Gains s s') : s.Lengthens s' := by
  induction h with
  | refl => exact .refl s
  | tail _ hgain ih => exact ih.trans hgain.lengthens

theorem arg?_of_gains (h : ReflTransGen Gains s s') {id : ArgId} {arg : Positional}
    (ha : s.arg? id = some arg) : s'.arg? id = some arg := by
  induction h with
  | refl => exact ha
  | tail _ hgain ih =>
    obtain ⟨more, hmore⟩ := hgain.args
    rw [arg?, ← hmore, List.getElem?_append_left (List.getElem?_eq_some_iff.1 ih).1]
    exact ih

end CommandGrammar.Scheme

namespace CommandGrammar.Session

open Relation

/-- A script adds to the scheme that was there at some point of it. -/
theorem after_gains {earlier script : List Call} (h : earlier <+: script) :
    ReflTransGen Scheme.Gains (after earlier).scheme (after script).scheme := by
  obtain ⟨later, rfl⟩ := h
  induction later using List.reverseRecOn with
  | nil =>
    rw [List.append_nil]
  | append_singleton later c ih =>
    rw [← List.append_assoc, after_append]
    rcases call_scheme (after (earlier ++ later)) c with h | ⟨r, -, h⟩
    · rw [h]
      exact ih
    · exact ih.trans (Scheme.register_gains h)

/-- What was listed at some point of a script is listed first in the end. -/
theorem after_lengthens {earlier script : List Call} (h : earlier <+: script) :
    (after earlier).scheme.Lengthens (after script).scheme :=
  Scheme.lengthens_of_gains (after_gains h)

/-- An argument keeps its number. -/
theorem after_arg? {earlier script : List Call} (h : earlier <+: script) {id : ArgId}
    {arg : Positional} (ha : (after earlier).scheme.arg? id = some arg) :
    (after script).scheme.arg? id = some arg :=
  Scheme.arg?_of_gains (after_gains h) ha

end CommandGrammar.Session
