import CommandGrammar.Proofs.Accounting
import CommandGrammar.Proofs.Options

/-!
# The blocks of the help

A tour of a scheme goes from the root through all its stores, depth first: the arguments of a store
come before its flags, what may follow a flag comes right behind the flag, and the flag that asks
for help comes last in the root. It meets every flag and every argument once. The help is what is
said of those spots of the tour that are described and stand under described flags only: a flag
without description hides all that may follow it.
-/

namespace CommandGrammar

/-- A flag or an argument, and the flags above it, the innermost first. -/
structure Spot where
  owners : List FlagId
  node : Node
  deriving DecidableEq, Repr

namespace Scheme

open Relation

variable (s : Scheme)

def Knows : Node → Prop
  | .flag id => ∃ f, s.flag? id = some f
  | .arg id => ∃ a, s.arg? id = some a

def isDescribed : Node → Bool
  | .flag id => (s.flag? id).any fun f => !f.description.isEmpty
  | .arg id => (s.arg? id).any fun a => !a.description.isEmpty

def isShown (x : Spot) : Bool :=
  s.isDescribed x.node && x.owners.all fun id => s.isDescribed (.flag id)

/-- What the help says of a spot, four spaces deeper with each flag above it. -/
def block (x : Spot) : String :=
  let line := newLine (x.owners.length + 1)
  match x.node with
  | .flag id =>
    match s.flag? id with
    | none => ""
    | some f =>
      line ++ s.flagSummary id ++ line ++ (if f.policy.isOptional then "[optional] " else "") ++
        f.description
  | .arg id =>
    match s.arg? id with
    | none => ""
    | some a =>
      line ++ a.name ++ (if a.policy.isOptional then " [optional]" else "") ++ ": " ++ a.description

def blocks (xs : List Spot) : String := String.join (xs.map s.block)

/-- The spots of a store and of all that is nested in it, given the flags that lead there. Stores of
flags come behind it. -/
def tour (owners : List FlagId) (store : StoreId) : List Spot :=
  (s.argsOf store).map (⟨owners, .arg ·⟩) ++ (s.menu store).flatMap fun id =>
    ⟨owners, .flag id⟩ ::
      match (s.flag? id).bind (·.children) with
      | none => []
      | some child =>
        if _h : store.index < child.index ∧ child.index < s.stores.length then
          tour (id :: owners) child
        else []
termination_by s.stores.length - store.index

/-- A flag and all that may follow it. -/
def flagTour (owners : List FlagId) (id : FlagId) : List Spot :=
  ⟨owners, .flag id⟩ ::
    match (s.flag? id).bind (·.children) with
    | none => []
    | some child => s.tour (id :: owners) child

/-- The tour goes depth first and meets every node once, where it stands. The help has the blocks of
the spots that are shown, in this order. These are all that are described just when no flag without
description has a described node below it. -/
structure HasBlocks : Prop where
  walks : ∀ owners store, s.tour owners store =
    (s.argsOf store).map (⟨owners, .arg ·⟩) ++ (s.menu store).flatMap (s.flagTour owners)
  once : ((s.tour [] root).map (·.node)).Nodup
  all : ∀ n, n ∈ (s.tour [] root).map (·.node) ↔ s.Knows n
  placed : ∀ x, x ∈ s.tour [] root ↔ ∃ store, s.Leads x.owners store ∧ s.Home x.node store
  shown : s.usageHelp = s.blocks ((s.tour [] root).filter s.isShown)
  complete_iff : s.usageHelp = s.blocks ((s.tour [] root).filter fun x => s.isDescribed x.node) ↔
    ∀ x ∈ s.tour [] root, s.isDescribed x.node = true → ∀ id ∈ x.owners,
      s.isDescribed (.flag id) = true

variable {s} {owners ids : List FlagId} {store child : StoreId} {id : FlagId} {n : Node} {x : Spot}

/-! ## The tour -/

section Nesting

theorem nests_of_mem_menu (ha : s.WellFormed) (hid : id ∈ s.menu store)
    (hc : (s.flag? id).bind (·.children) = some child) : s.Nests store child := by
  obtain ⟨key, hk⟩ := (mem_menu_iff_keyed ha).1 hid
  obtain ⟨f, hf, hc⟩ := Option.bind_eq_some_iff.1 hc
  exact ⟨key, id, f, hk, hf, hc⟩

theorem Nests.behind (ha : s.WellFormed) (h : s.Nests store child) :
    store.index < child.index ∧ child.index < s.stores.length := by
  refine ⟨ha.index_lt_of_nests h, ?_⟩
  obtain ⟨key, id, f, -, hf, hc⟩ := h
  obtain ⟨st, hst⟩ := ha.exists_child hf hc
  exact lt_of_store? hst

/-- What holds of a store as soon as it holds of all that are nested in it holds of all stores. -/
theorem nesting_induction (ha : s.WellFormed) {P : StoreId → Prop}
    (h : ∀ store, (∀ child, s.Nests store child → P child) → P store) (store : StoreId) :
    P store := by
  induction hn : s.stores.length - store.index using Nat.strong_induction_on generalizing store with
  | _ n ih =>
    refine h store fun child hc => ih _ ?_ child rfl
    have := hc.behind ha
    omega

end Nesting

section Tour

theorem tour_eq (ha : s.WellFormed) (owners : List FlagId) (store : StoreId) :
    s.tour owners store =
      (s.argsOf store).map (⟨owners, .arg ·⟩) ++ (s.menu store).flatMap (s.flagTour owners) := by
  rw [tour]
  refine congrArg _ (List.flatMap_congr fun id hid => ?_)
  rw [flagTour]
  rcases hc : (s.flag? id).bind (·.children) with _ | child
  · rfl
  · dsimp only
    rw [dif_pos ((nests_of_mem_menu ha hid hc).behind ha)]

theorem mem_flagTour : x ∈ s.flagTour owners id ↔ x = ⟨owners, .flag id⟩ ∨
    ∃ child, (s.flag? id).bind (·.children) = some child ∧ x ∈ s.tour (id :: owners) child := by
  rw [flagTour, List.mem_cons]
  rcases (s.flag? id).bind (·.children) with _ | child <;> simp

theorem mem_tour (ha : s.WellFormed) : x ∈ s.tour owners store ↔
    (∃ id ∈ s.argsOf store, ⟨owners, .arg id⟩ = x) ∨
      ∃ id ∈ s.menu store, x ∈ s.flagTour owners id := by
  rw [tour_eq ha, List.mem_append, List.mem_map, List.mem_flatMap]

theorem suffix_of_mem_tour (ha : s.WellFormed) (store : StoreId) :
    ∀ {owners x}, x ∈ s.tour owners store → owners <:+ x.owners := by
  induction store using nesting_induction ha with
  | h store ih =>
    intro owners x hx
    rcases (mem_tour ha).1 hx with ⟨id, -, rfl⟩ | ⟨id, hid, hx⟩
    · exact List.suffix_rfl
    · rcases mem_flagTour.1 hx with rfl | ⟨child, hc, hx⟩
      · exact List.suffix_rfl
      · exact (List.suffix_cons id owners).trans (ih child (nests_of_mem_menu ha hid hc) hx)

theorem owners_of_mem_flagTour (ha : s.WellFormed) (hx : x ∈ s.flagTour owners id) :
    x = ⟨owners, .flag id⟩ ∨ id :: owners <:+ x.owners :=
  (mem_flagTour.1 hx).imp_right fun ⟨child, _, hx⟩ => suffix_of_mem_tour ha child hx

theorem not_cons_suffix {α : Type} (a : α) (l : List α) : ¬a :: l <:+ l := fun h =>
  Nat.not_succ_le_self _ h.length_le

theorem eq_of_cons_suffix {α : Type} {a b : α} {l m : List α} (ha : a :: l <:+ m)
    (hb : b :: l <:+ m) : a = b :=
  (List.cons.inj ((List.suffix_of_suffix_length_le ha hb (by simp)).eq_of_length (by simp))).1

/-- What two flags of a store have below them is told apart by the flag on the way. -/
theorem flagTour_disjoint (ha : s.WellFormed) {id' : FlagId} (hne : id ≠ id') :
    (s.flagTour owners id).Disjoint (s.flagTour owners id') := by
  intro x hx hx'
  rcases owners_of_mem_flagTour ha hx with rfl | h
  · rcases owners_of_mem_flagTour ha hx' with h' | h'
    · cases h'
      exact hne rfl
    · exact not_cons_suffix _ _ h'
  · rcases owners_of_mem_flagTour ha hx' with rfl | h'
    · exact not_cons_suffix _ _ h
    · exact hne (eq_of_cons_suffix h h')

theorem tour_nodup (ha : s.WellFormed) (store : StoreId) :
    ∀ owners, (s.tour owners store).Nodup := by
  induction store using nesting_induction ha with
  | h store ih =>
    intro owners
    rw [tour_eq ha]
    -- the owners tell the arguments of the store, its flags and what is below each of them apart
    refine List.nodup_append.2 ⟨(ha.args_nodup store).map fun _ _ h => by cases h; rfl,
      List.nodup_flatMap.2 ⟨fun id hid => ?_, ?_⟩, ?_⟩
    · rw [flagTour]
      rcases hc : (s.flag? id).bind (·.children) with _ | child
      · exact List.nodup_singleton _
      · refine List.nodup_cons.2 ⟨fun h => ?_, ih child (nests_of_mem_menu ha hid hc) _⟩
        exact not_cons_suffix _ _ (suffix_of_mem_tour ha child h)
    · exact (menu_nodup ha store).imp fun hne => flagTour_disjoint ha hne
    · rintro x hx y hy rfl
      obtain ⟨arg, -, rfl⟩ := List.mem_map.1 hx
      obtain ⟨id, -, hy⟩ := List.mem_flatMap.1 hy
      rcases owners_of_mem_flagTour ha hy with h | h
      · cases h
      · exact not_cons_suffix _ _ h

end Tour

/-! ## Where its spots stand -/

section Places

theorem Leads.unique (ha : s.WellFormed) {ids' : List FlagId} (h : s.Leads ids store)
    (h' : s.Leads ids' store) : ids = ids' := by
  induction h generalizing ids' with
  | root =>
    cases h' with
    | root => rfl
    | step h' hk hf hc => exact absurd rfl (ha.child_ne_root hf hc)
  | step h hk hf hc ih =>
    cases h' with
    | root => exact absurd rfl (ha.child_ne_root hf hc)
    | step h' hk' hf' hc' =>
      obtain rfl := ha.owner_unique hf hf' hc hc'
      obtain rfl := ha.key_store_unique hk hk'
      rw [ih h']

theorem exists_leads (h : s.Below root store) : ∃ ids, s.Leads ids store := by
  induction h with
  | refl => exact ⟨[], .root⟩
  | tail _ h ih =>
    obtain ⟨ids, hl⟩ := ih
    obtain ⟨key, id, f, hk, hf, hc⟩ := h
    exact ⟨id :: ids, hl.step hk hf hc⟩

theorem leads_of_mem_tour (ha : s.WellFormed) (store : StoreId) :
    ∀ {owners x}, s.Leads owners store → x ∈ s.tour owners store →
      ∃ home, s.Leads x.owners home ∧ s.Home x.node home := by
  induction store using nesting_induction ha with
  | h store ih =>
    intro owners x hl hx
    rcases (mem_tour ha).1 hx with ⟨id, hid, rfl⟩ | ⟨id, hid, hx⟩
    · exact ⟨store, hl, hid⟩
    · obtain ⟨key, hk⟩ := (mem_menu_iff_keyed ha).1 hid
      rcases mem_flagTour.1 hx with rfl | ⟨child, hc, hx⟩
      · exact ⟨store, hl, key, hk⟩
      · have hn := nests_of_mem_menu ha hid hc
        obtain ⟨f, hf, hc⟩ := Option.bind_eq_some_iff.1 hc
        exact ih child hn (hl.step hk hf hc) hx

theorem mem_tour_of_home (ha : s.WellFormed) (owners : List FlagId) (h : s.Home n store) :
    ⟨owners, n⟩ ∈ s.tour owners store := by
  cases n with
  | flag id =>
    exact (mem_tour ha).2 (.inr ⟨id, (mem_menu_iff_keyed ha).2 h, mem_flagTour.2 (.inl rfl)⟩)
  | arg id => exact (mem_tour ha).2 (.inl ⟨id, h, rfl⟩)

theorem tour_subset (ha : s.WellFormed) (h : s.Leads ids store) :
    s.tour ids store ⊆ s.tour [] root := by
  induction h with
  | root => exact List.Subset.refl _
  | @step ids store key id f child h hk hf hc ih =>
    refine fun x hx => ih ((mem_tour ha).2 (.inr ⟨id, ?_, mem_flagTour.2 (.inr ⟨child, ?_, hx⟩)⟩))
    · exact (mem_menu_iff_keyed ha).2 ⟨key, hk⟩
    · rw [hf]
      exact hc

theorem mem_tour_iff (ha : s.WellFormed) (x : Spot) :
    x ∈ s.tour [] root ↔ ∃ store, s.Leads x.owners store ∧ s.Home x.node store :=
  ⟨leads_of_mem_tour ha root .root, fun ⟨_, hl, hh⟩ =>
    tour_subset ha hl (mem_tour_of_home ha x.owners hh)⟩

theorem knows_iff (ha : s.WellFormed) (n : Node) : s.Knows n ↔ ∃ store, s.Home n store := by
  cases n with
  | flag id =>
    refine ⟨fun ⟨f, hf⟩ => ?_, fun ⟨store, key, hk⟩ => ?_⟩
    · obtain ⟨store, hk⟩ := ha.exists_key_store hf
      exact ⟨store, f.key, hk⟩
    · obtain ⟨f, hf, -⟩ := exists_flag_of_key? (ha.key_eq hk)
      exact ⟨f, hf⟩
  | arg id => exact ⟨fun ⟨_, h⟩ => ha.exists_arg_store h, fun ⟨_, h⟩ => ha.exists_arg h⟩

theorem exists_store?_of_home (h : s.Home n store) :
    ∃ st, s.store? store = some st := by
  cases n with
  | flag id =>
    obtain ⟨key, hk⟩ := h
    obtain ⟨st, hst, -⟩ := mem_keysOf.1 hk
    exact ⟨st, hst⟩
  | arg id =>
    obtain ⟨st, hst, -⟩ := mem_argsOf.1 h
    exact ⟨st, hst⟩

theorem mem_nodes_iff (ha : s.WellFormed) (n : Node) :
    n ∈ (s.tour [] root).map (·.node) ↔ s.Knows n := by
  rw [knows_iff ha, List.mem_map]
  constructor
  · rintro ⟨x, hx, rfl⟩
    obtain ⟨store, -, hh⟩ := (mem_tour_iff ha x).1 hx
    exact ⟨store, hh⟩
  · rintro ⟨store, hh⟩
    obtain ⟨st, hst⟩ := exists_store?_of_home hh
    obtain ⟨ids, hl⟩ := exists_leads (ha.below_root hst)
    exact ⟨⟨ids, n⟩, (mem_tour_iff ha _).2 ⟨store, hl, hh⟩, rfl⟩

/-- A node has one home, and one way leads there. -/
theorem nodes_nodup (ha : s.WellFormed) : ((s.tour [] root).map (·.node)).Nodup := by
  refine (tour_nodup ha root []).map_on ?_
  rintro ⟨ids, n⟩ hx ⟨ids', n'⟩ hy (rfl : n = n')
  obtain ⟨a, hla, hha⟩ := (mem_tour_iff ha _).1 hx
  obtain ⟨b, hlb, hhb⟩ := (mem_tour_iff ha _).1 hy
  obtain rfl := ha.home_unique hha hhb
  exact congrArg (Spot.mk · n) (hla.unique ha hlb)

end Places

/-! ## The text -/

section Text

variable (s) in
def flagHelp (level : Nat) (id : FlagId) : String :=
  match s.flag? id with
  | none => ""
  | some flag =>
    if flag.description.isEmpty then ""
    else
      newLine level ++ s.flagSummary id ++ newLine level ++
        (if flag.policy.isOptional then "[optional] " else "") ++ flag.description ++
        match flag.children with
        | none => ""
        | some child => s.storeHelp child (level + 1)

theorem storeHelp_eq (ha : s.WellFormed) (store : StoreId) (level : Nat) :
    s.storeHelp store level = String.join ((s.argsOf store).map (s.argHelp level)) ++
      String.join ((s.menu store).map (s.flagHelp level)) := by
  rw [storeHelp, ← menu_eq ha]
  refine congrArg _ (congrArg _ (List.map_congr_left fun id hid => ?_))
  rw [flagHelp]
  rcases hf : s.flag? id with _ | f
  · rfl
  · dsimp only
    rcases hc : f.children with _ | child
    · rfl
    · dsimp only
      have hn : s.Nests store child := nests_of_mem_menu ha hid (by rw [hf]; exact hc)
      rw [dif_pos (hn.behind ha)]

theorem blocks_nil : s.blocks [] = "" := rfl

theorem blocks_cons (x : Spot) (xs : List Spot) :
    s.blocks (x :: xs) = s.block x ++ s.blocks xs := by
  simp [blocks, String.join_cons]

theorem blocks_append (xs ys : List Spot) : s.blocks (xs ++ ys) = s.blocks xs ++ s.blocks ys := by
  simp [blocks, String.join_append]

theorem blocks_flatMap {α : Type} (f : α → List Spot) :
    ∀ l : List α, s.blocks (l.flatMap f) = String.join (l.map fun a => s.blocks (f a))
  | [] => rfl
  | a :: l => by
    rw [List.flatMap_cons, blocks_append, blocks_flatMap f l, List.map_cons, String.join_cons]

theorem blocks_filter_map {α : Type} (f : α → Spot) (p : Spot → Bool) :
    ∀ l : List α, s.blocks ((l.map f).filter p) =
      String.join (l.map fun a => s.blocks ([f a].filter p))
  | [] => rfl
  | a :: l => by
    rw [List.map_cons, ← List.singleton_append, List.filter_append, blocks_append,
      blocks_filter_map f p l, List.map_cons, String.join_cons]

theorem isShown_eq_false (h : id ∈ x.owners) (hd : s.isDescribed (.flag id) = false) :
    s.isShown x = false := by
  rw [isShown, Bool.and_eq_false_iff]
  refine .inr (Bool.eq_false_iff.2 fun hall => ?_)
  rw [List.all_eq_true] at hall
  exact Bool.false_ne_true (hd.symm.trans (hall id h))

theorem shown_of_undescribed (ha : s.WellFormed) (hd : s.isDescribed (.flag id) = false) :
    (s.flagTour owners id).filter s.isShown = [] := by
  refine List.filter_eq_nil_iff.2 fun x hx => Bool.not_eq_true _ ▸ ?_
  rcases owners_of_mem_flagTour ha hx with rfl | hx
  · rw [isShown, hd, Bool.false_and]
  · exact isShown_eq_false (hx.subset List.mem_cons_self) hd

theorem shown_of_described (howners : ∀ id ∈ owners, s.isDescribed (.flag id) = true)
    (hd : s.isDescribed n = true) : s.isShown ⟨owners, n⟩ = true := by
  rw [isShown, hd, Bool.true_and]
  exact List.all_eq_true.2 howners

theorem block_flag {f : Flag} (h : s.flag? id = some f) (owners : List FlagId) :
    s.block ⟨owners, .flag id⟩ =
      newLine (owners.length + 1) ++ s.flagSummary id ++ newLine (owners.length + 1) ++
        (if f.policy.isOptional then "[optional] " else "") ++ f.description := by
  simp only [block, h]

theorem block_arg {id : ArgId} {a : Positional} (h : s.arg? id = some a) (owners : List FlagId) :
    s.block ⟨owners, .arg id⟩ =
      newLine (owners.length + 1) ++ a.name ++
        (if a.policy.isOptional then " [optional]" else "") ++ ": " ++ a.description := by
  simp only [block, h]

theorem argHelp_eq (howners : ∀ id ∈ owners, s.isDescribed (.flag id) = true) (id : ArgId) :
    s.argHelp (owners.length + 1) id = s.blocks ([⟨owners, .arg id⟩].filter s.isShown) := by
  rw [argHelp]
  rcases h : s.arg? id with _ | a
  · have hd : s.isDescribed (.arg id) = false := by simp [isDescribed, h]
    rw [List.filter_singleton, isShown, hd, Bool.false_and]
    rfl
  · dsimp only
    by_cases he : a.description.isEmpty
    · have hd : s.isDescribed (.arg id) = false := by simp [isDescribed, h, he]
      rw [if_pos he, List.filter_singleton, isShown, hd, Bool.false_and]
      rfl
    · have hd : s.isDescribed (.arg id) = true := by simp [isDescribed, h, he]
      rw [if_neg he, List.filter_singleton, shown_of_described howners hd, cond_true, blocks_cons,
        block_arg h, blocks_nil, String.append_empty]

theorem flagHelp_eq (ha : s.WellFormed) (howners : ∀ id ∈ owners, s.isDescribed (.flag id) = true)
    (ih : ∀ child, (s.flag? id).bind (·.children) = some child →
      ∀ owners, (∀ id ∈ owners, s.isDescribed (.flag id) = true) →
        s.storeHelp child (owners.length + 1) =
          s.blocks ((s.tour owners child).filter s.isShown)) :
    s.flagHelp (owners.length + 1) id = s.blocks ((s.flagTour owners id).filter s.isShown) := by
  rw [flagHelp]
  rcases h : s.flag? id with _ | f
  · have hd : s.isDescribed (.flag id) = false := by simp [isDescribed, h]
    rw [shown_of_undescribed ha hd]
    rfl
  · dsimp only
    by_cases he : f.description.isEmpty
    · have hd : s.isDescribed (.flag id) = false := by simp [isDescribed, h, he]
      rw [if_pos he, shown_of_undescribed ha hd]
      rfl
    · have hd : s.isDescribed (.flag id) = true := by simp [isDescribed, h, he]
      rw [if_neg he, flagTour, List.filter_cons_of_pos (shown_of_described howners hd), blocks_cons,
        block_flag h]
      refine congrArg _ ?_
      rw [h, Option.bind_some] at ih
      rw [h, Option.bind_some]
      rcases hc : f.children with _ | child
      · rfl
      · exact ih child hc (id :: owners) (List.forall_mem_cons.2 ⟨hd, howners⟩)

/-- Below described flags, the help of a store has the blocks that the tour shows there. -/
theorem storeHelp_eq_blocks (ha : s.WellFormed) (store : StoreId) :
    ∀ owners, (∀ id ∈ owners, s.isDescribed (.flag id) = true) →
      s.storeHelp store (owners.length + 1) =
        s.blocks ((s.tour owners store).filter s.isShown) := by
  induction store using nesting_induction ha with
  | h store ih =>
    intro owners howners
    rw [storeHelp_eq ha, tour_eq ha, List.filter_append, blocks_append, List.filter_flatMap,
      blocks_flatMap, blocks_filter_map]
    refine congrArg₂ _ ?_ ?_
    · exact congrArg _ (List.map_congr_left fun id _ => argHelp_eq howners id)
    · exact congrArg _ (List.map_congr_left fun id hid =>
        flagHelp_eq ha howners fun child hc => ih child (nests_of_mem_menu ha hid hc))

theorem newLine_length_pos (level : Nat) : 0 < (newLine level).length := by
  rw [newLine, String.length_append]
  exact Nat.add_pos_left Nat.one_pos _

theorem block_length_pos (h : s.isDescribed x.node = true) : 0 < (s.block x).length := by
  obtain ⟨owners, id | id⟩ := x <;> have hpos := newLine_length_pos (owners.length + 1)
  · obtain ⟨f, hf, -⟩ := (Option.any_eq_true _ _).1 h
    rw [block_flag hf]
    simp only [String.length_append]
    omega
  · obtain ⟨a, hf, -⟩ := (Option.any_eq_true _ _).1 h
    rw [block_arg hf]
    simp only [String.length_append]
    omega

theorem blocks_filter_length_le {p q : Spot → Bool} (hpq : ∀ x, p x = true → q x = true) :
    ∀ xs : List Spot, (s.blocks (xs.filter p)).length ≤ (s.blocks (xs.filter q)).length
  | [] => le_rfl
  | x :: xs => by
    have ih := blocks_filter_length_le hpq xs
    by_cases hp : p x = true
    · rw [List.filter_cons_of_pos hp, List.filter_cons_of_pos (hpq x hp), blocks_cons, blocks_cons,
        String.length_append, String.length_append]
      omega
    · rw [List.filter_cons_of_neg hp]
      by_cases hq : q x = true
      · rw [List.filter_cons_of_pos hq, blocks_cons, String.length_append]
        omega
      · rwa [List.filter_cons_of_neg hq]

theorem eq_true_of_blocks_eq {p q : Spot → Bool} (hpq : ∀ x, p x = true → q x = true)
    (hq : ∀ x, q x = true → 0 < (s.block x).length) :
    ∀ {xs : List Spot}, s.blocks (xs.filter p) = s.blocks (xs.filter q) →
      ∀ x ∈ xs, q x = true → p x = true
  | [], _ => nofun
  | y :: ys, h => by
    by_cases hpy : p y = true
    · rw [List.filter_cons_of_pos hpy, List.filter_cons_of_pos (hpq y hpy), blocks_cons,
        blocks_cons, String.append_right_inj] at h
      exact List.forall_mem_cons.2 ⟨fun _ => hpy, eq_true_of_blocks_eq hpq hq h⟩
    · rw [List.filter_cons_of_neg hpy] at h
      by_cases hqy : q y = true
      · -- the block of `y` makes one text longer than the other can be
        have hle := blocks_filter_length_le (s := s) hpq ys
        have hpos := hq y hqy
        rw [List.filter_cons_of_pos hqy, blocks_cons] at h
        have hlen := congrArg String.length h
        rw [String.length_append] at hlen
        omega
      · rw [List.filter_cons_of_neg hqy] at h
        exact List.forall_mem_cons.2 ⟨fun h => absurd h hqy, eq_true_of_blocks_eq hpq hq h⟩

end Text

theorem usageHelp_eq (ha : s.WellFormed) :
    s.usageHelp = s.blocks ((s.tour [] root).filter s.isShown) :=
  storeHelp_eq_blocks ha root [] fun _ => nofun

theorem described_of_shown (h : s.isShown x = true) :
    s.isDescribed x.node = true ∧ ∀ id ∈ x.owners, s.isDescribed (.flag id) = true :=
  (Bool.and_eq_true_iff.1 h).imp_right List.all_eq_true.1

theorem hasBlocks (ha : s.WellFormed) : s.HasBlocks where
  walks := tour_eq ha
  once := nodes_nodup ha
  all := mem_nodes_iff ha
  placed := mem_tour_iff ha
  shown := usageHelp_eq ha
  complete_iff := by
    rw [usageHelp_eq ha]
    constructor
    · intro h x hx hd
      exact (described_of_shown (eq_true_of_blocks_eq (fun x hx => (described_of_shown hx).1)
        (fun x => block_length_pos) h x hx hd)).2
    · intro h
      refine congrArg _ (List.filter_congr fun x hx => ?_)
      by_cases hd : s.isDescribed x.node = true
      · rw [hd, shown_of_described (h x hx hd) hd]
      · rw [isShown, Bool.eq_false_iff.2 hd, Bool.false_and]

end Scheme

end CommandGrammar

namespace CommandGrammar.Session

/-- Whatever a session went through before, its help has one block for each described node that
stands under described flags only, in the order of the tour. -/
theorem after_hasBlocks (script : List Call) : (after script).scheme.HasBlocks :=
  Scheme.hasBlocks (after_wellFormed script)

/-- A flag without description hides the one that may follow it. -/
theorem set_hides_block :
    let s := (after [.register (.complexFlag Scheme.root "set" .optional ""),
      .register (.flag ⟨1⟩ "-x" .optional "Sets x.")]).scheme
    s.usageHelp = "" ∧
      s.blocks ((s.tour [] Scheme.root).filter fun x => s.isDescribed x.node) =
        "\n        -x\n        [optional] Sets x." := by
  decide +kernel

end CommandGrammar.Session
