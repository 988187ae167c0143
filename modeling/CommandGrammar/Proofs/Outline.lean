import CommandGrammar.Proofs.Arena

/-!
# The tree in the arenas

Walking a scheme from a store, through its listing, the members of its groups and the stores of its
flags, gives back a tree. That the arenas show a tree is said node by node: each has the number and
the data that the tree says, and what stands below a flag is in a store of its own, behind the one
that the flag is in. So a change of a single store leaves a tree that is shown in it as it was: all
other levels of the tree are elsewhere. What the arenas show is what the walk gives.
-/

namespace CommandGrammar

mutual

/-- A flag, with the arguments and entries that may follow it if it has a store for them. -/
inductive Twig where
  | simple (id : FlagId) (flag : Flag)
  | complex (id : FlagId) (flag : Flag) (args : List (ArgId × Positional)) (branches : List Branch)

/-- An entry of a store: a flag, or a group with its members. -/
inductive Branch where
  | flag (twig : Twig)
  | group (id : GroupId) (policy : Policy) (members : List Twig)

end

namespace Twig

def id : Twig → FlagId
  | simple id _ | complex id _ _ _ => id

def flag : Twig → Flag
  | simple _ flag | complex _ flag _ _ => flag

end Twig

def Branch.entry : Branch → Entry
  | flag twig => .flag twig.id
  | group id _ _ => .group id

namespace Scheme

variable (s : Scheme)

/-! ## The walk -/

def argNodes (store : StoreId) : List (ArgId × Positional) :=
  (s.argsOf store).filterMap fun id => (s.arg? id).map (id, ·)

/-- The tree of a flag, given those of the stores. -/
def twigWith (below : StoreId → List Branch) (id : FlagId) : Option Twig :=
  (s.flag? id).map fun flag =>
    match flag.children with
    | none => .simple id flag
    | some child => .complex id flag (s.argNodes child) (below child)

/-- The tree of an entry, given those of the stores. -/
def branchWith (below : StoreId → List Branch) : Entry → Option Branch
  | .flag id => (s.twigWith below id).map .flag
  | .group id => (s.group? id).map fun g =>
    .group id g.policy (g.members.filterMap (s.twigWith below))

/-- The trees of the entries of a store. Stores of flags come behind it. -/
def branches (store : StoreId) : List Branch :=
  (s.listing store).filterMap <| s.branchWith fun child =>
    if _h : store.index < child.index ∧ child.index < s.stores.length then branches child else []
termination_by s.stores.length - store.index

/-- A store has these arguments and lists these entries. -/
structure Level (store : StoreId) (args : List (ArgId × Positional)) (branches : List Branch) :
    Prop where
  known : store.index < s.stores.length
  args_eq : s.argsOf store = args.map (·.1)
  arg : ∀ x ∈ args, s.arg? x.1 = some x.2
  listing_eq : s.listing store = branches.map Branch.entry

end Scheme

/-! ## What the arenas show -/

mutual

def Twig.ShownIn (s : Scheme) (store : StoreId) : Twig → Prop
  | .simple id flag => s.flag? id = some flag ∧ flag.children = none
  | .complex id flag args branches => s.flag? id = some flag ∧ ∃ child,
      flag.children = some child ∧ store.index < child.index ∧ s.Level child args branches ∧
        Branch.AllShownIn s child branches

def Branch.ShownIn (s : Scheme) (store : StoreId) : Branch → Prop
  | .flag twig => twig.ShownIn s store
  | .group id policy members =>
    s.group? id = some { store, policy, members := members.map Twig.id } ∧
      Twig.AllShownIn s store members

def Branch.AllShownIn (s : Scheme) (store : StoreId) : List Branch → Prop
  | [] => True
  | b :: bs => b.ShownIn s store ∧ Branch.AllShownIn s store bs

def Twig.AllShownIn (s : Scheme) (store : StoreId) : List Twig → Prop
  | [] => True
  | t :: ts => t.ShownIn s store ∧ Twig.AllShownIn s store ts

end

theorem Twig.ShownIn.flag_eq {s : Scheme} {store : StoreId} {t : Twig}
    (h : t.ShownIn s store) : s.flag? t.id = some t.flag := by
  cases t with
  | simple id flag =>
    rw [Twig.ShownIn] at h
    exact h.1
  | complex id flag args branches =>
    rw [Twig.ShownIn] at h
    exact h.1

theorem Branch.allShownIn_append {s : Scheme} {store : StoreId} : ∀ {bs cs : List Branch},
    Branch.AllShownIn s store (bs ++ cs) ↔
      Branch.AllShownIn s store bs ∧ Branch.AllShownIn s store cs
  | [], cs => by rw [List.nil_append, Branch.AllShownIn, true_and]
  | b :: bs, cs => by
    rw [List.cons_append, Branch.AllShownIn, Branch.AllShownIn, allShownIn_append, and_assoc]

namespace Scheme

variable {s s' s'' : Scheme} {store : StoreId}

theorem Level.argNodes_eq {args : List (ArgId × Positional)} {bs : List Branch}
    (h : s.Level store args bs) : s.argNodes store = args := by
  rw [argNodes, h.args_eq, List.filterMap_map]
  have hsome : ∀ x ∈ args, ((fun id => (s.arg? id).map (id, ·)) ∘ (·.1)) x = some x := by
    intro x hx
    simp [h.arg x hx]
  rw [List.filterMap_congr hsome, List.filterMap_some]

section Walk

/-- The trees of the stores, as a walk from a store sees them. -/
def below (s : Scheme) (store child : StoreId) : List Branch :=
  if store.index < child.index ∧ child.index < s.stores.length then s.branches child else []

theorem branches_eq (s : Scheme) (store : StoreId) :
    s.branches store = (s.listing store).filterMap (s.branchWith (s.below store)) := by
  rw [branches]
  rfl

mutual

theorem twigWith_shown : ∀ (t : Twig) {store : StoreId}, t.ShownIn s store →
    s.twigWith (s.below store) t.id = some t
  | .simple id flag, store, h => by
    rw [Twig.ShownIn] at h
    simp only [Twig.id, twigWith, h.1, Option.map_some, h.2]
  | .complex id flag args bs, store, h => by
    rw [Twig.ShownIn] at h
    obtain ⟨hf, child, hc, hlt, hl, hbs⟩ := h
    have hbelow : s.below store child = bs := by
      rw [below, if_pos ⟨hlt, hl.known⟩, branches_eq, hl.listing_eq]
      exact branchWith_shown bs hbs
    simp only [Twig.id, twigWith, hf, Option.map_some, hc, hl.argNodes_eq, hbelow]

theorem branchWith_shown : ∀ (bs : List Branch) {store : StoreId}, Branch.AllShownIn s store bs →
    (bs.map Branch.entry).filterMap (s.branchWith (s.below store)) = bs
  | [], _, _ => rfl
  | .flag t :: bs, store, h => by
    rw [Branch.AllShownIn, Branch.ShownIn] at h
    have ht : s.branchWith (s.below store) (.flag t.id) = some (.flag t) := by
      rw [branchWith, twigWith_shown t h.1, Option.map_some]
    rw [List.map_cons, Branch.entry, List.filterMap_cons_some ht, branchWith_shown bs h.2]
  | .group id policy ts :: bs, store, h => by
    rw [Branch.AllShownIn, Branch.ShownIn] at h
    have hg : s.branchWith (s.below store) (.group id) = some (.group id policy ts) := by
      rw [branchWith, h.1.1, Option.map_some, twigsWith_shown ts h.1.2]
    rw [List.map_cons, Branch.entry, List.filterMap_cons_some hg, branchWith_shown bs h.2]

theorem twigsWith_shown : ∀ (ts : List Twig) {store : StoreId}, Twig.AllShownIn s store ts →
    (ts.map Twig.id).filterMap (s.twigWith (s.below store)) = ts
  | [], _, _ => rfl
  | t :: ts, store, h => by
    rw [Twig.AllShownIn] at h
    rw [List.map_cons, List.filterMap_cons_some (twigWith_shown t h.1), twigsWith_shown ts h.2]

end

/-- A walk gives the tree that the arenas show. -/
theorem branches_shown {args : List (ArgId × Positional)} {bs : List Branch}
    (hl : s.Level store args bs) (h : Branch.AllShownIn s store bs) : s.branches store = bs := by
  rw [branches_eq, hl.listing_eq]
  exact branchWith_shown bs h

end Walk

section Keeps

/-- What a change of a store, and of at most one group in it, leaves as it was. -/
structure Keeps (s s' : Scheme) (store : StoreId) (group : Option GroupId) : Prop where
  stores_le : s.stores.length ≤ s'.stores.length
  store? : ∀ {other st}, other ≠ store → s.store? other = some st → s'.store? other = some st
  flag? : ∀ {id f}, s.flag? id = some f → s'.flag? id = some f
  group? : ∀ {id g}, group ≠ some id → s.group? id = some g → s'.group? id = some g
  arg? : ∀ {id a}, s.arg? id = some a → s'.arg? id = some a

variable {child : StoreId} {group : Option GroupId}

theorem Keeps.refl (s : Scheme) (store : StoreId) (group : Option GroupId) :
    s.Keeps s store group :=
  ⟨le_rfl, fun _ h => h, fun h => h, fun _ h => h, fun h => h⟩

/-- A change elsewhere counts if that place is new. -/
theorem Keeps.trans {inner : Option GroupId} (h : s.Keeps s' store group)
    (h' : s'.Keeps s'' child inner) (hc : child = store ∨ s.stores.length ≤ child.index)
    (hg : ∀ id, inner = some id → group = some id ∨ s.groups.length ≤ id.index) :
    s.Keeps s'' store group where
  stores_le := h.stores_le.trans h'.stores_le
  store? {other st} hne hst := by
    have hne' : other ≠ child := by
      rintro rfl
      have hlt := lt_of_store? hst
      rcases hc with hc | hc
      · exact hne hc
      · omega
    exact h'.store? hne' (h.store? hne hst)
  flag? hf := h'.flag? (h.flag? hf)
  group? {id g} hne hid := by
    have hne' : inner ≠ some id := by
      intro hin
      have hlt : id.index < s.groups.length := (List.getElem?_eq_some_iff.1 hid).1
      rcases hg id hin with hg | hg
      · exact hne hg
      · omega
    exact h'.group? hne' (h.group? hne hid)
  arg? ha := h'.arg? (h.arg? ha)

theorem Keeps.store?_eq (h : s.Keeps s' store group) {other : StoreId} (hne : other ≠ store)
    (hlt : other.index < s.stores.length) : s'.store? other = s.store? other := by
  obtain ⟨st, hst⟩ := exists_store?_of_lt hlt
  exact (h.store? hne hst).trans hst.symm

theorem Keeps.level (h : s.Keeps s' store group) (hne : child ≠ store)
    {args : List (ArgId × Positional)} {bs : List Branch} (hl : s.Level child args bs) :
    s'.Level child args bs where
  known := hl.known.trans_le h.stores_le
  args_eq := by
    rw [argsOf, h.store?_eq hne hl.known]
    exact hl.args_eq
  arg x hx := h.arg? (hl.arg x hx)
  listing_eq := by
    rw [listing, h.store?_eq hne hl.known]
    exact hl.listing_eq

mutual

/-- A tree that is shown in a store is out of the way of changes at that store, or before it. -/
theorem Keeps.twig (h : s.Keeps s' child group)
    (hg : ∀ id g, group = some id → s.group? id = some g → g.store = child) :
    ∀ (t : Twig) {store : StoreId}, child.index ≤ store.index → t.ShownIn s store →
      t.ShownIn s' store
  | .simple id flag, store, _, ht => by
    rw [Twig.ShownIn] at ht ⊢
    exact ⟨h.flag? ht.1, ht.2⟩
  | .complex id flag args bs, store, hle, ht => by
    rw [Twig.ShownIn] at ht ⊢
    obtain ⟨hf, below, hc, hlt, hl, hbs⟩ := ht
    -- what follows a flag is deeper than the flag, so the change is not there either
    have hne : below ≠ child := by
      rintro rfl
      omega
    have hbelow : child.index < below.index := by omega
    exact ⟨h.flag? hf, below, hc, hlt, h.level hne hl, h.branches hg bs hbelow.le (.inl hbelow) hbs⟩

theorem Keeps.branches (h : s.Keeps s' child group)
    (hg : ∀ id g, group = some id → s.group? id = some g → g.store = child) :
    ∀ (bs : List Branch) {store : StoreId}, child.index ≤ store.index →
      (child.index < store.index ∨ group = none) → Branch.AllShownIn s store bs →
        Branch.AllShownIn s' store bs
  | [], _, _, _, _ => trivial
  | .flag t :: bs, store, hle, hor, hbs => by
    rw [Branch.AllShownIn, Branch.ShownIn] at hbs ⊢
    exact ⟨h.twig hg t hle hbs.1, h.branches hg bs hle hor hbs.2⟩
  | .group id policy ts :: bs, store, hle, hor, hbs => by
    rw [Branch.AllShownIn, Branch.ShownIn] at hbs ⊢
    -- the group that changes is in the store of the change, this one is below it
    have hne : group ≠ some id := by
      intro hid
      have hstore : store = child := hg id _ hid hbs.1.1
      rcases hor with hlt | hnone
      · rw [hstore] at hlt
        exact lt_irrefl _ hlt
      · rw [hnone] at hid
        cases hid
    exact ⟨⟨h.group? hne hbs.1.1, h.twigs hg ts hle hbs.1.2⟩, h.branches hg bs hle hor hbs.2⟩

theorem Keeps.twigs (h : s.Keeps s' child group)
    (hg : ∀ id g, group = some id → s.group? id = some g → g.store = child) :
    ∀ (ts : List Twig) {store : StoreId}, child.index ≤ store.index →
      Twig.AllShownIn s store ts → Twig.AllShownIn s' store ts
  | [], _, _, _ => trivial
  | t :: ts, store, hle, hts => by
    rw [Twig.AllShownIn] at hts ⊢
    exact ⟨h.twig hg t hle hts.1, h.twigs hg ts hle hts.2⟩

end

end Keeps

end Scheme

end CommandGrammar
