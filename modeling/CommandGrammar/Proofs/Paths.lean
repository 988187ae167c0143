import CommandGrammar.Proofs.Building

/-!
# Where paths lead

A path leads from a store to a node: a key to the store of its flag, and the last part to a flag or
an argument of the store that was reached, or to a group. As long as no name holds one of the marks
that paths are joined by, and the arguments of a scope differ, the text of a path leads to one node
only.
-/

namespace CommandGrammar

open Scheme (root)

/-! ## Texts of paths -/

/-- A character does not occur in a text. -/
def lacks (c : Char) (s : String) : Bool :=
  !s.toList.contains c

theorem lacks_iff {c : Char} {s : String} : lacks c s = true ↔ c ∉ s.toList := by
  simp [lacks]

theorem lacks_intercalate {c : Char} {mark : String} (hmark : lacks c mark = true) :
    ∀ {ps : List String}, (∀ p ∈ ps, lacks c p = true) → lacks c (mark.intercalate ps) = true
  | [], _ => rfl
  | [p], h => by
    rw [String.intercalate_singleton]
    exact h p (List.mem_singleton_self p)
  | p :: q :: ps, h => by
    obtain ⟨hp, hq⟩ := List.forall_mem_cons.1 h
    have hrest := lacks_intercalate hmark hq
    rw [lacks_iff] at hmark hp hrest ⊢
    rw [String.intercalate_cons_cons]
    simp only [String.toList_append, List.mem_append]
    rintro ((hc | hc) | hc)
    exacts [hp hc, hmark hc, hrest hc]

/-- What was joined by a mark can be split at it. -/
theorem intercalate_inj {c : Char} {mark : String} (hmark : mark.toList = [c]) {ps qs : List String}
    (hp : ∀ p ∈ ps, lacks c p = true) (hq : ∀ q ∈ qs, lacks c q = true) (hps : ps ≠ [])
    (hqs : qs ≠ []) (h : mark.intercalate ps = mark.intercalate qs) : ps = qs := by
  have hsplit : ∀ {ps : List String}, (∀ p ∈ ps, lacks c p = true) → ps ≠ [] →
      (mark.intercalate ps).toList.splitOn c = ps.map String.toList := by
    intro ps hp hps
    rw [String.toList_intercalate, hmark]
    refine List.splitOn_intercalate c ?_ (by simpa using hps)
    simpa [lacks_iff] using hp
  have hmap : ps.map String.toList = qs.map String.toList := by
    rw [← hsplit hp hps, ← hsplit hq hqs, h]
  exact List.map_injective_iff.2 (fun _ _ => String.toList_inj.1) hmap

theorem NodePath.text_inj {p q : NodePath} (hp : ∀ k ∈ p, lacks '/' k = true)
    (hq : ∀ k ∈ q, lacks '/' k = true) (hpn : p ≠ []) (hqn : q ≠ []) (h : p.text = q.text) :
    p = q :=
  intercalate_inj rfl hp hq hpn hqn h

namespace Scheme

/-! ## The end of a path -/

variable {s : Scheme} {store : StoreId} {path : NodePath}

/-- The keys of the members of a group. -/
def memberKeys (s : Scheme) (g : Group) : List String :=
  g.members.filterMap s.key?

/-- A path goes from a store through the keys of flags to another store, and ends there. -/
inductive Passes (s : Scheme) : StoreId → NodePath → StoreId → String → Prop where
  | here {store last} : Passes s store [last] store last
  | deeper {store key id f child path goal last} (hk : s.keyed? store key = some id)
      (hf : s.flag? id = some f) (hc : f.children = some child)
      (hp : Passes s child path goal last) : Passes s store (key :: path) goal last

theorem Passes.ne_nil {goal : StoreId} {last : String} (h : s.Passes store path goal last) :
    path ≠ [] := by
  cases h <;> simp

theorem Passes.unique {a b : StoreId} {x y : String} (ha : s.Passes store path a x)
    (hb : s.Passes store path b y) : a = b ∧ x = y := by
  induction ha with
  | here =>
    cases hb with
    | here => exact ⟨rfl, rfl⟩
    | deeper _ _ _ hp => exact absurd rfl hp.ne_nil
  | deeper hk hf hc hp ih =>
    cases hb with
    | here => exact absurd rfl hp.ne_nil
    | deeper hk' hf' hc' hp' =>
      obtain rfl := Option.some.inj (hk.symm.trans hk')
      obtain rfl := Option.some.inj (hf.symm.trans hf')
      obtain rfl := Option.some.inj (hc.symm.trans hc')
      exact ih hp'

/-- What the last part of a path names in a store: a flag by its key, an argument that is the only
one of its name, or a group by the keys of its members. -/
inductive Names (s : Scheme) (store : StoreId) : String → Handle → Prop where
  | flag {key id} (hk : s.keyed? store key = some id) : Names s store key (.flag id)
  | arg {id a} (ha : id ∈ s.argsOf store) (hid : s.arg? id = some a)
      (hone : ∀ id' a', id' ∈ s.argsOf store → s.arg? id' = some a' → a'.name = a.name →
        id' = id) : Names s store a.name (.arg id)
  | group {id g} (hg : s.group? id = some g) (hs : g.store = store)
      (hk : ∀ key ∈ s.memberKeys g, lacks '|' key = true) :
      Names s store ("|".intercalate (s.memberKeys g)) (.group id)

theorem Names.arg_unique {name : String} {a b : ArgId} (ha : s.Names store name (.arg a))
    (hb : s.Names store name (.arg b)) : a = b := by
  generalize hn : name = n at hb
  obtain _ | ⟨-, -, hone⟩ := ha
  obtain _ | ⟨hb, hid, -⟩ := hb
  exact (hone b _ hb hid hn.symm).symm

theorem exists_memberKey (hl : s.Linked) {id : GroupId} {g : Group} {m : FlagId}
    (hg : s.group? id = some g) (hm : m ∈ g.members) :
    ∃ f, s.flag? m = some f ∧ f.group = some id ∧ (f.key, m) ∈ s.keysOf g.store ∧
      f.key ∈ s.memberKeys g := by
  obtain ⟨f, hf, hfg, -, hk⟩ := hl.member hg hm
  exact ⟨f, hf, hfg, hk, List.mem_filterMap.2 ⟨m, hm, by rw [key?, hf]; rfl⟩⟩

/-- Groups with members of the same keys are the same: a key has one flag in a store. -/
theorem Names.group_unique (hl : s.Linked) {name : String} {a b : GroupId}
    (ha : s.Names store name (.group a)) (hb : s.Names store name (.group b))
    (hma : ∀ {g}, s.group? a = some g → g.members ≠ [])
    (hmb : ∀ {g}, s.group? b = some g → g.members ≠ []) : a = b := by
  generalize hn : name = n at hb
  obtain _ | _ | ⟨hg, hgs, hgk⟩ := ha
  obtain _ | _ | ⟨hh, hhs, hhk⟩ := hb
  obtain ⟨m, hm⟩ := List.exists_mem_of_ne_nil _ (hma hg)
  obtain ⟨m', hm'⟩ := List.exists_mem_of_ne_nil _ (hmb hh)
  obtain ⟨f, hf, hfa, hfk, hfm⟩ := exists_memberKey hl hg hm
  obtain ⟨_, -, -, -, hfm'⟩ := exists_memberKey hl hh hm'
  have hkeys := intercalate_inj rfl hgk hhk (List.ne_nil_of_mem hfm) (List.ne_nil_of_mem hfm') hn
  rw [hkeys] at hfm
  obtain ⟨x, hx, hxk⟩ := List.mem_filterMap.1 hfm
  obtain ⟨f', hf', hfb, hfk', -⟩ := exists_memberKey hl hh hx
  -- the key of the first group's member is that of a member of the other
  have hkey : f'.key = f.key := by
    rw [key?, hf'] at hxk
    exact Option.some.inj hxk
  rw [hgs] at hfk
  rw [hhs, hkey] at hfk'
  have hmx : m = x := Option.some.inj
    (((keyed?_eq_some_iff hl).2 hfk).symm.trans ((keyed?_eq_some_iff hl).2 hfk'))
  subst hmx
  obtain rfl := Option.some.inj (hf.symm.trans hf')
  exact Option.some.inj (hfa.symm.trans hfb)

/-- A path that starts in a store ends at a node. -/
def EndsAt (s : Scheme) (store : StoreId) (path : NodePath) (h : Handle) : Prop :=
  ∃ goal last, s.Passes store path goal last ∧ s.Names goal last h

theorem EndsAt.deeper {key : String} {id : FlagId} {f : Flag} {child : StoreId} {h : Handle}
    (hk : s.keyed? store key = some id) (hf : s.flag? id = some f) (hc : f.children = some child)
    (hl : s.EndsAt child path h) : s.EndsAt store (key :: path) h := by
  obtain ⟨goal, last, hp, hn⟩ := hl
  exact ⟨goal, last, .deeper hk hf hc hp, hn⟩

theorem EndsAt.ne_nil {h : Handle} (hl : s.EndsAt store path h) : path ≠ [] := by
  obtain ⟨_, _, hp, -⟩ := hl
  exact hp.ne_nil

/-- Two nodes at the end of one path are named by one text in one store. -/
theorem EndsAt.exists_names {h h' : Handle} (hl : s.EndsAt store path h)
    (hl' : s.EndsAt store path h') : ∃ goal last, s.Names goal last h ∧ s.Names goal last h' := by
  obtain ⟨goal, last, hp, hn⟩ := hl
  obtain ⟨goal', last', hp', hn'⟩ := hl'
  obtain ⟨rfl, rfl⟩ := hp.unique hp'
  exact ⟨goal, last, hn, hn'⟩

/-- A node is met in a store, or below it, under a path that leads to it. -/
def Spelled (s : Scheme) (store : StoreId) (parent : NodePath) (x : NodePath × Handle) : Prop :=
  ∃ path, x.1 = parent ++ path ∧ (∀ k ∈ path, lacks '/' k = true) ∧ s.EndsAt store path x.2

variable {parent : NodePath} {x : NodePath × Handle}

theorem Names.spelled {last : String} {h : Handle} (hn : s.Names store last h)
    (hlast : lacks '/' last = true) : s.Spelled store parent (parent ++ [last], h) :=
  ⟨[last], rfl, by simpa using hlast, store, last, .here, hn⟩

theorem Spelled.deeper {key : String} {id : FlagId} {f : Flag} {child : StoreId}
    (hk : s.keyed? store key = some id) (hf : s.flag? id = some f) (hc : f.children = some child)
    (hkey : lacks '/' key = true) (hx : s.Spelled child (parent ++ [key]) x) :
    s.Spelled store parent x := by
  obtain ⟨path, hpath, hlack, hend⟩ := hx
  refine ⟨key :: path, ?_, List.forall_mem_cons.2 ⟨hkey, hlack⟩, hend.deeper hk hf hc⟩
  rw [hpath, List.append_assoc]
  rfl

end Scheme

/-! ## Plain grammars -/

/-- Arguments that differ in their names, none of which could be taken for a longer path. -/
def ArgSpec.arePlain (args : List ArgSpec) : Bool :=
  args.all (fun a => lacks '/' a.name) && decide (args.map (·.name)).Nodup

mutual

/-- No key holds the mark between the parts of a path, and no key of a group's member the one
between the keys of members. -/
def FlagEntry.isPlain : FlagEntry → Bool
  | .flag _ spec => spec.isPlain
  | .group _ members => members.all (fun m => lacks '|' m.key) && FlagSpec.allPlain members

def FlagSpec.isPlain : FlagSpec → Bool
  | ⟨key, _, args, flags⟩ => lacks '/' key && ArgSpec.arePlain args && FlagEntry.allPlain flags

def FlagEntry.allPlain : List FlagEntry → Bool
  | [] => true
  | e :: es => e.isPlain && FlagEntry.allPlain es

def FlagSpec.allPlain : List FlagSpec → Bool
  | [] => true
  | spec :: specs => spec.isPlain && FlagSpec.allPlain specs

end

def Grammar.isPlain (g : Grammar) : Bool :=
  ArgSpec.arePlain g.args && FlagEntry.allPlain g.flags

variable {s : Scheme} {files : Files} {store : StoreId} {parent : NodePath}
  {x : NodePath × Handle}

theorem FlagSpec.isPlain_key {spec : FlagSpec} (h : spec.isPlain = true) :
    lacks '/' spec.key = true := by
  obtain ⟨key, description, args, flags⟩ := spec
  rw [isPlain, Bool.and_eq_true, Bool.and_eq_true] at h
  exact h.1.1

theorem FlagSpec.allPlain_iff {specs : List FlagSpec} :
    FlagSpec.allPlain specs = true ↔ ∀ spec ∈ specs, spec.isPlain = true := by
  induction specs with
  | nil => simp [FlagSpec.allPlain]
  | cons spec specs ih => simp [FlagSpec.allPlain, ih]

theorem argVisits_spelled {args : List (ArgId × Positional)} {specs : List ArgSpec}
    {branches : List Branch} (hl : s.Level store args branches)
    (hargs : args.map (·.2) = specs.map (·.positional files))
    (hplain : ArgSpec.arePlain specs = true) (hx : x ∈ argVisits parent args) :
    s.Spelled store parent x := by
  rw [ArgSpec.arePlain, Bool.and_eq_true, List.all_eq_true, decide_eq_true_iff] at hplain
  obtain ⟨⟨id, arg⟩, ha, rfl⟩ := List.mem_map.1 hx
  have hnames : args.map (·.2.name) = specs.map (·.name) := by
    have h := congrArg (List.map Positional.name) hargs
    rwa [List.map_map, List.map_map] at h
  have hid : id ∈ s.argsOf store := by
    rw [hl.args_eq]
    exact List.mem_map_of_mem ha
  refine Scheme.Names.spelled (.arg hid (hl.arg _ ha) ?_) ?_
  · -- another argument of the store with this name would be this one
    intro id' a' hid' ha' hname
    rw [hl.args_eq] at hid'
    obtain ⟨y, hy, rfl⟩ := List.mem_map.1 hid'
    obtain rfl := Option.some.inj ((hl.arg y hy).symm.trans ha')
    have hnodup : (args.map (·.2.name)).Nodup := by
      rw [hnames]
      exact hplain.2
    rw [List.inj_on_of_nodup_map hnodup hy ha hname]
  · have hmem : arg.name ∈ args.map (·.2.name) := List.mem_map_of_mem ha
    rw [hnames] at hmem
    obtain ⟨spec, hspec, hname⟩ := List.mem_map.1 hmem
    rw [← hname]
    exact hplain.1 spec hspec

theorem Twig.AllShownIn.keys : ∀ {ts : List Twig}, Twig.AllShownIn s store ts →
    (ts.map Twig.id).filterMap s.key? = ts.map (·.flag.key)
  | [], _ => rfl
  | t :: ts, h => by
    rw [Twig.AllShownIn] at h
    have hkey : s.key? t.id = some t.flag.key := by
      rw [Scheme.key?, h.1.flag_eq]
      rfl
    rw [List.map_cons, List.filterMap_cons_some hkey, h.2.keys, List.map_cons]

theorem Twig.AllShownIn.mem : ∀ {ts : List Twig}, Twig.AllShownIn s store ts →
    ∀ t ∈ ts, t.ShownIn s store
  | [], _, _, ht => absurd ht List.not_mem_nil
  | _ :: _, h, t, ht => by
    rw [Twig.AllShownIn] at h
    rcases List.mem_cons.1 ht with rfl | ht
    · exact h.1
    · exact h.2.mem t ht

/-- What is not in a group is listed, and so stands under its key. -/
theorem keyed?_of_listed (hl : s.Linked) {t : Twig} (ht : t.ShownIn s store)
    (h : .flag t.id ∈ s.listing store) : s.keyed? store t.flag.key = some t.id := by
  obtain ⟨f, hf, -, hk⟩ := hl.flag_listed h
  obtain rfl := Option.some.inj (ht.flag_eq.symm.trans hf)
  exact (Scheme.keyed?_eq_some_iff hl).2 hk

theorem keyed?_of_member (hl : s.Linked) {gid : GroupId} {g : Group} {t : Twig}
    (hg : s.group? gid = some g) (ht : t.ShownIn s g.store) (h : t.id ∈ g.members) :
    s.keyed? g.store t.flag.key = some t.id := by
  obtain ⟨f, hf, -, -, hk⟩ := hl.member hg h
  obtain rfl := Option.some.inj (ht.flag_eq.symm.trans hf)
  exact (Scheme.keyed?_eq_some_iff hl).2 hk

theorem Twig.Depicts.lacks_key {policy : Policy} {group : Option GroupId} {t : Twig}
    {spec : FlagSpec} (h : t.Depicts files policy group spec) (hp : spec.isPlain = true) :
    lacks '/' t.flag.key = true := by
  rw [h.flag_key]
  exact spec.isPlain_key hp

/-- The keys of its members spell a group. -/
theorem group_spelled {id : GroupId} {policy : Policy} {ts : List Twig} {specs : List FlagSpec}
    (hg : s.group? id = some ⟨store, policy, ts.map Twig.id⟩) (hts : Twig.AllShownIn s store ts)
    (hspecs : ts.map (·.flag.key) = specs.map (·.key))
    (hbar : specs.all (fun m => lacks '|' m.key) = true) (hp : FlagSpec.allPlain specs = true) :
    s.Spelled store parent (parent ++ ["|".intercalate (ts.map (·.flag.key))], .group id) := by
  have hkeys : s.memberKeys ⟨store, policy, ts.map Twig.id⟩ = ts.map (·.flag.key) := hts.keys
  have hname : s.Names store ("|".intercalate (ts.map (·.flag.key))) (.group id) := by
    rw [← hkeys]
    refine .group hg rfl ?_
    rw [hkeys, hspecs]
    simpa using hbar
  refine hname.spelled (lacks_intercalate rfl ?_)
  rw [hspecs]
  intro key hkey
  obtain ⟨spec, hspec, rfl⟩ := List.mem_map.1 hkey
  exact spec.isPlain_key (FlagSpec.allPlain_iff.1 hp spec hspec)

mutual

theorem Twig.spelled (hl : s.Linked) : ∀ (t : Twig) {store : StoreId} {parent : NodePath}
    {policy : Policy} {group : Option GroupId} {spec : FlagSpec}, t.ShownIn s store →
      t.Depicts files policy group spec → spec.isPlain = true →
        s.keyed? store t.flag.key = some t.id →
          ∀ x ∈ t.visits parent, s.Spelled store parent x
  | .simple id flag, store, parent, policy, group, spec, _, hd, hp, hk, x, hx => by
    rw [Twig.visits, List.mem_singleton] at hx
    rw [hx]
    exact Scheme.Names.spelled (.flag hk) (hd.lacks_key hp)
  | .complex id flag args branches, store, parent, policy, group, ⟨key, description, specs, flags⟩,
      ht, hd, hp, hk, x, hx => by
    have hkey : lacks '/' flag.key = true := hd.lacks_key hp
    rw [Twig.ShownIn] at ht
    obtain ⟨hf, child, hc, -, hlevel, hshown⟩ := ht
    rw [Twig.Depicts] at hd
    obtain ⟨-, -, hargs, hbranches⟩ := hd
    rw [FlagSpec.isPlain, Bool.and_eq_true, Bool.and_eq_true] at hp
    obtain ⟨⟨-, hpargs⟩, hpflags⟩ := hp
    rw [Twig.visits, List.mem_cons, List.mem_append] at hx
    rcases hx with rfl | hx | hx
    · exact Scheme.Names.spelled (.flag hk) hkey
    · exact (argVisits_spelled hlevel hargs hpargs hx).deeper hk hf hc hkey
    · refine (Branch.all_spelled hl branches hshown hbranches hpflags ?_ x hx).deeper hk hf hc hkey
      intro b hb
      rw [hlevel.listing_eq]
      exact List.mem_map_of_mem hb

theorem Branch.all_spelled (hl : s.Linked) : ∀ (bs : List Branch) {store : StoreId}
    {parent : NodePath} {es : List FlagEntry}, Branch.AllShownIn s store bs →
      Branch.AllDepict files bs es → FlagEntry.allPlain es = true →
        (∀ b ∈ bs, b.entry ∈ s.listing store) →
          ∀ x ∈ Branch.allVisits parent bs, s.Spelled store parent x
  | [], store, parent, es, _, _, _, _, x, hx => by
    rw [Branch.allVisits] at hx
    exact absurd hx List.not_mem_nil
  | .flag t :: bs, store, parent, .flag policy spec :: es, hs, hd, hp, hin, x, hx => by
    rw [Branch.AllShownIn, Branch.ShownIn] at hs
    rw [Branch.AllDepict, Branch.Depicts] at hd
    rw [FlagEntry.allPlain, FlagEntry.isPlain, Bool.and_eq_true] at hp
    obtain ⟨ht, hbs⟩ := List.forall_mem_cons.1 hin
    rw [Branch.allVisits, Branch.visits, List.mem_append] at hx
    rcases hx with hx | hx
    · exact t.spelled hl hs.1 hd.1 hp.1 (keyed?_of_listed hl hs.1 ht) x hx
    · exact Branch.all_spelled hl bs hs.2 hd.2 hp.2 hbs x hx
  | .group id policy ts :: bs, store, parent, .group policy' specs :: es, hs, hd, hp, hin, x,
      hx => by
    rw [Branch.AllShownIn, Branch.ShownIn] at hs
    obtain ⟨⟨hg, hts⟩, hs⟩ := hs
    rw [Branch.AllDepict, Branch.Depicts] at hd
    obtain ⟨⟨-, hspecs⟩, hd⟩ := hd
    rw [FlagEntry.allPlain, FlagEntry.isPlain, Bool.and_eq_true, Bool.and_eq_true] at hp
    obtain ⟨⟨hbar, hmembers⟩, hp⟩ := hp
    obtain ⟨-, hbs⟩ := List.forall_mem_cons.1 hin
    rw [Branch.allVisits, Branch.visits, List.mem_append, List.mem_cons] at hx
    rcases hx with (rfl | hx) | hx
    · exact group_spelled hg hts hspecs.keys hbar hmembers
    · refine Twig.all_spelled hl ts hts hspecs hmembers (fun t ht => ?_) x hx
      exact keyed?_of_member hl hg (hts.mem t ht) (List.mem_map_of_mem ht)
    · exact Branch.all_spelled hl bs hs hd hp hbs x hx

theorem Twig.all_spelled (hl : s.Linked) : ∀ (ts : List Twig) {store : StoreId}
    {parent : NodePath} {policy : Policy} {group : Option GroupId} {specs : List FlagSpec},
      Twig.AllShownIn s store ts → Twig.AllDepict files policy group ts specs →
        FlagSpec.allPlain specs = true → (∀ t ∈ ts, s.keyed? store t.flag.key = some t.id) →
          ∀ x ∈ Twig.allVisits parent ts, s.Spelled store parent x
  | [], store, parent, policy, group, specs, _, _, _, _, x, hx => by
    rw [Twig.allVisits] at hx
    exact absurd hx List.not_mem_nil
  | t :: ts, store, parent, policy, group, spec :: specs, hs, hd, hp, hk, x, hx => by
    rw [Twig.AllShownIn] at hs
    rw [Twig.AllDepict] at hd
    rw [FlagSpec.allPlain, Bool.and_eq_true] at hp
    obtain ⟨ht, hts⟩ := List.forall_mem_cons.1 hk
    rw [Twig.allVisits, List.mem_append] at hx
    rcases hx with hx | hx
    · exact t.spelled hl hs.1 hd.1 hp.1 ht x hx
    · exact Twig.all_spelled hl ts hs.2 hd.2 hp.2 hts x hx

end

/-! ## Texts that lead to one node -/

/-- Nodes with the same text stand at the end of one path. -/
theorem Scheme.Spelled.exists_names {x y : NodePath × Handle} (hx : s.Spelled root [] x)
    (hy : s.Spelled root [] y) (h : x.1.text = y.1.text) :
    ∃ goal last, s.Names goal last x.2 ∧ s.Names goal last y.2 := by
  obtain ⟨p, hxp, hp, hlx⟩ := hx
  obtain ⟨q, hyq, hq, hly⟩ := hy
  rw [List.nil_append] at hxp hyq
  rw [hxp, hyq] at h
  obtain rfl := NodePath.text_inj hp hq hlx.ne_nil hly.ne_nil h
  exact hlx.exists_names hly

namespace Grammar

variable {g : Grammar} {b : BuiltGrammar}

/-- Every row in the tables of a plain grammar spells its node. -/
theorem build_spelled (h : g.build files = .ok b) (hg : g.isPlain = true) :
    (∀ x ∈ b.args, b.session.scheme.Spelled root [] (x.1, .arg x.2)) ∧
      ∀ x ∈ b.groups, b.session.scheme.Spelled root [] (x.1, .group x.2) := by
  obtain ⟨d, args, branches, hb⟩ := exists_built h
  have hl : b.session.scheme.Linked := (build_wellFormed h).toLinked
  obtain ⟨hlevel, hshown⟩ := hb.shown
  rw [isPlain, Bool.and_eq_true] at hg
  have hin : ∀ c ∈ branches, c.entry ∈ b.session.scheme.listing root := by
    intro c hc
    rw [hlevel.listing_eq]
    exact List.mem_map_of_mem (List.mem_append_left _ hc)
  have hall : ∀ x ∈ argVisits [] args ++ Branch.allVisits [] branches,
      b.session.scheme.Spelled root [] x := by
    intro x hx
    rcases List.mem_append.1 hx with hx | hx
    · exact argVisits_spelled hlevel hb.args_eq hg.1 hx
    · exact Branch.all_spelled hl branches (Branch.allShownIn_append.1 hshown).1 hb.depict hg.2 hin
        x hx
  rw [hb.argIds_eq, hb.adds.notes.args.of_empty.1, hb.groups_eq, hb.adds.notes.groups.of_empty.1]
  refine ⟨fun x hx => ?_, fun x hx => ?_⟩
  · obtain ⟨⟨path, node⟩, hvisit, hrow⟩ := List.mem_filterMap.1 hx
    cases node <;> cases hrow
    exact hall _ hvisit
  · obtain ⟨⟨path, node⟩, hvisit, hrow⟩ := List.mem_filterMap.1 hx
    cases node <;> cases hrow
    exact hall _ hvisit

end Grammar

end CommandGrammar
