import CommandGrammar.Proofs.Turns

/-!
# What a store lacks

A store that is done compares two counts with its tallies; what the error then names is read off the
nodes. The two agree node by node: a count is too low exactly if some mandatory node has not
matched, and the options have every such node.

A store stops in front of a token only if each of its arguments that have not matched is optional
and declines the token. So it never lacks an argument there, and missing arguments are reported at
the end of the tokens alone.
-/

namespace CommandGrammar.Scheme

open Relation

variable (s : Scheme)

/-- A mandatory unit of a store that has not matched. -/
inductive Lacks (p : Pass) (store : StoreId) : Entry → Prop where
  | flag {key id f} (hk : (key, id) ∈ s.keysOf store) (hf : s.flag? id = some f)
      (hg : f.group = none) (hp : f.policy = .mandatory) (hm : p.isMatched id = false) :
      Lacks p store (.flag id)
  | group {id g} (hg : s.group? id = some g) (hs : g.store = store) (hp : g.policy = .mandatory)
      (hm : g.members ≠ []) (hc : p.chosen? id = none) : Lacks p store (.group id)

/-- Below the flags of a store that have matched, the stores of matched flags lack nothing, and
nothing has matched in the others. -/
def NestedComplete (p : Pass) (store : StoreId) : Prop :=
  ∀ {key id f child owner g below}, (key, id) ∈ s.keysOf store → s.flag? id = some f →
    f.children = some child → p.isMatched id = true → s.Below child below →
    s.flag? owner = some g → g.children = some below →
      if p.isMatched owner then s.MandatoryMet p below else s.Untouched p below

/-- A token that a store cannot take comes unexpected when the store lacks a flag still, or when it
is the root and lacks nothing. -/
structure Unneeded (p : Pass) (store : StoreId) (token : String) (options : List String) :
    Prop where
  not_key : s.keyed? store token = none
  declined : s.AllDecline p store token
  args_met : ∀ {id a}, id ∈ s.argsOf store → s.arg? id = some a → a.policy = .mandatory →
    p.isFilled id = true
  options_eq : ∃ ids flags args, options = flags ++ args ∧ s.NamesFlags p store ids flags ∧
    s.NamesArgs p store args
  lacks : store = root ∧ s.MandatoryMet p root ∨ ∃ e, s.Lacks p store e

structure NamesMissingFlags (p : Pass) (store : StoreId) (options : List String) : Prop where
  lacks : ∃ e, s.Lacks p store e
  flag_named : ∀ {id}, s.Lacks p store (.flag id) → ∃ key ∈ options, s.key? id = some key
  member_named : ∀ {g id}, s.Lacks p store (.group g) → id ∈ s.members g →
    ∃ key ∈ options, s.key? id = some key
  ne_nil : options ≠ []
  nested : s.NestedComplete p store

structure NamesMissingArgs (p : Pass) (store : StoreId) (options : List String) : Prop where
  flag_met : ∀ {key id f}, (key, id) ∈ s.keysOf store → s.flag? id = some f → f.group = none →
    f.policy = .mandatory → p.isMatched id = true
  group_met : ∀ {id g}, s.group? id = some g → g.store = store → g.policy = .mandatory →
    g.members ≠ [] → ∃ m ∈ g.members, p.chosen? id = some m ∧ p.isMatched m = true
  lacks : ∃ id a, id ∈ s.argsOf store ∧ s.arg? id = some a ∧ a.policy = .mandatory ∧
    p.isFilled id = false
  named : ∀ {id a}, id ∈ s.argsOf store → s.arg? id = some a → a.policy = .mandatory →
    p.isFilled id = false → a.name ∈ options
  nested : s.NestedComplete p store

/-- What an error for missing nodes says of the store that raises it. -/
def NamesMissing (p : Pass) (store : StoreId) : ParseError → Prop
  | .missingMandatoryFlag options => s.NamesMissingFlags p store options
  | .missingMandatoryArgument options => s.NamesMissingArgs p store options
  | .repeatedFlag _ | .unexpectedArgument _ _ | .exclusiveConflict _ _ _
  | .conversionFailure _ _ => True

variable {s} {w : Walk} {t : Turn} {p : Pass} {store : StoreId} {tokens : List String}
  {token : String} {options : List String}

section Nodes

theorem Sound.exists_lacks (hw : s.Sound w) (ha : s.WellFormed)
    (h : s.lacksFlag w.pass w.top = true) : ∃ e, s.Lacks w.pass w.top e := by
  obtain ⟨e, he, hl⟩ := List.any_eq_true.1 h
  rw [Bool.and_eq_true, decide_eq_true_iff, Bool.not_eq_true'] at hl
  obtain ⟨hp, hm⟩ := hl
  refine ⟨e, ?_⟩
  rcases e with id | g
  · obtain ⟨f, hf, hg, hk⟩ := ha.flag_listed he
    exact .flag hk hf hg (by simpa [unitPolicy?, hf] using hp) hm
  · obtain ⟨gr, hgr, hst⟩ := ha.group_listed he
    simp only [unitPolicy?, hgr, Option.bind_some, Option.ite_none_left_eq_some,
      Option.some.injEq] at hp
    have hne : gr.members ≠ [] := by simpa using hp.1
    refine .group hgr hst hp.2 hne ?_
    -- a member that was chosen has matched by now, as its own store is not the innermost one
    rw [Option.eq_none_iff_forall_ne_some]
    intro m hc
    obtain ⟨-, f, hf, hfg⟩ := hw.chosen_member hc
    have hmm := hw.chosen_matched ha hc (home_of_group ha hf hfg he)
    simp [Pass.meets, hc, hmm] at hm

theorem lacksFlag_of_lacks (ha : s.WellFormed) {e : Entry} (h : s.Lacks p store e) :
    s.lacksFlag p store = true := by
  refine List.any_eq_true.2 ⟨e, ?_⟩
  cases h with
  | flag hk hf hg hp hm =>
    obtain ⟨he, hpol⟩ := unit_mem_listing ha hk hf
    simp only [Flag.unit, hg] at he hpol
    exact ⟨he, by simp [hpol, hp, Pass.meets, hm]⟩
  | group hg hs hp hm hc =>
    subst hs
    exact ⟨ha.group_mem_listing hg, by simp [unitPolicy?, hg, hp, hm, Pass.meets, hc]⟩

theorem exists_lacking_arg (h : s.lacksArg p store = true) : ∃ id a, id ∈ s.argsOf store ∧
    s.arg? id = some a ∧ a.policy = .mandatory ∧ p.isFilled id = false := by
  obtain ⟨id, hid, hl⟩ := List.any_eq_true.1 h
  rw [Bool.and_eq_true, decide_eq_true_iff, Bool.not_eq_true'] at hl
  obtain ⟨hp, hf⟩ := hl
  obtain ⟨a, harg, hp⟩ := Option.map_eq_some_iff.1 hp
  exact ⟨id, a, hid, harg, hp, hf⟩

end Nodes

section Nesting

theorem index_le_of_below (ha : s.WellFormed) {a b : StoreId} (h : s.Below a b) :
    a.index ≤ b.index := by
  induction h with
  | refl => exact le_rfl
  | tail _ hn ih => exact ih.trans (ha.index_lt_of_nests hn).le

theorem Sound.nestedComplete (hw : s.Sound w) (ha : s.WellFormed) :
    s.NestedComplete w.pass w.top := by
  intro key id f child owner g below hk hf hc _ hb hg hcg
  split_ifs with hm
  · exact hw.mandatoryMet ha (hw.matched_filled hm hg hcg)
  · refine hw.untouched ha ?_
    rintro (rfl | ⟨owner', g', hg', hcg', ht⟩)
    · exact ha.child_ne_root hg hcg rfl
    obtain rfl := ha.owner_unique hg' hg hcg' hcg
    rcases ht with ht | ⟨fr, hfr, rfl⟩
    · exact hm ht
    -- an open store is not deeper than the innermost one, and this one is
    · obtain ⟨hfl, hch, -⟩ := Chain.exists_home hw.chain fr hfr
      obtain rfl := Option.some.inj (hfl.symm.trans hg)
      obtain rfl := Option.some.inj (hch.symm.trans hcg)
      have h1 := Chain.index_le ha hw.chain fr hfr
      have h2 := index_le_of_below ha hb
      have h3 := ha.deeper hk hf hc
      simp only [Walk.top] at h3
      omega

end Nesting

section Options

theorem keyed?_eq_none (hl : s.Linked) (h : s.keyFlag? store token = none) :
    s.keyed? store token = none := by
  rw [Option.eq_none_iff_forall_ne_some]
  intro id hk
  obtain ⟨f, hf, -⟩ := exists_flag_of_key? (hl.key_eq ((keyed?_eq_some_iff hl).1 hk))
  simp [keyFlag?, hk, hf] at h

/-- A flag that a store could still use is named. -/
theorem mem_availableFlags (ha : s.WellFormed) (hp : s.Choosy p) {id : FlagId} {key : String}
    {f : Flag} (hk : (key, id) ∈ s.keysOf store) (hf : s.flag? id = some f)
    (hm : p.isMatched id = false) (hg : p.rival? f = none) :
    f.policy.bracket f.key ∈ s.availableFlags p store := by
  rw [availableFlags_eq ha hp, List.mem_filterMap]
  refine ⟨id, List.mem_filter.2 ⟨(mem_menu_iff_keyed ha).2 ⟨key, hk⟩, ?_⟩, ?_⟩
  · exact (isFree_iff hf).2 ⟨hm, hg⟩
  · simp [flagOption, hf]

theorem Lacks.flag_named (ha : s.WellFormed) (hp : s.Choosy p) {id : FlagId}
    (h : s.Lacks p store (.flag id)) :
    ∃ key ∈ s.availableFlags p store, s.key? id = some key := by
  cases h with
  | @flag key _ f hk hf hg hpol hm =>
    have hn : p.rival? f = none := rival?_eq_none.2 fun g hfg => by cases hg.symm.trans hfg
    have hmem := mem_availableFlags ha hp hk hf hm hn
    rw [hpol] at hmem
    exact ⟨f.key, hmem, by simp [key?, hf]⟩

theorem Lacks.member_named (ha : s.WellFormed) (hp : s.Choosy p) {g : GroupId} {id : FlagId}
    (h : s.Lacks p store (.group g)) (hid : id ∈ s.members g) :
    ∃ key ∈ s.availableFlags p store, s.key? id = some key := by
  cases h with
  | @group _ gr hgr hs hpol _ hc =>
    obtain ⟨gr', hgr', hmem⟩ := mem_members.1 hid
    obtain rfl := Option.some.inj (hgr.symm.trans hgr')
    obtain ⟨f, hf, hfg, hfp, hk⟩ := ha.member hgr hmem
    subst hs
    have hfree : s.isFree p id = true := by
      rw [isFree_member ha hp hid, hc]
      rfl
    obtain ⟨hm, hn⟩ := (isFree_iff hf).1 hfree
    have hnamed := mem_availableFlags ha hp hk hf hm hn
    rw [hfp, hpol] at hnamed
    exact ⟨f.key, hnamed, by simp [key?, hf]⟩

theorem Lacks.availableFlags_ne_nil (ha : s.WellFormed) (hp : s.Choosy p) {e : Entry}
    (h : s.Lacks p store e) : s.availableFlags p store ≠ [] := by
  obtain ⟨key, hkey⟩ : ∃ key, key ∈ s.availableFlags p store := by
    cases h with
    | flag hk hf hg hpol hm =>
      obtain ⟨key, hkey, -⟩ := Lacks.flag_named ha hp (.flag hk hf hg hpol hm)
      exact ⟨key, hkey⟩
    | group hg hs hpol hne hc =>
      obtain ⟨id, hid⟩ := List.exists_mem_of_ne_nil _ hne
      obtain ⟨key, hkey, -⟩ := Lacks.member_named ha hp (.group hg hs hpol hne hc)
        (mem_members.2 ⟨_, hg, hid⟩)
      exact ⟨key, hkey⟩
  exact List.ne_nil_of_mem hkey

theorem mem_availableArgs {id : ArgId} {a : Positional} (hid : id ∈ s.argsOf store)
    (ha : s.arg? id = some a) (hf : p.isFilled id = false) :
    a.policy.bracket a.name ∈ s.availableArgs p store :=
  List.mem_filterMap.2 ⟨id, List.mem_filter.2 ⟨hid, by simp [hf]⟩, by simp [ha]⟩

end Options

section Errors

variable {last : Walk} {e : ParseError}

theorem Raises.unneeded (ha : s.WellFormed)
    (h : s.Raises tokens t (.unexpectedArgument token options)) :
    s.Unneeded (s.parse tokens).1 t.store token options := by
  obtain ⟨w, hw, hhalt, htop, hpass⟩ := h.exists_halt ha
  rw [← htop, ← hpass]
  cases hhalt.reports ha (.inr (.inr rfl)) with
  | token hk hd hl =>
    refine ⟨keyed?_eq_none ha.toLinked hk, hd, fun hid => hd.isFilled hid,
      ⟨_, _, _, rfl, namesFlags ha (hw.choosy ha) w.top, namesArgs ha w.pass w.top⟩, ?_⟩
    rcases hl with hl | ⟨hroot, hs⟩
    · exact .inr (hw.exists_lacks ha hl)
    · exact .inl ⟨hroot, hroot ▸ hw.mandatoryMet ha hs⟩

theorem Raises.namesMissingFlags (ha : s.WellFormed)
    (h : s.Raises tokens t (.missingMandatoryFlag options)) :
    s.NamesMissingFlags (s.parse tokens).1 t.store options := by
  obtain ⟨w, hw, hhalt, htop, hpass⟩ := h.exists_halt ha
  rw [← htop, ← hpass]
  have hp : s.Choosy w.pass := hw.choosy ha
  cases hhalt.reports ha (.inl rfl) with
  | flags hr hf =>
    obtain ⟨e, he⟩ := hw.exists_lacks ha hf
    exact ⟨⟨e, he⟩, fun hl => hl.flag_named ha hp, fun hl hid => hl.member_named ha hp hid,
      he.availableFlags_ne_nil ha hp, hw.nestedComplete ha⟩

theorem Raises.namesMissingArgs (ha : s.WellFormed)
    (h : s.Raises tokens t (.missingMandatoryArgument options)) :
    s.NamesMissingArgs (s.parse tokens).1 t.store options := by
  obtain ⟨w, hw, hhalt, htop, hpass⟩ := h.exists_halt ha
  rw [← htop, ← hpass]
  cases hhalt.reports ha (.inr (.inl rfl)) with
  | args hr hf hg =>
    have hmet : ∀ e, ¬s.Lacks w.pass w.top e := fun e he =>
      Bool.false_ne_true (hf.symm.trans (lacksFlag_of_lacks ha he))
    refine ⟨fun hk hfl hn hpol => ?_, fun {id g} hgr hst hpol hne => ?_, exists_lacking_arg hg,
      fun {id a} hid harg hpol hfill => ?_, hw.nestedComplete ha⟩
    · by_contra hm
      exact hmet _ (.flag hk hfl hn hpol (by simpa using hm))
    · rcases hc : w.pass.chosen? id with _ | m
      · exact absurd (.group hgr hst hpol hne hc) (hmet _)
      · have hmem := hw.mem_members ha hgr hc
        obtain ⟨f, -, -, -, hk⟩ := ha.member hgr hmem
        exact ⟨m, hmem, rfl, hw.chosen_matched ha hc ⟨f.key, hst ▸ hk⟩⟩
    · have hmem := mem_availableArgs hid harg hfill
      rwa [hpol] at hmem

/-- No flag is named exactly if none can be used any more. -/
theorem NamesFlags.eq_nil_iff (ha : s.WellFormed) {ids : List FlagId}
    (h : s.NamesFlags p store ids options) : options = [] ↔ ∀ key id flag,
      s.keyFlag? store key = some (id, flag) → ∃ e, s.start p id flag = .error e := by
  have hlen : options.length = ids.length := by simpa using congrArg List.length h.texts
  constructor
  · rintro rfl key id flag hk
    obtain rfl : ids = [] := List.eq_nil_of_length_eq_zero hlen.symm
    have hno := (h.startable hk).not.1 List.not_mem_nil
    rcases hs : s.start p id flag with e | p'
    · exact ⟨e, rfl⟩
    · exact absurd ⟨p', hs⟩ hno
  · intro hno
    obtain rfl : ids = [] := by
      refine List.eq_nil_iff_forall_not_mem.2 fun id hid => ?_
      obtain ⟨key, hk⟩ := h.keyed hid
      obtain ⟨f, hf, -⟩ := exists_flag_of_key? (ha.key_eq ((keyed?_eq_some_iff ha.toLinked).1 hk))
      have hkf : s.keyFlag? store key = some (id, f) := by simp [keyFlag?, hk, hf]
      obtain ⟨p', hs⟩ := (h.startable hkf).1 hid
      obtain ⟨e, he⟩ := hno key id f hkf
      cases hs.symm.trans he
    exact List.eq_nil_of_length_eq_zero hlen

theorem Raises.args_named (ha : s.WellFormed)
    (h : s.Raises tokens t (.missingMandatoryArgument options)) :
    s.NamesArgs (s.parse tokens).1 t.store options ∧
      (options = s.availableFlags (s.parse tokens).1 t.store ++
          s.availableArgs (s.parse tokens).1 t.store ↔
        ∀ key id flag, s.keyFlag? t.store key = some (id, flag) →
          ∃ e, s.start (s.parse tokens).1 id flag = .error e) := by
  obtain ⟨w, hw, hhalt, htop, hpass⟩ := h.exists_halt ha
  rw [← htop, ← hpass]
  cases hhalt.reports ha (.inr (.inl rfl)) with
  | args hr hf hg =>
    refine ⟨namesArgs ha w.pass w.top, ?_⟩
    rw [List.self_eq_append_left]
    exact (namesFlags ha (hw.choosy ha) w.top).eq_nil_iff ha

end Errors

end CommandGrammar.Scheme

namespace CommandGrammar.Session

/-- Whatever a session went through before: a token is unexpected in a store that cannot take it,
that lacks a mandatory flag or is the root and lacks nothing. No store ever lacks an argument in
front of a token. -/
theorem after_parse_unneeded (script : List Call) (tokens : List String) :
    (∀ token options,
      ((after script).parse tokens).2 = .error (.unexpectedArgument token options) →
        (∃ t, (after script).scheme.Raises tokens t (.unexpectedArgument token options)) ∧
        ∀ t, (after script).scheme.Raises tokens t (.unexpectedArgument token options) →
          (after script).scheme.Unneeded ((after script).parse tokens).1.pass t.store token
            options) ∧
    ∀ t token rest st, (after script).scheme.Turns tokens t → (after script).scheme.Stops t →
      t.tokens = token :: rest → (after script).scheme.store? t.store = some st →
        ¬t.met.args < st.argTally.mandatory := by
  have ha := after_wellFormed script
  exact ⟨fun token options h => ⟨Scheme.exists_raises h, fun t ht => ht.unneeded ha⟩,
    fun t token rest st ht hn hr hst => Scheme.Turns.args_met ha ht hn hr hst⟩

/-- A flag that is followed by how fast, and by how far if wanted, and a place. -/
def goScript : List Call :=
  [.register (.complexFlag Scheme.root "go" .mandatory "Sets out."),
    .register (.group ⟨1⟩ .mandatory),
    .register (.member ⟨0⟩ "slow" "Takes time."),
    .register (.member ⟨0⟩ "fast" "Takes none."),
    .register (.arg ⟨1⟩ ⟨"miles", .optional, "How far.",
      (Pipeline.integer (Literal.int .i64)).map (.int .i64)⟩),
    .register (.flag Scheme.root "-v" .optional "Says more."),
    .register (.arg Scheme.root ⟨"place", .mandatory, "Where to.", Pipeline.text.map .text⟩)]

theorem go_parse_unneeded :
    ((after goScript).parse ["go", "warp"]).2 =
        .error (.unexpectedArgument "warp" ["slow", "fast", "[miles]"]) ∧
      (∃ t : Turn, (after goScript).scheme.Unneeded ((after goScript).parse ["go", "warp"]).1.pass
        t.store "warp" ["slow", "fast", "[miles]"]) ∧
      ∀ st, (after goScript).scheme.store? ⟨1⟩ = some st →
        ¬({} : Met).args < st.argTally.mandatory := by
  have h : ((after goScript).parse ["go", "warp"]).2 =
      .error (.unexpectedArgument "warp" ["slow", "fast", "[miles]"]) := by decide +kernel
  obtain ⟨hraised, hstop⟩ := after_parse_unneeded goScript ["go", "warp"]
  obtain ⟨⟨t, ht⟩, hall⟩ := hraised _ _ h
  refine ⟨h, ⟨t, hall t ht⟩, fun st hst => ?_⟩
  -- the turn of the store that the flag opens, in front of the second token
  refine hstop ⟨⟨1⟩, {}, {}, ["warp"]⟩ "warp" [] st (.single (.enter rfl rfl nofun rfl)) ?_ rfl hst
  rintro token rest h
  cases h
  exact ⟨rfl, rfl⟩

/-- Whatever a session went through before: an error for what is missing names everything mandatory
that is, in a store that lacks it; flags come before arguments, and what is nested below them is
complete. -/
theorem after_parse_missing (script : List Call) (tokens : List String) (e : ParseError)
    (h : ((after script).parse tokens).2 = .error e) :
    (∃ t, (after script).scheme.Raises tokens t e) ∧
      ∀ t, (after script).scheme.Raises tokens t e →
        (after script).scheme.NamesMissing ((after script).parse tokens).1.pass t.store e := by
  have ha := after_wellFormed script
  refine ⟨Scheme.exists_raises h, fun t ht => ?_⟩
  cases e with
  | missingMandatoryFlag options => exact ht.namesMissingFlags ha
  | missingMandatoryArgument options => exact ht.namesMissingArgs ha
  | repeatedFlag | unexpectedArgument | exclusiveConflict | conversionFailure => trivial

theorem go_parse_missing :
    (((after goScript).parse ["go"]).2 = .error (.missingMandatoryFlag ["slow", "fast"]) ∧
      ∃ t : Turn, (after goScript).scheme.NamesMissingFlags
        ((after goScript).parse ["go"]).1.pass t.store ["slow", "fast"]) ∧
    ((after goScript).parse ["go", "slow"]).2 = .error (.missingMandatoryArgument ["place"]) ∧
      ∃ t : Turn, (after goScript).scheme.NamesMissingArgs
        ((after goScript).parse ["go", "slow"]).1.pass t.store ["place"] := by
  have hf : ((after goScript).parse ["go"]).2 =
      .error (.missingMandatoryFlag ["slow", "fast"]) := by decide +kernel
  have hg : ((after goScript).parse ["go", "slow"]).2 =
      .error (.missingMandatoryArgument ["place"]) := by decide +kernel
  obtain ⟨⟨t, ht⟩, hall⟩ := after_parse_missing goScript _ _ hf
  obtain ⟨⟨t', ht'⟩, hall'⟩ := after_parse_missing goScript _ _ hg
  exact ⟨⟨hf, t, hall t ht⟩, hg, t', hall' t' ht'⟩

/-- Whatever a session went through before: an error for missing arguments names the arguments of
its store that have not matched and no flags, which are all the options of the store exactly if none
of its flags can be used any more. -/
theorem after_parse_missing_args (script : List Call) (tokens options : List String)
    (h : ((after script).parse tokens).2 = .error (.missingMandatoryArgument options)) :
    (∃ t, (after script).scheme.Raises tokens t (.missingMandatoryArgument options)) ∧
      ∀ t, (after script).scheme.Raises tokens t (.missingMandatoryArgument options) →
        (after script).scheme.NamesArgs ((after script).parse tokens).1.pass t.store options ∧
        (options =
            (after script).scheme.availableFlags ((after script).parse tokens).1.pass t.store ++
              (after script).scheme.availableArgs ((after script).parse tokens).1.pass t.store ↔
          ∀ key id flag, (after script).scheme.keyFlag? t.store key = some (id, flag) →
            ∃ e, (after script).scheme.start ((after script).parse tokens).1.pass id flag =
              .error e) :=
  ⟨Scheme.exists_raises h, fun _ ht => ht.args_named (after_wellFormed script)⟩

theorem go_parse_missing_args :
    ((after goScript).parse ["go", "slow"]).2 = .error (.missingMandatoryArgument ["place"]) ∧
      ∃ t : Turn, (after goScript).scheme.NamesArgs ((after goScript).parse ["go", "slow"]).1.pass
        t.store ["place"] := by
  have h : ((after goScript).parse ["go", "slow"]).2 =
      .error (.missingMandatoryArgument ["place"]) := by decide +kernel
  obtain ⟨⟨t, ht⟩, hall⟩ := after_parse_missing_args goScript _ _ h
  exact ⟨h, t, (hall t ht).1⟩

/-- The root has a flag left when its argument is missing, and the error does not name it. -/
theorem go_leaves_flag :
    ((after goScript).parse ["go", "slow"]).2 = .error (.missingMandatoryArgument ["place"]) ∧
      ∃ t, (after goScript).scheme.Raises ["go", "slow"] t (.missingMandatoryArgument ["place"]) ∧
        (after goScript).scheme.availableFlags ((after goScript).parse ["go", "slow"]).1.pass
            t.store ++
          (after goScript).scheme.availableArgs ((after goScript).parse ["go", "slow"]).1.pass
            t.store = ["[-v]", "place"] := by
  have h : ((after goScript).parse ["go", "slow"]).2 =
      .error (.missingMandatoryArgument ["place"]) := by decide +kernel
  obtain ⟨t, ht⟩ := Scheme.exists_raises h
  have hroot : (after goScript).scheme.stopsIn ["go", "slow"] = Scheme.root := by decide +kernel
  refine ⟨h, t, ht, ?_⟩
  rw [ht.store_eq (after_wellFormed goScript), hroot]
  decide +kernel

end CommandGrammar.Session
