import CommandGrammar.Proofs.Accounting
import CommandGrammar.Proofs.Completeness
import CommandGrammar.Proofs.Lookahead
import CommandGrammar.Proofs.Order
import CommandGrammar.Proofs.Stopping

/-!
# One choice in each group

A group has matched as soon as one of its members is chosen, which is before the store of that
member is read. So a group can be ahead of its member, but only while that store is open, and its
own store looks at no token then. Whenever it does look at a key, the chosen member has matched: its
own key is repeated, and that of any other member is in conflict with it.
-/

namespace CommandGrammar.Scheme

open Relation

variable (s : Scheme)

/-- At some point of a pass, a store looks at a token that is the key of one of its flags. -/
structure LooksAt (tokens : List String) (w : Walk) (token : String) (id : FlagId) (flag : Flag) :
    Prop where
  reached : ReflTransGen s.Advance { rest := tokens } w
  next : w.rest.head? = some token
  keyed : s.keyFlag? w.top token = some (id, flag)

/-- Two members of a group, the chosen one and another, and the keys that a conflict of them
names. -/
structure Rivals (p : Pass) (group : GroupId) (chosen other : FlagId) (first second : String)
    (exclusive : List String) : Prop where
  chosen_eq : p.chosen? group = some chosen
  matched : p.isMatched chosen = true
  chosen_mem : chosen ∈ s.members group
  other_mem : other ∈ s.members group
  ne : chosen ≠ other
  first_key : s.key? chosen = some first
  second_key : s.key? other = some second
  all_keys : exclusive.map some = (s.members group).map s.key?

/-- A pass uses at most one member of each group, and tells apart a second use of that member from
the use of another one. -/
structure Exclusive (tokens : List String) (p : Pass) (outcome : Except ParseError Outcome) :
    Prop where
  group_matched : ∀ g, p.isGroupMatched g = true ↔ ∃ m, p.chosen? g = some m
  chosen_member : ∀ {g m}, p.chosen? g = some m → m ∈ s.members g
  matched_chosen : ∀ {g m}, m ∈ s.members g → p.isMatched m = true → p.chosen? g = some m
  at_most_one : ∀ {g m m'}, m ∈ s.members g → m' ∈ s.members g → p.isMatched m = true →
    p.isMatched m' = true → m = m'
  finished : ∀ {g m o}, outcome = .ok o → p.chosen? g = some m → p.isMatched m = true
  unfinished : ∀ {g m e}, outcome = .error e → p.chosen? g = some m →
    p.isMatched m = true ∨ m ∈ s.openFlags tokens
  conflict : ∀ {first second exclusive},
    outcome = .error (.exclusiveConflict first second exclusive) →
      ∃ group chosen other, s.Rivals p group chosen other first second exclusive
  again : ∀ {w token id flag g}, s.LooksAt tokens w token id flag → flag.group = some g →
    w.pass.chosen? g = some id → outcome = .error (.repeatedFlag token)
  rival : ∀ {w token id flag g m}, s.LooksAt tokens w token id flag → flag.group = some g →
    w.pass.chosen? g = some m → m ≠ id →
      ∃ first exclusive, outcome = .error (.exclusiveConflict first token exclusive)

variable {s} {w last : Walk} {id : FlagId} {flag : Flag} {group : GroupId} {token : String}

theorem group_of_mem_members (ha : s.WellFormed) (h : id ∈ s.members group) :
    ∃ f, s.flag? id = some f ∧ f.group = some group := by
  obtain ⟨g, hg, hm⟩ := mem_members.1 h
  obtain ⟨f, hf, hfg, -⟩ := ha.member hg hm
  exact ⟨f, hf, hfg⟩

theorem mem_members_of_group (ha : s.WellFormed) (hf : s.flag? id = some flag)
    (hg : flag.group = some group) : id ∈ s.members group := by
  rcases ha.listed_cases hf with ⟨hn, -⟩ | ⟨group', g, hg', hgr, hm, -⟩
  · rw [hg] at hn
    cases hn
  · obtain rfl := Option.some.inj (hg.symm.trans hg')
    exact mem_members.2 ⟨g, hgr, hm⟩

theorem map_some_filterMap {α β : Type} {f : α → Option β} {l : List α}
    (h : ∀ a ∈ l, ∃ b, f a = some b) : (l.filterMap f).map some = l.map f := by
  rw [List.map_filterMap, List.filterMap_eq_map_iff_forall_eq_some.2]
  intro a ha
  obtain ⟨b, hb⟩ := h a ha
  simp [hb]

/-- Every member of a group has a key. -/
theorem map_some_filterMap_key? (ha : s.WellFormed) :
    ((s.members group).filterMap s.key?).map some = (s.members group).map s.key? := by
  refine map_some_filterMap fun m hm => ?_
  obtain ⟨f, hf, -⟩ := group_of_mem_members ha hm
  exact ⟨f.key, by simp [key?, hf]⟩

/-- A member of a group that has matched or whose store is open was chosen. -/
theorem Sound.chosen_of_mem (hw : s.Sound w) (ha : s.WellFormed) (hm : id ∈ s.members group)
    (ht : w.Touched (.flag id)) : w.pass.chosen? group = some id := by
  obtain ⟨f, hf, hg⟩ := group_of_mem_members ha hm
  exact hw.member_chosen ht hf hg

/-- The chosen member of a group has matched whenever the store of the group looks at a token. -/
theorem Sound.chosen_matched (hw : s.Sound w) (ha : s.WellFormed)
    (hc : w.pass.chosen? group = some id) (hn : s.Home (.flag id) w.top) :
    w.pass.isMatched id = true := by
  by_contra hm
  exact hw.not_touched ha hn (Bool.not_eq_true _ ▸ hm) (hw.chosen_member hc).1

theorem Sound.not_matched_of_rival (hw : s.Sound w) (hf : s.flag? id = some flag)
    (hg : flag.group = some group) {m : FlagId} (hc : w.pass.chosen? group = some m)
    (hne : m ≠ id) : w.pass.isMatched id = false := by
  rw [← Bool.not_eq_true]
  intro hm
  exact hne (Option.some.inj (hc.symm.trans (hw.member_chosen (.inl hm) hf hg)))

/-- Members of one group are keyed in one store. -/
theorem home_of_members (ha : s.WellFormed) {m : FlagId} {store : StoreId}
    (hid : id ∈ s.members group) (hm : m ∈ s.members group) (hn : s.Home (.flag id) store) :
    s.Home (.flag m) store := by
  obtain ⟨g, hg, hid⟩ := mem_members.1 hid
  obtain ⟨g', hg', hm⟩ := mem_members.1 hm
  obtain rfl := Option.some.inj (hg.symm.trans hg')
  obtain ⟨f, -, -, -, hk⟩ := ha.member hg hid
  obtain ⟨f', -, -, -, hk'⟩ := ha.member hg hm
  rw [← ha.home_unique (n := .flag id) ⟨f.key, hk⟩ hn]
  exact ⟨f'.key, hk'⟩

/-- A conflict is reported at the key of a member in whose group another one was chosen. -/
theorem Halt.rivals (hw : s.Sound w) (ha : s.WellFormed) {first second : String}
    {exclusive : List String}
    (h : s.Halt w last (.error (.exclusiveConflict first second exclusive))) :
    ∃ group chosen other, s.Rivals last.pass group chosen other first second exclusive := by
  generalize ho : Except.error (ParseError.exclusiveConflict first second exclusive) = o at h
  cases h with
  | @conflict token rest id flag group m hr hk hm hg =>
    cases ho
    obtain ⟨hkey, hf, hft⟩ := keyFlag?_eq_some ha.toLinked hk
    obtain ⟨hfg, hc⟩ := rival?_eq_some.1 hg
    obtain ⟨-, f, hfm, hfmg⟩ := hw.chosen_member hc
    have hmem := mem_members_of_group ha hf hfg
    have hmem' := mem_members_of_group ha hfm hfmg
    have hmatched := hw.chosen_matched ha hc (home_of_members ha hmem hmem' ⟨_, hkey⟩)
    refine ⟨group, m, id, hc, hmatched, hmem', hmem, ?_, by simp [key?, hfm],
      by simp [key?, hf], map_some_filterMap_key? ha⟩
    rintro rfl
    exact Bool.false_ne_true (hm.symm.trans hmatched)
  | refused hr hk ht =>
    obtain ⟨name, reason, -, -, rfl, -⟩ := exists_refusedBy ha ht
    cases ho
  | lacking hn hs =>
    rcases shortfall?_eq_some hs with ⟨-, rfl | rfl⟩ | ⟨token, rest, -, rfl⟩ <;> cases ho
  | repeated | leftover => cases ho
  | help | parsed => cases ho

/-- A store that looks at the key of a flag in whose group a choice was made ends the pass. -/
theorem LooksAt.parse_eq (ha : s.WellFormed) {tokens : List String}
    (h : s.LooksAt tokens w token id flag) (hg : flag.group = some group) {m : FlagId}
    (hc : w.pass.chosen? group = some m) : (s.parse tokens).2 = .error (if m = id then
      .repeatedFlag token else .exclusiveConflict ((s.key? m).getD "") token
        ((s.members group).filterMap s.key?)) := by
  obtain ⟨hreach, hnext, hk⟩ := h
  obtain ⟨rest, hr⟩ := List.head?_eq_some_iff.1 hnext
  have hw := sound_of_reaches ha hreach
  obtain ⟨hkey, hf, rfl⟩ := keyFlag?_eq_some ha.toLinked hk
  split_ifs with hid
  · subst hid
    have hm := hw.chosen_matched ha hc ⟨_, hkey⟩
    rw [parse_of_halt ha hreach (.repeated hr hk hm)]
  · have hm := hw.not_matched_of_rival hf hg hc hid
    rw [parse_of_halt ha hreach (.conflict hr hk hm (rival?_eq_some.2 ⟨hg, hc⟩))]

theorem parse_exclusive (ha : s.WellFormed) (tokens : List String) :
    s.Exclusive tokens (s.parse tokens).1 (s.parse tokens).2 := by
  obtain ⟨w, hr, ho⟩ := walk_reaches (s := s) { rest := tokens }
  have hw := sound_of_reaches ha hr
  have hlast := hw.halt ha ho
  have hp := parse_eq_walk ha tokens
  set last := (s.walk { rest := tokens }).1 with hl
  have hopen : ∀ {id}, last.IsOpen id → id ∈ s.openFlags tokens := by
    rintro id ⟨f, hf, rfl⟩
    exact List.mem_map_of_mem hf
  have hchosen : ∀ {g m}, m ∈ s.members g → last.pass.isMatched m = true →
      last.pass.chosen? g = some m := fun hm hmm => hlast.chosen_of_mem ha hm (.inl hmm)
  rw [hp]
  exact {
    group_matched := fun g => by
      rw [← Option.isSome_iff_exists]
      exact Bool.eq_iff_iff.1 (hlast.group_matched g)
    chosen_member := fun hc => by
      obtain ⟨-, f, hf, hfg⟩ := hlast.chosen_member hc
      exact mem_members_of_group ha hf hfg
    matched_chosen := hchosen
    at_most_one := fun hm hm' h h' =>
      Option.some.inj ((hchosen hm h).symm.trans (hchosen hm' h'))
    finished := by
      intro g m o hok hc
      dsimp only at hok
      rw [hok] at ho
      rcases (hlast.chosen_member hc).1 with h | ⟨f, hf, -⟩
      · exact h
      · simp [ho.frames_eq_nil hw ha] at hf
    unfinished := fun _ hc => (hlast.chosen_member hc).1.imp id hopen
    conflict := by
      intro first second exclusive he
      dsimp only at he
      rw [he] at ho
      obtain ⟨group, chosen, other, h⟩ := ho.rivals hw ha
      exact ⟨group, chosen, other, { h with }⟩
    again := fun h hg hc => by
      have := h.parse_eq ha hg hc
      rwa [hp, if_pos rfl] at this
    rival := fun h hg hc hne => by
      have := h.parse_eq ha hg hc
      rw [hp, if_neg hne] at this
      exact ⟨_, _, this⟩ }

end CommandGrammar.Scheme

namespace CommandGrammar.Session

/-- Whatever a session went through before, and however a pass ends, it uses at most one member of
each group. The members of a group are in the order of registration. -/
theorem after_parse_exclusive (script : List Call) (tokens : List String) :
    (after script).scheme.Exclusive tokens ((after script).parse tokens).1.pass
        ((after script).parse tokens).2 ∧
      ∀ earlier, earlier <+: script → ∀ g,
        (after earlier).scheme.members g <+: (after script).scheme.members g :=
  ⟨Scheme.parse_exclusive (after_wellFormed script) tokens,
    fun _ h => (after_lengthens h).members⟩

end CommandGrammar.Session
