import CommandGrammar.Proofs.Exclusivity

/-!
# Command lines without order

A scheme is flat when its root has no arguments and its flags have no stores of their own. A pass
over a flat scheme never leaves the root, and all that it keeps of the tokens is which keys were
among them. So it accepts exactly the selections of its keys: no key twice, at most one key of a
group, everything mandatory among them. It cannot tell a command line from any other order of its
tokens.
-/

namespace CommandGrammar.Scheme

open Relation

variable (s : Scheme)

/-- Nothing can follow a flag of the root, and the root takes keys only. -/
structure IsFlat : Prop where
  no_args : s.argsOf root = []
  simple : ∀ {key id f}, (key, id) ∈ s.keysOf root → s.flag? id = some f → f.children = none

/-- A token is the key of a member of a group. -/
def IsMemberKey (group : GroupId) (token : String) : Prop :=
  ∃ id ∈ s.members group, s.keyed? root token = some id

/-- Different keys of the root, at most one of each group, and all that is mandatory among them. -/
structure IsSelection (tokens : List String) : Prop where
  keyed : ∀ token ∈ tokens, ∃ id, s.keyed? root token = some id
  nodup : tokens.Nodup
  exclusive : ∀ {group a b}, a ∈ tokens → b ∈ tokens → s.IsMemberKey group a →
    s.IsMemberKey group b → a = b
  flag : ∀ {key id f}, (key, id) ∈ s.keysOf root → s.flag? id = some f → f.group = none →
    f.policy = .mandatory → key ∈ tokens
  group : ∀ {id g}, s.group? id = some g → g.store = root → g.policy = .mandatory →
    g.members ≠ [] → ∃ token ∈ tokens, s.IsMemberKey id token

/-- The flags that have matched are those with a key among the tokens, and a group has the member
chosen that has matched. -/
structure FindsKeys (p : Pass) (tokens : List String) : Prop where
  matched_iff : ∀ id, p.isMatched id = true ↔ ∃ token ∈ tokens, s.keyed? root token = some id
  chosen_iff : ∀ group m, p.chosen? group = some m ↔ m ∈ s.members group ∧ p.isMatched m = true

/-- A walk that has never left the root. -/
structure Picks (w : Walk) : Prop where
  frames : w.frames = []
  keyed : ∀ token ∈ w.consumed, ∃ id, s.keyed? root token = some id
  nodup : w.consumed.Nodup
  matched_iff : ∀ id, w.pass.isMatched id = true ↔
    ∃ token ∈ w.consumed, s.keyed? root token = some id

variable {s} {w w' last : Walk} {tokens other rest : List String} {token : String} {id : FlagId}
  {flag : Flag} {p p' : Pass}

section Keys

theorem keyFlag?_ne_none (hl : s.Linked) {store : StoreId} (h : s.keyed? store token = some id) :
    s.keyFlag? store token ≠ none := by
  obtain ⟨flag, hf, -⟩ := exists_flag_of_key? (hl.key_eq ((keyed?_eq_some_iff hl).1 h))
  simp [keyFlag?, h, hf]

theorem key_unique (hl : s.Linked) {store : StoreId} {other : String}
    (h : s.keyed? store token = some id) (h' : s.keyed? store other = some id) : token = other := by
  have hk := hl.key_eq ((keyed?_eq_some_iff hl).1 h)
  have hk' := hl.key_eq ((keyed?_eq_some_iff hl).1 h')
  exact Option.some.inj (hk.symm.trans hk')

theorem IsFlat.taker?_eq_none (hs : s.IsFlat) (p : Pass) (token : String) :
    s.taker? p root token = none := by
  simp [taker?, hs.no_args]

end Keys

section Walks

theorem Picks.top (hw : s.Picks w) : w.top = root := by
  rw [Walk.top, hw.frames]
  rfl

theorem picks_start (tokens : List String) : s.Picks { rest := tokens } where
  frames := rfl
  keyed := by simp
  nodup := List.nodup_nil
  matched_iff := by simp [Pass.isMatched]

/-- A key that is consumed is one more, for its flag had not matched. -/
theorem Picks.advance (hw : s.Picks w) (ha : s.WellFormed) (hs : s.IsFlat) (h : s.Advance w w') :
    s.Picks w' := by
  cases h with
  | @simple token rest id flag hr hk hm hg hh hc =>
    rw [hw.top] at hk
    obtain ⟨hkey, -, -⟩ := keyFlag?_eq_some ha.toLinked hk
    have hkeyed := (keyed?_eq_some_iff ha.toLinked).2 hkey
    have hnew : token ∉ w.consumed := fun hmem =>
      Bool.false_ne_true (hm.symm.trans ((hw.matched_iff id).2 ⟨token, hmem, hkeyed⟩))
    refine ⟨hw.frames, ?_, ?_, fun x => ?_⟩
    · intro t ht
      rcases List.mem_append.1 ht with ht | ht
      · exact hw.keyed t ht
      · exact ⟨id, List.mem_singleton.1 ht ▸ hkeyed⟩
    · exact List.nodup_append.2 ⟨hw.nodup, List.nodup_singleton _, by
        intro a hma b hmb
        rw [List.mem_singleton.1 hmb]
        exact fun hab => hnew (hab ▸ hma)⟩
    · simp only [Walk.eat, Pass.isMatched_complete, Pass.isMatched_choosing, Bool.or_eq_true,
        beq_iff_eq, hw.matched_iff, List.mem_append, List.mem_singleton, or_and_right, exists_or,
        exists_eq_left]
      exact or_congr_right ⟨fun hx => hx ▸ hkeyed, fun hx => Option.some.inj (hx.symm.trans hkeyed)⟩
  | nested hr hk hm hg hh hc =>
    rw [hw.top] at hk
    obtain ⟨hkey, hf, -⟩ := keyFlag?_eq_some ha.toLinked hk
    cases hc.symm.trans (hs.simple hkey hf)
  | fill hr hk ht =>
    rw [hw.top, hs.taker?_eq_none] at ht
    cases ht
  | close hf => cases hf.symm.trans hw.frames

theorem Picks.reaches (ha : s.WellFormed) (hs : s.IsFlat)
    (h : ReflTransGen s.Advance { rest := tokens } w) : s.Picks w := by
  induction h with
  | refl => exact picks_start tokens
  | tail _ h ih => exact ih.advance ha hs h

theorem Picks.matched_of_touched (hw : s.Picks w) (h : w.Touched (.flag id)) :
    w.pass.isMatched id = true := by
  rcases h with h | ⟨f, hf, -⟩
  · exact h
  · rw [hw.frames] at hf
    cases hf

/-- The flags of a flat scheme that were chosen are the members that have matched. -/
theorem Picks.chosen_iff (hw : s.Picks w) (hsound : s.Sound w) (ha : s.WellFormed)
    (group : GroupId) (m : FlagId) : w.pass.chosen? group = some m ↔
      m ∈ s.members group ∧ w.pass.isMatched m = true := by
  constructor
  · intro hc
    obtain ⟨ht, f, hf, hg⟩ := hsound.chosen_member hc
    exact ⟨mem_members_of_group ha hf hg, hw.matched_of_touched ht⟩
  · rintro ⟨hmem, hm⟩
    exact hsound.chosen_of_mem ha hmem (.inl hm)

/-- Two keys of one group that were consumed are the same, for one member is chosen. -/
theorem Picks.exclusive (hw : s.Picks w) (hsound : s.Sound w) (ha : s.WellFormed)
    {group : GroupId} {a b : String} (hca : a ∈ w.consumed) (hcb : b ∈ w.consumed)
    (hma : s.IsMemberKey group a) (hmb : s.IsMemberKey group b) : a = b := by
  obtain ⟨x, hx, hkx⟩ := hma
  obtain ⟨y, hy, hky⟩ := hmb
  have hcx := (hw.chosen_iff hsound ha group x).2 ⟨hx, (hw.matched_iff x).2 ⟨a, hca, hkx⟩⟩
  have hcy := (hw.chosen_iff hsound ha group y).2 ⟨hy, (hw.matched_iff y).2 ⟨b, hcb, hky⟩⟩
  obtain rfl := Option.some.inj (hcx.symm.trans hcy)
  exact key_unique ha.toLinked hkx hky

end Walks

section Ends

/-- What has consumed all tokens and lacks nothing has consumed a selection. -/
theorem Picks.isSelection (hw : s.Picks w) (hsound : s.Sound w) (ha : s.WellFormed)
    (hmet : s.MandatoryMet w.pass root) : s.IsSelection w.consumed where
  keyed := hw.keyed
  nodup := hw.nodup
  exclusive := hw.exclusive hsound ha
  flag {key id f} hk hf hg hp := by
    obtain ⟨token, hmem, hkeyed⟩ := (hw.matched_iff id).1 (hmet.flag hk hf hg hp)
    obtain rfl := key_unique ha.toLinked ((keyed?_eq_some_iff ha.toLinked).2 hk) hkeyed
    exact hmem
  group {id g} hg hst hp hm := by
    obtain ⟨-, m, hmem, -, hmatched⟩ := hmet.group hg hst hp hm
    obtain ⟨token, htoken, hkeyed⟩ := (hw.matched_iff m).1 hmatched
    exact ⟨token, htoken, m, mem_members.2 ⟨g, hg, hmem⟩, hkeyed⟩

/-- When a selection has been consumed, the root lacks nothing. -/
theorem Picks.shortfall?_eq_none (hw : s.Picks w) (hsound : s.Sound w) (ha : s.WellFormed)
    (hs : s.IsFlat) (hsel : s.IsSelection w.consumed) :
    s.shortfall? w.pass w.top w.rest = none := by
  rw [hw.top, Scheme.shortfall?_eq_none, lacksFlag_eq_false, lacksArg_eq_false]
  refine ⟨fun e he hp => ?_, by simp [hs.no_args]⟩
  rcases e with id | group
  · obtain ⟨f, hf, hg, hk⟩ := ha.flag_listed he
    have hp : f.policy = .mandatory := by simpa [unitPolicy?, hf] using hp
    exact (hw.matched_iff id).2 ⟨f.key, hsel.flag hk hf hg hp,
      (keyed?_eq_some_iff ha.toLinked).2 hk⟩
  · obtain ⟨g, hg, hst⟩ := ha.group_listed he
    obtain ⟨hm, hp⟩ : g.members ≠ [] ∧ g.policy = .mandatory := by
      simpa [unitPolicy?, hg] using hp
    obtain ⟨token, htoken, m, hmem, hkeyed⟩ := hsel.group hg hst hp hm
    have hmatched := (hw.matched_iff m).2 ⟨token, htoken, hkeyed⟩
    have hc := (hw.chosen_iff hsound ha group m).2 ⟨hmem, hmatched⟩
    exact (Option.any_eq_true _ _).2 ⟨m, hc, hmatched⟩

/-- A walk over a selection has no reason to end before the last token, or to fail there. -/
theorem Picks.parsed_of_isSelection (hw : s.Picks w) (hsound : s.Sound w) (ha : s.WellFormed)
    (hs : s.IsFlat) {o : Except ParseError Outcome} (ho : s.Halt w last o)
    (hh : s.help ≠ none → helpKey ∉ w.consumed ++ w.rest)
    (hsel : s.IsSelection (w.consumed ++ w.rest)) : o = .ok .parsed := by
  have hnext : ∀ {token rest}, w.rest = token :: rest → s.keyFlag? w.top token ≠ none := by
    intro token rest hr
    obtain ⟨id, hk⟩ := hsel.keyed token (by simp [hr])
    rw [hw.top]
    exact keyFlag?_ne_none ha.toLinked hk
  cases ho with
  | @repeated token rest id flag hr hk hm =>
    rw [hw.top] at hk
    obtain ⟨hkey, -, -⟩ := keyFlag?_eq_some ha.toLinked hk
    obtain ⟨t, ht, hkt⟩ := (hw.matched_iff id).1 hm
    obtain rfl := key_unique ha.toLinked hkt ((keyed?_eq_some_iff ha.toLinked).2 hkey)
    have hn := hsel.nodup
    rw [hr] at hn
    exact absurd rfl ((List.nodup_append.1 hn).2.2 t ht t List.mem_cons_self)
  | @conflict token rest id flag group first hr hk hm hg =>
    rw [hw.top] at hk
    obtain ⟨hkey, hf, -⟩ := keyFlag?_eq_some ha.toLinked hk
    have hkeyed := (keyed?_eq_some_iff ha.toLinked).2 hkey
    obtain ⟨hfg, hc⟩ := rival?_eq_some.1 hg
    obtain ⟨hmem, hmatched⟩ := (hw.chosen_iff hsound ha group first).1 hc
    obtain ⟨t, ht, hkt⟩ := (hw.matched_iff first).1 hmatched
    -- both are members of the group, so they are one
    obtain rfl := hsel.exclusive (List.mem_append_left _ ht)
      (List.mem_append_right _ (by simp [hr] : token ∈ w.rest)) ⟨first, hmem, hkt⟩
      ⟨id, mem_members_of_group ha hf hfg, hkeyed⟩
    obtain rfl := Option.some.inj (hkt.symm.trans hkeyed)
    exact absurd (hm.symm.trans hmatched) Bool.false_ne_true
  | @help token rest id flag hr hk hm hg hhelp =>
    obtain ⟨-, hf, hft⟩ := keyFlag?_eq_some ha.toLinked hk
    obtain ⟨f, hf', hfk, -⟩ := ha.help_flag hhelp
    obtain rfl := Option.some.inj (hf'.symm.trans hf)
    refine absurd ?_ (hh (by simp [hhelp]))
    simp [hr, ← hft, hfk]
  | refused hr hk ht =>
    rw [hw.top, hs.taker?_eq_none] at ht
    cases ht
  | lacking hn hshort =>
    rcases hr : w.rest with _ | ⟨token, rest⟩
    · rw [hr, List.append_nil] at hsel
      cases hshort.symm.trans (hw.shortfall?_eq_none hsound ha hs hsel)
    · exact absurd (hn token rest hr).1 (hnext hr)
  | parsed => rfl
  | leftover hf hr hk => exact absurd hk (hnext hr)

end Ends

section Passes

theorem exists_picks (ha : s.WellFormed) (hs : s.IsFlat) (tokens : List String) :
    ∃ w last, s.Picks w ∧ s.Sound w ∧ w.consumed ++ w.rest = tokens ∧
      s.Halt w last (s.parse tokens).2 ∧
      (s.parse tokens).1 = { last.pass with consumed := last.consumed } := by
  obtain ⟨w, last, hr, ho, hp⟩ := parse_halt ha tokens
  exact ⟨w, last, Picks.reaches ha hs hr, sound_of_reaches ha hr, tokens_eq_of_reaches hr, ho, hp⟩

theorem parse_ok_iff_isSelection (ha : s.WellFormed) (hs : s.IsFlat)
    (hh : s.help ≠ none → helpKey ∉ tokens) :
    (s.parse tokens).2 = .ok .parsed ↔ s.IsSelection tokens := by
  obtain ⟨w, last, hw, hsound, rfl, ho, hp⟩ := exists_picks ha hs tokens
  refine ⟨fun h => ?_, hw.parsed_of_isSelection hsound ha hs ho hh⟩
  have hmet := (complete_of_parsed ha h).root
  rw [h] at ho
  cases ho with
  | parsed hf hr hshort =>
    rw [hp] at hmet
    rw [hr, List.append_nil]
    exact hw.isSelection hsound ha ⟨hmet.flag, hmet.group, hmet.arg⟩

theorem parse_findsKeys (ha : s.WellFormed) (hs : s.IsFlat)
    (h : (s.parse tokens).2 = .ok .parsed) : s.FindsKeys (s.parse tokens).1 tokens := by
  obtain ⟨w, last, hw, hsound, rfl, ho, hp⟩ := exists_picks ha hs tokens
  rw [h] at ho
  cases ho with
  | parsed hf hr hshort =>
    rw [hp, hr, List.append_nil]
    exact ⟨hw.matched_iff, hw.chosen_iff hsound ha⟩

theorem IsSelection.of_perm (h : s.IsSelection tokens) (hp : tokens.Perm other) :
    s.IsSelection other where
  keyed token ht := h.keyed token (hp.mem_iff.2 ht)
  nodup := hp.nodup_iff.1 h.nodup
  exclusive ha hb := h.exclusive (hp.mem_iff.2 ha) (hp.mem_iff.2 hb)
  flag hk hf hg hm := hp.mem_iff.1 (h.flag hk hf hg hm)
  group hg hst hp' hm := by
    obtain ⟨token, ht, hk⟩ := h.group hg hst hp' hm
    exact ⟨token, hp.mem_iff.1 ht, hk⟩

theorem isSelection_perm (hp : tokens.Perm other) :
    s.IsSelection tokens ↔ s.IsSelection other :=
  ⟨fun h => h.of_perm hp, fun h => h.of_perm hp.symm⟩

theorem FindsKeys.isMatched_eq (h : s.FindsKeys p tokens) (h' : s.FindsKeys p' other)
    (hp : tokens.Perm other) (id : FlagId) : p.isMatched id = p'.isMatched id := by
  rw [Bool.eq_iff_iff, h.matched_iff, h'.matched_iff]
  exact exists_congr fun token => and_congr_left fun _ => hp.mem_iff

theorem FindsKeys.chosen?_eq (h : s.FindsKeys p tokens) (h' : s.FindsKeys p' other)
    (hp : tokens.Perm other) (group : GroupId) : p.chosen? group = p'.chosen? group := by
  refine Option.ext fun m => ?_
  rw [h.chosen_iff, h'.chosen_iff, h.isMatched_eq h' hp]

end Passes

end CommandGrammar.Scheme

namespace CommandGrammar.Session

/-- Whatever a session went through before, a flat scheme accepts exactly the selections of its
keys, and finds the same in each order of their tokens. -/
theorem after_parse_selection (script : List Call) (hs : (after script).scheme.IsFlat)
    (tokens : List String) (hh : (after script).scheme.help ≠ none → Scheme.helpKey ∉ tokens) :
    (((after script).parse tokens).2 = .ok .parsed ↔ (after script).scheme.IsSelection tokens) ∧
    (((after script).parse tokens).2 = .ok .parsed →
      (after script).scheme.FindsKeys ((after script).parse tokens).1.pass tokens) ∧
    ∀ other, tokens.Perm other →
      (((after script).parse other).2 = .ok .parsed ↔
        ((after script).parse tokens).2 = .ok .parsed) ∧
      (((after script).parse tokens).2 = .ok .parsed →
        (∀ id, ((after script).parse other).1.pass.isMatched id =
          ((after script).parse tokens).1.pass.isMatched id) ∧
        ∀ group, ((after script).parse other).1.pass.chosen? group =
          ((after script).parse tokens).1.pass.chosen? group) := by
  have ha := after_wellFormed script
  have hiff := Scheme.parse_ok_iff_isSelection ha hs hh
  refine ⟨hiff, Scheme.parse_findsKeys ha hs, fun other hp => ?_⟩
  have hh' : (after script).scheme.help ≠ none → Scheme.helpKey ∉ other :=
    fun h hmem => hh h (hp.mem_iff.2 hmem)
  have hsame : ((after script).parse other).2 = .ok .parsed ↔
      ((after script).parse tokens).2 = .ok .parsed :=
    calc ((after script).parse other).2 = .ok .parsed
        ↔ (after script).scheme.IsSelection other := Scheme.parse_ok_iff_isSelection ha hs hh'
      _ ↔ (after script).scheme.IsSelection tokens := (Scheme.isSelection_perm hp).symm
      _ ↔ ((after script).parse tokens).2 = .ok .parsed := hiff.symm
  refine ⟨hsame, fun h => ?_⟩
  have hfinds := Scheme.parse_findsKeys ha hs h
  have hfinds' := Scheme.parse_findsKeys ha hs (hsame.2 h)
  exact ⟨hfinds'.isMatched_eq hfinds hp.symm, hfinds'.chosen?_eq hfinds hp.symm⟩

/-- A flag that must be used, one of two others that must be, and a request for help. -/
def packScript : List Call :=
  [.register .help,
    .register (.flag Scheme.root "-c" .mandatory "Creates an archive."),
    .register (.group Scheme.root .mandatory),
    .register (.member ⟨0⟩ "-z" "Packs well."),
    .register (.member ⟨0⟩ "-f" "Packs fast."),
    .register (.flag Scheme.root "-v" .optional "Says more.")]

theorem pack_isFlat : (after packScript).scheme.IsFlat where
  no_args := by decide +kernel
  simple {key id f} hk hf := by
    have hall : ∀ f ∈ (after packScript).scheme.flags, f.children = none := by decide +kernel
    exact hall f (List.mem_of_getElem? hf)

theorem pack_parse_selection :
    (after packScript).scheme.IsSelection ["-v", "-z", "-c"] ∧
      ((after packScript).parse ["-c", "-v", "-z"]).2 = .ok .parsed := by
  have hh : (after packScript).scheme.help ≠ none → Scheme.helpKey ∉ ["-v", "-z", "-c"] :=
    fun _ => by decide
  have hok : ((after packScript).parse ["-v", "-z", "-c"]).2 = .ok .parsed := by decide +kernel
  obtain ⟨hiff, -, hperm⟩ := after_parse_selection packScript pack_isFlat ["-v", "-z", "-c"] hh
  exact ⟨hiff.1 hok, (hperm ["-c", "-v", "-z"] (by decide)).1.2 hok⟩

end CommandGrammar.Session
