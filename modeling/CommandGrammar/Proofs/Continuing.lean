import CommandGrammar.Proofs.Shortage

/-!
# One token more

A pass that lacks a flag has read all of its tokens. Behind the last one it has closed the stores
that lack nothing, from the innermost one to the one that lacks the flag. With one token more these
stores are still open, and the first of them that does not pass the token over decides about it.

So a key that is offered is not always consumed. A store that was closed may have the same key, and
is asked first: if its flag was used already, the pass fails there and does not come to the store
that offered the key.
-/

namespace CommandGrammar.Scheme

open Relation

variable (s : Scheme)

structure AtEnd (tokens : List String) (w : Walk) : Prop where
  reached : ReflTransGen s.Advance { rest := tokens } w
  rest_eq : w.rest = []

/-- The first state behind the last token in which one token more is not passed over. -/
structure Receives (tokens : List String) (token : String) (w : Walk) : Prop where
  at_end : s.AtEnd tokens w
  takes : ¬s.Declines (w.ahead [token])
  first : ∀ {v}, s.AtEnd tokens v → TransGen s.Advance v w → s.Declines (v.ahead [token])

/-- A store that is nested in the one that a pass stops in receives one token more, as the key of a
flag that was used, or that is in a group in which one was chosen. -/
inductive IsBarred (tokens : List String) (token : String) : Prop where
  | intro {w id flag} (hr : s.Receives tokens token w)
      (hn : TransGen s.Nests (s.stopsIn tokens) w.top)
      (hk : s.keyFlag? w.top token = some (id, flag)) (hu : s.isFree w.pass id = false)

/-- What becomes of a key behind the tokens of a pass that offers it. -/
structure Continues (tokens : List String) (key : String) : Prop where
  consumed : ¬s.IsBarred tokens key → (s.parse (tokens ++ [key])).1.consumed = tokens ++ [key]
  barred : s.IsBarred tokens key → (s.parse (tokens ++ [key])).1.consumed = tokens ∧
    ((s.parse (tokens ++ [key])).2 = .error (.repeatedFlag key) ∨
      ∃ first members, (s.parse (tokens ++ [key])).2 =
        .error (.exclusiveConflict first key members))

variable {s} {w w' v last : Walk} {tokens options : List String} {token key : String} {id : FlagId}
  {flag : Flag}

section Order

theorem size_lt_of_transGen (h : TransGen s.Advance w w') : w'.size < w.size := by
  induction h with
  | single h => exact h.size_lt
  | tail _ h ih => exact h.size_lt.trans ih

theorem Receives.eq_of_reaches (h : s.Receives tokens token w) (h' : s.Receives tokens token w')
    (hr : ReflTransGen s.Advance w w') : w = w' := by
  rcases reflTransGen_iff_eq_or_transGen.1 hr with heq | ht
  · exact heq.symm
  · exact absurd (h'.first h.at_end ht) h.takes

theorem Receives.unique (h : s.Receives tokens token w) (h' : s.Receives tokens token w') :
    w = w' := by
  rcases ReflTransGen.total_of_right_unique advance_rightUnique h.at_end.reached
    h'.at_end.reached with hr | hr
  · exact h.eq_of_reaches h' hr
  · exact (h'.eq_of_reaches h hr).symm

end Order

section End

theorem Advance.filled_of_end (h : s.Advance w w') (hr : w.rest = []) :
    s.Filled w.pass w.top := by
  cases h with
  | simple hr' | nested hr' | fill hr' => cases hr'.symm.trans hr
  | close hf hn hs => exact shortfall?_eq_none.1 hs

theorem Advance.nests_of_end (hw : s.Sound w) (h : s.Advance w w') (hr : w.rest = []) :
    s.Nests w'.top w.top := by
  cases h with
  | simple hr' | nested hr' | fill hr' => cases hr'.symm.trans hr
  | @close f frames hf hn hs =>
    have hc := hw.chain
    rw [hf] at hc
    obtain ⟨hflag, hchild, hk, -⟩ := hc
    have htop : w.top = f.store := congrArg Walk.topOf hf
    rw [htop]
    exact ⟨f.flag.key, f.owner, f.flag, hk, hflag, hchild⟩

/-- A store that passes one token more over is closed in front of it as well. -/
theorem Advance.close_ahead (h : s.Advance w w') (hr : w.rest = [])
    (hd : s.Declines (w.ahead [token])) : s.Advance (w.ahead [token]) (w'.ahead [token]) := by
  cases h with
  | simple hr' | nested hr' | fill hr' => cases hr'.symm.trans hr
  | close hf hn hs =>
    exact .close (w := w.ahead [token]) hf hd (shortfall?_eq_none.2 (shortfall?_eq_none.1 hs))

theorem nests_of_reaches (ha : s.WellFormed) (h : ReflTransGen s.Advance w last)
    (hw : s.Sound w) (hr : w.rest = []) : s.Below last.top w.top := by
  induction h using ReflTransGen.head_induction_on with
  | refl => exact .refl
  | head hstep hrest ih =>
    have hnil := rest_eq_nil_of_reaches (.single hstep) hr
    exact (ih (hw.advance ha hstep) hnil).tail (hstep.nests_of_end hw hr)

/-- On the way to the end a step is the same with one token more behind the last one. -/
theorem Advance.append (h : s.Advance w w') (hr : w.rest ≠ []) (token : String) :
    s.Advance (w.ahead (w.rest ++ [token])) (w'.ahead (w'.rest ++ [token])) := by
  obtain ⟨next, front, hne⟩ := List.exists_cons_of_ne_nil hr
  have hcut : w.rest = next :: (front ++ []) := by rw [hne, List.append_nil]
  obtain ⟨front', hr', hstep⟩ := h.ahead hcut
  rw [hne, hr', List.append_nil]
  exact hstep [token]

/-- A walk that could end with a store that does not pass one token more over comes to the first
such store, with that token. -/
theorem exists_first (h : ReflTransGen s.Advance v last) (hend : last.rest = [])
    (htakes : ¬s.Declines (last.ahead [token])) :
    ∃ w, ReflTransGen s.Advance v w ∧ ReflTransGen s.Advance w last ∧ w.rest = [] ∧
      ¬s.Declines (w.ahead [token]) ∧
      ReflTransGen s.Advance (v.ahead (v.rest ++ [token])) (w.ahead [token]) ∧
      ∀ u, ReflTransGen s.Advance v u → u.rest = [] → TransGen s.Advance u w →
        s.Declines (u.ahead [token]) := by
  have hback : ∀ {v u : Walk}, ReflTransGen s.Advance v u → ¬TransGen s.Advance u v :=
    fun h h' => (size_lt_of_transGen (h'.trans_left h)).false
  induction h using ReflTransGen.head_induction_on with
  | refl =>
    refine ⟨last, .refl, .refl, hend, htakes, ?_, fun u hu _ hu' => absurd hu' (hback hu)⟩
    rw [hend, List.nil_append]
  | @head v v' hstep hrest ih =>
    by_cases hv : v.rest = [] ∧ ¬s.Declines (v.ahead [token])
    · obtain ⟨hnil, ht⟩ := hv
      refine ⟨v, .refl, .head hstep hrest, hnil, ht, ?_, fun u hu _ hu' => absurd hu' (hback hu)⟩
      rw [hnil, List.nil_append]
    · obtain ⟨w, hvw, hwl, hnil, ht, hahead, hfirst⟩ := ih
      have hpass : v.rest = [] → s.Declines (v.ahead [token]) := fun hr =>
        not_not.1 fun hd => hv ⟨hr, hd⟩
      refine ⟨w, .head hstep hvw, hwl, hnil, ht, .head ?_ hahead, fun u hu hu₀ hu' => ?_⟩
      · by_cases hr : v.rest = []
        · have hr' := rest_eq_nil_of_reaches (.single hstep) hr
          rw [hr, hr', List.nil_append]
          exact hstep.close_ahead hr (hpass hr)
        · exact hstep.append hr token
      · rcases ReflTransGen.cases_head hu with rfl | ⟨x, hx, hxu⟩
        · exact hpass hu₀
        · obtain rfl := advance_rightUnique hstep hx
          exact hfirst u hxu hu₀ hu'

theorem AtEnd.exists_receives (h : s.AtEnd tokens last)
    (htakes : ¬s.Declines (last.ahead [token])) :
    ∃ w, s.Receives tokens token w ∧ ReflTransGen s.Advance w last ∧
      ReflTransGen s.Advance { rest := tokens ++ [token] } (w.ahead [token]) := by
  obtain ⟨w, hw, hwl, hnil, ht, hahead, hfirst⟩ := exists_first h.reached h.rest_eq htakes
  exact ⟨w, ⟨⟨hw, hnil⟩, ht, fun hv => hfirst _ hv.reached hv.rest_eq⟩, hwl, hahead⟩

theorem AtEnd.consumed_eq (h : s.AtEnd tokens w) : w.consumed = tokens := by
  simpa [h.rest_eq] using tokens_eq_of_reaches h.reached

end End

section Token

variable (ha : s.WellFormed) (hc : w.consumed = tokens)
  (h : ReflTransGen s.Advance { rest := tokens ++ [token] } (w.ahead [token]))

include ha hc h

theorem parse_consumed (hstep : s.Advance (w.ahead [token]) w')
    (hc' : w'.consumed = w.consumed ++ [token]) :
    (s.parse (tokens ++ [token])).1.consumed = tokens ++ [token] := by
  rw [hc] at hc'
  exact (parse_viable ha (h.tail hstep) (hc' ▸ List.prefix_rfl)).1

theorem parse_of_free (hk : s.keyFlag? w.top token = some (id, flag))
    (hfree : s.isFree w.pass id = true) :
    (s.parse (tokens ++ [token])).1.consumed = tokens ++ [token] := by
  obtain ⟨-, hf, -⟩ := keyFlag?_eq_some ha.toLinked hk
  obtain ⟨hm, hg⟩ := (isFree_iff hf).1 hfree
  by_cases hh : s.help = some id
  · rw [parse_of_halt ha h (.help (w := w.ahead [token]) rfl hk hm hg hh)]
    exact congrArg (· ++ [token]) hc
  · rcases hch : flag.children with _ | child
    · exact parse_consumed ha hc h (.simple (w := w.ahead [token]) rfl hk hm hg hh hch) rfl
    · exact parse_consumed ha hc h (.nested (w := w.ahead [token]) rfl hk hm hg hh hch) rfl

theorem parse_of_used (hk : s.keyFlag? w.top token = some (id, flag))
    (hu : s.isFree w.pass id = false) :
    (s.parse (tokens ++ [token])).1.consumed = tokens ∧
      ((s.parse (tokens ++ [token])).2 = .error (.repeatedFlag token) ∨
        ∃ first members, (s.parse (tokens ++ [token])).2 =
          .error (.exclusiveConflict first token members)) := by
  obtain ⟨-, hf, rfl⟩ := keyFlag?_eq_some ha.toLinked hk
  rcases hm : w.pass.isMatched id with _ | _
  · obtain ⟨⟨g, m⟩, hg⟩ : ∃ r, w.pass.rival? flag = some r := by
      rw [← Option.ne_none_iff_exists']
      intro hg
      exact Bool.false_ne_true (hu.symm.trans ((isFree_iff hf).2 ⟨hm, hg⟩))
    rw [parse_of_halt ha h (.conflict (w := w.ahead _) rfl hk hm hg)]
    exact ⟨hc, .inr ⟨_, _, rfl⟩⟩
  · rw [parse_of_halt ha h (.repeated (w := w.ahead _) rfl hk hm)]
    exact ⟨hc, .inl rfl⟩

end Token

section Offered

/-- A store that lacks no argument refuses no token. -/
theorem taker?_ne_error {p : Pass} {store : StoreId} (hs : s.lacksArg p store = false)
    {arg : ArgId} {e : ParseError} : s.taker? p store token ≠ some (arg, .error e) := by
  intro ht
  obtain ⟨hmem, hans⟩ := taker?_eq_some ht
  obtain ⟨hfill, a, -, ⟨harg, hp, -⟩, -⟩ := answer?_eq_error hans
  have hmet := lacksArg_eq_false.1 hs arg hmem (by simp [argPolicy?, harg, hp])
  exact Bool.false_ne_true (hfill.symm.trans hmet)

theorem Receives.key_or_arg (hw : s.Receives tokens token w)
    (h : (∃ id flag, s.keyFlag? w.top token = some (id, flag)) ∨
      s.lacksArg w.pass w.top = false) :
    (∃ id flag, s.keyFlag? w.top token = some (id, flag)) ∨
      s.keyFlag? w.top token = none ∧ ∃ arg v, s.taker? w.pass w.top token = some (arg, .ok v) := by
  rcases hk : s.keyFlag? w.top token with _ | ⟨id, flag⟩
  · have hs : s.lacksArg w.pass w.top = false := by simpa [hk] using h
    refine .inr ⟨rfl, ?_⟩
    rcases ht : s.taker? w.pass w.top token with _ | ⟨arg, e | v⟩
    · refine absurd ?_ hw.takes
      rintro token' rest h'
      cases h'
      exact ⟨hk, ht⟩
    · exact absurd ht (taker?_ne_error hs)
    · exact ⟨arg, v, rfl⟩
  · exact .inl ⟨id, flag, rfl⟩

/-- The state that receives a token is the last one, or its store is closed. -/
theorem AtEnd.eq_or_nested (ha : s.WellFormed) (hw : s.AtEnd tokens w)
    (h : ReflTransGen s.Advance w last) :
    w = last ∨ s.Filled w.pass w.top ∧ TransGen s.Nests last.top w.top := by
  rcases ReflTransGen.cases_head h with heq | ⟨w', hstep, hrest⟩
  · exact .inl heq
  · have hs := sound_of_reaches ha hw.reached
    have hnil := rest_eq_nil_of_reaches (.single hstep) hw.rest_eq
    have hbelow := nests_of_reaches ha hrest (hs.advance ha hstep) hnil
    exact .inr ⟨hstep.filled_of_end hw.rest_eq,
      .tail' hbelow (hstep.nests_of_end hs hw.rest_eq)⟩

/-- A token is barred by the one state that receives it. -/
theorem IsBarred.of_receives (h : s.IsBarred tokens token) (hw : s.Receives tokens token w) :
    ∃ id flag, s.keyFlag? w.top token = some (id, flag) ∧ s.isFree w.pass id = false := by
  obtain ⟨hr, -, hk, hu⟩ := h
  obtain rfl := hr.unique hw
  exact ⟨_, _, hk, hu⟩

theorem AtEnd.continues (ha : s.WellFormed) (h : s.AtEnd tokens last)
    (hstop : s.stopsIn tokens = last.top) (hk : s.keyFlag? last.top key = some (id, flag))
    (hfree : s.isFree last.pass id = true) : s.Continues tokens key := by
  have htakes : ¬s.Declines (last.ahead [key]) := fun hd => by
    cases (hd key [] rfl).1.symm.trans hk
  obtain ⟨w, hw, hwl, hahead⟩ := h.exists_receives htakes
  have hc := hw.at_end.consumed_eq
  have hclosed := hw.at_end.eq_or_nested ha hwl
  have hkey : (∃ id flag, s.keyFlag? w.top key = some (id, flag)) ∨
      s.lacksArg w.pass w.top = false := by
    rcases hclosed with rfl | ⟨hs, -⟩
    · exact .inl ⟨id, flag, hk⟩
    · exact .inr hs.2
  rcases hw.key_or_arg hkey with ⟨id', flag', hk'⟩ | ⟨hk', arg, v, ht⟩
  · rcases hu : s.isFree w.pass id' with _ | _
    · -- the last state has a use for the key, so a store that was closed is in its way
      have hnested : TransGen s.Nests last.top w.top := by
        rcases hclosed with rfl | ⟨-, hn⟩
        · cases hk.symm.trans hk'
          exact absurd (hu.symm.trans hfree) Bool.false_ne_true
        · exact hn
      exact ⟨fun hno => absurd ⟨hw, hstop ▸ hnested, hk', hu⟩ hno,
        fun _ => parse_of_used ha hc hahead hk' hu⟩
    · refine ⟨fun _ => parse_of_free ha hc hahead hk' hu, fun hbar => ?_⟩
      obtain ⟨id'', flag'', hk'', hu'⟩ := hbar.of_receives hw
      cases hk'.symm.trans hk''
      exact absurd (hu'.symm.trans hu) Bool.false_ne_true
  · refine ⟨fun _ => parse_consumed ha hc hahead (.fill (w := w.ahead [key]) rfl hk' ht) rfl,
      fun hbar => ?_⟩
    obtain ⟨id'', flag'', hk'', -⟩ := hbar.of_receives hw
    cases hk'.symm.trans hk''

theorem parse_offered (ha : s.WellFormed)
    (h : (s.parse tokens).2 = .error (.missingMandatoryFlag options)) :
    ∃ ids, s.NamesFlags (s.parse tokens).1 (s.stopsIn tokens) ids options ∧
      ∀ id ∈ ids, ∀ key, s.key? id = some key → s.Continues tokens key := by
  obtain ⟨ids, hids⟩ := (parse_namesOptions ha tokens).missing h
  refine ⟨ids, hids, fun id hid key hkey => ?_⟩
  obtain ⟨w, hreach, ho⟩ := walk_reaches (s := s) { rest := tokens }
  rw [parse_eq_walk ha] at h hids
  dsimp only at h
  rw [h] at ho
  obtain ⟨hr⟩ := ho.reports ha (.inl rfl)
  obtain ⟨key', hk'⟩ := hids.keyed hid
  have hmem := ha.key_eq ((keyed?_eq_some_iff ha.toLinked).1 hk')
  obtain rfl := Option.some.inj (hkey.symm.trans hmem)
  obtain ⟨flag, hf, -⟩ := exists_flag_of_key? hkey
  have hk : s.keyFlag? (s.stopsIn tokens) key = some (id, flag) := by simp [keyFlag?, hk', hf]
  have hfree := (exists_start_iff hf).1 ((hids.startable hk).1 hid)
  have hlast := ho.eq_of_error
  unfold stopsIn at hk
  rw [hlast] at hk hfree
  have hend : s.AtEnd tokens w := ⟨hreach, hr⟩
  exact hend.continues ha (congrArg Walk.top hlast) hk hfree

end Offered

end CommandGrammar.Scheme

namespace CommandGrammar.Session

/-- Whatever a session went through before: when a flag is missing, each key that the error offers
is consumed behind the tokens, unless a store that was closed at their end bars it. -/
theorem after_parse_offered (script : List Call) (tokens options : List String)
    (h : ((after script).parse tokens).2 = .error (.missingMandatoryFlag options)) :
    ∃ ids, (after script).scheme.NamesFlags ((after script).parse tokens).1.pass
        ((after script).scheme.stopsIn tokens) ids options ∧
      ∀ id ∈ ids, ∀ key, (after script).scheme.key? id = some key →
        (after script).scheme.Continues tokens key :=
  Scheme.parse_offered (after_wellFormed script) h

/-- Two stores that share a key, and a flag that only the outer one has. -/
def addScript : List Call :=
  [.register (.complexFlag Scheme.root "add" .optional "Adds a file."),
    .register (.flag ⟨1⟩ "-v" .optional "Shows the file."),
    .register (.flag Scheme.root "-v" .mandatory "Says more."),
    .register (.flag Scheme.root "-o" .mandatory "Writes a log.")]

theorem add_parse_offered :
    ((after addScript).parse ["add", "-v"]).2 = .error (.missingMandatoryFlag ["-v", "-o"]) ∧
      (after addScript).scheme.Continues ["add", "-v"] "-v" ∧
      (after addScript).scheme.Continues ["add", "-v"] "-o" := by
  have h : ((after addScript).parse ["add", "-v"]).2 =
      .error (.missingMandatoryFlag ["-v", "-o"]) := by decide +kernel
  obtain ⟨ids, hids, hkeys⟩ := after_parse_offered addScript _ _ h
  have hroot : (after addScript).scheme.stopsIn ["add", "-v"] = Scheme.root := by decide +kernel
  rw [hroot] at hids
  have hv : (after addScript).scheme.keyFlag? Scheme.root "-v" = some (⟨2⟩, _) := rfl
  have ho : (after addScript).scheme.keyFlag? Scheme.root "-o" = some (⟨3⟩, _) := rfl
  have hfree : ∀ id ∈ [(⟨2⟩ : FlagId), ⟨3⟩], (after addScript).scheme.isFree
      ((after addScript).parse ["add", "-v"]).1.pass id = true := by decide +kernel
  have hv₁ := (hids.startable hv).2 ((Scheme.exists_start_iff rfl).2 (hfree _ (by decide)))
  have ho₁ := (hids.startable ho).2 ((Scheme.exists_start_iff rfl).2 (hfree _ (by decide)))
  exact ⟨h, hkeys _ hv₁ _ rfl, hkeys _ ho₁ _ rfl⟩

/-- The inner store gets the key that the outer one offers, and has no use for it. -/
theorem add_bars_offered :
    ((after addScript).parse ["add", "-v"]).2 = .error (.missingMandatoryFlag ["-v", "-o"]) ∧
      ((after addScript).parse ["add", "-v", "-v"]).1.pass.consumed = ["add", "-v"] ∧
      ((after addScript).parse ["add", "-v", "-v"]).2 = .error (.repeatedFlag "-v") := by
  decide +kernel

end CommandGrammar.Session
