import CommandGrammar.Proofs.Units

/-!
# The reading is the walk

The recursive reading of a command line and the machine with the explicit stack do the same. While a
store reads, the machine takes the same tokens with that store or one nested in it on top; when it
stops, the store is on top again and takes no further token, or the machine stops with it, for the
same reason. The counters of a store are those of its units at every moment, for what happens deeper
leaves them alone.
-/

namespace CommandGrammar.Scheme

open Relation

variable (s : Scheme)

/-- How the machine goes on while its innermost store reads: until that store can be closed, or
until the machine stops. -/
inductive Mirrors (w : Walk) : Ending → Pass → List String → Prop where
  | closed {w'} (h : ReflTransGen s.Advance w w') (hf : w'.frames = w.frames)
      (hn : s.Declines w') (hs : s.shortfall? w'.pass w'.top w'.rest = none)
      (hk : ∀ store : StoreId, store.index < w.top.index →
        s.metUnits w'.pass store = s.metUnits w.pass store) :
      Mirrors w .closed w'.pass w'.rest
  | help {w' last} (h : ReflTransGen s.Advance w w') (ho : s.Halt w' last (.ok .help)) :
      Mirrors w .help last.pass last.rest
  | failed {w' last e} (h : ReflTransGen s.Advance w w') (ho : s.Halt w' last (.error e)) :
      Mirrors w (.failed e) last.pass last.rest

variable {s} {w w₁ : Walk} {ending : Ending} {p : Pass} {rest : List String}

/-- What the machine did before, when that was the work of the same store. -/
theorem Mirrors.of_reaches (hm : s.Mirrors w₁ ending p rest) (h : ReflTransGen s.Advance w w₁)
    (hf : w₁.frames = w.frames) (hk : ∀ store : StoreId, store.index < w.top.index →
      s.metUnits w₁.pass store = s.metUnits w.pass store) : s.Mirrors w ending p rest := by
  rcases hm with ⟨h', hf', hn, hs, hk'⟩ | ⟨h', ho⟩ | ⟨h', ho⟩
  · have htop : w₁.top = w.top := by rw [Walk.top, Walk.top, hf]
    exact .closed (h.trans h') (hf'.trans hf) hn hs fun store hlt =>
      (hk' store (htop ▸ hlt)).trans (hk store hlt)
  · exact .help (h.trans h') ho
  · exact .failed (h.trans h') ho

/-- A machine that stops in a nested store stops the store under it as well. -/
theorem Mirrors.of_nested (hm : s.Mirrors w₁ ending p rest) (h : s.Advance w w₁)
    (he : ending ≠ .closed) : s.Mirrors w ending p rest := by
  rcases hm with _ | ⟨h', ho⟩ | ⟨h', ho⟩
  · exact absurd rfl he
  · exact .help (.head h h') ho
  · exact .failed (.head h h') ho

/-- A store that can be closed is on top of the stack that it was on top of. -/
theorem Mirrors.exists_of_closed (hm : s.Mirrors w .closed p rest) : ∃ consumed,
    ReflTransGen s.Advance w ⟨w.frames, p, consumed, rest⟩ ∧
      s.Declines ⟨w.frames, p, consumed, rest⟩ ∧ s.shortfall? p w.top rest = none ∧
      ∀ store : StoreId, store.index < w.top.index →
        s.metUnits p store = s.metUnits w.pass store := by
  rcases hm with @⟨⟨frames, p, consumed, rest⟩, h, rfl, hn, hs, hk⟩
  exact ⟨consumed, h, hn, hs, hk⟩

/-- A store that takes no token is done or lacks something. -/
theorem mirrors_close (ha : s.WellFormed) (hn : s.Declines w) :
    s.Mirrors w (s.close w.top (s.metUnits w.pass w.top) w.pass w.rest) w.pass w.rest := by
  unfold close
  rw [lack?_metUnits ha]
  rcases hs : s.shortfall? w.pass w.top w.rest with _ | e
  · exact .closed .refl rfl hn hs fun _ _ => rfl
  · exact .failed .refl (.lacking hn hs)

section Offer

variable {token : String} {id : ArgId}

theorem start_eq_ok {p p' : Pass} {id : FlagId} {flag : Flag} (h : s.start p id flag = .ok p') :
    p.isMatched id = false ∧ p.rival? flag = none ∧ p' = p.choosing id flag := by
  unfold start at h
  unfold Pass.rival? Pass.choosing
  split_ifs at h with hm
  rw [Bool.not_eq_true] at hm
  rcases hg : flag.group with _ | g <;> simp only [hg] at h ⊢
  · cases h
    exact ⟨hm, rfl, rfl⟩
  · split at h
    · cases h
      rename_i hc
      exact ⟨hm, by simp [hc], rfl⟩
    · cases h

theorem start_eq_error {id : FlagId} {flag : Flag} {e : ParseError} (hr : w.rest = token :: rest)
    (hk : s.keyFlag? w.top token = some (id, flag)) (h : s.start w.pass id flag = .error e) :
    s.Halt w w (.error e) := by
  unfold start at h
  split_ifs at h with hm
  · cases h
    exact .repeated hr hk hm
  · rw [Bool.not_eq_true] at hm
    rcases hg : flag.group with _ | g <;> simp only [hg] at h
    · cases h
    · split at h
      · cases h
      · cases h
        rename_i first hc
        exact .conflict hr hk hm (by simp [Pass.rival?, hg, hc])

/-- An offer ends at the first argument that does not pass the token over. -/
theorem offer_eq (p : Pass) (token : String) : ∀ ids : List ArgId,
    match s.offer p token ids with
    | .taken id policy v => (ids.findSome? fun id => (s.answer? p token id).map (id, ·)) =
        some (id, .ok v) ∧ ∃ arg, s.arg? id = some arg ∧ arg.policy = policy
    | .refused name reason => ∃ id, (ids.findSome? fun id => (s.answer? p token id).map (id, ·)) =
        some (id, .error (.conversionFailure name reason))
    | .declined => (ids.findSome? fun id => (s.answer? p token id).map (id, ·)) = none
  | [] => rfl
  | id :: ids => by
    have ih := offer_eq p token ids
    unfold offer
    rcases ha : s.arg? id with _ | arg
    · have : s.answer? p token id = none := by simp [answer?, ha]
      simpa only [List.findSome?_cons, this, Option.map_none] using ih
    · simp only []
      split_ifs with hf
      · have : s.answer? p token id = none := by simp [answer?, ha, hf]
        simpa only [List.findSome?_cons, this, Option.map_none] using ih
      · rcases hr : (arg.pipeline.run token).result with reason | v
        · rcases hp : arg.policy
          · have : s.answer? p token id = some (.error (.conversionFailure arg.name reason)) := by
              simp [answer?, ha, hf, hr, hp]
            exact ⟨id, by simp [this]⟩
          · have : s.answer? p token id = none := by simp [answer?, ha, hf, hr, hp]
            simpa only [List.findSome?_cons, this, Option.map_none] using ih
        · have : s.answer? p token id = some (.ok v) := by simp [answer?, ha, hf, hr]
          exact ⟨by simp [this], arg, ha, rfl⟩

end Offer

/-- No unit of a store is met when its flag is read for the first time. -/
theorem Sound.metUnits_child (hw : s.Sound w) (ha : s.WellFormed) {id : FlagId} {flag : Flag}
    {child : StoreId} (hf : s.flag? id = some flag) (hc : flag.children = some child)
    (hn : s.Home (.flag id) w.top) (hm : w.pass.isMatched id = false) :
    s.metUnits w.pass child = {} := by
  refine hw.metUnits_eq_zero ha fun hr => ?_
  rcases hr with hr | ⟨id', f, hf', hc', ht⟩
  · exact ha.child_ne_root hf hc hr
  · obtain rfl := ha.owner_unique hf' hf hc' hc
    exact hw.not_touched ha hn hm ht

/-- While a store reads, the machine does the same. -/
theorem readStore_mirrors (ha : s.WellFormed) (store : StoreId) (met : Met) (p : Pass)
    (tokens : List String) : ∀ frames consumed, s.Sound ⟨frames, p, consumed, tokens⟩ →
      Walk.topOf frames = store → s.metUnits p store = met →
      s.Mirrors ⟨frames, p, consumed, tokens⟩ (s.readStore store met p tokens).ending
        (s.readStore store met p tokens).pass (s.readStore store met p tokens).rest := by
  fun_induction readStore s store met p tokens with
  | case1 store met p =>
    rintro frames consumed hw rfl rfl
    exact mirrors_close (w := ⟨frames, p, consumed, []⟩) ha fun token rest h => by cases h
  | case2 store met p token rest id flag hk e he =>
    rintro frames consumed hw rfl rfl
    exact .failed .refl (start_eq_error (w := ⟨frames, p, consumed, token :: rest⟩) rfl hk he)
  | case3 store met p token rest id flag hk p' hp hh =>
    rintro frames consumed hw rfl rfl
    obtain ⟨hm, hg, rfl⟩ := start_eq_ok hp
    exact .help .refl (.help (w := ⟨frames, p, consumed, token :: rest⟩) rfl hk hm hg hh)
  | case4 store met p token rest id flag hk p' hp hh hc ih =>
    rintro frames consumed hw rfl rfl
    obtain ⟨hm, hg, rfl⟩ := start_eq_ok hp
    obtain ⟨hkey, hf, -⟩ := keyFlag?_eq_some ha.toLinked hk
    have hstep : s.Advance ⟨frames, p, consumed, token :: rest⟩ _ := .simple rfl hk hm hg hh hc
    have hst := hw.stands_choosing hf hg
    have hm' : (p.choosing id flag).isMatched id = false := by simpa using hm
    refine Mirrors.of_reaches (ih frames _ (hw.advance ha hstep) rfl ?_) (.single hstep) rfl ?_
    · rw [metUnits_complete ha hkey hf hst hm', metUnits_choosing hm hg]
    · intro store hlt
      have hn : ¬s.Home (.flag id) store := ha.not_home_of_lt ⟨token, hkey⟩ hlt
      exact (metUnits_complete_of_not_home ha hf hst hn).trans (metUnits_choosing hm hg)
  | case5 store met p token rest id flag hk p₁ hp hh child hc p₂ left hle hr r ihc ih =>
    rintro frames consumed hw rfl rfl
    obtain ⟨hm, hg, rfl⟩ := start_eq_ok hp
    obtain ⟨hkey, hf, -⟩ := keyFlag?_eq_some ha.toLinked hk
    have hstep : s.Advance ⟨frames, p, consumed, token :: rest⟩ _ := .nested rfl hk hm hg hh hc
    have hw₁ := hw.advance ha hstep
    have hzero : s.metUnits (p.choosing id flag) child = {} :=
      (metUnits_choosing hm hg).trans (hw.metUnits_child ha hf hc ⟨token, hkey⟩ hm)
    have hchild := ihc _ _ hw₁ rfl hzero
    rw [hr] at hchild
    obtain ⟨consumed', hreach, hn, hs, hlow⟩ := hchild.exists_of_closed
    have hclose : s.Advance ⟨⟨id, flag, child⟩ :: frames, p₂, consumed', left⟩
        ⟨frames, p₂.complete id flag, consumed', left⟩ := .close rfl hn hs
    have hw₂ := hw₁.reaches ha hreach
    have ho : Walk.IsOpen ⟨⟨id, flag, child⟩ :: frames, p₂, consumed', left⟩ id :=
      ⟨_, List.mem_cons_self, rfl⟩
    have hst : Stands p₂ id flag := hw₂.stands hf (.inr ho)
    -- the nested store left the counts of this one alone, so its flag is the one unit more
    refine Mirrors.of_reaches (ih frames _ (hw₂.advance ha hclose) rfl ?_)
      (.head hstep (hreach.tail hclose)) rfl ?_
    · rw [metUnits_complete ha hkey hf hst (hw₂.open_unmatched ho),
        hlow _ (ha.deeper hkey hf hc), metUnits_choosing hm hg]
    · intro store hlt
      have hn : ¬s.Home (.flag id) store := ha.not_home_of_lt ⟨token, hkey⟩ hlt
      calc s.metUnits (p₂.complete id flag) store
          = s.metUnits p₂ store := metUnits_complete_of_not_home ha hf hst hn
        _ = s.metUnits (p.choosing id flag) store := hlow _ (hlt.trans (ha.deeper hkey hf hc))
        _ = s.metUnits p store := metUnits_choosing hm hg
  | case6 store met p token rest id flag hk p₁ hp hh child hc hr ih =>
    rintro frames consumed hw rfl rfl
    obtain ⟨hm, hg, rfl⟩ := start_eq_ok hp
    obtain ⟨hkey, hf, -⟩ := keyFlag?_eq_some ha.toLinked hk
    have hstep : s.Advance ⟨frames, p, consumed, token :: rest⟩ _ := .nested rfl hk hm hg hh hc
    have hzero : s.metUnits (p.choosing id flag) child = {} :=
      (metUnits_choosing hm hg).trans (hw.metUnits_child ha hf hc ⟨token, hkey⟩ hm)
    refine (ih _ _ (hw.advance ha hstep) rfl hzero).of_nested hstep fun he => ?_
    rcases h : s.readStore child {} (p.choosing id flag) rest with ⟨ending, p', left, hle⟩
    rw [h] at he
    obtain rfl : ending = .closed := he
    exact hr p' left hle h
  | case7 store met p token rest hk id policy v ho ih =>
    rintro frames consumed hw rfl rfl
    have hoff := offer_eq (s := s) p token (s.argsOf (Walk.topOf frames))
    rw [ho] at hoff
    obtain ⟨ht, arg, harg, rfl⟩ := hoff
    have hstep : s.Advance ⟨frames, p, consumed, token :: rest⟩ _ := .fill rfl hk ht
    obtain ⟨hmem, hans⟩ := taker?_eq_some ht
    obtain ⟨hfill, -⟩ := answer?_eq_ok hans
    refine Mirrors.of_reaches (ih frames _ (hw.advance ha hstep) rfl ?_) (.single hstep) rfl ?_
    · exact metUnits_fill ha hmem harg hfill
    · intro store hlt
      exact metUnits_fill_of_not_mem (ha.not_home_of_lt (n := .arg id) hmem hlt)
  | case8 store met p token rest hk name reason ho =>
    rintro frames consumed hw rfl rfl
    have hoff := offer_eq (s := s) p token (s.argsOf (Walk.topOf frames))
    rw [ho] at hoff
    obtain ⟨id, ht⟩ := hoff
    exact .failed .refl (.refused (w := ⟨frames, p, consumed, token :: rest⟩) rfl hk ht)
  | case9 store met p token rest hk ho =>
    rintro frames consumed hw rfl rfl
    have hoff := offer_eq (s := s) p token (s.argsOf (Walk.topOf frames))
    rw [ho] at hoff
    refine mirrors_close (w := ⟨frames, p, consumed, token :: rest⟩) ha fun token' rest' h => ?_
    cases h
    exact ⟨hk, hoff⟩

theorem Advance.tokens_eq {w' : Walk} (h : s.Advance w w') :
    w'.consumed ++ w'.rest = w.consumed ++ w.rest := by
  cases h with
  | simple hr | nested hr | fill hr => simp [Walk.eat, hr]
  | close => rfl

theorem Halt.tokens_eq {last : Walk} {o : Except ParseError Outcome} (h : s.Halt w last o) :
    last.consumed ++ last.rest = w.consumed ++ w.rest := by
  cases h with
  | help hr => simp [Walk.eat, hr]
  | repeated | conflict | refused | lacking | parsed | leftover => rfl

theorem tokens_eq_of_reaches {w' : Walk} (h : ReflTransGen s.Advance w w') :
    w'.consumed ++ w'.rest = w.consumed ++ w.rest := by
  induction h with
  | refl => rfl
  | tail _ h ih => exact h.tokens_eq.trans ih

theorem take_length_sub {α : Type} {a b l : List α} (h : a ++ b = l) :
    l.take (l.length - b.length) = a := by
  subst h
  simp

theorem parse_eq_walk (ha : s.WellFormed) (tokens : List String) :
    s.parse tokens = ({ (s.walk { rest := tokens }).1.pass with
      consumed := (s.walk { rest := tokens }).1.consumed }, (s.walk { rest := tokens }).2) := by
  have hm := readStore_mirrors ha root {} {} tokens [] [] (sound_start tokens) rfl
    (metUnits_start root)
  unfold parse
  rcases hr : s.readStore root {} {} tokens with ⟨ending, p, rest, hle⟩
  rw [hr] at hm
  rcases ending with _ | _ | e
  · obtain ⟨consumed, h, hn, hs, -⟩ := hm.exists_of_closed
    have ht := take_length_sub (tokens_eq_of_reaches h)
    rw [walk_eq_of_reaches h]
    rcases rest with _ | ⟨token, rest⟩
    · rw [(Halt.parsed rfl rfl hs).walk_eq]
      simpa using ht
    · obtain ⟨hk, ho⟩ := hn token rest rfl
      rw [(Halt.leftover rfl rfl hk ho hs).walk_eq]
      simpa using ht
  · rcases hm with _ | ⟨h, ho⟩
    have ht := take_length_sub (ho.tokens_eq.trans (tokens_eq_of_reaches h))
    rw [walk_eq_of_reaches h, ho.walk_eq]
    simpa using ht
  · rcases hm with _ | _ | ⟨h, ho⟩
    have ht := take_length_sub (ho.tokens_eq.trans (tokens_eq_of_reaches h))
    rw [walk_eq_of_reaches h, ho.walk_eq]
    simpa using ht

theorem parse_halt (ha : s.WellFormed) (tokens : List String) :
    ∃ w last, ReflTransGen s.Advance { rest := tokens } w ∧ s.Halt w last (s.parse tokens).2 ∧
      (s.parse tokens).1 = { last.pass with consumed := last.consumed } := by
  obtain ⟨w, hr, ho⟩ := walk_reaches (s := s) { rest := tokens }
  rw [parse_eq_walk ha]
  exact ⟨w, _, hr, ho, rfl⟩

theorem parse_sound (ha : s.WellFormed) (tokens : List String) :
    ∃ last, s.Sound last ∧ (s.parse tokens).1 = { last.pass with consumed := last.consumed } := by
  obtain ⟨w, last, hr, ho, hp⟩ := parse_halt ha tokens
  exact ⟨last, (sound_of_reaches ha hr).halt ha ho, hp⟩

/-- After a pass, the arguments that have matched are those with a value. -/
theorem parse_isFilled (ha : s.WellFormed) (tokens : List String) (id : ArgId) :
    (s.parse tokens).1.isFilled id = ((s.parse tokens).1.value? id).isSome := by
  obtain ⟨last, hlast, hp⟩ := parse_sound ha tokens
  rw [hp]
  exact hlast.arg_value id

end CommandGrammar.Scheme

namespace CommandGrammar.Session

/-- A session reads a command line as the machine does: with the same outcome, the same nodes found,
the same triggers fired and the same tokens consumed. -/
theorem after_parse_walk (script : List Call) (tokens : List String) :
    (after script).parse tokens =
      let (last, outcome) := (after script).scheme.walk { rest := tokens }
      ({ after script with pass := { last.pass with consumed := last.consumed } }, outcome) := by
  unfold parse
  rw [Scheme.parse_eq_walk (after_wellFormed script)]

end CommandGrammar.Session
