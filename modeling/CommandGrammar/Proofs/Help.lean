import CommandGrammar.Proofs.Completeness
import CommandGrammar.Proofs.Triggers
import CommandGrammar.Proofs.Turns

/-!
# Requests for help

The flag that asks for help is one of the root, and no store leads back to the root. So the root
alone ends its reading with a request for help, whatever other stores make of the same token as a
key or as an argument. No store is open then: what was entered before lacks nothing, only the root
may, and nothing is read behind the request.
-/

namespace CommandGrammar.Scheme

open Relation

variable (s : Scheme)

/-- The store of a turn reads the key of the flag that asks for help, and leaves `rest`. -/
structure Asks (t : Turn) (id : FlagId) (p : Pass) (rest : List String) : Prop where
  help : s.help = some id
  reads : ∃ token flag p', t.tokens = token :: rest ∧
    s.keyFlag? t.store token = some (id, flag) ∧ s.start t.pass id flag = .ok p' ∧ p = p'.mark id

/-- A pass ends with a request for help: the root has read its key as the last token, no flag is
left open, and nothing that must be there is missing in the store of a flag that has matched. -/
structure Asked (tokens : List String) (p : Pass) : Prop where
  last : ∃ before rest, tokens = before ++ helpKey :: rest ∧ p.consumed = before ++ [helpKey] ∧
    ∃ t id, s.Turns tokens t ∧ t.store = root ∧ t.tokens = helpKey :: rest ∧
      s.keyed? root helpKey = some id ∧ s.help = some id ∧ p.matched = t.pass.matched ++ [id]
  closed : s.openFlags tokens = []
  entered : ∀ {id f store}, s.flag? id = some f → f.children = some store →
    p.isMatched id = true → s.MandatoryMet p store

/-- Help is asked for in the root, and exactly when its flag has matched. The store of a flag never
ends its reading so. -/
structure HelpAtRoot (tokens : List String) (p : Pass) (outcome : Except ParseError Outcome) :
    Prop where
  matched_iff : outcome = .ok .help ↔ ∃ id, s.help = some id ∧ p.isMatched id = true
  asked : outcome = .ok .help → s.Asked tokens p
  nested : ∀ {store}, store ≠ root → ∀ met p rest, (s.readStore store met p rest).ending ≠ .help
  owned : ∀ {id f store}, s.flag? id = some f → f.children = some store →
    ∀ met p rest, (s.readStore store met p rest).ending ≠ .help

variable {s} {t t' : Turn} {tokens rest : List String} {id : FlagId} {p : Pass} {w : Walk}

section Turns

theorem close_ne_help (store : StoreId) (met : Met) (p : Pass) (rest : List String) :
    s.close store met p rest ≠ .help := by
  unfold close
  split <;> exact nofun

/-- A reading that ends with a request for help has the turn at which its key is read. -/
theorem exists_asks (store : StoreId) (met : Met) (p : Pass) (tokens : List String)
    (h : (s.readStore store met p tokens).ending = .help) :
    ∃ t id, ReflTransGen s.Follows ⟨store, met, p, tokens⟩ t ∧
      s.Asks t id (s.readStore store met p tokens).pass (s.readStore store met p tokens).rest := by
  fun_induction readStore s store met p tokens with
  | case1 => exact absurd h (close_ne_help _ _ _ _)
  | case2 => cases h
  | case3 store met p token rest id flag hk p' hp hh =>
    exact ⟨_, id, .refl, hh, token, flag, p', rfl, hk, hp, rfl⟩
  | case4 store met p token rest id flag hk p' hp hh hc ih =>
    obtain ⟨t, id', ht, hx⟩ := ih h
    exact ⟨t, id', .head (.simple hk hp hh hc) ht, hx⟩
  | case5 store met p token rest id flag hk p₁ hp hh child hc p₂ left hle hr r ihc ih =>
    obtain ⟨t, id', ht, hx⟩ := ih h
    exact ⟨t, id', .head (.leave hk hp hh hc hr) ht, hx⟩
  | case6 store met p token rest id flag hk p₁ hp hh child hc hr ih =>
    obtain ⟨t, id', ht, hx⟩ := ih h
    exact ⟨t, id', .head (.enter hk hp hh hc) ht, hx⟩
  | case7 store met p token rest hk id policy v ho ih =>
    obtain ⟨t, id', ht, hx⟩ := ih h
    exact ⟨t, id', .head (.fill hk ho) ht, hx⟩
  | case8 => cases h
  | case9 => exact absurd h (close_ne_help _ _ _ _)

theorem Follows.store_ne_root (ha : s.WellFormed) (h : s.Follows t t') (hr : t.store ≠ root) :
    t'.store ≠ root := by
  cases h with
  | simple | leave | fill => exact hr
  | enter hk hp hh hc =>
    obtain ⟨-, hf, -⟩ := keyFlag?_eq_some ha.toLinked hk
    exact ha.child_ne_root hf hc

theorem store_ne_root_of_follows (ha : s.WellFormed) (h : ReflTransGen s.Follows t t')
    (hr : t.store ≠ root) : t'.store ≠ root := by
  induction h with
  | refl => exact hr
  | tail _ h ih => exact h.store_ne_root ha ih

theorem help_mem_keysOf (ha : s.WellFormed) (hh : s.help = some id) :
    (helpKey, id) ∈ s.keysOf root := by
  obtain ⟨f, hf, hkey, -, -, hl⟩ := ha.help_flag hh
  obtain ⟨f', hf', -, hk⟩ := ha.flag_listed hl
  obtain rfl := Option.some.inj (hf'.symm.trans hf)
  rwa [hkey] at hk

/-- It is the root that reads the key, and the key is that of the flag. -/
theorem Asks.at_root (ha : s.WellFormed) (h : s.Asks t id p rest) :
    t.store = root ∧ t.tokens = helpKey :: rest := by
  obtain ⟨hh, token, flag, p', ht, hk, -, -⟩ := h
  obtain ⟨hkey, hf, hft⟩ := keyFlag?_eq_some ha.toLinked hk
  have hroot := help_mem_keysOf ha hh
  obtain ⟨f, hf', hfk⟩ := exists_flag_of_key? (ha.key_eq hroot)
  obtain rfl := Option.some.inj (hf'.symm.trans hf)
  exact ⟨ha.key_store_unique hkey hroot, by rw [ht, ← hft, hfk]⟩

theorem readStore_ending_ne_help (ha : s.WellFormed) {store : StoreId} (hr : store ≠ root)
    (met : Met) (p : Pass) (tokens : List String) :
    (s.readStore store met p tokens).ending ≠ .help := by
  intro h
  obtain ⟨t, id, ht, hx⟩ := exists_asks store met p tokens h
  exact store_ne_root_of_follows ha ht hr (hx.at_root ha).1

end Turns

section Passes

theorem Asks.halt (ha : s.WellFormed) (ho : s.OnTurn w t) (h : s.Asks t id p rest) :
    s.Halt w (w.eat helpKey rest p) (.ok .help) := by
  obtain ⟨hroot, htokens⟩ := h.at_root ha
  obtain ⟨hh, token, flag, p', ht, hk, hp, rfl⟩ := h
  obtain ⟨rfl, -⟩ := List.cons.inj (ht.symm.trans htokens)
  obtain ⟨hm, hg, rfl⟩ := start_eq_ok hp
  rw [← ho.top] at hk
  rw [← ho.pass] at hm hg ⊢
  exact .help (ho.rest.trans ht) hk hm hg hh

theorem help_unmatched_of_reaches (ha : s.WellFormed) (hh : s.help = some id)
    (h : ReflTransGen s.Advance { rest := tokens } w) : w.pass.isMatched id = false := by
  induction h with
  | refl => rfl
  | tail hr h ih =>
    cases h.completes (sound_of_reaches ha hr) ha with
    | none hm hf => rwa [Pass.isMatched, hm]
    | @one id' f hf hn hne hnew hs hm hfired =>
      have hid : id ≠ id' := by
        rintro rfl
        exact hne hh
      rw [Pass.isMatched, hm, List.contains_append, Bool.or_eq_false_iff]
      exact ⟨ih, by simpa using hid⟩

theorem ending_of_parse_help (h : (s.parse tokens).2 = .ok .help) :
    (s.readStore root {} {} tokens).ending = .help := by
  unfold parse at h
  rcases hr : s.readStore root {} {} tokens with ⟨ending, p, rest, hle⟩
  rw [hr] at h
  rcases ending with _ | _ | e
  · rcases rest with _ | ⟨token, rest⟩ <;> cases h
  · rfl
  · cases h

theorem parse_help_iff (ha : s.WellFormed) : (s.parse tokens).2 = .ok .help ↔
    ∃ id, s.help = some id ∧ (s.parse tokens).1.isMatched id = true := by
  obtain ⟨w, last, hr, ho, hp⟩ := parse_halt ha tokens
  rw [hp]
  generalize (s.parse tokens).2 = outcome at ho
  constructor
  · rintro rfl
    cases ho with
    | @help token rest id flag hr hk hm hg hh =>
      exact ⟨id, hh, by simp [Walk.eat, Pass.isMatched, Pass.mark]⟩
  · rintro ⟨id, hh, hm⟩
    have hnot := help_unmatched_of_reaches ha hh hr
    cases ho with
    | help => rfl
    | repeated | conflict | refused | lacking | parsed | leftover =>
      exact absurd (hnot.symm.trans hm) Bool.false_ne_true

theorem asked_of_help (ha : s.WellFormed) (h : (s.parse tokens).2 = .ok .help) :
    s.Asked tokens (s.parse tokens).1 := by
  obtain ⟨t, id, ht, hx⟩ := exists_asks root {} {} tokens (ending_of_parse_help h)
  obtain ⟨hroot, htokens⟩ := hx.at_root ha
  obtain ⟨w, hreach, ho⟩ := Turns.exists_walk ha ht
  have hhalt := hx.halt ha ho
  have hlast := (sound_of_reaches ha hreach).halt ha hhalt
  have hp := parse_of_halt ha hreach hhalt
  obtain ⟨hh, token, flag, p', -, -, hp', hmark⟩ := hx
  obtain ⟨-, -, rfl⟩ := start_eq_ok hp'
  refine ⟨⟨w.consumed, _, ?_, by rw [hp]; rfl, t, id, ht, hroot, htokens,
    (keyed?_eq_some_iff ha.toLinked).2 (help_mem_keysOf ha hh), hh, ?_⟩,
    (parse_accounted ha tokens).finished _ h, fun hf hc hm => ?_⟩
  · rw [← htokens, ← ho.rest]
    exact (tokens_eq_of_reaches hreach).symm
  · rw [hp]
    simp [Walk.eat, hmark, Pass.mark]
  · rw [hp] at hm ⊢
    exact (hlast.mandatoryMet ha (hlast.matched_filled hm hf hc)).with_consumed _

theorem parse_helpAtRoot (ha : s.WellFormed) (tokens : List String) :
    s.HelpAtRoot tokens (s.parse tokens).1 (s.parse tokens).2 where
  matched_iff := parse_help_iff ha
  asked := asked_of_help ha
  nested := readStore_ending_ne_help ha
  owned hf hc := readStore_ending_ne_help ha (ha.child_ne_root hf hc)

end Passes

end CommandGrammar.Scheme

namespace CommandGrammar.Session

/-- Whatever a session went through before, and however a pass ends, help is asked for in the root
alone. -/
theorem after_parse_help (script : List Call) (tokens : List String) :
    (after script).scheme.HelpAtRoot tokens ((after script).parse tokens).1.pass
      ((after script).parse tokens).2 :=
  Scheme.parse_helpAtRoot (after_wellFormed script) tokens

/-- An argument of a flag takes the token that asks for help in the root behind it. -/
example : ((after [.register .help,
      .register (.complexFlag Scheme.root "say" .optional "Says a word."),
      .register (.arg ⟨1⟩ ⟨"word", .mandatory, "The word.", Pipeline.text.map .text⟩),
      .register (.flag Scheme.root "-o" .mandatory "Writes a log.")]).parse
        ["say", "--help", "--help", "-o"]).2 = .ok .help := by
  decide +kernel

end CommandGrammar.Session
