import CommandGrammar.Proofs.Accounting
import CommandGrammar.Proofs.Lookahead

/-!
# When a node takes its token

A step of a walk consumes one token for one node, or none for none. A node keeps its token, so there
is one moment at which it takes it. Two nodes take theirs at two moments, the later of which has
more tokens behind it.
-/

namespace CommandGrammar

/-- A state has all that another one has. -/
structure Walk.Grows (w w' : Walk) : Prop where
  touched : ∀ {n}, w.Touched n → w'.Touched n
  consumed : w.consumed <+: w'.consumed
  pass : w.pass.Grows w'.pass

theorem Walk.Grows.refl (w : Walk) : w.Grows w :=
  ⟨fun h => h, List.prefix_rfl, fun h => h, fun h => h, fun h => h, fun h => h⟩

theorem Walk.Grows.trans {w w' w'' : Walk} (h : w.Grows w') (h' : w'.Grows w'') : w.Grows w'' :=
  ⟨fun hn => h'.touched (h.touched hn), h.consumed.trans h'.consumed, h.pass.trans h'.pass⟩

namespace Scheme

open Relation

variable (s : Scheme)

/-- What follows a state of the machine: the next one, or the last one. -/
inductive Moves (w w' : Walk) : Prop where
  | advance (h : s.Advance w w')
  | halt {o} (h : s.Halt w w' o)

/-- What a step does to the nodes: it consumes a token for a new one of the innermost store, whose
token it is, or leaves them as they are. -/
inductive Touches (w w' : Walk) : Prop where
  | none (hc : w'.consumed = w.consumed) (ht : ∀ m, w'.Touched m ↔ w.Touched m)
  | one {token n} (hn : s.Home n w.top) (hnew : ¬w.Touched n) (he : s.Explains w'.pass token n)
      (hc : w'.consumed = w.consumed ++ [token]) (ht : ∀ m, w'.Touched m ↔ w.Touched m ∨ m = n)

/-- In a step of a pass, a node takes the next token; it had none before. -/
structure Consumes (tokens : List String) (w : Walk) (token : String) (n : Node) : Prop where
  reached : ReflTransGen s.Advance { rest := tokens } w
  before : ¬w.Touched n
  after : ∃ w', s.Moves w w' ∧ w'.consumed = w.consumed ++ [token] ∧ w'.Touched n

variable {s} {w w' u v last : Walk} {tokens : List String} {token token' : String} {n m : Node}
  {o : Except ParseError Outcome}

section Steps

theorem Moves.sound (hw : s.Sound w) (ha : s.WellFormed) (h : s.Moves w w') : s.Sound w' := by
  cases h with
  | advance h => exact hw.advance ha h
  | halt h => exact hw.halt ha h

theorem Moves.unique (h : s.Moves w u) (h' : s.Moves w v) : u = v := by
  rcases h with h | h <;> rcases h' with h' | h'
  · exact advance_rightUnique h h'
  · cases h.step_eq.symm.trans h'.step_eq
  · cases h.step_eq.symm.trans h'.step_eq
  · cases h.step_eq.symm.trans h'.step_eq
    rfl

theorem Moves.tokens_eq (h : s.Moves w w') :
    w'.consumed ++ w'.rest = w.consumed ++ w.rest := by
  cases h with
  | advance h => exact h.tokens_eq
  | halt h => exact h.tokens_eq

theorem Moves.pass_grows (h : s.Moves w w') : w.pass.Grows w'.pass := by
  cases h with
  | advance h => exact h.grows
  | halt h =>
    cases h with
    | help => exact Pass.grows_choosing.trans Pass.grows_mark
    | repeated | conflict | refused | lacking | parsed | leftover => exact (Walk.Grows.refl w).pass

/-- The key of a flag is consumed for a flag that was untouched. -/
theorem touches_key (hw : s.Sound w) (ha : s.WellFormed) {id : FlagId} {flag : Flag}
    (hk : s.keyFlag? w.top token = some (id, flag)) (hm : w.pass.isMatched id = false)
    (hc : w'.consumed = w.consumed ++ [token])
    (ht : ∀ m, w'.Touched m ↔ w.Touched m ∨ m = .flag id) : s.Touches w w' := by
  obtain ⟨hkey, hf, hft⟩ := keyFlag?_eq_some ha.toLinked hk
  have hn : s.Home (.flag id) w.top := ⟨token, hkey⟩
  have he : s.key? id = some token := by simp [key?, hf, hft]
  exact .one hn (hw.not_touched ha hn hm) he hc ht

theorem Moves.touches (hw : s.Sound w) (ha : s.WellFormed) (h : s.Moves w w') :
    s.Touches w w' := by
  cases h with
  | advance h =>
    cases h with
    | @simple token rest id flag hr hk hm hg hh hc =>
      rw [Pass.complete_eq]
      exact touches_key hw ha hk hm rfl (touched_mark w token rest _)
    | @nested token rest id flag store hr hk hm hg hh hc =>
      exact touches_key hw ha hk hm rfl (touched_descend w token rest store)
    | @fill token rest id v hr hk ht =>
      obtain ⟨hn, hans⟩ := taker?_eq_some ht
      obtain ⟨hf, arg, harg, hv⟩ := answer?_eq_ok hans
      have hnone : w.pass.value? id = none := by simpa [hw.arg_value] using hf
      have he : s.Explains (w.pass.fill id v) token (.arg id) :=
        ⟨arg, v, harg, hv, by simp [Pass.value?_fill, hnone]⟩
      exact .one (n := .arg id) hn (fun h => Bool.false_ne_true (hf.symm.trans h)) he rfl
        (touched_fill w token rest id v)
    | close hf hn hs => exact .none rfl (touched_close hf)
  | halt h =>
    cases h with
    | @help token rest id flag hr hk hm hg hh =>
      exact touches_key hw ha hk hm rfl (touched_mark w token rest _)
    | repeated | conflict | refused | lacking | parsed | leftover =>
      exact .none rfl fun _ => .rfl

theorem Moves.grows (hw : s.Sound w) (ha : s.WellFormed) (h : s.Moves w w') : w.Grows w' := by
  rcases h.touches hw ha with ⟨hc, ht⟩ | ⟨-, -, -, hc, ht⟩
  · exact ⟨(ht _).2, hc ▸ List.prefix_rfl, h.pass_grows⟩
  · exact ⟨fun hn => (ht _).2 (.inl hn), hc ▸ List.prefix_append _ _, h.pass_grows⟩

theorem grows_of_reaches (hw : s.Sound w) (ha : s.WellFormed) (h : ReflTransGen s.Advance w w') :
    w.Grows w' := by
  induction h with
  | refl => exact .refl w
  | tail hr h ih => exact ih.trans (Moves.grows (hw.reaches ha hr) ha (.advance h))

/-- Of two states that a pass comes to, it comes from one to the other. -/
theorem trichotomy_of_reaches (hw : ReflTransGen s.Advance { rest := tokens } w)
    (hv : ReflTransGen s.Advance { rest := tokens } v) :
    w = v ∨ TransGen s.Advance w v ∨ TransGen s.Advance v w := by
  rcases ReflTransGen.total_of_right_unique advance_rightUnique hw hv with h | h
  · rcases reflTransGen_iff_eq_or_transGen.1 h with h | h
    · exact .inl h.symm
    · exact .inr (.inl h)
  · rcases reflTransGen_iff_eq_or_transGen.1 h with h | h
    · exact .inl h
    · exact .inr (.inr h)

/-- Every step of a pass is on the way to its end. -/
theorem Moves.exists_last (ha : s.WellFormed) (hw : ReflTransGen s.Advance { rest := tokens } w)
    (h : s.Moves w w') : ∃ last : Walk, w'.Grows last ∧
      (s.parse tokens).1 = { last.pass with consumed := last.consumed } := by
  cases h with
  | advance h =>
    have hr := hw.tail h
    have hw' := sound_of_reaches ha hr
    obtain ⟨v, hv, ho⟩ := walk_reaches (s := s) w'
    have hlast := Moves.grows (hw'.reaches ha hv) ha (.halt ho)
    refine ⟨_, (grows_of_reaches hw' ha hv).trans hlast, ?_⟩
    rw [parse_of_halt ha (hr.trans hv) ho]
  | halt ho =>
    refine ⟨w', .refl w', ?_⟩
    rw [parse_of_halt ha hw ho]

end Steps

section Moments

theorem Consumes.sound (h : s.Consumes tokens w token n) (ha : s.WellFormed) : s.Sound w :=
  sound_of_reaches ha h.reached

theorem Consumes.exists_rest (h : s.Consumes tokens w token n) :
    ∃ rest, w.rest = token :: rest := by
  obtain ⟨w', hm, hc, -⟩ := h.after
  have ht := hm.tokens_eq
  rw [hc, List.append_assoc] at ht
  exact ⟨w'.rest, (List.append_cancel_left ht).symm⟩

/-- At its moment, a node is one of the innermost store, and the only one that takes a token. -/
theorem Consumes.touches (h : s.Consumes tokens w token n) (ha : s.WellFormed)
    (hm : s.Moves w w') : s.Home n w.top ∧ s.Explains w'.pass token n ∧
      w'.consumed = w.consumed ++ [token] ∧ ∀ m, w'.Touched m ↔ w.Touched m ∨ m = n := by
  obtain ⟨w₁, hm₁, hc, hn⟩ := h.after
  obtain rfl := hm.unique hm₁
  rcases hm.touches (h.sound ha) ha with ⟨-, ht⟩ | @⟨token', n', hhome, -, he, hc', ht⟩
  · exact absurd ((ht n).1 hn) h.before
  · obtain rfl := ((ht n).1 hn).resolve_left h.before
    obtain rfl : token = token' := by simpa [hc'] using hc.symm
    exact ⟨hhome, he, hc, ht⟩

theorem Consumes.home (h : s.Consumes tokens w token n) (ha : s.WellFormed) : s.Home n w.top := by
  obtain ⟨w', hm, -⟩ := h.after
  exact (h.touches ha hm).1

/-- The token that a node took is its own in the end: its key, or what its value was converted
from. -/
theorem Consumes.explains (h : s.Consumes tokens w token n) (ha : s.WellFormed) :
    s.Explains (s.parse tokens).1 token n := by
  obtain ⟨w', hm, -⟩ := h.after
  obtain ⟨last, hgrow, hp⟩ := hm.exists_last ha h.reached
  rw [hp]
  exact (h.touches ha hm).2.1.grows (hgrow.pass.trans Pass.grows_consumed)

/-- At every later moment the node has its token, and more tokens are consumed. -/
theorem Consumes.later (h : s.Consumes tokens w token n) (ha : s.WellFormed)
    (hr : TransGen s.Advance w v) : v.Touched n ∧ w.consumed.length < v.consumed.length := by
  obtain ⟨w', hstep, hr⟩ := TransGen.head'_iff.1 hr
  obtain ⟨-, -, hc, ht⟩ := h.touches ha (.advance hstep)
  have hgrow := grows_of_reaches ((h.sound ha).advance ha hstep) ha hr
  have hlen := hgrow.consumed.length_le
  rw [hc, List.length_append, List.length_singleton] at hlen
  exact ⟨hgrow.touched ((ht n).2 (.inr rfl)), hlen⟩

/-- A node has no token before its moment. -/
theorem Consumes.reaches_of_touched (h : s.Consumes tokens w token n) (ha : s.WellFormed)
    (hv : ReflTransGen s.Advance { rest := tokens } v) (hn : v.Touched n) :
    TransGen s.Advance w v := by
  rcases trichotomy_of_reaches h.reached hv with rfl | hr | hr
  · exact absurd hn h.before
  · exact hr
  · have hgrow := grows_of_reaches (sound_of_reaches ha hv) ha hr.to_reflTransGen
    exact absurd (hgrow.touched hn) h.before

theorem Consumes.unique (h : s.Consumes tokens w token n) (ha : s.WellFormed)
    (h' : s.Consumes tokens v token' n) : w = v := by
  rcases trichotomy_of_reaches h.reached h'.reached with hr | hr | hr
  · exact hr
  · exact absurd (h.later ha hr).1 h'.before
  · exact absurd (h'.later ha hr).1 h.before

/-- Two nodes take their tokens one after the other. -/
theorem Consumes.compare (h : s.Consumes tokens w token n) (ha : s.WellFormed)
    (h' : s.Consumes tokens v token' m) (hne : n ≠ m) :
    TransGen s.Advance w v ∨ TransGen s.Advance v w := by
  rcases trichotomy_of_reaches h.reached h'.reached with rfl | hr
  · obtain ⟨w', hm, -, hn⟩ := h'.after
    rcases ((h.touches ha hm).2.2.2 m).1 hn with hm | hm
    · exact absurd hm h'.before
    · exact absurd hm.symm hne
  · exact hr

/-- A consumed token stands behind those that were consumed before. -/
theorem Consumes.getElem? (h : s.Consumes tokens w token n) (ha : s.WellFormed) :
    (s.parse tokens).1.consumed[w.consumed.length]? = some token := by
  obtain ⟨w', hm, hc, -⟩ := h.after
  obtain ⟨last, hgrow, hp⟩ := hm.exists_last ha h.reached
  obtain ⟨more, hmore⟩ := hgrow.consumed
  rw [hp, ← hmore, hc]
  simp

/-- What gets a token in a step takes it at that moment. -/
theorem Moves.consumes (ha : s.WellFormed) (hr : ReflTransGen s.Advance { rest := tokens } w)
    (hm : s.Moves w w') (hold : ¬w.Touched n) (hn : w'.Touched n) :
    ∃ token, s.Consumes tokens w token n := by
  rcases hm.touches (sound_of_reaches ha hr) ha with ⟨-, ht⟩ | ⟨-, -, -, hc, -⟩
  · exact absurd ((ht n).1 hn) hold
  · exact ⟨_, hr, hold, w', hm, hc, hn⟩

theorem exists_consumes (ha : s.WellFormed) (h : ReflTransGen s.Advance { rest := tokens } w)
    (hn : w.Touched n) : ∃ v token, s.Consumes tokens v token n := by
  induction h with
  | refl =>
    have := (trail_start (s := s) tokens).mem_iff n
    simp [hn] at this
  | @tail u w hr h ih =>
    by_cases hu : u.Touched n
    · exact ih hu
    · obtain ⟨token, hc⟩ := Moves.consumes ha hr (.advance h) hu hn
      exact ⟨u, token, hc⟩

/-- Every node that has a token in the end took it at some moment. -/
theorem Halt.exists_consumes (ha : s.WellFormed)
    (hr : ReflTransGen s.Advance { rest := tokens } w) (h : s.Halt w last o)
    (hn : last.Touched n) : ∃ v token, s.Consumes tokens v token n := by
  by_cases hw : w.Touched n
  · exact Scheme.exists_consumes ha hr hw
  · obtain ⟨token, hc⟩ := Moves.consumes ha hr (.halt h) hw hn
    exact ⟨w, token, hc⟩

end Moments

end Scheme

end CommandGrammar
