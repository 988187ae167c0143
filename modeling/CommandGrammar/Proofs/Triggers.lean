import CommandGrammar.Proofs.Refinement

/-!
# Which triggers fire

The trigger of a flag fires when the flag has matched, and a flag matches once. So what was written
down in a pass can be read off the flags that have matched. The flag that asks for help is the
exception: the pass ends at its key, before its trigger could fire.
-/

namespace CommandGrammar

namespace Pass

variable (p : Pass) (id : FlagId) (flag : Flag)

@[simp]
theorem matched_choosing : (p.choosing id flag).matched = p.matched := by
  unfold choosing
  split <;> rfl

@[simp]
theorem fired_choosing : (p.choosing id flag).fired = p.fired := by
  unfold choosing
  split <;> rfl

theorem matched_complete : (p.complete id flag).matched = p.matched ++ [id] := by
  rw [complete_eq]
  rfl

theorem fired_complete : (p.complete id flag).fired =
    p.fired ++ (flag.trigger.map fun t => ⟨id, flag.key, t flag.key⟩).toList := by
  rw [complete_eq]

end Pass

namespace Scheme

open Relation

variable (s : Scheme)

/-- What is written down when a flag has matched, if it has a trigger. -/
def firing? (id : FlagId) : Option Firing :=
  (s.flag? id).bind fun f => f.trigger.map fun t => ⟨id, f.key, t f.key⟩

/-- What a step does to the flags that have matched: one more of the innermost store has, whose own
store lacks nothing, and its trigger fires; or none. -/
inductive Completes (w w' : Walk) : Prop where
  | none (hm : w'.pass.matched = w.pass.matched) (hf : w'.pass.fired = w.pass.fired)
  | one {id f} (hid : s.flag? id = some f) (hn : s.Home (.flag id) w'.top) (hh : s.help ≠ some id)
      (hnew : w.pass.isMatched id = false)
      (hs : ∀ store, f.children = some store → s.Filled w.pass store)
      (hm : w'.pass.matched = w.pass.matched ++ [id])
      (hf : w'.pass.fired = w.pass.fired ++ (s.firing? id).toList)

/-- Each flag has matched once, and the triggers that fired are theirs, in that order; that of the
flag that asks for help is left out. -/
structure Fires (p : Pass) : Prop where
  nodup : p.matched.Nodup
  fired_eq : p.fired = (p.matched.filter fun id => s.help ≠ some id).filterMap s.firing?

/-- The trigger of a flag that has matched fired once, with the key of the flag; others did not,
nor did that of the flag that asks for help. -/
structure FiresMatched (p : Pass) : Prop where
  fires : ∀ {id f t}, s.flag? id = some f → f.trigger = some t → s.help ≠ some id →
    p.isMatched id = true → p.fired.filter (·.flag = id) = [⟨id, f.key, t f.key⟩]
  silent : ∀ {id}, p.isMatched id = false ∨ s.help = some id → p.fired.filter (·.flag = id) = []
  triggered : ∀ {x}, x ∈ p.fired → ∃ f t, s.flag? x.flag = some f ∧ f.trigger = some t ∧
    x = ⟨x.flag, f.key, t f.key⟩

variable {s} {w w' last : Walk} {p : Pass} {id : FlagId}

theorem firing?_of_flag? {f : Flag} (hf : s.flag? id = some f) :
    s.firing? id = f.trigger.map fun t => ⟨id, f.key, t f.key⟩ := by
  simp [firing?, hf]

theorem firing?_eq_some {x : Firing} (h : s.firing? id = some x) : x.flag = id ∧
    ∃ f t, s.flag? id = some f ∧ f.trigger = some t ∧ x = ⟨id, f.key, t f.key⟩ := by
  simp only [firing?, Option.bind_eq_some_iff, Option.map_eq_some_iff] at h
  obtain ⟨f, hf, t, ht, rfl⟩ := h
  exact ⟨rfl, f, t, hf, ht, rfl⟩

theorem Advance.completes (hw : s.Sound w) (ha : s.WellFormed) (h : s.Advance w w') :
    s.Completes w w' := by
  cases h with
  | @simple token rest id flag hr hk hm hg hh hc =>
    obtain ⟨hkey, hf, -⟩ := keyFlag?_eq_some ha.toLinked hk
    refine .one hf ⟨token, hkey⟩ hh hm (by simp [hc]) ?_ ?_
    · simp [Walk.eat, Pass.matched_complete]
    · simp [Walk.eat, Pass.fired_complete, firing?_of_flag? hf]
  | nested => exact .none (by simp [Walk.eat]) (by simp [Walk.eat])
  | fill => exact .none rfl rfl
  | @close f frames hf hn hs =>
    obtain ⟨hfl, hch, hkey, -⟩ := hf ▸ hw.chain
    have hnew : w.pass.isMatched f.owner = false := hw.open_unmatched ⟨f, by simp [hf], rfl⟩
    -- the flag that asks for help has no store that could be open
    have hh : s.help ≠ some f.owner := by
      intro hh
      obtain ⟨f', hf', -, -, hc, -⟩ := ha.help_flag hh
      obtain rfl := Option.some.inj (hf'.symm.trans hfl)
      cases hc.symm.trans hch
    have htop : w.top = f.store := by simp [Walk.top, Walk.topOf, hf]
    refine .one hfl ⟨_, hkey⟩ hh hnew (fun store hc => ?_) (Pass.matched_complete _ _ _) ?_
    · obtain rfl := Option.some.inj (hc.symm.trans hch)
      exact htop ▸ shortfall?_eq_none.1 hs
    · rw [Pass.fired_complete, firing?_of_flag? hfl]

theorem Fires.nodup_append (hf : s.Fires p) (hnew : p.isMatched id = false) :
    (p.matched ++ [id]).Nodup := by
  have hnot : id ∉ p.matched := by simpa [Pass.isMatched] using hnew
  simpa using hf.nodup.concat hnot

theorem Completes.fires (h : s.Completes w w') (hf : s.Fires w.pass) : s.Fires w'.pass := by
  cases h with
  | none hm hfired => exact ⟨hm ▸ hf.nodup, by rw [hm, hfired, hf.fired_eq]⟩
  | @one id f hid hn hh hnew hs hm hfired =>
    refine ⟨hm ▸ hf.nodup_append hnew, ?_⟩
    rw [hm, hfired, hf.fired_eq]
    cases hx : s.firing? id <;> simp [hh, hx]

theorem fires_of_reaches (ha : s.WellFormed) {tokens : List String}
    (h : ReflTransGen s.Advance { rest := tokens } w) : s.Fires w.pass := by
  induction h with
  | refl => exact ⟨List.nodup_nil, rfl⟩
  | tail hr h ih => exact (h.completes (sound_of_reaches ha hr) ha).fires ih

theorem Halt.fires {o : Except ParseError Outcome} (h : s.Halt w last o) (hf : s.Fires w.pass) :
    s.Fires last.pass := by
  cases h with
  | @help token rest id flag hr hk hm hg hh =>
    refine ⟨?_, by simp [Walk.eat, Pass.mark, hf.fired_eq, hh]⟩
    simp only [Walk.eat, Pass.mark, Pass.matched_choosing]
    exact hf.nodup_append hm
  | repeated | conflict | refused | lacking | parsed | leftover => exact hf

theorem parse_fires (ha : s.WellFormed) (tokens : List String) : s.Fires (s.parse tokens).1 := by
  obtain ⟨w, last, hr, ho, hp⟩ := parse_halt ha tokens
  obtain ⟨hn, hfired⟩ := ho.fires (fires_of_reaches ha hr)
  rw [hp]
  exact ⟨hn, hfired⟩

/-- Among the firings of different flags, there is at most the one of a given flag. -/
theorem filter_firings : ∀ {ids : List FlagId}, ids.Nodup → ∀ id,
    (ids.filterMap s.firing?).filter (·.flag = id) =
      if id ∈ ids then (s.firing? id).toList else []
  | [], _, _ => rfl
  | id' :: ids, h, id => by
    obtain ⟨hnot, h⟩ := List.nodup_cons.1 h
    have ih := filter_firings h id
    rcases hx : s.firing? id' with _ | x
    · rw [List.filterMap_cons_none hx, ih]
      by_cases hid : id = id'
      · subst hid
        simp [hnot, hx]
      · simp [hid]
    · have hflag := (firing?_eq_some hx).1
      rw [List.filterMap_cons_some hx]
      by_cases hid : id = id'
      · subst hid
        rw [List.filter_cons_of_pos (by simpa using hflag), ih]
        simp [hnot, hx]
      · rw [List.filter_cons_of_neg (by simpa [hflag] using Ne.symm hid), ih]
        simp [hid]

theorem Fires.firesMatched (h : s.Fires p) : s.FiresMatched p where
  fires := by
    intro id f t hf ht hh hm
    have hmem : id ∈ p.matched.filter fun id => s.help ≠ some id := by
      simpa [hh, Pass.isMatched] using hm
    rw [h.fired_eq, filter_firings (h.nodup.filter _), if_pos hmem, firing?_of_flag? hf, ht]
    rfl
  silent := by
    intro id hid
    have hmem : id ∉ p.matched.filter fun id => s.help ≠ some id := by
      rcases hid with hid | hid
      · have hnot : id ∉ p.matched := by simpa [Pass.isMatched] using hid
        exact fun h => hnot (List.mem_of_mem_filter h)
      · simp [hid]
    rw [h.fired_eq, filter_firings (h.nodup.filter _), if_neg hmem]
  triggered := by
    intro x hx
    rw [h.fired_eq] at hx
    obtain ⟨id, -, hx⟩ := List.mem_filterMap.1 hx
    obtain ⟨rfl, hx⟩ := firing?_eq_some hx
    exact hx

end Scheme

namespace Session

/-- Whatever a session went through before, and however a pass ends: the trigger of a flag fires
once, with its key, if the flag has matched in the pass and does not ask for help. It does not fire
otherwise. -/
theorem after_parse_fires (script : List Call) (tokens : List String) :
    (after script).scheme.FiresMatched ((after script).parse tokens).1.pass :=
  (Scheme.parse_fires (after_wellFormed script) tokens).firesMatched

/-- The flag that asks for help, with a trigger. -/
def helpScript : List Call :=
  [.register .help, .register (.trigger ⟨0⟩ ("h:" ++ ·))]

/-- The flag that asks for help matches, and its trigger does not fire. -/
theorem help_fires_nothing :
    ((after helpScript).scheme.flag? ⟨0⟩).any (·.trigger.isSome) = true ∧
      ((after helpScript).parse ["--help"]).1.pass.isMatched ⟨0⟩ = true ∧
      ((after helpScript).parse ["--help"]).1.pass.fired = [] := by
  decide +kernel

end Session

end CommandGrammar
