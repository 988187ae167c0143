import CommandGrammar.Proofs.Sound

/-!
# The trail of a walk

A trail lists the nodes for which a walk consumed its tokens, in that order. What stands under a
flag follows its key without a gap: a node belongs to the store on top of the stack, so it stands
under the flags whose stores are open and under no other. Once a store is closed, nothing under its
flag is added any more.
-/

namespace CommandGrammar.Scheme

open Relation

variable (s : Scheme)

/-- A node belongs to the store of a flag or to one nested in it. -/
def Under (id : FlagId) (n : Node) : Prop :=
  ∃ f child store, s.flag? id = some f ∧ f.children = some child ∧ s.Below child store ∧
    s.Home n store

/-- A token is the key of a flag, or an argument converted it to its value. -/
def Explains (p : Pass) (token : String) : Node → Prop
  | .flag id => s.key? id = some token
  | .arg id => ∃ a v, s.arg? id = some a ∧ (a.pipeline.run token).result = .ok v ∧
      p.value? id = some v

/-- In a trail, all that stands under a flag comes right after it. -/
def Spans (trail : List Node) (id : FlagId) (isOpen : Prop) : Prop :=
  ∃ before inner after, trail = before ++ .flag id :: (inner ++ after) ∧
    (∀ n ∈ before, ¬s.Under id n) ∧ (∀ n ∈ inner, s.Under id n) ∧ (∀ n ∈ after, ¬s.Under id n) ∧
    (isOpen → after = [])

structure Trail (w : Walk) (trail : List Node) : Prop where
  explained : List.Forall₂ (s.Explains w.pass) w.consumed trail
  nodup : trail.Nodup
  mem_iff : ∀ n, n ∈ trail ↔ w.Touched n
  spans : ∀ {id}, w.Touched (.flag id) → s.Spans trail id (w.IsOpen id)

variable {s} {w w' : Walk} {trail : List Node} {n : Node}

theorem Explains.grows {p p' : Pass} {token : String} (h : s.Explains p token n)
    (hp : p.Grows p') : s.Explains p' token n := by
  rcases n with id | id
  · exact h
  · obtain ⟨a, v, ha, hv, hval⟩ := h
    exact ⟨a, v, ha, hv, hp.value hval⟩

section Under

variable {fs : List Frame} {id : FlagId}

/-- The innermost store is nested in every open one. -/
theorem Chain.below_top : ∀ {fs : List Frame}, s.Chain fs → ∀ f ∈ fs,
    s.Below f.store (Walk.topOf fs)
  | [], _, _, h => by simp at h
  | g :: fs, ⟨hg, hc, hk, hfs⟩, f, h => by
    rcases List.mem_cons.1 h with rfl | h
    · exact .refl
    · exact (hfs.below_top f h).tail ⟨_, _, _, hk, hg, hc⟩

/-- The innermost store is nested in no other store of a flag. -/
theorem Chain.exists_of_below (ha : s.WellFormed) {flag : Flag} {child : StoreId}
    (hf : s.flag? id = some flag) (hc : flag.children = some child) :
    ∀ {fs : List Frame}, s.Chain fs → s.Below child (Walk.topOf fs) → ∃ f ∈ fs, f.owner = id
  | [], _, h => by
    rcases ReflTransGen.cases_tail h with h | ⟨_, -, _, _, _, -, hf', hc'⟩
    · exact absurd h.symm (ha.child_ne_root hf hc)
    · exact absurd rfl (ha.child_ne_root hf' hc')
  | g :: fs, ⟨hg, hgc, hk, hfs⟩, h => by
    rcases ReflTransGen.cases_tail h with h | ⟨b, hb, hn⟩
    · have hcg : flag.children = some g.store := by rw [hc, ← h]; rfl
      exact ⟨g, List.mem_cons_self, ha.owner_unique hg hf hgc hcg⟩
    · obtain rfl := ha.nests_unique hn ⟨_, _, _, hk, hg, hgc⟩
      obtain ⟨f, hfm, ho⟩ := hfs.exists_of_below ha hf hc hb
      exact ⟨f, List.mem_cons_of_mem _ hfm, ho⟩

/-- A node of the innermost store stands under the open flags. -/
theorem Sound.under_iff (hw : s.Sound w) (ha : s.WellFormed) (hn : s.Home n w.top) :
    s.Under id n ↔ w.IsOpen id := by
  constructor
  · rintro ⟨f, child, store, hf, hc, hb, hn'⟩
    rw [ha.home_unique hn' hn] at hb
    exact Chain.exists_of_below ha hf hc hw.chain hb
  · rintro ⟨f, hfm, rfl⟩
    obtain ⟨hf, hc, -⟩ := Chain.exists_home hw.chain f hfm
    exact ⟨f.flag, f.store, w.top, hf, hc, Chain.below_top hw.chain f hfm, hn⟩

/-- What is touched does not stand under an untouched flag. -/
theorem Sound.not_under (hw : s.Sound w) (ha : s.WellFormed) (hid : ¬w.Touched (.flag id))
    (hn : w.Touched n) : ¬s.Under id n := by
  rintro ⟨f, child, store, hf, hc, hb, hh⟩
  rcases hw.reached_of_below ha hb (hw.reached hn hh) with rfl | ⟨id', f', hf', hc', ht⟩
  · exact ha.child_ne_root hf hc rfl
  · rw [ha.owner_unique hf hf' hc hc'] at hid
    exact hid ht

end Under

/-- A node of the innermost store is added at the end. -/
theorem Spans.concat (hw : s.Sound w) (ha : s.WellFormed) (hn : s.Home n w.top) {id : FlagId}
    (h : s.Spans trail id (w.IsOpen id)) : s.Spans (trail ++ [n]) id (w.IsOpen id) := by
  obtain ⟨before, inner, after, rfl, hb, hi, haf, ho⟩ := h
  -- an open flag has nothing after its span yet; past a closed one the node stands outside
  by_cases hop : w.IsOpen id
  · refine ⟨before, inner ++ [n], [], by simp [ho hop], hb, ?_, by simp, fun _ => rfl⟩
    intro m hm
    rcases List.mem_append.1 hm with hm | hm
    · exact hi m hm
    · rw [List.mem_singleton.1 hm]
      exact (hw.under_iff ha hn).2 hop
  · refine ⟨before, inner, after ++ [n], by simp, hb, hi, ?_, fun h => absurd h hop⟩
    intro m hm
    rcases List.mem_append.1 hm with hm | hm
    · exact haf m hm
    · rw [List.mem_singleton.1 hm]
      exact fun h => hop ((hw.under_iff ha hn).1 h)

/-- A token is consumed for a node that was not touched before. -/
theorem Trail.touch (ht : s.Trail w trail) (hw : s.Sound w) (ha : s.WellFormed) {token : String}
    (hn : s.Home n w.top) (hnew : ¬w.Touched n) (hc : w'.consumed = w.consumed ++ [token])
    (htouch : ∀ m, w'.Touched m ↔ w.Touched m ∨ m = n) (hgrow : w.pass.Grows w'.pass)
    (hex : s.Explains w'.pass token n) (hopen : ∀ id, w'.IsOpen id → w.IsOpen id ∨ .flag id = n) :
    s.Trail w' (trail ++ [n]) where
  explained := by
    rw [hc]
    exact List.rel_append (ht.explained.imp fun _ _ h => h.grows hgrow) (.cons hex .nil)
  nodup := by
    rw [← List.concat_eq_append]
    exact ht.nodup.concat fun h => hnew ((ht.mem_iff n).1 h)
  mem_iff m := by
    rw [List.mem_append, List.mem_singleton, ht.mem_iff, htouch]
  spans {id} hid := by
    rcases (htouch _).1 hid with hold | rfl
    · have hid' : w'.IsOpen id → w.IsOpen id := fun h =>
        (hopen id h).resolve_right fun h => hnew (h ▸ hold)
      obtain ⟨before, inner, after, h, hb, hi, haf, ho⟩ := (ht.spans hold).concat hw ha hn
      exact ⟨before, inner, after, h, hb, hi, haf, fun h => ho (hid' h)⟩
    · exact ⟨trail, [], [], rfl, fun m hm => hw.not_under ha hnew ((ht.mem_iff m).1 hm), by simp,
        by simp, fun _ => rfl⟩

theorem Trail.mark (ht : s.Trail w trail) (hw : s.Sound w) (ha : s.WellFormed) {token : String}
    {rest : List String} {id : FlagId} {flag : Flag}
    (hk : s.keyFlag? w.top token = some (id, flag)) (hm : w.pass.isMatched id = false)
    (fired : List Firing) :
    s.Trail (w.eat token rest { (w.pass.choosing id flag).mark id with fired })
      (trail ++ [.flag id]) := by
  obtain ⟨hkey, -, -⟩ := keyFlag?_eq_some ha.toLinked hk
  exact ht.touch hw ha (n := .flag id) ⟨token, hkey⟩ (hw.not_touched ha ⟨token, hkey⟩ hm) rfl
    (touched_mark w token rest fired)
    (Pass.grows_choosing.trans (Pass.grows_mark.trans Pass.grows_fired)) (ha.key_eq hkey)
    fun _ => .inl

/-- Every step keeps a trail, or adds to it the node that took the token. -/
theorem Trail.advance (ht : s.Trail w trail) (hw : s.Sound w) (ha : s.WellFormed)
    (h : s.Advance w w') : ∃ trail', s.Trail w' trail' := by
  cases h with
  | simple hr hk hm hg hh hc =>
    rw [Pass.complete_eq]
    exact ⟨_, ht.mark hw ha hk hm _⟩
  | @nested token rest id flag store hr hk hm hg hh hc =>
    obtain ⟨hkey, -, -⟩ := keyFlag?_eq_some ha.toLinked hk
    refine ⟨trail ++ [.flag id], ht.touch hw ha (n := .flag id) ⟨token, hkey⟩
      (hw.not_touched ha ⟨token, hkey⟩ hm) rfl (touched_descend w token rest store)
      Pass.grows_choosing (ha.key_eq hkey) ?_⟩
    rintro x ⟨f, hf, rfl⟩
    rcases List.mem_cons.1 hf with rfl | hf
    · exact .inr rfl
    · exact .inl ⟨f, hf, rfl⟩
  | @fill token rest id v hr hk ho =>
    obtain ⟨hn, hans⟩ := taker?_eq_some ho
    obtain ⟨hf, arg, harg, hv⟩ := answer?_eq_ok hans
    have hval : (w.pass.fill id v).value? id = some v := by
      have hnone : w.pass.value? id = none := by simpa [hw.arg_value] using hf
      simp [Pass.value?_fill, hnone]
    exact ⟨trail ++ [.arg id], ht.touch hw ha (n := .arg id) hn
      (fun h => Bool.false_ne_true (hf.symm.trans h)) rfl (touched_fill w token rest id v)
      Pass.grows_fill ⟨arg, v, harg, hv, hval⟩ fun _ => .inl⟩
  | close hf hn hs =>
    have htouch := touched_close hf
    refine ⟨trail, ht.explained.imp fun _ _ h => h.grows Pass.grows_complete, ht.nodup,
      fun m => (ht.mem_iff m).trans (htouch m).symm, fun {id} hid => ?_⟩
    obtain ⟨before, inner, after, h, hb, hi, haf, ho⟩ := ht.spans ((htouch _).1 hid)
    refine ⟨before, inner, after, h, hb, hi, haf, fun hop => ho ?_⟩
    obtain ⟨f, hfm, rfl⟩ := hop
    exact ⟨f, hf ▸ List.mem_cons_of_mem _ hfm, rfl⟩

theorem Trail.reaches (ht : s.Trail w trail) (hw : s.Sound w) (ha : s.WellFormed)
    (h : ReflTransGen s.Advance w w') : ∃ trail', s.Trail w' trail' := by
  induction h with
  | refl => exact ⟨trail, ht⟩
  | tail hr h ih =>
    obtain ⟨trail', ht'⟩ := ih
    exact ht'.advance (hw.reaches ha hr) ha h

theorem Trail.halt {last : Walk} {o : Except ParseError Outcome} (ht : s.Trail w trail)
    (hw : s.Sound w) (ha : s.WellFormed) (h : s.Halt w last o) : ∃ trail', s.Trail last trail' := by
  cases h with
  | help hr hk hm hg hh => exact ⟨_, ht.mark hw ha hk hm _⟩
  | repeated | conflict | refused | lacking | parsed | leftover => exact ⟨trail, ht⟩

theorem trail_start (tokens : List String) : s.Trail { rest := tokens } [] where
  explained := .nil
  nodup := List.nodup_nil
  mem_iff n := by
    rcases n with x | a <;> simp [Walk.Touched, Walk.IsOpen, Pass.isMatched, Pass.isFilled]
  spans h := by simp [Walk.Touched, Walk.IsOpen, Pass.isMatched] at h

end CommandGrammar.Scheme
