import CommandGrammar.Pipeline.Conversion
import CommandGrammar.Proofs.Refinement

/-!
# What a successful pass has found

A pass that succeeds has consumed every token. In the root, and in the store of every flag that has
matched, each mandatory node has matched on its own, not only as many as there are; below a flag
that has not matched, nothing has.
-/

namespace CommandGrammar.Scheme

open Relation

variable (s : Scheme) (p : Pass)

/-- Every mandatory node of a store has matched; of a group with members, the one that was used. -/
structure MandatoryMet (store : StoreId) : Prop where
  flag : ∀ {key id f}, (key, id) ∈ s.keysOf store → s.flag? id = some f → f.group = none →
    f.policy = .mandatory → p.isMatched id = true
  group : ∀ {id g}, s.group? id = some g → g.store = store → g.policy = .mandatory →
    g.members ≠ [] → p.isGroupMatched id = true ∧
      ∃ m ∈ g.members, p.chosen? id = some m ∧ p.isMatched m = true
  arg : ∀ {id a}, id ∈ s.argsOf store → s.arg? id = some a → a.policy = .mandatory →
    p.isFilled id = true

/-- No node of a store has matched. -/
structure Untouched (store : StoreId) : Prop where
  flag : ∀ {key id}, (key, id) ∈ s.keysOf store → p.isMatched id = false
  group : ∀ {id g}, s.group? id = some g → g.store = store →
    p.isGroupMatched id = false ∧ p.chosen? id = none
  arg : ∀ {id}, id ∈ s.argsOf store → p.isFilled id = false ∧ p.value? id = none

structure Complete (tokens : List String) : Prop where
  consumed : p.consumed = tokens
  root : s.MandatoryMet p root
  entered : ∀ {id f store}, s.flag? id = some f → f.children = some store →
    p.isMatched id = true → s.MandatoryMet p store
  skipped : ∀ {id f store below}, s.flag? id = some f → f.children = some store →
    p.isMatched id = false → s.Below store below → s.Untouched p below

variable {s p} {w : Walk} {store : StoreId}

theorem Sound.mem_members (hw : s.Sound w) (ha : s.WellFormed) {id : GroupId} {g : Group}
    {m : FlagId} (hg : s.group? id = some g) (hc : w.pass.chosen? id = some m) :
    m ∈ g.members := by
  obtain ⟨-, f, hf, hfg⟩ := hw.chosen_member hc
  rcases ha.listed_cases hf with ⟨hn, -⟩ | ⟨id', g', hg', hgr, hm, -⟩
  · rw [hfg] at hn
    cases hn
  · obtain rfl := Option.some.inj (hfg.symm.trans hg')
    obtain rfl := Option.some.inj (hg.symm.trans hgr)
    exact hm

/-- A store that lacks nothing has met each of its mandatory nodes. -/
theorem Sound.mandatoryMet (hw : s.Sound w) (ha : s.WellFormed) (hs : s.Filled w.pass store) :
    s.MandatoryMet w.pass store where
  flag {key id f} hk hf hg hp := by
    have hu : f.unit id = .flag id := by simp [Flag.unit, hg]
    obtain ⟨he, hpol⟩ := unit_mem_listing ha hk hf
    rw [hu, hp] at hpol
    rw [hu] at he
    exact lacksFlag_eq_false.1 hs.1 _ he hpol
  group {id g} hg hst hp hm := by
    have he : .group id ∈ s.listing store := hst ▸ ha.group_mem_listing hg
    have hpol : s.unitPolicy? (.group id) = some .mandatory := by simp [unitPolicy?, hg, hm, hp]
    have hmet := lacksFlag_eq_false.1 hs.1 _ he hpol
    obtain ⟨m, hc, hmm⟩ := (Option.any_eq_true _ _).1 hmet
    exact ⟨by rw [hw.group_matched, hc]; rfl, m, hw.mem_members ha hg hc, hc, hmm⟩
  arg {id a} hn harg hp :=
    lacksArg_eq_false.1 hs.2 id hn (by simp [argPolicy?, harg, hp])

/-- A store that was not reached is untouched. -/
theorem Sound.untouched (hw : s.Sound w) (ha : s.WellFormed) (hr : ¬s.Reached w store) :
    s.Untouched w.pass store where
  flag {key id} hk := by
    rw [← Bool.not_eq_true]
    intro hm
    exact hr (hw.reached (n := .flag id) (.inl hm) ⟨key, hk⟩)
  group {id g} hg hst := by
    have hc : w.pass.chosen? id = none := by
      rw [Option.eq_none_iff_forall_ne_some]
      intro m hc
      obtain ⟨ht, f, hf, hfg⟩ := hw.chosen_member hc
      exact hr (hw.reached ht (home_of_group ha hf hfg (hst ▸ ha.group_mem_listing hg)))
    exact ⟨by rw [hw.group_matched, hc]; rfl, hc⟩
  arg {id} hn := by
    have hf : w.pass.isFilled id = false := by
      rw [← Bool.not_eq_true]
      intro hf
      exact hr (hw.reached (n := .arg id) hf hn)
    exact ⟨hf, by simpa [hw.arg_value] using hf⟩

theorem MandatoryMet.with_consumed (h : s.MandatoryMet p store) (consumed : List String) :
    s.MandatoryMet { p with consumed } store := ⟨h.flag, h.group, h.arg⟩

theorem Untouched.with_consumed (h : s.Untouched p store) (consumed : List String) :
    s.Untouched { p with consumed } store := ⟨h.flag, h.group, h.arg⟩

theorem complete_of_parsed (ha : s.WellFormed) {tokens : List String}
    (h : (s.parse tokens).2 = .ok .parsed) : s.Complete (s.parse tokens).1 tokens := by
  obtain ⟨w, last, hreach, ho, hp⟩ := parse_halt ha tokens
  rw [h] at ho
  rw [hp]
  rcases ho with _ | _ | _ | _ | _ | ⟨hf, hr, hs⟩
  have hw := sound_of_reaches ha hreach
  have htop : w.top = root := by simp [Walk.top, Walk.topOf, hf]
  rw [shortfall?_eq_none, htop] at hs
  refine ⟨by simpa [hr] using tokens_eq_of_reaches hreach,
    (hw.mandatoryMet ha hs).with_consumed _, fun hfl hc hm =>
      (hw.mandatoryMet ha (hw.matched_filled hm hfl hc)).with_consumed _,
    fun {id f store below} hfl hc hm hb => Untouched.with_consumed (hw.untouched ha ?_) _⟩
  intro hreached
  rcases hw.reached_of_below ha hb hreached with rfl | ⟨id', f', hf', hc', ht⟩
  · exact ha.child_ne_root hfl hc rfl
  · obtain rfl := ha.owner_unique hfl hf' hc hc'
    rcases ht with ht | ⟨fr, hfr, -⟩
    · exact Bool.false_ne_true (hm.symm.trans ht)
    · simp [hf] at hfr

end CommandGrammar.Scheme

namespace CommandGrammar.Session

/-- Whatever a session went through before, a pass that succeeds is complete. -/
theorem after_parse_complete (script : List Call) (tokens : List String)
    (h : ((after script).parse tokens).2 = .ok .parsed) :
    (after script).scheme.Complete ((after script).parse tokens).1.pass tokens :=
  Scheme.complete_of_parsed (after_wellFormed script) h

/-- A flag with an argument of its own, and two flags one of which must be used. -/
def copyScript : List Call :=
  [.register (.complexFlag Scheme.root "copy" .mandatory "Copies a file."),
    .register (.arg ⟨1⟩ ⟨"source", .mandatory, "The file.", Pipeline.text.map .text⟩),
    .register (.group Scheme.root .mandatory),
    .register (.member ⟨0⟩ "-f" "Overwrites a file."),
    .register (.member ⟨0⟩ "-n" "Keeps a file.")]

theorem copy_parse_complete : (after copyScript).scheme.Complete
    ((after copyScript).parse ["copy", "notes", "-f"]).1.pass ["copy", "notes", "-f"] :=
  after_parse_complete copyScript ["copy", "notes", "-f"] (by decide +kernel)

end CommandGrammar.Session
