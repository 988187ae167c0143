import CommandGrammar.Proofs.Completeness
import CommandGrammar.Proofs.Consuming
import CommandGrammar.Proofs.Triggers

/-!
# When triggers are called

Keys are consumed on the way into the stores, and triggers are called on the way out of them. So
the trigger of a flag comes behind those of the flags under it, and before those of the flags behind
it. When it is called, nothing that must be there is missing in its store or in those under it.
-/

namespace CommandGrammar.Scheme

open Relation

variable (s : Scheme)

/-- How the trigger of one flag comes before that of another one: it stands under it, or it stands
beside it and takes its token first. -/
structure Precedes (tokens : List String) (a b : FlagId) : Prop where
  not_under : ¬s.Under a (.flag b)
  under_or_first : s.Under b (.flag a) ∨ ∀ {u v k l}, s.Consumes tokens u k (.flag a) →
    s.Consumes tokens v l (.flag b) → u.consumed.length < v.consumed.length

/-- A moment of a pass at which a trigger is called. -/
structure Calls (tokens : List String) (w : Walk) (x : Firing) : Prop where
  reached : ReflTransGen s.Advance { rest := tokens } w
  after : ∃ w', s.Advance w w' ∧ w'.pass.fired = w.pass.fired ++ [x]

/-- Nothing that must be there is missing in the store of a flag, nor in those of the flags under
it that have matched. -/
def Settled (p : Pass) (id : FlagId) : Prop :=
  ∀ {m f store}, s.flag? m = some f → f.children = some store →
    (m = id ∨ s.Under id (.flag m) ∧ p.isMatched m = true) → s.MandatoryMet p store

/-- The triggers of a pass are called in the order in which their flags are completed: those of the
flags under a flag before its own, and others in the order of their keys among the tokens. -/
structure CallsInOrder (tokens : List String) (p : Pass) : Prop where
  keyed : ∀ {x : Firing}, x ∈ p.fired → ∃ w, s.Consumes tokens w x.key (.flag x.flag) ∧
    p.consumed[w.consumed.length]? = some x.key
  nested : ∀ {i j : Nat} {x y : Firing}, p.fired[i]? = some x → p.fired[j]? = some y →
    s.Under x.flag (.flag y.flag) → j < i
  apart : ∀ {i j : Nat} {x y : Firing} {u v}, p.fired[i]? = some x → p.fired[j]? = some y →
    ¬s.Under x.flag (.flag y.flag) → ¬s.Under y.flag (.flag x.flag) →
    s.Consumes tokens u x.key (.flag x.flag) → s.Consumes tokens v y.key (.flag y.flag) →
    (i < j ↔ u.consumed.length < v.consumed.length)
  called : ∀ {before x after}, p.fired = before ++ x :: after →
    ∃ w, s.Calls tokens w x ∧ w.pass.fired = before
  settled : ∀ {w x}, s.Calls tokens w x → s.Settled w.pass x.flag

variable {s} {w w' last : Walk} {tokens : List String} {token : String} {id m : FlagId}
  {x : Firing} {o : Except ParseError Outcome}

section Steps

variable (s w w' x) in
/-- A step in which a flag is completed and its trigger is called. -/
structure FiresLast : Prop where
  fired : w'.pass.fired = w.pass.fired ++ [x]
  home : s.Home (.flag x.flag) w'.top
  new : w.pass.isMatched x.flag = false
  filled : ∀ {f store}, s.flag? x.flag = some f → f.children = some store → s.Filled w.pass store

theorem Advance.fired_cases (hw : s.Sound w) (ha : s.WellFormed) (h : s.Advance w w') :
    w'.pass.fired = w.pass.fired ∨ ∃ x, s.FiresLast w w' x := by
  cases h.completes hw ha with
  | none hm hf => exact .inl hf
  | @one id f hid hn hh hnew hs hm hf =>
    rcases hx : s.firing? id with _ | x
    · exact .inl (by simpa [hx] using hf)
    · obtain ⟨rfl, -⟩ := firing?_eq_some hx
      refine .inr ⟨x, by simpa [hx] using hf, hn, hnew, fun hf' hc => ?_⟩
      obtain rfl := Option.some.inj (hid.symm.trans hf')
      exact hs _ hc

theorem Halt.fired_eq (h : s.Halt w last o) : last.pass.fired = w.pass.fired := by
  cases h with
  | help => simp [Walk.eat, Pass.mark]
  | repeated | conflict | refused | lacking | parsed | leftover => rfl

theorem Fires.isMatched_of_mem {p : Pass} (h : s.Fires p) (hx : x ∈ p.fired) :
    p.isMatched x.flag = true := by
  rw [h.fired_eq] at hx
  obtain ⟨id, hid, hx⟩ := List.mem_filterMap.1 hx
  obtain ⟨rfl, -⟩ := firing?_eq_some hx
  simpa [Pass.isMatched] using List.mem_of_mem_filter hid

/-- A flag does not stand under itself. -/
theorem Consumes.not_under_self (h : s.Consumes tokens w token (.flag id)) (ha : s.WellFormed) :
    ¬s.Under id (.flag id) := fun hu =>
  h.before (.inr (((h.sound ha).under_iff ha (h.home ha)).1 hu))

/-- A flag that is completed comes behind all that have matched. -/
theorem FiresLast.precedes (ha : s.WellFormed) (hr : ReflTransGen s.Advance { rest := tokens } w)
    (h : s.Advance w w') (hx : s.FiresLast w w' x) (hm : w.pass.isMatched m = true) :
    s.Precedes tokens m x.flag where
  not_under hu := by
    have hw' := sound_of_reaches ha (hr.tail h)
    have hopen := (hw'.under_iff ha hx.home).1 hu
    exact Bool.false_ne_true ((hw'.open_unmatched hopen).symm.trans (h.grows.matched hm))
  under_or_first := by
    refine or_iff_not_imp_left.2 fun hnu u v k l hu hv => ?_
    have hne : m ≠ x.flag := by
      rintro rfl
      exact Bool.false_ne_true (hx.new.symm.trans hm)
    rcases hu.compare ha hv (by simpa using hne) with huv | hvu
    · exact (hu.later ha huv).2
    · -- at the key of `m` the other flag is open, and so `m` stands under it
      have huw := hu.reaches_of_touched ha hr (.inl hm)
      have hgrow := grows_of_reaches (hu.sound ha) ha huw.to_reflTransGen
      have hopen : u.IsOpen x.flag := by
        refine (hv.later ha hvu).1.resolve_left fun hmatched => ?_
        exact Bool.false_ne_true (hx.new.symm.trans (hgrow.pass.matched hmatched))
      exact absurd (((hu.sound ha).under_iff ha (hu.home ha)).2 hopen) hnu

end Steps

section Runs

theorem fired_pairwise (ha : s.WellFormed)
    (hr : ReflTransGen s.Advance { rest := tokens } w) :
    w.pass.fired.Pairwise fun x y => s.Precedes tokens x.flag y.flag := by
  induction hr with
  | refl => exact .nil
  | @tail u w hr h ih =>
    have hu := sound_of_reaches ha hr
    rcases h.fired_cases hu ha with hf | ⟨y, hy⟩
    · rw [hf]
      exact ih
    · rw [hy.fired]
      refine List.pairwise_append.2 ⟨ih, List.pairwise_singleton _ _, fun x hx z hz => ?_⟩
      rw [List.mem_singleton.1 hz]
      exact hy.precedes ha hr h ((fires_of_reaches ha hr).isMatched_of_mem hx)

/-- What was written down was so when its trigger was called. -/
theorem exists_calls (ha : s.WellFormed) (hr : ReflTransGen s.Advance { rest := tokens } w)
    {before after : List Firing} (h : w.pass.fired = before ++ x :: after) :
    ∃ v, s.Calls tokens v x ∧ v.pass.fired = before := by
  induction hr generalizing after with
  | refl => simp at h
  | @tail u w hr hstep ih =>
    rcases hstep.fired_cases (sound_of_reaches ha hr) ha with hf | ⟨y, hy⟩
    · exact ih (hf ▸ h)
    · rw [hy.fired] at h
      rcases List.eq_nil_or_concat' after with rfl | ⟨after, z, rfl⟩
      · obtain ⟨hb, hyx⟩ := List.append_inj' h rfl
        cases hyx
        exact ⟨u, ⟨hr, w, hstep, hy.fired⟩, hb⟩
      · rw [← List.cons_append, ← List.append_assoc] at h
        exact ih (List.append_inj' h rfl).1

theorem Calls.settled (h : s.Calls tokens w x) (ha : s.WellFormed) :
    s.Settled w.pass x.flag := by
  intro m f store hm hc hor
  have hw := sound_of_reaches ha h.reached
  obtain ⟨w', hstep, hf⟩ := h.after
  rcases hor with rfl | ⟨-, hmatched⟩
  · rcases hstep.fired_cases hw ha with hf' | ⟨y, hy⟩
    · simp [hf'] at hf
    · obtain rfl : y = x := by simpa [hy.fired] using hf
      exact hw.mandatoryMet ha (hy.filled hm hc)
  · exact hw.mandatoryMet ha (hw.matched_filled hmatched hm hc)

end Runs

theorem parse_callsInOrder (ha : s.WellFormed) (tokens : List String) :
    s.CallsInOrder tokens (s.parse tokens).1 := by
  obtain ⟨w, last, hr, ho, hp⟩ := parse_halt ha tokens
  have hfired : (s.parse tokens).1.fired = w.pass.fired := by
    rw [hp]
    exact ho.fired_eq
  have hkeyed : ∀ {x}, x ∈ (s.parse tokens).1.fired →
      ∃ v, s.Consumes tokens v x.key (.flag x.flag) := by
    intro x hx
    have hfires := parse_fires ha tokens
    have hm := hfires.isMatched_of_mem hx
    rw [hp] at hm
    obtain ⟨v, token, hv⟩ := ho.exists_consumes ha hr (n := .flag x.flag) (.inl hm)
    obtain ⟨f, t, hf, -, hxf⟩ := hfires.firesMatched.triggered hx
    have hkey : s.key? x.flag = some x.key := by rw [key?, hf, hxf]; rfl
    have hexp : s.key? x.flag = some token := hv.explains ha
    obtain rfl := Option.some.inj (hkey.symm.trans hexp)
    exact ⟨v, hv⟩
  have hord : ∀ {i j : Nat} {x y : Firing}, (s.parse tokens).1.fired[i]? = some x →
      (s.parse tokens).1.fired[j]? = some y → i < j → s.Precedes tokens x.flag y.flag := by
    intro i j x y hx hy hij
    rw [hfired] at hx hy
    obtain ⟨hi, rfl⟩ := List.getElem?_eq_some_iff.1 hx
    obtain ⟨hj, rfl⟩ := List.getElem?_eq_some_iff.1 hy
    exact List.pairwise_iff_getElem.1 (fired_pairwise ha hr) i j hi hj hij
  exact {
    keyed := by
      intro x hx
      obtain ⟨v, hv⟩ := hkeyed hx
      exact ⟨v, hv, hv.getElem? ha⟩
    nested := by
      intro i j x y hx hy hu
      rcases lt_trichotomy i j with hij | rfl | hij
      · exact absurd hu (hord hx hy hij).not_under
      · obtain rfl := Option.some.inj (hx.symm.trans hy)
        obtain ⟨v, hv⟩ := hkeyed (List.mem_of_getElem? hx)
        exact absurd hu (hv.not_under_self ha)
      · exact hij
    apart := by
      intro i j x y u v hx hy hxy hyx hu hv
      rcases lt_trichotomy i j with hij | rfl | hij
      · exact iff_of_true hij ((hord hx hy hij).under_or_first.resolve_left hyx hu hv)
      · obtain rfl := Option.some.inj (hx.symm.trans hy)
        obtain rfl := hu.unique ha hv
        exact iff_of_false (lt_irrefl _) (lt_irrefl _)
      · have hlt := (hord hy hx hij).under_or_first.resolve_left hxy hv hu
        exact iff_of_false (by omega) (by omega)
    called := fun h => exists_calls ha hr (hfired ▸ h)
    settled := fun h => h.settled ha }

end CommandGrammar.Scheme

namespace CommandGrammar.Session

/-- Whatever a session went through before, and however a pass ends, its triggers are called in
order. -/
theorem after_parse_calls (script : List Call) (tokens : List String) :
    (after script).scheme.CallsInOrder tokens ((after script).parse tokens).1.pass :=
  Scheme.parse_callsInOrder (after_wellFormed script) tokens

/-- A flag under another one is called first, also when both lie before a third. -/
example : ((after [.register (.complexFlag Scheme.root "set" .optional "Sets."),
      .register (.flag ⟨1⟩ "-x" .optional "Sets x."),
      .register (.flag Scheme.root "-q" .optional "Says nothing."),
      .register (.trigger ⟨0⟩ id), .register (.trigger ⟨1⟩ id),
      .register (.trigger ⟨2⟩ id)]).parse ["set", "-x", "-q"]).1.pass.fired.map (·.key) =
    ["-x", "set", "-q"] := by
  decide +kernel

end CommandGrammar.Session
