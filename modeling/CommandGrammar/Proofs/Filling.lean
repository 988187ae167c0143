import CommandGrammar.Proofs.Consuming
import CommandGrammar.Proofs.Order
import CommandGrammar.Proofs.Stopping

/-!
# Arguments are filled in order

A store offers a token to its arguments in the order in which they were declared. A mandatory one
that has not matched lets no token pass, so what is filled behind it was filled later, whatever
other stores were read in between. Only optional arguments are left out, by tokens that they cannot
convert.
-/

namespace CommandGrammar.Scheme

open Relation

variable (s : Scheme)

/-- A store declares an argument before another one. -/
def Declares (store : StoreId) (a b : ArgId) : Prop :=
  ∃ before after, s.argsOf store = before ++ b :: after ∧ a ∈ before

/-- Every argument that a pass has filled took one token, at one moment. A mandatory one has taken
its token before those declared behind it take theirs; an optional one that has none yet cannot
convert the tokens that they take. -/
structure FillsInOrder (tokens : List String) (p : Pass) : Prop where
  filled_iff : ∀ id, p.isFilled id = true ↔ ∃ w token, s.Consumes tokens w token (.arg id)
  once : ∀ {id w w' token token'}, s.Consumes tokens w token (.arg id) →
    s.Consumes tokens w' token' (.arg id) → w = w'
  explained : ∀ {id w token}, s.Consumes tokens w token (.arg id) →
    p.consumed[w.consumed.length]? = some token ∧ s.Explains p token (.arg id)
  mandatory : ∀ {store a b}, s.Declares store a b → s.argPolicy? a = some .mandatory →
    p.isFilled b = true → p.isFilled a = true ∧
      ∀ {w w' token token'}, s.Consumes tokens w token (.arg a) →
        s.Consumes tokens w' token' (.arg b) → w.consumed.length < w'.consumed.length
  passed : ∀ {store a b w token}, s.Declares store a b → s.Consumes tokens w token (.arg b) →
    w.pass.isFilled a = false → ∃ why arg, s.CannotTake a .optional token why arg

variable {s} {w w' : Walk} {tokens : List String} {token : String} {id a b : ArgId}
  {store : StoreId}

/-- An argument is filled by a token that its store gives to it. -/
theorem Moves.taker (h : s.Moves w w') (hold : w.pass.isFilled id = false)
    (hnew : w'.pass.isFilled id = true) : ∃ token rest v, w.rest = token :: rest ∧
      s.taker? w.pass w.top token = some (id, .ok v) ∧ w'.pass = w.pass.fill id v := by
  have hsame : ∀ {p : Pass}, p.isFilled id = w.pass.isFilled id → p.isFilled id ≠ true :=
    fun he hp => Bool.false_ne_true (hold.symm.trans (he.symm.trans hp))
  cases h with
  | advance h =>
    cases h with
    | simple => exact absurd hnew (hsame (by simp [Walk.eat]))
    | nested => exact absurd hnew (hsame (by simp [Walk.eat]))
    | close => exact absurd hnew (hsame (by simp))
    | @fill token rest id' v hr hk ht =>
      have hid : id = id' := by simpa [Walk.eat, hold] using hnew
      subst hid
      exact ⟨token, rest, v, hr, ht, rfl⟩
  | halt h =>
    cases h with
    | help => exact absurd hnew (hsame (by simp [Walk.eat]))
    | repeated | conflict | refused | lacking | parsed | leftover => exact absurd hnew (hsame rfl)

theorem Consumes.not_filled (h : s.Consumes tokens w token (.arg id)) :
    w.pass.isFilled id = false := Bool.not_eq_true _ ▸ h.before

theorem Consumes.taker (h : s.Consumes tokens w token (.arg id)) :
    ∃ w' v, s.Moves w w' ∧ s.taker? w.pass w.top token = some (id, .ok v) ∧
      w'.pass = w.pass.fill id v := by
  obtain ⟨w', hm, -, hn⟩ := h.after
  obtain ⟨token', rest', v, hr', ht, hp⟩ := hm.taker h.not_filled hn
  obtain ⟨rest, hr⟩ := h.exists_rest
  cases hr.symm.trans hr'
  exact ⟨w', v, hm, ht, hp⟩

/-- A token that an argument takes was passed over by those declared before it. -/
theorem Declares.answer?_eq_none (ha : s.WellFormed) {p : Pass} {v : Value}
    (h : s.Declares store a b) (ht : s.taker? p store token = some (b, .ok v)) :
    s.answer? p token a = none := by
  obtain ⟨before, after, hl, hm⟩ := h
  obtain ⟨before', id, after', hl', hans, hb⟩ := List.findSome?_eq_some_iff.1 ht
  simp only [Option.map_eq_some_iff, Prod.mk.injEq] at hans
  obtain ⟨-, -, rfl, -⟩ := hans
  -- an argument is listed once, so both times the same ones stand before it
  have hn := ha.args_nodup store
  rw [hl] at hn
  have hid : id ∉ before ∧ id ∉ after := by
    simpa [not_or] using (List.nodup_cons.1 (List.nodup_middle.1 hn)).1
  obtain ⟨rfl, -⟩ := (List.append_cons_inj_of_notMem hid.1 hid.2).1 (hl.symm.trans hl')
  simpa using hb a hm

/-- At the moment of an argument, those declared before it have their tokens, or are optional and
cannot convert this one. -/
theorem Consumes.cannotTake (h : s.Consumes tokens w token (.arg b)) (ha : s.WellFormed)
    (hd : s.Declares store a b) (hf : w.pass.isFilled a = false) :
    ∃ why arg, s.CannotTake a .optional token why arg := by
  obtain ⟨w', v, -, ht, -⟩ := h.taker
  obtain ⟨before, after, hl, hm⟩ := hd
  have hstore : w.top = store :=
    ha.home_unique (n := .arg b) (taker?_eq_some ht).1 (show b ∈ s.argsOf store by simp [hl])
  obtain ⟨arg, harg⟩ := ha.exists_arg (show a ∈ s.argsOf store by simp [hl, hm])
  rw [hstore] at ht
  obtain ⟨why, hwhy⟩ := answer?_eq_none harg hf
    (Declares.answer?_eq_none ha ⟨before, after, hl, hm⟩ ht)
  exact ⟨why, arg, hwhy⟩

theorem Consumes.filled_of_mandatory (h : s.Consumes tokens w token (.arg b))
    (ha : s.WellFormed) (hd : s.Declares store a b) (hp : s.argPolicy? a = some .mandatory) :
    w.pass.isFilled a = true := by
  by_contra hf
  obtain ⟨why, arg, harg, hpol, -⟩ := h.cannotTake ha hd (Bool.not_eq_true _ ▸ hf)
  simp [argPolicy?, harg, hpol] at hp

theorem parse_fillsInOrder (ha : s.WellFormed) (tokens : List String) :
    s.FillsInOrder tokens (s.parse tokens).1 := by
  have hiff : ∀ id, (s.parse tokens).1.isFilled id = true ↔
      ∃ w token, s.Consumes tokens w token (.arg id) := by
    intro id
    constructor
    · intro hf
      obtain ⟨w, last, hr, ho, hp⟩ := parse_halt ha tokens
      rw [hp] at hf
      exact ho.exists_consumes ha hr hf
    · rintro ⟨w, token, h⟩
      obtain ⟨w', hm, -, hn⟩ := h.after
      obtain ⟨last, hgrow, hp⟩ := hm.exists_last ha h.reached
      rw [hp]
      exact hgrow.touched hn
  exact {
    filled_iff := hiff
    once := fun h h' => h.unique ha h'
    explained := fun h => ⟨h.getElem? ha, h.explains ha⟩
    mandatory := by
      intro store a b hd hp hb
      have hfilled : ∀ {w token}, s.Consumes tokens w token (.arg b) →
          w.pass.isFilled a = true := fun h => h.filled_of_mandatory ha hd hp
      obtain ⟨w, token, h⟩ := (hiff b).1 hb
      obtain ⟨v, hv⟩ := exists_consumes ha h.reached (n := .arg a) (hfilled h)
      refine ⟨(hiff a).2 ⟨v, hv⟩, fun hw hw' => ?_⟩
      exact (hw.later ha (hw.reaches_of_touched ha hw'.reached (hfilled hw'))).2
    passed := fun hd h hf => h.cannotTake ha hd hf }

end CommandGrammar.Scheme

namespace CommandGrammar.Session

/-- Whatever a session went through before, and however a pass ends, the arguments of each store are
filled in order, which is that of their registration. -/
theorem after_parse_filled (script : List Call) (tokens : List String) :
    (after script).scheme.FillsInOrder tokens ((after script).parse tokens).1.pass ∧
      ∀ earlier, earlier <+: script → ∀ store,
        (after earlier).scheme.argsOf store <+: (after script).scheme.argsOf store :=
  ⟨Scheme.parse_fillsInOrder (after_wellFormed script) tokens,
    fun _ h => (after_lengthens h).args⟩

/-- An optional number that was passed over is filled by a later token. -/
example : ((after [.register (.arg Scheme.root ⟨"count", .optional, "How many.",
        (Pipeline.integer (Literal.int .i64)).map (.int .i64)⟩),
      .register (.arg Scheme.root ⟨"name", .mandatory, "Of what.", Pipeline.text.map .text⟩)]).parse
    ["pear", "2"]).1.pass.filled = [⟨1⟩, ⟨0⟩] := by
  decide +kernel

end CommandGrammar.Session
