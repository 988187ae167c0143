import CommandGrammar.Proofs.Filling

/-!
# The values of arguments

A pass keeps which arguments have matched and their values apart from each other. They agree at
every moment of it: an argument is given a value when it matches, and a token that it cannot convert
leaves it as it was. A session keeps what the last pass found until the next one or a reset, and
registrations in between only add arguments that have not matched.
-/

namespace CommandGrammar

open Relation

/-- Whatever an argument converts has one type. -/
def Positional.Yields (arg : Positional) (type : ValueType) : Prop :=
  ∀ token v, (arg.pipeline.run token).result = .ok v → v.type = type

/-- What a pipeline converts has the type that it is mapped to. -/
theorem Positional.yields_map {α : Type} {type : ValueType} {f : α → Value}
    (hf : ∀ a, (f a).type = type) (name description : String) (policy : Policy) (p : Pipeline α) :
    Positional.Yields ⟨name, policy, description, p.map f⟩ type := by
  intro token v h
  simp only [Pipeline.run_map, Attempt.map] at h
  obtain ⟨a, -, rfl⟩ := Scheme.exists_of_map_ok h
  exact hf a

namespace Scheme

variable (s : Scheme)

/-- At every moment of a pass, the arguments that have matched are those with a value. A token
changes nothing for an argument that cannot convert it, and one that fails for it leaves it without
a value. -/
structure KeepsSlots (tokens : List String) : Prop where
  held : ∀ {w}, ReflTransGen s.Advance { rest := tokens } w → ∀ id,
    w.pass.isFilled id = (w.pass.value? id).isSome
  rejected : ∀ {w w' token rest id arg why}, ReflTransGen s.Advance { rest := tokens } w →
    s.Moves w w' → w.rest = token :: rest → s.arg? id = some arg →
    (arg.pipeline.run token).result = .error why →
    w'.pass.isFilled id = w.pass.isFilled id ∧ w'.pass.value? id = w.pass.value? id
  failed : ∀ {name reason}, (s.parse tokens).2 = .error (.conversionFailure name reason) →
    ∃ token id arg, tokens[(s.parse tokens).1.consumed.length]? = some token ∧
      s.CannotTake id .mandatory token reason arg ∧ arg.name = name ∧
      (s.parse tokens).1.value? id = none

variable {s} {w w' : Walk} {tokens : List String} {token : String} {rest : List String}
  {id : ArgId} {arg : Positional} {v : Value}

/-- A token does not match an argument that cannot convert it. -/
theorem Moves.isFilled_eq (h : s.Moves w w') (hr : w.rest = token :: rest)
    (harg : s.arg? id = some arg) {why : String}
    (hwhy : (arg.pipeline.run token).result = .error why) :
    w'.pass.isFilled id = w.pass.isFilled id := by
  cases hold : w.pass.isFilled id with
  | true => exact h.pass_grows.filled hold
  | false =>
    by_contra hnew
    obtain ⟨token', rest', v, hr', ht, -⟩ := h.taker hold (Bool.not_eq_false _ ▸ hnew)
    obtain ⟨-, arg', harg', hv⟩ := answer?_eq_ok (taker?_eq_some ht).2
    cases hr.symm.trans hr'
    cases harg.symm.trans harg'
    cases hwhy.symm.trans hv

theorem Moves.value?_eq (hw : s.Sound w) (ha : s.WellFormed) (h : s.Moves w w')
    (hf : w'.pass.isFilled id = w.pass.isFilled id) :
    w'.pass.value? id = w.pass.value? id := by
  have hw' := h.sound hw ha
  rcases hv : w.pass.value? id with _ | v
  · rw [hw.arg_value, hw'.arg_value, hv] at hf
    exact Option.not_isSome_iff_eq_none.1 (by simp [hf])
  · exact h.pass_grows.value hv

theorem parse_keepsSlots (ha : s.WellFormed) (tokens : List String) : s.KeepsSlots tokens where
  held hr := (sound_of_reaches ha hr).arg_value
  rejected hr hm hrest harg hwhy :=
    have hf := hm.isFilled_eq hrest harg hwhy
    ⟨hf, hm.value?_eq (sound_of_reaches ha hr) ha hf⟩
  failed he := by
    obtain ⟨-, token, store, before, id, after, hnext, href⟩ := parse_pointsAt ha he
    obtain ⟨arg, hc, hname⟩ := href.refused
    have hnone := href.unmatched
    rw [parse_isFilled ha] at hnone
    exact ⟨token, id, arg, hnext, hc, hname, by simpa using hnone⟩

/-- A value was converted from a token that the pass consumed. -/
theorem parse_value (ha : s.WellFormed) (h : (s.parse tokens).1.value? id = some v) :
    ∃ token ∈ (s.parse tokens).1.consumed, ∃ arg, s.arg? id = some arg ∧
      (arg.pipeline.run token).result = .ok v := by
  have hord := parse_fillsInOrder ha tokens
  have hf : (s.parse tokens).1.isFilled id = true := by simp [parse_isFilled ha, h]
  obtain ⟨w, token, hc⟩ := (hord.filled_iff id).1 hf
  obtain ⟨hget, arg, v', harg, hv, hval⟩ := hord.explained hc
  obtain rfl := Option.some.inj (h.symm.trans hval)
  exact ⟨token, List.mem_of_getElem? hget, arg, harg, hv⟩

end Scheme

/-- The command line that a call reads, without the name of the program. -/
def Call.tokens? : Call → Option (List String)
  | .parse tokens => some tokens
  | .validateArgs argv => some argv.tail
  | .register _ | .reset | .setErrorMode _ | .setProgram _ => none

/-- Whether a call leaves what was found as it is. -/
def Call.keepsPass : Call → Bool
  | .register _ | .setErrorMode _ | .setProgram _ => true
  | .parse _ | .validateArgs _ | .reset => false

/-- The last command line that a script reads, when it is not reset later, and the calls before
it. -/
def ReadsLast (script earlier : List Call) (tokens : List String) : Prop :=
  ∃ c later, script = earlier ++ c :: later ∧ c.tokens? = some tokens ∧ ∀ d ∈ later, d.keepsPass

theorem ReadsLast.append {script earlier : List Call} {tokens : List String} {c : Call}
    (h : ReadsLast script earlier tokens) (hc : c.keepsPass = true) :
    ReadsLast (script ++ [c]) earlier tokens := by
  obtain ⟨c', later, rfl, hc', hlater⟩ := h
  refine ⟨c', later ++ [c], by simp, hc', fun d hd => ?_⟩
  rcases List.mem_append.1 hd with hd | hd
  · exact hlater d hd
  · exact List.mem_singleton.1 hd ▸ hc

namespace Session

/-- What was found is what the last command line left; it is nothing if none was read, or none
since the last reset. -/
structure FindsLast (script : List Call) (p : Pass) : Prop where
  last : ∀ {earlier tokens}, ReadsLast script earlier tokens →
    p = ((after earlier).parse tokens).1.pass
  none : (∀ earlier tokens, ¬ReadsLast script earlier tokens) → p = {}

/-- The arguments that have matched are those with a value, which they converted from a token that
was consumed; it is read as its own type only. What was never registered has none. -/
structure HoldsValues (t : Session) : Prop where
  filled_iff : ∀ id, t.pass.isFilled id = true ↔ ∃ v, t.pass.value? id = some v
  converted : ∀ {id v}, t.pass.value? id = some v → ∃ token ∈ t.pass.consumed, ∃ arg,
    t.scheme.arg? id = some arg ∧ (arg.pipeline.run token).result = .ok v
  typed : ∀ {id arg type}, t.scheme.arg? id = some arg → arg.Yields type → ∀ other,
    t.valueAs? id other = if other = type then t.pass.value? id else none
  unknown : ∀ {id}, t.scheme.arg? id = none → ∀ type, t.valueAs? id type = none

variable {t : Session} {c : Call} {script earlier later : List Call} {tokens : List String}

section LastPass

theorem call_pass_of_tokens (hc : c.tokens? = some tokens) :
    (t.call c).pass = (t.parse tokens).1.pass := by
  cases c with
  | parse => cases hc; rfl
  | validateArgs argv => cases argv <;> cases hc <;> rfl
  | register | reset | setErrorMode | setProgram => cases hc

theorem call_pass_of_keeps (hc : c.keepsPass = true) : (t.call c).pass = t.pass := by
  cases c with
  | register r =>
    simp only [call]
    split <;> rfl
  | setErrorMode | setProgram => rfl
  | parse | validateArgs | reset => cases hc

theorem after_pass_of_keeps (h : ∀ d ∈ later, d.keepsPass) :
    (after (earlier ++ later)).pass = (after earlier).pass := by
  induction later using List.reverseRecOn with
  | nil => rw [List.append_nil]
  | append_singleton later c ih =>
    simp only [List.mem_append, List.mem_singleton] at h
    rw [← List.append_assoc, after_append, call_pass_of_keeps (h c (.inr rfl))]
    exact ih fun d hd => h d (.inl hd)

theorem after_findsLast (script : List Call) : FindsLast script (after script).pass where
  last := by
    rintro earlier tokens ⟨c, later, rfl, hc, hlater⟩
    rw [List.append_cons, after_pass_of_keeps hlater, after_append, call_pass_of_tokens hc]
  none h := by
    induction script using List.reverseRecOn with
    | nil => rfl
    | append_singleton script c ih =>
      have hread : c.tokens? = none := by
        by_contra hc
        obtain ⟨tokens, hc⟩ := Option.ne_none_iff_exists'.1 hc
        exact h script tokens ⟨c, [], rfl, hc, by simp⟩
      rw [after_append]
      cases hc : c.keepsPass with
      | true =>
        rw [call_pass_of_keeps hc]
        exact ih fun earlier tokens hl => h earlier tokens (hl.append hc)
      | false =>
        cases c with
        | reset => rfl
        | parse | validateArgs => cases hread
        | register | setErrorMode | setProgram => cases hc

end LastPass

/-- Values are read as the type that they have. -/
theorem holdsValues_of_converted
    (hf : ∀ id, t.pass.isFilled id = (t.pass.value? id).isSome)
    (hv : ∀ {id v}, t.pass.value? id = some v → ∃ token ∈ t.pass.consumed, ∃ arg,
      t.scheme.arg? id = some arg ∧ (arg.pipeline.run token).result = .ok v) :
    t.HoldsValues where
  filled_iff id := by rw [hf, Option.isSome_iff_exists]
  converted := hv
  typed := by
    intro id arg type harg hy other
    rcases hval : t.pass.value? id with _ | v
    · simp [valueAs?, hval]
    · obtain ⟨token, -, arg', harg', hrun⟩ := hv hval
      cases harg.symm.trans harg'
      simp [valueAs?, hval, Value.asType?, hy token v hrun, eq_comm]
  unknown := by
    intro id hid type
    rcases hval : t.pass.value? id with _ | v
    · simp [valueAs?, hval]
    · obtain ⟨token, -, arg, harg, -⟩ := hv hval
      cases hid.symm.trans harg

theorem after_holdsValues (script : List Call) : (after script).HoldsValues := by
  by_cases h : ∃ earlier tokens, ReadsLast script earlier tokens
  · obtain ⟨earlier, tokens, hread⟩ := h
    have ha := after_wellFormed earlier
    have hp : (after script).pass = ((after earlier).scheme.parse tokens).1 :=
      (after_findsLast script).last hread
    have hprefix : earlier <+: script := by
      obtain ⟨c, later, rfl, -⟩ := hread
      exact List.prefix_append _ _
    refine holdsValues_of_converted (fun id => by rw [hp, Scheme.parse_isFilled ha]) ?_
    intro id v hv
    rw [hp] at hv ⊢
    -- the argument was there when its token was read
    obtain ⟨token, hmem, arg, harg, hrun⟩ := Scheme.parse_value ha hv
    exact ⟨token, hmem, arg, after_arg? hprefix harg, hrun⟩
  · simp only [not_exists] at h
    have hp : (after script).pass = {} := (after_findsLast script).none h
    refine holdsValues_of_converted (fun id => by rw [hp]; rfl) ?_
    intro id v hv
    rw [hp] at hv
    cases hv

/-- What is converted to one type is not read as another one. -/
theorem after_valueAs?_of_map (script : List Call) {α : Type} {type other : ValueType}
    {f : α → Value} (hf : ∀ a, (f a).type = type) (hne : other ≠ type) {id : ArgId}
    {name description : String} {policy : Policy} {p : Pipeline α}
    (h : (after script).scheme.arg? id = some ⟨name, policy, description, p.map f⟩) :
    (after script).valueAs? id other = none := by
  have hy := Positional.yields_map hf name description policy p
  rw [(after_holdsValues script).typed h hy, if_neg hne]

/-- After every call of a script, the arguments that matched in the last pass are those with a
value, which they have from that pass. In a pass it is never otherwise, and what an argument cannot
convert leaves nothing behind. -/
theorem after_values (script : List Call) : (after script).HoldsValues ∧
    FindsLast script (after script).pass ∧
    ∀ tokens, (after script).scheme.KeepsSlots tokens :=
  ⟨after_holdsValues script, after_findsLast script,
    fun tokens => Scheme.parse_keepsSlots (after_wellFormed script) tokens⟩

end Session

end CommandGrammar
