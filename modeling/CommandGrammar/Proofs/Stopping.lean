import CommandGrammar.Pipeline.Conversion
import CommandGrammar.Proofs.Refinement
import CommandGrammar.Proofs.Trail

/-!
# Where a failed pass stops

A pass that fails has consumed the tokens in front of the one that it reports, and no other. What
the error says of earlier tokens was read among these: a flag that is repeated or in the way has a
key there. An argument that refuses a token is the first of its level that has a say. Only what is
missing is reported behind the last token.
-/

namespace CommandGrammar.Scheme

open Relation

variable (s : Scheme)

/-- An argument cannot convert a token, for a reason. -/
structure CannotTake (id : ArgId) (policy : Policy) (token reason : String) (arg : Positional) :
    Prop where
  known : s.arg? id = some arg
  policy_eq : arg.policy = policy
  result : (arg.pipeline.run token).result = .error reason

/-- A mandatory argument that has not matched cannot take a token, and those before it in its store
that have not matched are optional and decline it. -/
structure RefusedBy (p : Pass) (token : String) (name reason : String) (store : StoreId)
    (before : List ArgId) (id : ArgId) (after : List ArgId) : Prop where
  level : s.argsOf store = before ++ id :: after
  unmatched : p.isFilled id = false
  refused : ∃ arg, s.CannotTake id .mandatory token reason arg ∧ arg.name = name
  declined : ∀ other ∈ before, p.isFilled other = false →
    ∃ why arg, s.CannotTake other .optional token why arg

/-- No argument of a store that has not matched can take a token, nor must it. -/
def AllDecline (p : Pass) (store : StoreId) (token : String) : Prop :=
  ∀ id ∈ s.argsOf store, p.isFilled id = false → ∃ why arg, s.CannotTake id .optional token why arg

/-- What an error says of the tokens, when a pass has consumed some of them. -/
def PointsAt (p : Pass) (tokens : List String) : ParseError → Prop
  | .repeatedFlag flag => tokens[p.consumed.length]? = some flag ∧ flag ∈ p.consumed
  | .unexpectedArgument token _ => tokens[p.consumed.length]? = some token
  | .exclusiveConflict first second _ =>
    tokens[p.consumed.length]? = some second ∧ first ∈ p.consumed
  | .conversionFailure argument reason => ∃ token store before id after,
    tokens[p.consumed.length]? = some token ∧
      s.RefusedBy p token argument reason store before id after
  | .missingMandatoryFlag _ | .missingMandatoryArgument _ => p.consumed.length = tokens.length

variable {s} {w last : Walk} {trail : List Node} {token : String} {rest : List String}

/-- The key of a flag that was touched is one of the tokens that were consumed. -/
theorem Trail.key_mem_consumed (ht : s.Trail w trail) {id : FlagId} (hid : w.Touched (.flag id))
    {key : String} (hk : s.key? id = some key) : key ∈ w.consumed := by
  obtain ⟨i, hi, hn⟩ := List.mem_iff_getElem.1 ((ht.mem_iff _).2 hid)
  have hlen : w.consumed.length = trail.length := ht.explained.length_eq
  have hex := ht.explained.get (hlen ▸ hi) hi
  simp only [List.get_eq_getElem, hn, Explains] at hex
  obtain rfl := Option.some.inj (hk.symm.trans hex)
  exact List.getElem_mem _

theorem answer?_eq_error {p : Pass} {id : ArgId} {e : ParseError}
    (h : s.answer? p token id = some (.error e)) : p.isFilled id = false ∧
      ∃ arg reason, s.CannotTake id .mandatory token reason arg ∧
        e = .conversionFailure arg.name reason := by
  unfold answer? at h
  split at h
  · cases h
  · rename_i arg ha
    split_ifs at h with hf
    split at h
    · cases h
    · rename_i reason hr hp
      cases h
      exact ⟨by simpa using hf, arg, reason, ⟨ha, hp, hr⟩, rfl⟩
    · cases h

theorem answer?_eq_none {p : Pass} {id : ArgId} {arg : Positional} (ha : s.arg? id = some arg)
    (hf : p.isFilled id = false) (h : s.answer? p token id = none) :
    ∃ why, s.CannotTake id .optional token why arg := by
  simp only [answer?, ha, hf, Bool.false_eq_true, if_false] at h
  split at h
  · cases h
  · cases h
  · rename_i why hr hp
    exact ⟨why, ha, hp, hr⟩

theorem allDecline_of_taker? (ha : s.WellFormed) {p : Pass} {store : StoreId}
    (h : s.taker? p store token = none) :
    s.AllDecline p store token := by
  intro id hid hf
  obtain ⟨arg, harg⟩ := ha.exists_arg hid
  have hnone : s.answer? p token id = none := by simpa using List.findSome?_eq_none_iff.1 h id hid
  obtain ⟨why, hw⟩ := answer?_eq_none harg hf hnone
  exact ⟨why, arg, hw⟩

theorem AllDecline.isFilled {p : Pass} {store : StoreId}
    (h : s.AllDecline p store token) {id : ArgId} {a : Positional}
    (hid : id ∈ s.argsOf store) (harg : s.arg? id = some a) (hp : a.policy = .mandatory) :
    p.isFilled id = true := by
  by_contra hf
  obtain ⟨why, arg, harg', hpol, -⟩ := h id hid (by simpa using hf)
  obtain rfl := Option.some.inj (harg.symm.trans harg')
  cases hp.symm.trans hpol

theorem AllDecline.lacksArg_eq {p : Pass} {store : StoreId} (h : s.AllDecline p store token) :
    s.lacksArg p store = false := by
  refine lacksArg_eq_false.2 fun id hid hp => ?_
  obtain ⟨a, harg, hp⟩ := Option.map_eq_some_iff.1 hp
  exact h.isFilled hid harg hp

/-- A level refuses a token by the first of its arguments that does not decline it. -/
theorem exists_refusedBy (ha : s.WellFormed) {p : Pass} {store : StoreId} {id : ArgId}
    {e : ParseError} (h : s.taker? p store token = some (id, .error e)) :
    ∃ name reason before after, e = .conversionFailure name reason ∧
      s.RefusedBy p token name reason store before id after := by
  obtain ⟨before, id', after, hl, hans, hbefore⟩ := List.findSome?_eq_some_iff.1 h
  simp only [Option.map_eq_some_iff, Prod.mk.injEq] at hans
  obtain ⟨a, hans, rfl, rfl⟩ := hans
  obtain ⟨hf, arg, reason, hc, rfl⟩ := answer?_eq_error hans
  refine ⟨arg.name, reason, before, after, rfl, hl, hf, ⟨arg, hc, rfl⟩, ?_⟩
  intro other ho hfo
  have hmem : other ∈ s.argsOf store := by
    rw [hl]
    exact List.mem_append_left _ ho
  obtain ⟨arg', harg'⟩ := ha.exists_arg hmem
  have hnone : s.answer? p token other = none := by simpa using hbefore other ho
  obtain ⟨why, hw⟩ := answer?_eq_none harg' hfo hnone
  exact ⟨why, arg', hw⟩

theorem getElem?_of_rest {tokens : List String} (ht : w.consumed ++ w.rest = tokens)
    (hr : w.rest = token :: rest) : tokens[w.consumed.length]? = some token := by
  rw [← ht, hr]
  simp

/-- What a store lacks is reported at the next token, if there is one. -/
theorem shortfall?_pointsAt {p : Pass} {store : StoreId} {e : ParseError} {tokens : List String}
    (ht : w.consumed ++ w.rest = tokens) (hp : p.consumed = w.consumed)
    (h : s.shortfall? w.pass store w.rest = some e) : s.PointsAt p tokens e := by
  rcases shortfall?_eq_some h with ⟨hr, he⟩ | ⟨token, rest, hr, rfl⟩
  · have hend : p.consumed.length = tokens.length := by
      rw [hp, ← ht, hr, List.append_nil]
    rcases he with rfl | rfl <;> exact hend
  · have hnext : tokens[p.consumed.length]? = some token := by
      rw [hp]
      exact getElem?_of_rest ht hr
    exact hnext

theorem Halt.pointsAt {e : ParseError} {tokens : List String} (hw : s.Sound w)
    (htr : s.Trail w trail) (ha : s.WellFormed) (ht : w.consumed ++ w.rest = tokens)
    (h : s.Halt w last (.error e)) :
    s.PointsAt { last.pass with consumed := last.consumed } tokens e := by
  cases h with
  | repeated hr hk hm =>
    obtain ⟨-, hf, hkey⟩ := keyFlag?_eq_some ha.toLinked hk
    refine ⟨?_, htr.key_mem_consumed (.inl hm) (by rw [key?, hf]; rfl)⟩
    rw [hkey]
    exact getElem?_of_rest ht hr
  | @conflict token rest id flag group first hr hk hm hg =>
    obtain ⟨-, -, hkey⟩ := keyFlag?_eq_some ha.toLinked hk
    obtain ⟨htouched, f, hf, -⟩ := hw.chosen_member (rival?_eq_some.1 hg).2
    have hfirst : s.key? first = some f.key := by rw [key?, hf]; rfl
    refine ⟨?_, ?_⟩
    · rw [hkey]
      exact getElem?_of_rest ht hr
    · rw [hfirst]
      exact htr.key_mem_consumed htouched hfirst
  | @refused token rest id e hr hk htk =>
    obtain ⟨name, reason, before, after, rfl, href⟩ := exists_refusedBy ha htk
    exact ⟨token, w.top, before, id, after, getElem?_of_rest ht hr,
      ⟨href.level, href.unmatched, href.refused, href.declined⟩⟩
  | lacking hn hs => exact shortfall?_pointsAt ht rfl hs
  | leftover hf hr hk htk hs => exact getElem?_of_rest ht hr

theorem parse_pointsAt (ha : s.WellFormed) {tokens : List String} {e : ParseError}
    (h : (s.parse tokens).2 = .error e) :
    (s.parse tokens).1.consumed = tokens.take (s.parse tokens).1.consumed.length ∧
      s.PointsAt (s.parse tokens).1 tokens e := by
  obtain ⟨w, last, hreach, ho, hp⟩ := parse_halt ha tokens
  rw [h] at ho
  have hw := sound_of_reaches ha hreach
  obtain ⟨trail, htr⟩ := (trail_start tokens).reaches (sound_start tokens) ha hreach
  have ht : w.consumed ++ w.rest = tokens := tokens_eq_of_reaches hreach
  have hlast : last.consumed ++ last.rest = tokens := ho.tokens_eq.trans ht
  rw [hp]
  refine ⟨?_, ho.pointsAt hw htr ha ht⟩
  rw [← hlast]
  simp

end CommandGrammar.Scheme

namespace CommandGrammar.Session

/-- Whatever a session went through before: a pass that fails has consumed the tokens up to the one
that its error is about. -/
theorem after_parse_points (script : List Call) (tokens : List String) (e : ParseError)
    (h : ((after script).parse tokens).2 = .error e) :
    ((after script).parse tokens).1.pass.consumed =
        tokens.take ((after script).parse tokens).1.pass.consumed.length ∧
      (after script).scheme.PointsAt ((after script).parse tokens).1.pass tokens e :=
  Scheme.parse_pointsAt (after_wellFormed script) h

/-- A flag that is followed by a unit of time, if one is wanted, and by a whole number. -/
def sleepScript : List Call :=
  [.register (.flag Scheme.root "-q" .optional "Says nothing."),
    .register (.complexFlag Scheme.root "sleep" .mandatory "Waits."),
    .register (.arg ⟨1⟩ ⟨"unit", .optional, "The unit.",
      (Pipeline.text.andThen (Pipeline.oneOf ["s", "ms"])).map .text⟩),
    .register (.arg ⟨1⟩ ⟨"time", .mandatory, "How long.",
      (Pipeline.integer (Literal.int .i64)).map (.int .i64)⟩)]

theorem sleep_parse_points :
    ((after sleepScript).parse ["-q", "sleep", "long"]).2 =
        .error (.conversionFailure "time" "Could not interpret argument as integer.") ∧
      (after sleepScript).scheme.PointsAt
        ((after sleepScript).parse ["-q", "sleep", "long"]).1.pass ["-q", "sleep", "long"]
        (.conversionFailure "time" "Could not interpret argument as integer.") := by
  have h : ((after sleepScript).parse ["-q", "sleep", "long"]).2 =
      .error (.conversionFailure "time" "Could not interpret argument as integer.") := by
    decide +kernel
  exact ⟨h, (after_parse_points sleepScript _ _ h).2⟩

end CommandGrammar.Session
