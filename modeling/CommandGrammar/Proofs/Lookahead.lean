import CommandGrammar.Pipeline.Conversion
import CommandGrammar.Proofs.Refinement

/-!
# One token of lookahead

A step of a walk looks at the next token and at nothing behind it, so a walk goes on in the same way
whatever follows the tokens that it has seen. A walk that asks for help, or fails at a token, has
not looked further than that token; only what is missing depends on where the command line ends.

Cut off behind a token that it consumes, a walk still consumes that token. Then it is at its end,
and only closes the open stores, as long as they lack nothing.
-/

namespace CommandGrammar

/-- The same state in front of other tokens. -/
def Walk.ahead (w : Walk) (tokens : List String) : Walk := { w with rest := tokens }

namespace Scheme

open Relation

variable {s : Scheme} {w w' last : Walk} {o : Except ParseError Outcome} {token : String}
  {front tail : List String}

theorem Declines.ahead (h : s.Declines w) {rest : List String} (hr : w.rest = token :: rest)
    (rest' : List String) : s.Declines (w.ahead (token :: rest')) := by
  rintro token' rest'' h'
  cases h'
  exact h token rest hr

/-- A step looks at the next token only. -/
theorem Advance.ahead (h : s.Advance w w') (hr : w.rest = token :: (front ++ tail)) :
    ∃ front', w'.rest = front' ++ tail ∧
      ∀ tail', s.Advance (w.ahead (token :: (front ++ tail'))) (w'.ahead (front' ++ tail')) := by
  cases h with
  | simple hr' hk hm hg hh hc =>
    cases hr'.symm.trans hr
    exact ⟨front, rfl, fun _ => .simple (w := w.ahead _) rfl hk hm hg hh hc⟩
  | nested hr' hk hm hg hh hc =>
    cases hr'.symm.trans hr
    exact ⟨front, rfl, fun _ => .nested (w := w.ahead _) rfl hk hm hg hh hc⟩
  | fill hr' hk ht =>
    cases hr'.symm.trans hr
    exact ⟨front, rfl, fun _ => .fill (w := w.ahead _) rfl hk ht⟩
  | close hf hn hs =>
    rw [hr] at hs
    exact ⟨token :: front, hr, fun _ => .close (w := w.ahead _) hf (hn.ahead hr _) hs⟩

theorem Halt.ahead (h : s.Halt w last o) (hr : w.rest = token :: (front ++ tail)) :
    ∃ front', last.rest = front' ++ tail ∧
      ∀ tail', s.Halt (w.ahead (token :: (front ++ tail'))) (last.ahead (front' ++ tail')) o := by
  cases h with
  | help hr' hk hm hg hh =>
    cases hr'.symm.trans hr
    exact ⟨front, rfl, fun _ => .help (w := w.ahead _) rfl hk hm hg hh⟩
  | repeated hr' hk hm =>
    cases hr'.symm.trans hr
    exact ⟨token :: front, hr, fun _ => .repeated (w := w.ahead _) rfl hk hm⟩
  | conflict hr' hk hm hg =>
    cases hr'.symm.trans hr
    exact ⟨token :: front, hr, fun _ => .conflict (w := w.ahead _) rfl hk hm hg⟩
  | refused hr' hk ht =>
    cases hr'.symm.trans hr
    exact ⟨token :: front, hr, fun _ => .refused (w := w.ahead _) rfl hk ht⟩
  | lacking hn hs =>
    rw [hr] at hs
    exact ⟨token :: front, hr, fun _ => .lacking (w := w.ahead _) (hn.ahead hr _) hs⟩
  | parsed hf hr' hs => cases hr'.symm.trans hr
  | leftover hf hr' hk ht hs =>
    cases hr'.symm.trans hr
    rw [hr] at hs
    exact ⟨token :: front, hr, fun _ => .leftover (w := w.ahead _) hf rfl hk ht hs⟩

theorem Advance.length_rest_le (h : s.Advance w w') : w'.rest.length ≤ w.rest.length := by
  cases h with
  | simple hr | nested hr | fill hr => simp [Walk.eat, hr]
  | close => exact le_rfl

/-- A walk that has not come to the tail of its tokens goes the same way before any other tail. -/
theorem reaches_ahead (h : ReflTransGen s.Advance w w') (hr : w.rest = front ++ tail)
    (hlt : tail.length < w'.rest.length) : ∃ front', w'.rest = front' ++ tail ∧
      ∀ tail', ReflTransGen s.Advance (w.ahead (front ++ tail')) (w'.ahead (front' ++ tail')) := by
  induction h with
  | refl => exact ⟨front, hr, fun _ => .refl⟩
  | @tail v w' _ hstep ih =>
    obtain ⟨front₁, h₁, hwalk⟩ := ih (hlt.trans_le hstep.length_rest_le)
    have hne : front₁ ≠ [] := by
      rintro rfl
      have hle := hstep.length_rest_le
      rw [h₁, List.nil_append] at hle
      omega
    obtain ⟨token, front₂, rfl⟩ := List.exists_cons_of_ne_nil hne
    obtain ⟨front', h', hnext⟩ := hstep.ahead h₁
    exact ⟨front', h', fun tail' => (hwalk tail').tail (hnext tail')⟩

theorem parse_of_halt (ha : s.WellFormed) {tokens : List String}
    (h : ReflTransGen s.Advance { rest := tokens } w) (ho : s.Halt w last o) :
    s.parse tokens = ({ last.pass with consumed := last.consumed }, o) := by
  rw [parse_eq_walk ha, walk_eq_of_reaches h, ho.walk_eq]

section Decided

/-- Whether an outcome is settled before the end of the command line. -/
def isDecided : Except ParseError Outcome → Bool
  | .ok outcome => outcome = .help
  | .error e =>
    e.kind ∈ [.repeatedFlag, .unexpectedArgument, .exclusiveConflict, .conversionFailure]

/-- A walk with a decided outcome ends at a token: it consumes the one that asks for help, and
fails at another. -/
theorem Halt.exists_next (h : s.Halt w last o) (hd : isDecided o = true) :
    ∃ token rest, w.rest = token :: rest ∧ ∃ next : Option String,
      (next = none ↔ o = .ok .help) ∧ last.consumed ++ next.toList = w.consumed ++ [token] := by
  cases h with
  | @help token rest _ _ hr => exact ⟨token, rest, hr, none, by simp, by simp [Walk.eat]⟩
  | @repeated token rest _ _ hr => exact ⟨token, rest, hr, some token, by simp, rfl⟩
  | @conflict token rest _ _ _ _ hr => exact ⟨token, rest, hr, some token, by simp, rfl⟩
  | @refused token rest _ _ hr => exact ⟨token, rest, hr, some token, by simp, rfl⟩
  | @leftover token rest _ hr => exact ⟨token, rest, hr, some token, by simp, rfl⟩
  | @lacking e _ hs =>
    rcases shortfall?_eq_some hs with ⟨-, rfl | rfl⟩ | ⟨token, rest, hr, rfl⟩
    · cases hd
    · cases hd
    · exact ⟨token, rest, hr, some token, by simp, rfl⟩
  | parsed => cases hd

theorem parse_decided (ha : s.WellFormed) {tokens : List String}
    (hd : isDecided (s.parse tokens).2 = true) : ∃ next : Option String,
      (next = none ↔ (s.parse tokens).2 = .ok .help) ∧
      (s.parse tokens).1.consumed ++ next.toList <+: tokens ∧
      ∀ more, s.parse ((s.parse tokens).1.consumed ++ next.toList ++ more) = s.parse tokens := by
  obtain ⟨w, last, hwalk, ho, hp⟩ := parse_halt ha tokens
  obtain ⟨token, rest, hr, next, hnext, hc⟩ := ho.exists_next hd
  have htokens : tokens = (w.consumed ++ [token]) ++ rest := by
    simpa [hr] using (tokens_eq_of_reaches hwalk).symm
  rw [hp]
  refine ⟨next, hnext, ⟨rest, by rw [htokens, ← hc]⟩, fun more => ?_⟩
  -- the walk is cut behind the token at which it ends, and put in front of other tokens
  obtain ⟨front, hfront, hwalk'⟩ := reaches_ahead hwalk htokens (by simp [hr])
  obtain rfl : front = [token] := List.append_cancel_right (hfront.symm.trans hr)
  obtain ⟨front', -, ho'⟩ := ho.ahead (show w.rest = token :: ([] ++ rest) from hr)
  calc s.parse (last.consumed ++ next.toList ++ more)
      = s.parse (w.consumed ++ [token] ++ more) := by rw [hc]
    _ = ({ last.pass with consumed := last.consumed }, (s.parse tokens).2) :=
        (parse_of_halt ha (hwalk' more) (ho' more) :)
    _ = s.parse tokens := by rw [← hp]

end Decided

section Viable

/-- A command line that can be read to its end: it is complete, or lacks something. -/
inductive Viable : Except ParseError Outcome → Prop where
  | parsed : Viable (.ok .parsed)
  | flag (options : List String) : Viable (.error (.missingMandatoryFlag options))
  | argument (options : List String) : Viable (.error (.missingMandatoryArgument options))

/-- Without its tail, a walk that gets to the tail gets to the end. -/
theorem exists_reaches_end (h : ReflTransGen s.Advance w w') : ∀ {front : List String},
    w.rest = front ++ tail → w'.rest.length ≤ tail.length →
      ∃ v, ReflTransGen s.Advance (w.ahead front) v ∧ v.rest = [] := by
  induction h using ReflTransGen.head_induction_on with
  | refl =>
    intro front hr hle
    rw [hr, List.length_append] at hle
    obtain rfl : front = [] := List.eq_nil_of_length_eq_zero (by omega)
    exact ⟨_, .refl, rfl⟩
  | head hstep _ ih =>
    intro front hr hle
    rcases front with _ | ⟨token, front⟩
    · exact ⟨_, .refl, rfl⟩
    · obtain ⟨front', hr', hstep'⟩ := hstep.ahead hr
      obtain ⟨v, hv, hend⟩ := ih hr' hle
      have hfirst := hstep' []
      rw [List.append_nil, List.append_nil] at hfirst
      exact ⟨v, .head hfirst hv, hend⟩

/-- At its end a walk closes stores until one lacks something, or none is left. -/
theorem Halt.viable (h : s.Halt w last o) (hr : w.rest = []) : last = w ∧ Viable o := by
  cases h with
  | repeated hr' | conflict hr' | help hr' | refused hr' | leftover _ hr' =>
    cases hr'.symm.trans hr
  | lacking hn hs =>
    rcases shortfall?_eq_some hs with ⟨-, rfl | rfl⟩ | ⟨token, rest, hr', -⟩
    · exact ⟨rfl, .flag _⟩
    · exact ⟨rfl, .argument _⟩
    · cases hr'.symm.trans hr
  | parsed => exact ⟨rfl, .parsed⟩

theorem rest_eq_nil_of_reaches (h : ReflTransGen s.Advance w w') (hr : w.rest = []) :
    w'.rest = [] := by
  induction h with
  | refl => exact hr
  | tail _ hstep ih =>
    have hle := hstep.length_rest_le
    rw [ih] at hle
    exact List.eq_nil_of_length_eq_zero (Nat.le_zero.1 hle)

/-- A part of a command line that is consumed before the walk ends is read to its end. -/
theorem parse_viable (ha : s.WellFormed) {tokens : List String}
    (h : ReflTransGen s.Advance { rest := tokens } w) {front : List String}
    (hf : front <+: w.consumed) :
    (s.parse front).1.consumed = front ∧ Viable (s.parse front).2 := by
  obtain ⟨inner, hinner⟩ := hf
  have htokens : tokens = front ++ (inner ++ w.rest) := by
    rw [← List.append_assoc, hinner]
    simpa using (tokens_eq_of_reaches h).symm
  obtain ⟨v, hv, hend⟩ := exists_reaches_end h htokens (by simp)
  obtain ⟨last, hlast, ho⟩ := walk_reaches (s := s) v
  have hnil := rest_eq_nil_of_reaches hlast hend
  obtain ⟨hw, hviable⟩ := ho.viable hnil
  have hwalk : ReflTransGen s.Advance { rest := front } last := hv.trans hlast
  have hc := tokens_eq_of_reaches hwalk
  rw [hw] at ho
  rw [parse_of_halt ha hwalk ho]
  exact ⟨by simpa [hnil] using hc, hviable⟩

/-- All that a walk has consumed in the end, it has consumed before its last step, but for the
token that asks for help. -/
theorem Halt.consumed_prefix (h : s.Halt w last o) {front : List String}
    (hf : front <+: last.consumed) (hh : o = .ok .help → front ≠ last.consumed) :
    front <+: w.consumed := by
  cases h with
  | help =>
    rcases List.prefix_concat_iff.1 hf with h | h
    · exact absurd h (hh rfl)
    · exact h
  | repeated | conflict | refused | lacking | parsed | leftover => exact hf

end Viable

end Scheme

namespace Session

theorem parse_of_scheme {t : Session} {tokens tokens' : List String}
    (h : t.scheme.parse tokens = t.scheme.parse tokens') : t.parse tokens = t.parse tokens' := by
  rw [parse, parse, h]

/-- Whatever a session went through before: once a pass has asked for help, or failed at a token,
what follows makes no difference, not to the outcome and not to what was found. The pass depends on
the tokens that it consumed, and on the next one if it failed. -/
theorem after_parse_decided (script : List Call) (tokens : List String)
    (h : Scheme.isDecided ((after script).parse tokens).2 = true) :
    (∀ more, (after script).parse (tokens ++ more) = (after script).parse tokens) ∧
    ∃ next : Option String,
      (next = none ↔ ((after script).parse tokens).2 = .ok .help) ∧
      ((after script).parse tokens).1.pass.consumed ++ next.toList <+: tokens ∧
      ∀ more, (after script).parse
        (((after script).parse tokens).1.pass.consumed ++ next.toList ++ more) =
          (after script).parse tokens := by
  obtain ⟨next, hnext, ⟨rest, hrest⟩, hmore⟩ := Scheme.parse_decided (after_wellFormed script) h
  refine ⟨fun more => ?_, next, hnext, ⟨rest, hrest⟩, fun more => ?_⟩
  · refine parse_of_scheme ?_
    calc (after script).scheme.parse (tokens ++ more)
        = (after script).scheme.parse (_ ++ next.toList ++ (rest ++ more)) := by
          rw [← List.append_assoc, hrest]
      _ = (after script).scheme.parse tokens := hmore (rest ++ more)
  · exact parse_of_scheme (hmore more)

/-- A flag that is followed by an argument, and by one of two flags at most. -/
def moveScript : List Call :=
  [.register .help,
    .register (.complexFlag Scheme.root "move" .mandatory "Moves a file."),
    .register (.arg ⟨1⟩ ⟨"source", .mandatory, "The file.", Pipeline.text.map .text⟩),
    .register (.group ⟨1⟩ .optional),
    .register (.member ⟨0⟩ "-f" "Overwrites a file."),
    .register (.member ⟨0⟩ "-n" "Keeps a file.")]

theorem move_parse_decided :
    Scheme.isDecided ((after moveScript).parse ["move", "notes", "-f", "-n"]).2 = true ∧
      ∀ more, (after moveScript).parse (["move", "notes", "-f", "-n"] ++ more) =
        (after moveScript).parse ["move", "notes", "-f", "-n"] := by
  have h : Scheme.isDecided ((after moveScript).parse ["move", "notes", "-f", "-n"]).2 = true := by
    decide +kernel
  exact ⟨h, (after_parse_decided moveScript _ h).1⟩

/-- Whatever a session went through before, and however a pass ends: what it has consumed, cut off
anywhere, is consumed again as a whole, and no token of it is refused. The token that asks for help
ends a pass and is left out. -/
theorem after_parse_viable (script : List Call) (tokens front : List String)
    (hf : front <+: ((after script).parse tokens).1.pass.consumed)
    (hh : ((after script).parse tokens).2 = .ok .help →
      front ≠ ((after script).parse tokens).1.pass.consumed) :
    ((after script).parse front).1.pass.consumed = front ∧
      Scheme.Viable ((after script).parse front).2 := by
  obtain ⟨w, last, hwalk, ho, hp⟩ := Scheme.parse_halt (after_wellFormed script) tokens
  have hc : ((after script).parse tokens).1.pass.consumed = last.consumed :=
    congrArg Pass.consumed hp
  rw [hc] at hf hh
  exact Scheme.parse_viable (after_wellFormed script) hwalk (ho.consumed_prefix hf hh)

theorem move_parse_viable :
    ["move"] <+: ((after moveScript).parse ["move", "notes", "-f", "-n"]).1.pass.consumed ∧
      ((after moveScript).parse ["move"]).1.pass.consumed = ["move"] ∧
        Scheme.Viable ((after moveScript).parse ["move"]).2 := by
  have h : ["move"] <+:
      ((after moveScript).parse ["move", "notes", "-f", "-n"]).1.pass.consumed := by
    decide +kernel
  exact ⟨h, after_parse_viable moveScript _ ["move"] h (by decide +kernel)⟩

end Session

end CommandGrammar
