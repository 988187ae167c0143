import CommandGrammar.Grammar.Converter
import Mathlib.Tactic.SplitIfs

/-!
# What a converter accepts

A converter of numbers or choices reads a token first and looks at its limits after that. So there
are three things that can become of a token: it is taken as the value that was read, it is not read,
or what was read is outside. A double that is no number is on neither side of any end.
-/

namespace CommandGrammar

theorem head_append {s : String} {first : Char} (h : s.toList.head? = some first) (s' : String) :
    (s ++ s').toList.head? = some first := by
  rw [String.toList_append, List.head?_append, h]
  rfl

theorem head_ne {s : String} (h : s.toList.head? = some 'E') : s.toList.head? ≠ some 'C' := by
  rw [h]
  decide

theorem Range.message_head {α : Type} [Shown α] (r : Range α) :
    r.message.toList.head? = some 'E' :=
  head_append (head_append (head_append (head_append (head_append (head_append rfl _) _) _) _) _) _

namespace Bounds

variable {α : Type} [LE α] [LT α]

/-- A value is on the right side of each end that is present; an end that is exclusive is not one of
the values itself. -/
structure Admits (b : Bounds α) (x : α) : Prop where
  lower : ∀ {lo}, b.min = some lo → if b.minInclusive then lo ≤ x else lo < x
  upper : ∀ {hi}, b.max = some hi → if b.maxInclusive then x ≤ hi else x < hi

/-- What is said of a value outside. -/
def complaint [Shown α] (b : Bounds α) : String :=
  match b.min, b.max with
  | some lo, some hi => (Range.mk lo hi b.minInclusive b.maxInclusive).message
  | some lo, none =>
    (if b.minInclusive then "Expected value to be at least "
      else "Expected value to be greater than ") ++ Shown.text lo ++ "."
  | none, some hi =>
    (if b.maxInclusive then "Expected value to be at most "
      else "Expected value to be less than ") ++ Shown.text hi ++ "."
  | none, none => ""

/-- The same limits without the upper end. -/
def lowerOnly (b : Bounds α) : Bounds α := { b with max := none }

/-- The same limits without the lower end. -/
def upperOnly (b : Bounds α) : Bounds α := { b with min := none }

variable {b : Bounds α} {x y : α}

theorem admits_iff : b.Admits x ↔
    (∀ lo, b.min = some lo → if b.minInclusive then lo ≤ x else lo < x) ∧
      ∀ hi, b.max = some hi → if b.maxInclusive then x ≤ hi else x < hi :=
  ⟨fun h => ⟨fun _ => h.lower, fun _ => h.upper⟩, fun h => ⟨h.1 _, h.2 _⟩⟩

/-- What is read of a token is admitted or not, if it is read at all. -/
theorem cases_of_literal (b : Bounds α) (l : Literal α) (token : String) :
    (∃ x, l token = .ok x ∧ b.Admits x) ∨ (∃ e, l token = .error e) ∨
      ∃ x, l token = .ok x ∧ ¬b.Admits x := by
  rcases l token with e | x
  · exact .inr (.inl ⟨e, rfl⟩)
  · by_cases hb : b.Admits x
    · exact .inl ⟨x, rfl, hb⟩
    · exact .inr (.inr ⟨x, rfl, hb⟩)

theorem admits_iff_both : b.Admits x ↔ b.lowerOnly.Admits x ∧ b.upperOnly.Admits x :=
  ⟨fun h => ⟨⟨h.lower, by rintro _ ⟨⟩⟩, ⟨by rintro _ ⟨⟩, h.upper⟩⟩,
    fun h => ⟨h.1.lower, h.2.upper⟩⟩

omit [LE α] [LT α] in
theorem complaint_head_ne [Shown α] (b : Bounds α) : b.complaint.toList.head? ≠ some 'C' := by
  have hend : ∀ {closed : Bool} {s s' rest : String}, s.toList.head? = some 'E' →
      s'.toList.head? = some 'E' →
        ((if closed then s else s') ++ rest).toList.head? = some 'E' := by
    intro closed s s' rest h h'
    refine head_append ?_ _
    cases closed
    · exact h'
    · exact h
  unfold complaint
  rcases b.min with _ | lo <;> rcases b.max with _ | hi <;> dsimp only
  · simp
  · rw [String.append_assoc]
    exact head_ne (hend rfl rfl)
  · rw [String.append_assoc]
    exact head_ne (hend rfl rfl)
  · exact head_ne (Range.message_head _)

variable [DecidableLE α] [DecidableLT α]

theorem above_iff {lo : α} {inclusive : Bool} :
    Range.above lo inclusive x = true ↔ if inclusive then lo ≤ x else lo < x := by
  unfold Range.above
  split_ifs <;> simp

theorem below_iff {hi : α} {inclusive : Bool} :
    Range.below hi inclusive x = true ↔ if inclusive then x ≤ hi else x < hi := by
  unfold Range.below
  split_ifs <;> simp

theorem admits_iff_all : b.Admits x ↔ (b.min.all (Range.above · b.minInclusive x) &&
    b.max.all (Range.below · b.maxInclusive x)) = true := by
  simp only [admits_iff, Bool.and_eq_true, Option.all_eq_true, above_iff, below_iff]

variable [Shown α]

/-- The four shapes of limits are checked alike. -/
theorem check_eq (b : Bounds α) (x : α) :
    b.check x = if b.min.all (Range.above · b.minInclusive x) &&
      b.max.all (Range.below · b.maxInclusive x) then .ok x else .error b.complaint := by
  unfold check complaint
  rcases b.min with _ | lo <;> rcases b.max with _ | hi
  · rfl
  · simp only [Option.all_none, Option.all_some, Bool.true_and]
    split_ifs <;> rfl
  · simp only [Option.all_none, Option.all_some, Bool.and_true]
    split_ifs <;> rfl
  · rfl

theorem check_of_admits (h : b.Admits x) : b.check x = .ok x := by
  rw [check_eq, if_pos (admits_iff_all.1 h)]

theorem check_of_not_admits (h : ¬b.Admits x) : b.check x = .error b.complaint := by
  rw [check_eq, if_neg fun hb => h (admits_iff_all.2 hb)]

end Bounds

namespace Pipeline

variable {α β : Type} {message token : String} {l : Literal α} {check : α → Except String α}
  {f : α → β}

/-- A literal is read, and what was read is checked. -/
theorem run_checked_ok {x : α} (h : l token = .ok x) :
    ((((ofLiteralOr message l).andThen fun x => .ofExcept (check x)).map f).run token).result =
      (check x).map f := by
  rw [run_map, run_andThen, ofLiteralOr, run_ofConversion, h]
  rfl

theorem run_checked_error {e : Literal.Fault} (h : l token = .error e) :
    ((((ofLiteralOr message l).andThen fun x => .ofExcept (check x)).map f).run token).result =
      .error message := by
  rw [run_map, run_andThen, ofLiteralOr, run_ofConversion, h]
  rfl

theorem run_choice {f : String → β} {values : List String} :
    (((text.andThen (oneOf values)).map f).run token).result =
      if token ∈ values then .ok (f token)
      else .error ("Expected one of: " ++ ", ".intercalate values ++ ".") := by
  rw [run_map, run_andThen, text, run_ofConversion, Attempt.succeed_bind, oneOf]
  simp only [List.contains_iff_mem]
  split_ifs <;> rfl

end Pipeline

namespace Converter

/-- Converters with limits or choices. -/
def IsRanged : Converter → Prop
  | integer _ | unsigned _ | number _ | choice _ => True
  | text | existingFile | existingDirectory => False

/-- A token is read as a value that the settings admit. -/
inductive Takes : Converter → String → Value → Prop where
  | integer {b : Bounds Int} {token n} (hr : Literal.int .i64 token = .ok n) (hb : b.Admits n) :
      Takes (.integer b) token (.int .i64 n)
  | unsigned {b : Bounds Int} {token n} (hr : Literal.int .u64 token = .ok n) (hb : b.Admits n) :
      Takes (.unsigned b) token (.int .u64 n)
  | number {b : Bounds Float} {token x} (hr : Literal.float token = .ok x) (hb : b.Admits x) :
      Takes (.number b) token (.float x)
  | choice {values token} (h : token ∈ values) : Takes (.choice values) token (.text token)

/-- A token cannot be read as a value of the type, and the message that says so. -/
inductive Unread : Converter → String → String → Prop where
  | integer {b token e} (hr : Literal.int .i64 token = .error e) :
      Unread (.integer b) token "Could not interpret argument as integer."
  | unsigned {b token e} (hr : Literal.int .u64 token = .error e) :
      Unread (.unsigned b) token "Could not interpret argument as integer greater or equal to 0."
  | number {b token e} (hr : Literal.float token = .error e) :
      Unread (.number b) token "Could not interpret argument as number."

/-- A token is read, but as a value that the settings do not admit, and the message that says so. -/
inductive Outside : Converter → String → String → Prop where
  | integer {b : Bounds Int} {token n} (hr : Literal.int .i64 token = .ok n) (hb : ¬b.Admits n) :
      Outside (.integer b) token b.complaint
  | unsigned {b : Bounds Int} {token n} (hr : Literal.int .u64 token = .ok n) (hb : ¬b.Admits n) :
      Outside (.unsigned b) token b.complaint
  | number {b : Bounds Float} {token x} (hr : Literal.float token = .ok x) (hb : ¬b.Admits x) :
      Outside (.number b) token b.complaint
  | choice {values token} (h : token ∉ values) :
      Outside (.choice values) token ("Expected one of: " ++ ", ".intercalate values ++ ".")

/-- The same settings without an upper end. -/
def lowerOnly : Converter → Converter
  | integer b => integer b.lowerOnly
  | unsigned b => unsigned b.lowerOnly
  | number b => number b.lowerOnly
  | c => c

/-- The same settings without a lower end. -/
def upperOnly : Converter → Converter
  | integer b => integer b.upperOnly
  | unsigned b => unsigned b.upperOnly
  | number b => number b.upperOnly
  | c => c

/-- A pipeline takes exactly what a converter admits. It says of any other token either that it
cannot be read or that its value is outside, and limits at both ends are limits at each end. -/
structure Accepts (c : Converter) (files : Files) (argument : String) (p : Pipeline Value)
    (token : String) : Prop where
  taken : ∀ v, (p.run token).result = .ok v ↔ c.Takes token v
  unread : ∀ {m}, c.Unread token m → (p.run token).result = .error m
  outside : ∀ {m}, c.Outside token m → (p.run token).result = .error m
  failed : ∀ {m}, (p.run token).result = .error m → c.Unread token m ∨ c.Outside token m
  apart : ∀ {token' m m'}, c.Unread token m → c.Outside token' m' → m ≠ m'
  both : ∃ lower upper, c.lowerOnly.pipeline files argument = .ok lower ∧
    c.upperOnly.pipeline files argument = .ok upper ∧
    ∀ v, (p.run token).result = .ok v ↔
      (lower.run token).result = .ok v ∧ (upper.run token).result = .ok v

variable {c : Converter} {files : Files} {token m : String} {v : Value}

theorem Takes.run_eq (h : c.Takes token v) : ((c.convert files).run token).result = .ok v := by
  cases h with
  | integer hr hb | unsigned hr hb | number hr hb =>
    refine (Pipeline.run_checked_ok hr).trans ?_
    rw [Bounds.check_of_admits hb]
    rfl
  | choice h => exact Pipeline.run_choice.trans (if_pos h)

theorem Unread.run_eq (h : c.Unread token m) : ((c.convert files).run token).result = .error m := by
  cases h with
  | integer hr | unsigned hr | number hr => exact Pipeline.run_checked_error hr

theorem Outside.run_eq (h : c.Outside token m) :
    ((c.convert files).run token).result = .error m := by
  cases h with
  | integer hr hb | unsigned hr hb | number hr hb =>
    refine (Pipeline.run_checked_ok hr).trans ?_
    rw [Bounds.check_of_not_admits hb]
    rfl
  | choice h => exact Pipeline.run_choice.trans (if_neg h)

/-- One of three things becomes of a token. -/
theorem cases_of_ranged (hc : c.IsRanged) (token : String) :
    (∃ v, c.Takes token v) ∨ (∃ m, c.Unread token m) ∨ ∃ m, c.Outside token m := by
  cases c with
  | text | existingFile | existingDirectory => exact hc.elim
  | integer b =>
    rcases b.cases_of_literal (Literal.int .i64) token with ⟨n, hr, hb⟩ | ⟨e, hr⟩ | ⟨n, hr, hb⟩
    · exact .inl ⟨_, .integer hr hb⟩
    · exact .inr (.inl ⟨_, .integer hr⟩)
    · exact .inr (.inr ⟨_, .integer hr hb⟩)
  | unsigned b =>
    rcases b.cases_of_literal (Literal.int .u64) token with ⟨n, hr, hb⟩ | ⟨e, hr⟩ | ⟨n, hr, hb⟩
    · exact .inl ⟨_, .unsigned hr hb⟩
    · exact .inr (.inl ⟨_, .unsigned hr⟩)
    · exact .inr (.inr ⟨_, .unsigned hr hb⟩)
  | number b =>
    rcases b.cases_of_literal Literal.float token with ⟨x, hr, hb⟩ | ⟨e, hr⟩ | ⟨x, hr, hb⟩
    · exact .inl ⟨_, .number hr hb⟩
    · exact .inr (.inl ⟨_, .number hr⟩)
    · exact .inr (.inr ⟨_, .number hr hb⟩)
  | choice values =>
    by_cases h : token ∈ values
    · exact .inl ⟨_, .choice h⟩
    · exact .inr (.inr ⟨_, .choice h⟩)

theorem run_ok_iff (hc : c.IsRanged) :
    ((c.convert files).run token).result = .ok v ↔ c.Takes token v := by
  refine ⟨fun h => ?_, Takes.run_eq⟩
  rcases cases_of_ranged hc token with ⟨v', hv⟩ | ⟨m, hm⟩ | ⟨m, hm⟩
  · cases h.symm.trans hv.run_eq
    exact hv
  · cases h.symm.trans hm.run_eq
  · cases h.symm.trans hm.run_eq

theorem run_error_iff (hc : c.IsRanged) :
    ((c.convert files).run token).result = .error m ↔ c.Unread token m ∨ c.Outside token m := by
  refine ⟨fun h => ?_, fun h => h.elim Unread.run_eq Outside.run_eq⟩
  rcases cases_of_ranged hc token with ⟨v, hv⟩ | ⟨m', hm⟩ | ⟨m', hm⟩
  · cases h.symm.trans hv.run_eq
  · cases h.symm.trans hm.run_eq
    exact .inl hm
  · cases h.symm.trans hm.run_eq
    exact .inr hm

/-- The two kinds of message differ in their first letter. -/
theorem Unread.head_eq (h : c.Unread token m) : m.toList.head? = some 'C' := by
  cases h <;> rfl

theorem Outside.head_ne (h : c.Outside token m) : m.toList.head? ≠ some 'C' := by
  cases h with
  | integer | unsigned | number => exact Bounds.complaint_head_ne _
  | @choice values _ _ =>
    have h := head_append (head_append (rfl : "Expected one of: ".toList.head? = some 'E')
      (", ".intercalate values)) "."
    exact head_ne h

theorem Takes.both (h : c.Takes token v) :
    c.lowerOnly.Takes token v ∧ c.upperOnly.Takes token v := by
  cases h with
  | integer hr hb =>
    obtain ⟨hl, hu⟩ := Bounds.admits_iff_both.1 hb
    exact ⟨.integer hr hl, .integer hr hu⟩
  | unsigned hr hb =>
    obtain ⟨hl, hu⟩ := Bounds.admits_iff_both.1 hb
    exact ⟨.unsigned hr hl, .unsigned hr hu⟩
  | number hr hb =>
    obtain ⟨hl, hu⟩ := Bounds.admits_iff_both.1 hb
    exact ⟨.number hr hl, .number hr hu⟩
  | choice h => exact ⟨.choice h, .choice h⟩

theorem Takes.of_both (hl : c.lowerOnly.Takes token v) (hu : c.upperOnly.Takes token v) :
    c.Takes token v := by
  cases c with
  | text | existingFile | existingDirectory => cases hl
  | choice values => exact hl
  | integer b =>
    cases hl with | integer hr hl => cases hu with | integer _ hu =>
    exact .integer hr (Bounds.admits_iff_both.2 ⟨hl, hu⟩)
  | unsigned b =>
    cases hl with | unsigned hr hl => cases hu with | unsigned _ hu =>
    exact .unsigned hr (Bounds.admits_iff_both.2 ⟨hl, hu⟩)
  | number b =>
    cases hl with | number hr hl => cases hu with | number hr' hu =>
    exact .number hr (Bounds.admits_iff_both.2 ⟨hl, hu⟩)

theorem pipeline_eq_ok {argument : String} {p : Pipeline Value}
    (h : c.pipeline files argument = .ok p) : c.fault? = none ∧ p = c.convert files := by
  unfold pipeline at h
  split at h
  · cases h
  · cases h
    exact ⟨‹_›, rfl⟩

/-- One end alone leaves something to accept, and so do choices for which that was seen before. -/
theorem pipeline_of_ends (h : c.fault? = none) (files : Files) (argument : String) :
    c.lowerOnly.pipeline files argument = .ok (c.lowerOnly.convert files) ∧
      c.upperOnly.pipeline files argument = .ok (c.upperOnly.convert files) := by
  have hl : c.lowerOnly.fault? = none := by
    cases c <;> simp_all [lowerOnly, fault?, Bounds.isInverted, Bounds.lowerOnly]
  have hu : c.upperOnly.fault? = none := by
    cases c <;> simp_all [upperOnly, fault?, Bounds.isInverted, Bounds.upperOnly]
  rw [pipeline, pipeline, hl, hu]
  exact ⟨rfl, rfl⟩

/-- The pipeline of a converter with limits or choices accepts exactly what these admit. -/
theorem pipeline_accepts {argument : String} {p : Pipeline Value} (hc : c.IsRanged)
    (h : c.pipeline files argument = .ok p) (token : String) :
    c.Accepts files argument p token := by
  obtain ⟨hf, rfl⟩ := pipeline_eq_ok h
  obtain ⟨hlower, hupper⟩ := pipeline_of_ends hf files argument
  have hl : c.lowerOnly.IsRanged := by cases c <;> exact hc
  have hu : c.upperOnly.IsRanged := by cases c <;> exact hc
  exact {
    taken := fun v => run_ok_iff hc
    unread := Unread.run_eq
    outside := Outside.run_eq
    failed := (run_error_iff hc).1
    apart := fun hm hm' heq => hm'.head_ne (heq ▸ hm.head_eq)
    both := by
      refine ⟨_, _, hlower, hupper, fun v => ?_⟩
      rw [run_ok_iff hc, run_ok_iff hl, run_ok_iff hu]
      exact ⟨Takes.both, fun h => h.1.of_both h.2⟩ }

/-- A count above one, with a token for each of the three things that can become of it. -/
theorem count_pipeline_accepts : ∃ p : Pipeline Value,
    (unsigned { min := some 1, minInclusive := false }).pipeline .empty "count" = .ok p ∧
      (p.run "2").result = .ok (.int .u64 2) ∧
      (p.run "1").result = .error "Expected value to be greater than 1." ∧
      (p.run "-1").result =
        .error "Could not interpret argument as integer greater or equal to 0." := by
  have h (token : String) :
      (unsigned { min := some 1, minInclusive := false }).Accepts .empty "count" _ token :=
    pipeline_accepts (by trivial) rfl token
  refine ⟨_, rfl, ((h "2").taken _).2 (.unsigned rfl ⟨?_, ?_⟩),
    (h "1").outside (.unsigned (n := 1) rfl fun hb => ?_),
    (h "-1").unread (.unsigned (e := .numeral .strayCharacter) rfl)⟩
  · rintro lo ⟨⟩
    decide
  · rintro hi ⟨⟩
  · exact absurd (hb.lower rfl) (by decide)

end Converter

end CommandGrammar
