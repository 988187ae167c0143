import CommandGrammar.Proofs.Acceptance
import CommandGrammar.Proofs.Rounding

/-!
# Limits that leave no room

A converter is refused when its lower end is above the upper one, or when it has no choices. Nothing
could be accepted then. But limits leave no room in other ways as well: between neighbours that are
both exclusive, beyond the last value of the type, or on a side of an end that is no number. A
converter with such limits is built, and accepts nothing.

Doubles are counted by their ranks, so limits of doubles leave room as limits of whole numbers do.
-/

namespace CommandGrammar

namespace Bounds

/-- The least whole number, of those from `least` on, that a lower end leaves. -/
def lowest (b : Bounds Int) (least : Int) : Int :=
  match b.min with
  | none => least
  | some lo => Max.max least (if b.minInclusive then lo else lo + 1)

/-- The greatest whole number, of those up to `greatest`, that an upper end leaves. -/
def highest (b : Bounds Int) (greatest : Int) : Int :=
  match b.max with
  | none => greatest
  | some hi => Min.min greatest (if b.maxInclusive then hi else hi - 1)

/-- Whether limits leave a whole number from `least` to `greatest`. -/
def hasRoom (b : Bounds Int) (least greatest : Int) : Bool :=
  b.lowest least ≤ b.highest greatest

/-- The same limits on the ranks of doubles, if each end has a rank. -/
def ranks? (b : Bounds Float) : Option (Bounds Int) :=
  match b.min.mapM Double.rank?, b.max.mapM Double.rank? with
  | some min, some max =>
    some { min, max, minInclusive := b.minInclusive, maxInclusive := b.maxInclusive }
  | _, _ => none

section Whole

variable {b : Bounds Int} {least greatest n : Int}

theorem lowest_le_iff : b.lowest least ≤ n ↔
    least ≤ n ∧ ∀ lo, b.min = some lo → if b.minInclusive then lo ≤ n else lo < n := by
  unfold lowest
  rcases b.min with _ | lo
  · simp
  · simp only [Option.some.injEq, forall_eq', max_le_iff]
    split_ifs <;> simp

theorem le_highest_iff : n ≤ b.highest greatest ↔
    n ≤ greatest ∧ ∀ hi, b.max = some hi → if b.maxInclusive then n ≤ hi else n < hi := by
  unfold highest
  rcases b.max with _ | hi
  · simp
  · simp only [Option.some.injEq, forall_eq', le_min_iff]
    split_ifs <;> simp

/-- Limits leave room exactly if some number is admitted. -/
theorem hasRoom_iff :
    b.hasRoom least greatest = true ↔ ∃ n, least ≤ n ∧ n ≤ greatest ∧ b.Admits n := by
  rw [hasRoom, decide_eq_true_iff]
  constructor
  · intro h
    obtain ⟨hl, hlo⟩ := lowest_le_iff.1 (le_refl (b.lowest least))
    obtain ⟨hg, hhi⟩ := le_highest_iff.1 h
    exact ⟨b.lowest least, hl, hg, ⟨fun h => hlo _ h, fun h => hhi _ h⟩⟩
  · rintro ⟨n, hl, hg, ha⟩
    exact (lowest_le_iff.2 ⟨hl, fun _ => ha.lower⟩).trans (le_highest_iff.2 ⟨hg, fun _ => ha.upper⟩)

end Whole

section Ranks

variable {b : Bounds Float} {r : Bounds Int} {x : Float} {n : Int}

theorem ranks?_eq_some (h : b.ranks? = some r) : b.min.mapM Double.rank? = some r.min ∧
    b.max.mapM Double.rank? = some r.max ∧ r.minInclusive = b.minInclusive ∧
      r.maxInclusive = b.maxInclusive := by
  unfold ranks? at h
  split at h
  · cases h
    exact ⟨‹_›, ‹_›, rfl, rfl⟩
  · cases h

theorem forall_end_iff {o : Option Float} {o' : Option Int} (h : o.mapM Double.rank? = some o')
    {P : Float → Prop} {Q : Int → Prop}
    (hPQ : ∀ {lo a}, Double.rank? lo = some a → (P lo ↔ Q a)) :
    (∀ lo, o = some lo → P lo) ↔ ∀ a, o' = some a → Q a := by
  rcases o with _ | lo
  · cases h
    simp
  · obtain ⟨a, ha, rfl⟩ := Option.map_eq_some_iff.1 h
    simpa using hPQ ha

theorem exists_mapM_rank {o : Option Float}
    (h : ∀ lo, o = some lo → ∃ a, Double.rank? lo = some a) :
    ∃ o', o.mapM Double.rank? = some o' := by
  rcases o with _ | lo
  · exact ⟨none, rfl⟩
  · obtain ⟨a, ha⟩ := h lo rfl
    exact ⟨some a, Option.map_eq_some_iff.2 ⟨a, ha, rfl⟩⟩

/-- Doubles with ranks compare as these do, whether they may be equal or not. -/
theorem end_iff {y : Float} {m : Int} (hx : Double.rank? x = some n) (hy : Double.rank? y = some m)
    (inclusive : Bool) :
    (if inclusive then x ≤ y else x < y) ↔ if inclusive then n ≤ m else n < m := by
  cases inclusive <;> simp [Double.le_iff, Double.lt_iff, hx, hy]

/-- Limits admit a double that is a number as the ranks of the limits admit its rank. -/
theorem admits_iff_ranks (hr : b.ranks? = some r) (hx : Double.rank? x = some n) :
    b.Admits x ↔ r.Admits n := by
  obtain ⟨hmin, hmax, hi, hj⟩ := ranks?_eq_some hr
  rw [admits_iff, admits_iff, hi, hj]
  exact and_congr (forall_end_iff hmin fun ha => end_iff ha hx b.minInclusive)
    (forall_end_iff hmax fun ha => end_iff hx ha b.maxInclusive)

theorem ranks_of_end {y z : Float} {inclusive : Bool} (h : if inclusive then y ≤ z else y < z) :
    ∃ a b, Double.rank? y = some a ∧ Double.rank? z = some b := by
  cases inclusive
  · obtain ⟨a, b, hy, hz, -⟩ := Double.lt_iff.1 h
    exact ⟨a, b, hy, hz⟩
  · obtain ⟨a, b, hy, hz, -⟩ := Double.le_iff.1 h
    exact ⟨a, b, hy, hz⟩

/-- Where something is admitted, each end is a number. -/
theorem exists_ranks (h : b.Admits x) : ∃ r, b.ranks? = some r := by
  obtain ⟨min, hmin⟩ := exists_mapM_rank (o := b.min) fun lo hlo => by
    obtain ⟨a, -, ha, -⟩ := ranks_of_end (h.lower hlo)
    exact ⟨a, ha⟩
  obtain ⟨max, hmax⟩ := exists_mapM_rank (o := b.max) fun hi hhi => by
    obtain ⟨-, a, -, ha⟩ := ranks_of_end (h.upper hhi)
    exact ⟨a, ha⟩
  refine ⟨{ min, max, minInclusive := b.minInclusive, maxInclusive := b.maxInclusive }, ?_⟩
  rw [ranks?, hmin, hmax]

/-- A double that is no number is admitted only where there are no ends. -/
theorem no_ends (hx : Double.rank? x = none) (h : b.Admits x) : b.min = none ∧ b.max = none := by
  constructor
  · refine Option.eq_none_iff_forall_ne_some.2 fun lo hlo => ?_
    obtain ⟨-, a, -, ha⟩ := ranks_of_end (h.lower hlo)
    cases hx.symm.trans ha
  · refine Option.eq_none_iff_forall_ne_some.2 fun hi hhi => ?_
    obtain ⟨a, -, ha, -⟩ := ranks_of_end (h.upper hhi)
    cases hx.symm.trans ha

/-- Limits of doubles leave room exactly if some double is admitted. -/
theorem exists_admits_iff :
    (∃ x, b.Admits x) ↔ b.ranks?.any (·.hasRoom (-Double.top) Double.top) = true := by
  rw [Option.any_eq_true]
  constructor
  · rintro ⟨x, hx⟩
    obtain ⟨r, hr⟩ := exists_ranks hx
    refine ⟨r, hr, hasRoom_iff.2 ?_⟩
    rcases hn : Double.rank? x with _ | n
    · obtain ⟨hmin, hmax, -⟩ := ranks?_eq_some hr
      obtain ⟨hm, hM⟩ := no_ends hn hx
      rw [hm] at hmin
      rw [hM] at hmax
      have hl : ∀ {lo}, r.min ≠ some lo := fun h => by cases hmin.trans (congrArg some h)
      have hu : ∀ {hi}, r.max ≠ some hi := fun h => by cases hmax.trans (congrArg some h)
      exact ⟨0, by decide, by decide, fun h => absurd h hl, fun h => absurd h hu⟩
    · obtain ⟨hl, hu⟩ := Double.rank?_bounds hn
      exact ⟨n, hl, hu, (admits_iff_ranks hr hn).1 hx⟩
  · rintro ⟨r, hr, hroom⟩
    obtain ⟨n, hl, hu, hn⟩ := hasRoom_iff.1 hroom
    obtain ⟨x, hx⟩ := Double.exists_rank hl hu
    exact ⟨x, (admits_iff_ranks hr hx).2 hn⟩

end Ranks

section Cross

/-- The lower end is above the upper one. -/
def Cross {α : Type} [LT α] (b : Bounds α) : Prop :=
  ∃ lo hi, b.min = some lo ∧ b.max = some hi ∧ hi < lo

theorem isInverted_iff {α : Type} [LT α] [DecidableLT α] {b : Bounds α} :
    b.isInverted = true ↔ b.Cross := by
  unfold isInverted Cross
  rcases b.min with _ | lo <;> rcases b.max with _ | hi <;> simp

theorem Cross.not_admits {b : Bounds Int} {n : Int} (h : b.Cross) : ¬b.Admits n := by
  obtain ⟨lo, hi, hlo, hhi, hlt⟩ := h
  intro ha
  have hl := ha.lower hlo
  have hu := ha.upper hhi
  split_ifs at hl hu <;> omega

theorem cross_iff_ranks {b : Bounds Float} {r : Bounds Int} (hr : b.ranks? = some r) :
    b.Cross ↔ r.Cross := by
  obtain ⟨hmin, hmax, -⟩ := ranks?_eq_some hr
  have hlt : ∀ {hi lo : Float} {i j : Int}, Double.rank? lo = some i → Double.rank? hi = some j →
      (¬hi < lo ↔ ¬j < i) := fun hl hh => not_congr (by simp [Double.lt_iff, hl, hh])
  have h := forall_end_iff hmin fun hl => forall_end_iff hmax fun hh => hlt hl hh
  constructor
  · rintro ⟨lo, hi, hlo, hhi, hc⟩
    by_contra hn
    exact h.2 (fun i hi j hj hc => hn ⟨i, j, hi, hj, hc⟩) lo hlo hi hhi hc
  · rintro ⟨i, j, hi, hj, hc⟩
    by_contra hn
    exact h.1 (fun lo hlo hi hhi hc => hn ⟨lo, hi, hlo, hhi, hc⟩) i hi j hj hc

theorem Cross.not_admits_double {b : Bounds Float} {x : Float} (h : b.Cross) : ¬b.Admits x := by
  intro ha
  obtain ⟨r, hr⟩ := exists_ranks ha
  rcases hx : Double.rank? x with _ | n
  · obtain ⟨lo, -, hlo, -⟩ := h
    cases hlo.symm.trans (no_ends hx ha).1
  · exact ((cross_iff_ranks hr).1 h).not_admits ((admits_iff_ranks hr hx).1 ha)

/-- Ends, if present, belong to the limits and to the type. -/
structure Closed (b : Bounds Int) (least greatest : Int) : Prop where
  minInclusive : b.minInclusive = true
  maxInclusive : b.maxInclusive = true
  min_mem : ∀ lo, b.min = some lo → least ≤ lo ∧ lo ≤ greatest
  max_mem : ∀ hi, b.max = some hi → least ≤ hi ∧ hi ≤ greatest

/-- Between such ends there is room unless they cross. -/
theorem Closed.hasRoom_eq_false_iff {b : Bounds Int} {least greatest : Int}
    (h : b.Closed least greatest) (hle : least ≤ greatest) :
    b.hasRoom least greatest = false ↔ b.Cross := by
  obtain ⟨hi, hj, hmin, hmax⟩ := h
  rw [hasRoom, decide_eq_false_iff_not, not_le]
  unfold lowest highest Cross
  rw [hi, hj]
  rcases hlo : b.min with _ | lo <;> rcases hhi : b.max with _ | hi
  · simpa using hle
  · simp [hmax hi hhi]
  · simp [hmin lo hlo]
  · simp [hmin lo hlo, hmax hi hhi]

theorem closed_of_ranks {b : Bounds Float} {r : Bounds Int} (hr : b.ranks? = some r)
    (hi : b.minInclusive = true) (hj : b.maxInclusive = true) :
    r.Closed (-Double.top) Double.top := by
  obtain ⟨hmin, hmax, hi', hj'⟩ := ranks?_eq_some hr
  have hend : ∀ {o : Option Float} {o' : Option Int}, o.mapM Double.rank? = some o' →
      ∀ a, o' = some a → -Double.top ≤ a ∧ a ≤ Double.top := fun h =>
    (forall_end_iff (P := fun _ => True) (Q := fun a => -Double.top ≤ a ∧ a ≤ Double.top) h
      fun ha => iff_of_true trivial (Double.rank?_bounds ha)).1 fun _ _ => trivial
  exact ⟨hi'.trans hi, hj'.trans hj, hend hmin, hend hmax⟩

end Cross

end Bounds

namespace Converter

/-- Whether the settings leave anything to accept. -/
def hasRoom : Converter → Bool
  | integer b => b.hasRoom IntType.i64.least IntType.i64.greatest
  | unsigned b => b.hasRoom IntType.u64.least IntType.u64.greatest
  | number b => b.ranks?.any (·.hasRoom (-Double.top) Double.top)
  | choice values => !values.isEmpty
  | text | existingFile | existingDirectory => true

/-- Settings that are refused: the lower end is above the upper one, or there are no choices. -/
def IsVoid : Converter → Prop
  | integer b | unsigned b => b.Cross
  | number b => b.Cross
  | choice values => values = []
  | text | existingFile | existingDirectory => False

/-- The ends of the settings are values that they admit. -/
def IsClosed : Converter → Prop
  | integer b => b.Closed IntType.i64.least IntType.i64.greatest
  | unsigned b => b.Closed IntType.u64.least IntType.u64.greatest
  | number b => b.minInclusive = true ∧ b.maxInclusive = true ∧ ∃ r, b.ranks? = some r
  | choice _ | text | existingFile | existingDirectory => True

/-- What it means that a converter is refused or not: where it is refused nothing can be taken, but
the converse holds only for settings whose ends are among the values. -/
structure Judged (c : Converter) (files : Files) (argument : String) : Prop where
  refused_iff : (∃ e, c.pipeline files argument = .error e) ↔ c.IsVoid
  refused : ∀ {e}, c.pipeline files argument = .error e →
    (∃ fault, e = .invalidConverter argument fault) ∧ ∀ token v, ¬c.Takes token v
  accepted : ∀ {p}, c.pipeline files argument = .ok p →
    ((∃ token v, (p.run token).result = .ok v) ↔ c.hasRoom = true)
  closed : c.IsClosed →
    ((∃ e, c.pipeline files argument = .error e) ↔ ∀ token v, ¬c.Takes token v)

variable {c : Converter} {files : Files} {argument token : String} {v : Value}

theorem fault?_eq_none_iff : c.fault? = none ↔ ¬c.IsVoid := by
  cases c with
  | text | existingFile | existingDirectory => simp [fault?, IsVoid]
  | choice values => simp [fault?, IsVoid]
  | integer b | unsigned b | number b =>
    rw [fault?, IsVoid, ← Bounds.isInverted_iff]
    split_ifs with h <;> simp [h]

theorem pipeline_eq_error {e : GrammarError} (h : c.pipeline files argument = .error e) :
    c.IsVoid ∧ ∃ fault, e = .invalidConverter argument fault := by
  unfold pipeline at h
  split at h
  · rename_i fault hf
    cases h
    refine ⟨?_, fault, rfl⟩
    by_contra hn
    cases hf.symm.trans (fault?_eq_none_iff.2 hn)
  · cases h

/-- Settings that are refused admit nothing. -/
theorem IsVoid.not_takes (h : c.IsVoid) : ¬c.Takes token v := by
  intro ht
  cases ht with
  | integer hr hb | unsigned hr hb => exact h.not_admits hb
  | number hr hb => exact h.not_admits_double hb
  | choice hm => simp [show _ = [] from h] at hm

theorem exists_numeral_iff {t : IntType} {b : Bounds Int} :
    (∃ token n, Literal.int t token = .ok n ∧ b.Admits n) ↔
      b.hasRoom t.least t.greatest = true := by
  rw [Bounds.hasRoom_iff]
  constructor
  · rintro ⟨token, n, hr, hb⟩
    obtain ⟨hl, hu⟩ := IntType.holds_iff.1 (Literal.holds_of_int hr)
    exact ⟨n, hl, hu, hb⟩
  · rintro ⟨n, hl, hu, hb⟩
    exact ⟨toString n, n, Literal.int_toString (IntType.holds_iff.2 ⟨hl, hu⟩), hb⟩

/-- Some token is taken exactly if the settings leave anything to accept. -/
theorem exists_takes_iff (hc : c.IsRanged) : (∃ token v, c.Takes token v) ↔ c.hasRoom = true := by
  cases c with
  | text | existingFile | existingDirectory => exact hc.elim
  | integer b =>
    refine Iff.trans ⟨?_, ?_⟩ exists_numeral_iff
    · rintro ⟨token, v, h⟩
      cases h with | integer hr hb => exact ⟨token, _, hr, hb⟩
    · rintro ⟨token, n, hr, hb⟩
      exact ⟨token, _, .integer hr hb⟩
  | unsigned b =>
    refine Iff.trans ⟨?_, ?_⟩ exists_numeral_iff
    · rintro ⟨token, v, h⟩
      cases h with | unsigned hr hb => exact ⟨token, _, hr, hb⟩
    · rintro ⟨token, n, hr, hb⟩
      exact ⟨token, _, .unsigned hr hb⟩
  | number b =>
    refine Iff.trans ⟨?_, ?_⟩ Bounds.exists_admits_iff
    · rintro ⟨token, v, h⟩
      cases h with | number hr hb => exact ⟨_, hb⟩
    · rintro ⟨x, hb⟩
      obtain ⟨token, ht⟩ := Double.exists_literal x
      exact ⟨token, _, .number ht hb⟩
  | choice values =>
    rw [hasRoom, Bool.not_eq_true', List.isEmpty_eq_false_iff]
    constructor
    · rintro ⟨token, v, h⟩
      cases h with | choice h => exact List.ne_nil_of_mem h
    · intro h
      obtain ⟨token, ht⟩ := List.exists_mem_of_ne_nil values h
      exact ⟨token, _, .choice ht⟩

/-- Nothing is above infinity, and nothing on either side of what is no number. -/
example : (number { min := some (1.0 / 0.0), minInclusive := false }).hasRoom = false ∧
    (number { max := some (0.0 / 0.0) }).hasRoom = false := by decide +kernel

theorem IsClosed.hasRoom_eq_false_iff (h : c.IsClosed) (hc : c.IsRanged) :
    c.hasRoom = false ↔ c.IsVoid := by
  cases c with
  | text | existingFile | existingDirectory => exact hc.elim
  | integer b => exact Bounds.Closed.hasRoom_eq_false_iff h (by decide)
  | unsigned b => exact Bounds.Closed.hasRoom_eq_false_iff h (by decide)
  | number b =>
    obtain ⟨hi, hj, r, hr⟩ := h
    rw [hasRoom, IsVoid, hr, Bounds.cross_iff_ranks hr]
    exact (Bounds.closed_of_ranks hr hi hj).hasRoom_eq_false_iff (by decide)
  | choice values => simp [hasRoom, IsVoid]

/-- What is refused could take nothing. The converse holds between ends that are values
themselves. -/
theorem pipeline_judged (hc : c.IsRanged) (files : Files) (argument : String) :
    c.Judged files argument := by
  have hiff : (∃ e, c.pipeline files argument = .error e) ↔ c.IsVoid := by
    refine ⟨fun ⟨e, he⟩ => (pipeline_eq_error he).1, fun h => ?_⟩
    rcases hf : c.fault? with _ | fault
    · exact absurd h (fault?_eq_none_iff.1 hf)
    · exact ⟨.invalidConverter argument fault, by rw [pipeline, hf]⟩
  refine ⟨hiff, ?_, ?_, ?_⟩
  · intro e he
    obtain ⟨hv, hf⟩ := pipeline_eq_error he
    exact ⟨hf, fun _ _ => hv.not_takes⟩
  · intro p hp
    obtain ⟨-, rfl⟩ := pipeline_eq_ok hp
    simp only [run_ok_iff hc]
    exact exists_takes_iff hc
  · intro hcl
    rw [hiff, ← hcl.hasRoom_eq_false_iff hc, ← Bool.not_eq_true, ← exists_takes_iff hc]
    simp

/-- No natural number is below zero, but such numbers may be asked for. -/
theorem below_zero_pipeline_judged : ∃ p : Pipeline Value,
    (unsigned { max := some 0, maxInclusive := false }).pipeline .empty "n" = .ok p ∧
      ¬∃ token v, (p.run token).result = .ok v := by
  have h : (unsigned { max := some 0, maxInclusive := false }).Judged .empty "n" :=
    pipeline_judged (by trivial) .empty "n"
  refine ⟨_, rfl, fun hv => ?_⟩
  exact absurd ((h.accepted rfl).1 hv) (by decide)

/-- From five on, without five, up to five: a converter that is built and accepts no token. -/
theorem five_takes_nothing : ∃ p : Pipeline Value,
    (integer { min := some 5, max := some 5, minInclusive := false }).pipeline .empty "n" = .ok p ∧
      ∀ token v, (p.run token).result ≠ .ok v := by
  refine ⟨_, rfl, fun token v h => ?_⟩
  have hr : (integer { min := some 5, max := some 5, minInclusive := false }).IsRanged := trivial
  exact absurd ((exists_takes_iff hr).1 ⟨token, v, (run_ok_iff hr).1 h⟩) (by decide)

end Converter

end CommandGrammar
