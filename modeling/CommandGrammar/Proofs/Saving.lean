import CommandGrammar.Grammar.Text
import CommandGrammar.Proofs.Room
import CommandGrammar.Proofs.RoundTrip

/-!
# Limits of numbers in JSON

JSON has no number that is not finite, and null is written for one. As an end, null is no end. So a
converter of numbers comes back from JSON without its ends that are not finite. What it accepts only
stays the same if such an end admits every double that is a number, and if the other end remains to
keep out those that are none.
-/

namespace CommandGrammar

namespace Double

theorem isFinite_iff {x : Float} :
    x.isFinite = true ↔ ∃ r, rank? x = some r ∧ -top < r ∧ r < top := by
  have hc : Canonical x.toModel.unpack := canonical_unpack _
  change x.toModel.unpack.isFinite = true ↔ ∃ r, rankOf x.toModel.unpack = some r ∧ _
  generalize x.toModel.unpack = u at hc
  rcases u with s | _ | s | ⟨s, m, e, hm⟩
  · refine iff_of_false (by simp [Float.Model.UnpackedFloat.isFinite]) ?_
    rintro ⟨r, hr, hl, hu⟩
    cases hr
    cases s <;> simp only [signed] at hl hu <;> omega
  · refine iff_of_false (by simp [Float.Model.UnpackedFloat.isFinite]) ?_
    rintro ⟨r, ⟨⟩, -⟩
  · exact iff_of_true rfl ⟨0, rfl, by decide, by decide⟩
  · exact iff_of_true rfl ⟨_, rfl, signed_bounds (magnitude_pos hc) (magnitude_lt_top hc)⟩

theorem exists_unranked : ∃ x, rank? x = none :=
  ⟨0.0 / 0.0, by decide +kernel⟩

end Double

namespace Bounds

/-- The limits without the ends that are not finite. -/
def finite (b : Bounds Float) : Bounds Float :=
  { b with min := b.min.filter Float.isFinite, max := b.max.filter Float.isFinite }

/-- Each end that is not finite is the infinity on its side and inclusive, and the other end is
finite. -/
structure Keeps (b : Bounds Float) : Prop where
  lower : ∀ lo, b.min = some lo → lo.isFinite = false →
    Double.rank? lo = some (-Double.top) ∧ b.minInclusive = true ∧
      ∃ hi, b.max = some hi ∧ hi.isFinite = true
  upper : ∀ hi, b.max = some hi → hi.isFinite = false →
    Double.rank? hi = some Double.top ∧ b.maxInclusive = true ∧
      ∃ lo, b.min = some lo ∧ lo.isFinite = true

variable {b : Bounds Float} {x lo hi : Float}

theorem finite_min_eq_some : b.finite.min = some lo ↔ b.min = some lo ∧ lo.isFinite = true :=
  Option.filter_eq_some_iff

theorem finite_max_eq_some : b.finite.max = some hi ↔ b.max = some hi ∧ hi.isFinite = true :=
  Option.filter_eq_some_iff

theorem Admits.finite (h : b.Admits x) : b.finite.Admits x where
  lower hlo := h.lower (finite_min_eq_some.1 hlo).1
  upper hhi := h.upper (finite_max_eq_some.1 hhi).1

theorem Keeps.admits_iff (hb : b.Keeps) : b.finite.Admits x ↔ b.Admits x := by
  refine ⟨fun h => ⟨fun {lo} hlo => ?_, fun {hi} hhi => ?_⟩, Admits.finite⟩
  · rcases hf : lo.isFinite
    · obtain ⟨hrank, hincl, hi, hhi, hfin⟩ := hb.lower lo hlo hf
      obtain ⟨a, -, ha, -⟩ := ranks_of_end (h.upper (finite_max_eq_some.2 ⟨hhi, hfin⟩))
      rw [hincl, if_pos rfl]
      exact Double.le_iff.2 ⟨_, a, hrank, ha, (Double.rank?_bounds ha).1⟩
    · exact h.lower (finite_min_eq_some.2 ⟨hlo, hf⟩)
  · rcases hf : hi.isFinite
    · obtain ⟨hrank, hincl, lo, hlo, hfin⟩ := hb.upper hi hhi hf
      obtain ⟨-, a, -, ha⟩ := ranks_of_end (h.lower (finite_min_eq_some.2 ⟨hlo, hfin⟩))
      rw [hincl, if_pos rfl]
      exact Double.le_iff.2 ⟨a, _, ha, hrank, (Double.rank?_bounds ha).2⟩
    · exact h.upper (finite_max_eq_some.2 ⟨hhi, hf⟩)

theorem Keeps.cross_iff (hb : b.Keeps) : b.finite.Cross ↔ b.Cross := by
  constructor
  · rintro ⟨lo, hi, hlo, hhi, hlt⟩
    exact ⟨lo, hi, (finite_min_eq_some.1 hlo).1, (finite_max_eq_some.1 hhi).1, hlt⟩
  · rintro ⟨lo, hi, hlo, hhi, hlt⟩
    obtain ⟨j, i, hj, hi', hji⟩ := Double.lt_iff.1 hlt
    -- an infinity that keeps is an end of the row, with nothing beyond it
    have hlofin : lo.isFinite = true := by
      by_contra hf
      obtain ⟨hrank, -⟩ := hb.lower lo hlo (Bool.eq_false_of_not_eq_true hf)
      obtain rfl := Option.some.inj (hi'.symm.trans hrank)
      have := (Double.rank?_bounds hj).1
      omega
    have hhifin : hi.isFinite = true := by
      by_contra hf
      obtain ⟨hrank, -⟩ := hb.upper hi hhi (Bool.eq_false_of_not_eq_true hf)
      obtain rfl := Option.some.inj (hj.symm.trans hrank)
      have := (Double.rank?_bounds hi').2
      omega
    exact ⟨lo, hi, finite_min_eq_some.2 ⟨hlo, hlofin⟩, finite_max_eq_some.2 ⟨hhi, hhifin⟩, hlt⟩

/-- Without a lower end, negative infinity is admitted, since every finite end is above it. -/
theorem finite_admits_bottom (hmin : b.finite.min = none)
    (hx : Double.rank? x = some (-Double.top)) : b.finite.Admits x where
  lower hlo := by cases hmin.symm.trans hlo
  upper hhi := by
    obtain ⟨r, hr, hlo, -⟩ := Double.isFinite_iff.1 (finite_max_eq_some.1 hhi).2
    refine (end_iff hx hr _).2 ?_
    split_ifs <;> omega

theorem finite_admits_top (hmax : b.finite.max = none)
    (hx : Double.rank? x = some Double.top) : b.finite.Admits x where
  lower hlo := by
    obtain ⟨r, hr, -, hhi⟩ := Double.isFinite_iff.1 (finite_min_eq_some.1 hlo).2
    refine (end_iff hr hx _).2 ?_
    split_ifs <;> omega
  upper hhi := by cases hmax.symm.trans hhi

/-- An end that lets negative infinity through is that itself. -/
theorem eq_bottom_of_end {inclusive : Bool} (hx : Double.rank? x = some (-Double.top))
    (h : if inclusive then lo ≤ x else lo < x) :
    Double.rank? lo = some (-Double.top) ∧ inclusive = true := by
  obtain ⟨a, -, ha, -⟩ := ranks_of_end h
  have hbound := (Double.rank?_bounds ha).1
  rw [end_iff ha hx] at h
  split_ifs at h with hincl
  · obtain rfl : a = -Double.top := by omega
    exact ⟨ha, hincl⟩
  · omega

theorem eq_top_of_end {inclusive : Bool} (hx : Double.rank? x = some Double.top)
    (h : if inclusive then x ≤ hi else x < hi) :
    Double.rank? hi = some Double.top ∧ inclusive = true := by
  obtain ⟨-, a, -, ha⟩ := ranks_of_end h
  have hbound := (Double.rank?_bounds ha).2
  rw [end_iff hx ha] at h
  split_ifs at h with hincl
  · obtain rfl : a = Double.top := by omega
    exact ⟨ha, hincl⟩
  · omega

/-- If limits that have an end admit the same without those that are not finite, then some end is
finite: else what is no number would be admitted. -/
theorem exists_end_of_admits_iff (h : ∀ x, b.finite.Admits x ↔ b.Admits x)
    (hends : b.min ≠ none ∨ b.max ≠ none) :
    b.finite.min ≠ none ∨ b.finite.max ≠ none := by
  obtain ⟨x, hx⟩ := Double.exists_unranked
  by_contra hn
  simp only [ne_eq, not_or, not_not] at hn
  have hadmits : b.finite.Admits x := by
    refine ⟨fun hlo => ?_, fun hhi => ?_⟩
    · cases hn.1.symm.trans hlo
    · cases hn.2.symm.trans hhi
  obtain ⟨hmin, hmax⟩ := no_ends hx ((h x).1 hadmits)
  exact hends.elim (absurd hmin) (absurd hmax)

/-- Limits admit the same without their ends that are not finite exactly if these keep. -/
theorem keeps_iff : b.Keeps ↔ ∀ x, b.finite.Admits x ↔ b.Admits x := by
  refine ⟨fun hb x => hb.admits_iff, fun h => ⟨fun lo hlo hf => ?_, fun hi hhi hf => ?_⟩⟩
  · have hnone : b.finite.min = none := by
      rw [finite, hlo]
      simp [hf]
    obtain ⟨x, hx⟩ := Double.exists_rank (le_refl (-Double.top)) (by decide)
    have hadmits := (h x).1 (finite_admits_bottom hnone hx)
    obtain ⟨hrank, hincl⟩ := eq_bottom_of_end hx (hadmits.lower hlo)
    have hother := exists_end_of_admits_iff h (.inl (by simp [hlo]))
    rw [hnone] at hother
    obtain ⟨hi, hhi⟩ := Option.ne_none_iff_exists'.1 (hother.resolve_left (by simp))
    exact ⟨hrank, hincl, hi, finite_max_eq_some.1 hhi⟩
  · have hnone : b.finite.max = none := by
      rw [finite, hhi]
      simp [hf]
    obtain ⟨x, hx⟩ := Double.exists_rank (by decide) (le_refl Double.top)
    have hadmits := (h x).1 (finite_admits_top hnone hx)
    obtain ⟨hrank, hincl⟩ := eq_top_of_end hx (hadmits.upper hhi)
    have hother := exists_end_of_admits_iff h (.inr (by simp [hhi]))
    rw [hnone] at hother
    obtain ⟨lo, hlo⟩ := Option.ne_none_iff_exists'.1 (hother.resolve_right (by simp))
    exact ⟨hrank, hincl, lo, finite_min_eq_some.1 hlo⟩

end Bounds

namespace Converter

variable {b : Bounds Float} {c : Converter} {files : Files} {argument token : String}

/-! ## Reading back -/

theorem finite_optional (o : Option Float) :
    (optional .number o).finite = optional .number (o.filter Float.isFinite) := by
  rcases o with _ | x
  · rfl
  · rw [optional, Document.finite, Option.filter_some]
    split_ifs <;> rfl

/-- In JSON, the limits are written without their ends that are not finite. -/
theorem finite_toDocument (b : Bounds Float) :
    (number b).toDocument.finite = (number b.finite).toDocument := by
  change Document.record (Document.finiteFields _) = _
  simp only [boundFields, List.map_cons, List.map_nil, Document.finiteFields, finite_optional]
  rfl

/-- Both converters are refused or neither is, and they accept the same tokens. -/
structure SameAs (c c' : Converter) (files : Files) (argument : String) : Prop where
  valid : (∃ p, c.pipeline files argument = .ok p) ↔ ∃ p, c'.pipeline files argument = .ok p
  accepted : ∀ token,
    (∃ p v, c.pipeline files argument = .ok p ∧ (p.run token).result = .ok v) ↔
      ∃ p v, c'.pipeline files argument = .ok p ∧ (p.run token).result = .ok v

theorem pipeline_ok_iff : (∃ p, c.pipeline files argument = .ok p) ↔ ¬c.IsVoid := by
  rw [← fault?_eq_none_iff]
  refine ⟨fun ⟨p, hp⟩ => (pipeline_eq_ok hp).1, fun h => ⟨c.convert files, ?_⟩⟩
  rw [pipeline, h]

/-- A token is accepted if it is taken: settings that are refused take none. -/
theorem accepted_iff (hc : c.IsRanged) :
    (∃ p v, c.pipeline files argument = .ok p ∧ (p.run token).result = .ok v) ↔
      ∃ v, c.Takes token v := by
  constructor
  · rintro ⟨p, v, hp, hv⟩
    obtain ⟨-, rfl⟩ := pipeline_eq_ok hp
    exact ⟨v, (run_ok_iff hc).1 hv⟩
  · rintro ⟨v, hv⟩
    have hvoid : ¬c.IsVoid := fun h => h.not_takes hv
    obtain ⟨p, hp⟩ : ∃ p, c.pipeline files argument = .ok p := pipeline_ok_iff.2 hvoid
    obtain ⟨-, rfl⟩ := pipeline_eq_ok hp
    exact ⟨_, v, hp, hv.run_eq⟩

theorem number_takes_iff {x : Float} (hx : Literal.float token = .ok x) :
    (∃ v, (number b).Takes token v) ↔ b.Admits x := by
  constructor
  · rintro ⟨v, h⟩
    cases h with | number hr hb =>
    cases hx.symm.trans hr
    exact hb
  · exact fun h => ⟨_, .number hx h⟩

theorem sameAs_finite_iff : (number b).SameAs (number b.finite) files argument ↔ b.Keeps := by
  have hr (b : Bounds Float) : (number b).IsRanged := trivial
  constructor
  · intro h
    refine Bounds.keeps_iff.2 fun x => ?_
    obtain ⟨token, ht⟩ := Double.exists_literal x
    have hsame := h.accepted token
    rw [accepted_iff (hr _), accepted_iff (hr _), number_takes_iff ht, number_takes_iff ht] at hsame
    exact hsame.symm
  · intro h
    refine ⟨?_, fun token => ?_⟩
    · rw [pipeline_ok_iff, pipeline_ok_iff]
      exact not_congr h.cross_iff.symm
    · rw [accepted_iff (hr _), accepted_iff (hr _)]
      rcases ht : Literal.float token with e | x
      · have hnot (b : Bounds Float) : ¬∃ v, (number b).Takes token v := by
          rintro ⟨v, hv⟩
          cases hv with | number hx hb => cases ht.symm.trans hx
        exact iff_of_false (hnot _) (hnot _)
      · rw [number_takes_iff ht, number_takes_iff ht]
        exact h.admits_iff.symm

/-- A converter of numbers comes back from JSON with its finite ends only, and is the same as before
exactly if the other ends keep. -/
theorem number_from_json (b : Bounds Float) :
    (∀ f : Format, ofDocument? f.rules (number b).toDocument.finite = some (number b.finite)) ∧
      (∀ d, Format.json.read? (Format.json.write (number b).toDocument) = some d →
        d.Settles (number b).toDocument.finite →
        ofText .json (Format.json.write (number b).toDocument) = .ok (number b.finite)) ∧
      ∀ files argument, (number b).SameAs (number b.finite) files argument ↔ b.Keeps := by
  have hread {rules : Document.Rules} {d : Document}
      (h : d.Settles (number b).toDocument.finite) :
      ofDocument? rules d = some (number b.finite) := by
    rw [finite_toDocument] at h
    exact ofDocument?_settles (c := number b.finite) rfl h
  refine ⟨fun f => hread ?_, fun d hd h => ?_, fun files argument => sameAs_finite_iff⟩
  · rw [finite_toDocument]
    exact toDocument_settles _
  · rw [ofText, Format.decode, hd, Option.bind_some, hread h]

/-- Up to one, from negative infinity on: the lower end is lost, and not missed. -/
theorem up_to_one_from_json :
    (number { min := some (-1.0 / 0.0), max := some 1 }).SameAs (number { max := some 1 })
      .empty "x" := by
  have hfin : (-1.0 / 0.0 : Float).isFinite = false ∧ (1 : Float).isFinite = true := by
    decide +kernel
  have hlo : Double.rank? (-1.0 / 0.0) = some (-Double.top) := by decide +kernel
  have hkeeps : Bounds.Keeps { min := some (-1.0 / 0.0), max := some 1 } := by
    refine ⟨?_, ?_⟩
    · rintro lo ⟨⟩ -
      exact ⟨hlo, rfl, 1, rfl, hfin.2⟩
    · rintro hi ⟨⟩ hf
      cases hf.symm.trans hfin.2
  have h := (number_from_json { min := some (-1.0 / 0.0), max := some 1 }).2.2 .empty "x"
  have hfinite : Bounds.finite { min := some (-1.0 / 0.0), max := some 1 } =
      { max := some 1 } := by
    simp [Bounds.finite, hfin]
  rw [hfinite] at h
  exact h.2 hkeeps

/-- From infinity on. -/
def aboveAll : Bounds Float where
  min := some (1.0 / 0.0)

set_option maxRecDepth 20000 in
theorem aboveAll_from_json :
    (number aboveAll).fault? = none ∧
      ofText .json (Format.json.write (number aboveAll).toDocument) = .ok (number {}) ∧
      ¬(number aboveAll).SameAs (number {}) .empty "x" := by
  have hinf : (1.0 / 0.0 : Float).isFinite = false := by decide +kernel
  have hfinite : aboveAll.finite = {} := by
    simp [Bounds.finite, aboveAll, hinf]
  refine ⟨rfl, ?_, ?_⟩
  · change ofText .json (Json.prettyAt 0 (number aboveAll).toDocument.finite) = _
    rw [finite_toDocument, hfinite]
    have htext : Json.read? (Json.prettyAt 0 (number {}).toDocument) =
        some (number {}).toDocument := by cbv
    rw [ofText, Format.decode, show Format.json.read? _ = some _ from htext, Option.bind_some,
      ofDocument?_settles (c := number {}) rfl (toDocument_settles _)]
  · rw [← hfinite, sameAs_finite_iff]
    intro h
    obtain ⟨-, -, hi, hhi, -⟩ := h.lower _ rfl hinf
    cases hhi

end Converter

end CommandGrammar
