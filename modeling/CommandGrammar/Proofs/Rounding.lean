import CommandGrammar.Proofs.Doubles
import CommandGrammar.Proofs.Numerals

/-!
# Every double has a literal

A double is a mantissa times a power of two, and so a whole number over a power of ten. The digits
of that number and the exponent are a literal of the double: the division that reading ends with
leaves no rest, so nothing is rounded.
-/

namespace CommandGrammar.Double

open Float.Model Float.Model.UnpackedFloat

section Exact

variable {s : Sign} {m k : Nat} {e : Int} {hm : 0 < m}

/-- Zeros behind a mantissa are shifted out without a rest. -/
theorem shift_zeros (k : Nat) : ∀ m : Nat,
    ExtendedMantissa.ofMantissaAndAccuracy (m * 2 ^ k) .exact >>> k =
      ExtendedMantissa.ofMantissaAndAccuracy m .exact := by
  induction k with
  | zero =>
    intro m
    rw [pow_zero, mul_one]
    rfl
  | succ k ih =>
    intro m
    have hpow : m * 2 ^ (k + 1) = m * 2 * 2 ^ k := by ring
    change ExtendedMantissa.shiftRightOne
      (ExtendedMantissa.ofMantissaAndAccuracy (m * 2 ^ (k + 1)) .exact >>> k) = _
    rw [hpow, ih (m * 2)]
    simp [ExtendedMantissa.ofMantissaAndAccuracy, ExtendedMantissa.shiftRightOne]

theorem log2_mul_two_pow (hm : 0 < m) (k : Nat) : (m * 2 ^ k).log2 = m.log2 + k := by
  have hne : m * 2 ^ k ≠ 0 := by positivity
  obtain ⟨hl, hu⟩ := (Nat.log2_eq_iff hm.ne').1 rfl
  refine (Nat.log2_eq_iff hne).2 ⟨?_, ?_⟩
  · rw [pow_add]
    exact Nat.mul_le_mul_right _ hl
  · rw [show m.log2 + k + 1 = m.log2 + 1 + k by omega, pow_add]
    exact Nat.mul_lt_mul_of_pos_right hu (by positivity)

theorem totalExponent_mul_two_pow (hm : 0 < m) (k : Nat) (e : Int) :
    totalExponent (m * 2 ^ k) (e - k) = totalExponent m e := by
  unfold totalExponent
  rw [log2_mul_two_pow hm]
  push_cast
  ring

theorem log2_le_of_canonical (hc : Canonical (.finite s m e hm)) : m.log2 ≤ 52 := by
  have := (Nat.log2_lt hm.ne').2 hc.1
  omega

/-- The parts of a double are those that rounding aims at. -/
theorem targetExponent_eq (hc : Canonical (.finite s m e hm)) :
    Format.binary64.targetExponent (totalExponent m e) = e := by
  have hlog := log2_le_of_canonical hc
  obtain ⟨hlt, hmin, -, h⟩ := hc
  have h' : m.log2 = 52 ∨ e = -1074 :=
    h.imp (fun h => (Nat.log2_eq_iff hm.ne').2 ⟨h, hlt⟩) id
  simp only [Format.targetExponent, totalExponent, Format.mantissaBits, Format.minExponent]
  omega

theorem shiftToTargetExponent_zeros (hc : Canonical (.finite s m e hm)) (k : Nat) :
    shiftToTargetExponent Format.binary64 (m * 2 ^ k) (e - k) .exact =
      (ExtendedMantissa.ofMantissaAndAccuracy m .exact, e) := by
  have hk : (e - (e - k)).toNat = k := by omega
  simp only [shiftToTargetExponent, totalExponent_mul_two_pow hm, targetExponent_eq hc,
    shiftToExponent, hk, shift_zeros]
  congr 1
  omega

/-- What is a double is rounded to itself. -/
theorem roundWithAccuracy_exact (hc : Canonical (.finite s m e hm)) (k : Nat) :
    roundWithAccuracy Format.binary64 s (m * 2 ^ k) (e - k) .exact = .finite s m e hm := by
  have h0 := shiftToTargetExponent_zeros hc 0
  simp only [pow_zero, mul_one, Nat.cast_zero, sub_zero] at h0
  have hr : (ExtendedMantissa.ofMantissaAndAccuracy m .exact).roundedMantissa = m := rfl
  simp only [roundWithAccuracy, shiftToTargetExponent_zeros hc k, hr, h0]
  exact dif_neg hm.ne'

theorem log2_mul_le {a b : Nat} (ha : 0 < a) (hb : 0 < b) :
    (a * b).log2 ≤ a.log2 + b.log2 + 1 := by
  have hua := ((Nat.log2_eq_iff ha.ne').1 rfl).2
  have hub := ((Nat.log2_eq_iff hb.ne').1 rfl).2
  refine Nat.lt_succ_iff.1 ((Nat.log2_lt (by positivity)).2 ?_)
  calc a * b < 2 ^ (a.log2 + 1) * 2 ^ (b.log2 + 1) := Nat.mul_lt_mul'' hua hub
    _ = 2 ^ (a.log2 + b.log2 + 1 + 1) := by ring

/-- The quotient is estimated by the lengths of its terms, which is never too long. -/
theorem targetExponent_div_le {f n : Nat} (hf : 0 < f) (hn : 1074 ≤ n)
    (hc : Canonical (.finite s m e hm)) :
    Format.binary64.targetExponent
      (totalExponent (m * 2 ^ (e + n).toNat * f) 0 - totalExponent (2 ^ n * f) 0) ≤ e := by
  have hlog := log2_le_of_canonical hc
  have hnum : (m * 2 ^ (e + n).toNat * f).log2 ≤ m.log2 + (e + n).toNat + f.log2 + 1 := by
    rw [← log2_mul_two_pow hm]
    exact log2_mul_le (by positivity) hf
  have hden : (2 ^ n * f).log2 = f.log2 + n := by rw [mul_comm, log2_mul_two_pow hf]
  have hmin := hc.2.1
  simp only [Format.targetExponent, totalExponent, Format.mantissaBits, Format.minExponent, hden]
  omega

theorem div_finite {spec : Format} {m₁ m₂ : Nat} {e₁ e₂ : Int} {h₁ : 0 < m₁} {h₂ : 0 < m₂} :
    UnpackedFloat.div spec (.finite .positive m₁ e₁ h₁) (.finite .positive m₂ e₂ h₂) =
      roundWithAccuracy spec .positive (divCore spec m₁ e₁ m₂ e₂).1 (divCore spec m₁ e₁ m₂ e₂).2.1
        (divCore spec m₁ e₁ m₂ e₂).2.2 := rfl

/-- A multiple of a double is divided without a rest. -/
theorem div_exact {f n : Nat} (hf : 0 < f) (hn : 1074 ≤ n)
    (hc : Canonical (.finite .positive m e hm)) (h₁ : 0 < m * 2 ^ (e + n).toNat * f)
    (h₂ : 0 < 2 ^ n * f) :
    UnpackedFloat.div Format.binary64 (.finite .positive (m * 2 ^ (e + n).toNat * f) 0 h₁)
      (.finite .positive (2 ^ n * f) 0 h₂) = .finite .positive m e hm := by
  have hle := targetExponent_div_le hf hn hc
  have hmin := hc.2.1
  set d := 2 ^ n * f with hd
  set c := m * 2 ^ (e + n).toNat * f with hc'
  set t := min (0 - 0) (Format.binary64.targetExponent (totalExponent c 0 - totalExponent d 0))
    with ht
  have hte : t ≤ e := (min_le_right _ _).trans hle
  have ht0 : t ≤ 0 := min_le_left _ _
  have hpow : 2 ^ (e + n).toNat * 2 ^ (0 - 0 - t).toNat = 2 ^ (e - t).toNat * 2 ^ n := by
    rw [← pow_add, ← pow_add]
    congr 1
    omega
  have hquot : c <<< (0 - 0 - t).toNat = m * 2 ^ (e - t).toNat * d := by
    rw [Nat.shiftLeft_eq]
    calc c * 2 ^ (0 - 0 - t).toNat
        = m * (2 ^ (e + n).toNat * 2 ^ (0 - 0 - t).toNat) * f := by rw [hc']; ring
      _ = m * 2 ^ (e - t).toNat * d := by rw [hpow, hd]; ring
  have hcore : divCore Format.binary64 c 0 d 0 = (m * 2 ^ (e - t).toNat, t, .exact) := by
    unfold divCore
    dsimp only
    rw [← ht, hquot, Nat.mul_div_cancel _ h₂, Nat.mul_mod_left]
    rfl
  have hround := roundWithAccuracy_exact hc (e - t).toNat
  rw [show e - ((e - t).toNat : Int) = t by omega] at hround
  rw [div_finite, hcore]
  exact hround

/-- The whole number that is a double, given by its parts, times a power of ten. -/
def scaled (m : Nat) (e : Int) (n : Nat) : Nat := m * 2 ^ (e + n).toNat * 5 ^ n

theorem scaled_pos (hm : 0 < m) (e : Int) (n : Nat) : 0 < scaled m e n := by
  unfold scaled
  positivity

theorem ofScientific_scaled {n : Nat} (hn : 1074 ≤ n) (hn' : n ≤ 2048)
    (hc : Canonical (.finite .positive m e hm)) :
    UnpackedFloat.ofScientific Format.binary64 (scaled m e n) (-n) = .finite .positive m e hm := by
  have hpos := scaled_pos hm e n
  have hten : 10 ^ n = 2 ^ n * 5 ^ n := Nat.mul_pow 2 5 n
  have hexp : (2 : Int) ^ Format.binary64.exponentBits = 2048 := rfl
  unfold UnpackedFloat.ofScientific
  rw [dif_neg hpos.ne', if_neg (by omega), if_neg (by rw [hexp]; omega), if_neg (by omega)]
  simp only [neg_neg, Int.toNat_natCast, hten]
  exact div_exact (by positivity) hn hc hpos (by positivity)

theorem five_pow_le_scaled (hm : 0 < m) (e : Int) (n : Nat) : 5 ^ n ≤ scaled m e n :=
  Nat.le_mul_of_pos_left _ (Nat.mul_pos hm (Nat.two_pow_pos _))

theorem scaled_lt (hc : Canonical (.finite s m e hm)) (n : Nat) :
    scaled m e n < 2 ^ (1024 + n) * 5 ^ n := by
  obtain ⟨hlt, -, hmax, -⟩ := hc
  refine Nat.mul_lt_mul_of_pos_right ?_ (Nat.pow_pos (by decide))
  calc m * 2 ^ (e + n).toNat < 2 ^ 53 * 2 ^ (971 + n) :=
        Nat.mul_lt_mul_of_lt_of_le hlt (Nat.pow_le_pow_right (by decide) (by omega))
          (Nat.two_pow_pos _)
    _ = 2 ^ (1024 + n) := by rw [← pow_add, ← add_assoc]

end Exact

section Digits

theorem two_pow_le_five_pow (k : Nat) : 2 ^ (2 * k) ≤ 5 ^ k := by
  rw [pow_mul]
  exact Nat.pow_le_pow_left (by decide) k

theorem lt_length_toDigits {c n k : Nat} (h : 5 ^ n ≤ c) (hk : 0 < k) (hn : 3 * k ≤ 2 * n) :
    k < (Nat.toDigits 10 c).length := by
  refine not_le.1 fun hle => absurd ((Nat.length_toDigits_le_iff (by decide) hk).1 hle) ?_
  refine not_lt.2 (le_trans ?_ h)
  calc 10 ^ k = 2 ^ k * 5 ^ k := Nat.mul_pow 2 5 k
    _ ≤ 2 ^ (2 * (n - k)) * 5 ^ k :=
      Nat.mul_le_mul_right _ (Nat.pow_le_pow_right (by decide) (by omega))
    _ ≤ 5 ^ (n - k) * 5 ^ k := Nat.mul_le_mul_right _ (two_pow_le_five_pow _)
    _ = 5 ^ n := by rw [← pow_add, Nat.sub_add_cancel (by omega)]

theorem length_toDigits_le {c i n k : Nat} (h : c < 2 ^ i * 5 ^ n) (hn : n ≤ k) (hk : 0 < k)
    (hi : i ≤ k + 2 * (k - n)) : (Nat.toDigits 10 c).length ≤ k := by
  refine (Nat.length_toDigits_le_iff (by decide) hk).2 (lt_of_lt_of_le h ?_)
  calc 2 ^ i * 5 ^ n ≤ 2 ^ (k + 2 * (k - n)) * 5 ^ n :=
        Nat.mul_le_mul_right _ (Nat.pow_le_pow_right (by decide) hi)
    _ = 2 ^ k * 2 ^ (2 * (k - n)) * 5 ^ n := by rw [pow_add]
    _ ≤ 2 ^ k * 5 ^ (k - n) * 5 ^ n :=
      Nat.mul_le_mul_right _ (Nat.mul_le_mul_left _ (two_pow_le_five_pow _))
    _ = 2 ^ k * 5 ^ k := by rw [mul_assoc, ← pow_add, Nat.sub_add_cancel hn]
    _ = 10 ^ k := (Nat.mul_pow 2 5 k).symm

end Digits

section Literals

variable {m : Nat} {e : Int} {hm : 0 < m}

/-- The digits are neither so many nor so few that the exponent alone tells the double. -/
theorem nearest_scaled {x : Float} (hx : x.toModel.unpack = .finite .positive m e hm) :
    Decimal.nearest (scaled m e 1074) (-1074) = x := by
  have hc : Canonical (.finite .positive m e hm) := hx ▸ canonical_unpack _
  have hlo : 673 < (Nat.toDigits 10 (scaled m e 1074)).length :=
    lt_length_toDigits (five_pow_le_scaled hm e 1074) (by decide) (by decide)
  have hhi : (Nat.toDigits 10 (scaled m e 1074)).length ≤ 1474 :=
    length_toDigits_le (scaled_lt hc 1074) (by decide) (by decide) (by decide)
  have hpos := scaled_pos hm e 1074
  have hofs := ofScientific_scaled (n := 1074) le_rfl (by decide) hc
  unfold Decimal.nearest
  dsimp only
  rw [if_neg (by omega), if_neg (by omega), if_pos (by decide)]
  unfold Float.ofScientific
  rw [dif_neg (by omega), ← ofModel_pack_unpack x, hx]
  exact congrArg (fun u => Float.ofModel (Float.Model.pack u)) hofs

theorem toLower_of_isDigit {c : Char} (h : c.isDigit = true) : c.toLower = c := by
  simp only [Char.isDigit, Bool.and_eq_true, decide_eq_true_eq] at h
  have hu : ¬(c.val ≥ 'A'.val ∧ c.val ≤ 'Z'.val) := fun hu => by
    have h1 := UInt32.le_iff_toNat_le.1 h.2
    have h2 := UInt32.le_iff_toNat_le.1 hu.1
    simp at h1 h2
    omega
  unfold Char.toLower
  rw [dif_neg hu]

theorem digitsValue_toDigits (n : Nat) : Decimal.digitsValue (Nat.toDigits 10 n) = n := by
  conv_rhs => rw [← Nat.ofDigitChars_ten_toDigits (n := n)]
  unfold Decimal.digitsValue Nat.ofDigitChars
  congr 1
  funext n c
  rw [mul_comm]

/-- The exponent that the literals have. -/
def exponentMark : List Char := ['e', '-', '1', '0', '7', '4']

/-- A literal that starts with a digit is none of the words that are read as doubles. -/
theorem ofList_digits_ne {word : String} {c : Char} {cs : List Char} (hw : word.toList = c :: cs)
    (hc : c.isDigit = false) (n : Nat) (rest : List Char) :
    String.ofList ((Nat.toDigits 10 n ++ rest).map Char.toLower) ≠ word := by
  intro h
  obtain ⟨d, ds, hd, hdigit⟩ := Numeral.exists_toDigits n
  have hlist := congrArg String.toList h
  rw [String.toList_ofList, hd, hw, List.cons_append, List.map_cons,
    toLower_of_isDigit hdigit] at hlist
  rw [(List.cons.inj hlist).1] at hdigit
  exact Bool.false_ne_true (hc.symm.trans hdigit)

/-- Digits and an exponent are read as they stand. -/
theorem magnitude?_digits (n : Nat) :
    Decimal.magnitude? (Nat.toDigits 10 n ++ exponentMark) =
      some (Decimal.nearest n (-1074)) := by
  have hall : ∀ c ∈ Nat.toDigits 10 n, c.isDigit = true := fun c hc =>
    Nat.isDigit_of_mem_toDigits (by decide) le_rfl hc
  have htake : (Nat.toDigits 10 n ++ exponentMark).takeWhile Char.isDigit =
      Nat.toDigits 10 n := by
    rw [List.takeWhile_append_of_pos hall]
    exact List.append_nil _
  have hdrop : (Nat.toDigits 10 n ++ exponentMark).dropWhile Char.isDigit = exponentMark :=
    List.dropWhile_append_of_pos hall
  have hexp : Decimal.exponent? exponentMark = some (-1074) := rfl
  unfold Decimal.magnitude?
  split
  · exact absurd ‹_› (ofList_digits_ne rfl rfl n exponentMark)
  · exact absurd ‹_› (ofList_digits_ne rfl rfl n exponentMark)
  · exact absurd ‹_› (ofList_digits_ne rfl rfl n exponentMark)
  · rw [htake, hdrop]
    change (if (Nat.toDigits 10 n).isEmpty = true ∧ [].isEmpty = true then none else
      (Decimal.exponent? exponentMark).map fun e => Decimal.nearest
        (Decimal.digitsValue (Nat.toDigits 10 n ++ [])) (e - (0 : Nat))) = _
    rw [if_neg fun h => Nat.toDigits_ne_nil (List.isEmpty_iff.1 h.1), hexp, List.append_nil,
      digitsValue_toDigits, Option.map_some, Nat.cast_zero, sub_zero]

/-- A literal that starts with a digit is a magnitude. -/
theorem read_of_digit {token : String} {c : Char} {cs : List Char} {x : Float}
    (ht : token.toList = c :: cs) (hc : c.isDigit = true)
    (hx : Decimal.magnitude? (c :: cs) = some x) : Literal.float token = .ok x := by
  have hne : token ≠ "" := by
    rintro rfl
    cases ht
  obtain ⟨hminus, hplus⟩ := Numeral.ne_sign_of_isDigit hc
  unfold Literal.float Decimal.read
  simp only [ht]
  split
  · exact absurd rfl hne
  all_goals
    rename_i h
    -- the sign that comes first is neither of the two
    split at h
    · exact absurd (List.cons.inj ‹_›).1 hminus
    · exact absurd (List.cons.inj ‹_›).1 hplus
  · cases h.symm.trans hx
  · cases h.symm.trans hx
    rfl

theorem read_of_minus {token : String} {cs : List Char} {x : Float}
    (ht : token.toList = '-' :: cs) (hx : Decimal.magnitude? cs = some x) :
    Literal.float token = .ok (-x) := by
  unfold Literal.float Decimal.read
  simp only [ht, hx, Option.map_some]
  split
  · cases ht
  · cases ‹some _ = none›
  · cases ‹some _ = some _›
    rfl

theorem neg_eq {x y : Float} (hx : x.toModel.unpack = .finite .negative m e hm)
    (hy : y.toModel.unpack = .finite .positive m e hm) : -y = x := by
  rw [← ofModel_pack_unpack x, hx]
  exact congrArg (fun u => Float.ofModel (Float.Model.pack (UnpackedFloat.neg u))) hy

/-- Every double is read from some token, infinities and the double that is no number included. -/
theorem exists_literal (x : Float) : ∃ token, Literal.float token = .ok x := by
  rcases hx : x.toModel.unpack with s | _ | s | ⟨s, m, e, hm⟩
  · cases s
    · exact ⟨"-inf", congrArg Except.ok (eq_of_unpack hx.symm)⟩
    · exact ⟨"inf", congrArg Except.ok (eq_of_unpack hx.symm)⟩
  · exact ⟨"nan", congrArg Except.ok (eq_of_unpack hx.symm)⟩
  · cases s
    · exact ⟨"-0", congrArg Except.ok (eq_of_unpack hx.symm)⟩
    · exact ⟨"0", congrArg Except.ok (eq_of_unpack hx.symm)⟩
  · have hc : Canonical (.finite s m e hm) := hx ▸ canonical_unpack _
    obtain ⟨y, hy⟩ : ∃ y : Float, y.toModel.unpack = .finite .positive m e hm := exists_unpack hc
    have hmag := magnitude?_digits (scaled m e 1074)
    rw [nearest_scaled hy] at hmag
    cases s with
    | negative =>
      refine ⟨String.ofList ('-' :: (Nat.toDigits 10 (scaled m e 1074) ++ exponentMark)), ?_⟩
      rw [read_of_minus String.toList_ofList hmag, neg_eq hx hy]
    | positive =>
      obtain ⟨c, cs, hd, hdigit⟩ := Numeral.exists_toDigits (scaled m e 1074)
      rw [hd, List.cons_append] at hmag
      refine ⟨String.ofList (c :: (cs ++ exponentMark)), ?_⟩
      rw [read_of_digit String.toList_ofList hdigit hmag, eq_of_unpack (hy.trans hx.symm)]

end Literals

end CommandGrammar.Double
