import Mathlib

/-!
# The order of doubles

The doubles that are numbers stand in a row, the infinities at its ends, and each has a rank in it:
how many steps it is away from zero. The bits of a double without the sign are the rank of its
magnitude. Doubles compare as their ranks do, and a double that is no number compares with nothing.
-/

namespace CommandGrammar.Double

open Float.Model Float.Model.UnpackedFloat

/-- The rank of infinity. -/
def top : Int := 2047 * 2 ^ 52

def signed : Sign → Int → Int
  | .positive, n => n
  | .negative, n => -n

/-- The rank of a magnitude: the numbers of one exponent follow those of the next smaller one. -/
def magnitude (m : Nat) (e : Int) : Int := m + (e + 1074) * 2 ^ 52

/-- The rank of a double, given its parts. -/
def rankOf : UnpackedFloat → Option Int
  | .notANumber => none
  | .infinity s => some (signed s top)
  | .zero _ => some 0
  | .finite s m e _ => some (signed s (magnitude m e))

def rank? (x : Float) : Option Int := rankOf x.toModel.unpack

/-- The parts that a double can have: the mantissa is as long as it can be, unless the exponent is
the least one. -/
def Canonical : UnpackedFloat → Prop
  | .finite _ m e _ => m < 2 ^ 53 ∧ -1074 ≤ e ∧ e ≤ 971 ∧ (2 ^ 52 ≤ m ∨ e = -1074)
  | _ => True

/-- What the bits of a double say of its parts: its sign, the eleven bits of its scale and the
fifty-two of its fraction. -/
inductive Parts (s : Sign) (scale fraction : Nat) : UnpackedFloat → Prop where
  | infinity (hn : scale = 2047) (hf : fraction = 0) : Parts s scale fraction (.infinity s)
  | notANumber (hn : scale = 2047) (hf : fraction ≠ 0) : Parts s scale fraction .notANumber
  | zero (hn : scale = 0) (hf : fraction = 0) : Parts s scale fraction (.zero s)
  | subnormal {m : Nat} {e : Int} (hn : scale = 0) (hm : m = fraction) (he : e = -1074) (hp) :
      Parts s scale fraction (.finite s m e hp)
  | normal {m : Nat} {e : Int} (h0 : scale ≠ 0) (h1 : scale ≠ 2047) (hm : m = 2 ^ 52 + fraction)
      (he : e = scale - 1075) (hp) : Parts s scale fraction (.finite s m e hp)

section Bits

variable (b : BitVec 64)

theorem toNat_unpackMantissa :
    (@unpackMantissa .binary64 b).toNat = b.toNat % 2 ^ 52 := by
  rw [unpackMantissa_def]
  simp

theorem toNat_unpackExponent :
    (@unpackExponent .binary64 b).toNat = b.toNat / 2 ^ 52 % 2 ^ 11 := by
  rw [unpackExponent_def]
  simp [Nat.shiftRight_eq_div_pow]

theorem toNat_unpackSign :
    (@unpackSign .binary64 b).toNat = b.toNat / 2 ^ 63 % 2 := by
  rw [unpackSign_def]
  simp [Nat.shiftRight_eq_div_pow]

theorem toNat_one_append :
    (1#1 ++ @unpackMantissa .binary64 b).toNat = 2 ^ 52 + b.toNat % 2 ^ 52 := by
  rw [BitVec.toNat_append, ← Nat.shiftLeft_add_eq_or_of_lt (BitVec.isLt _), toNat_unpackMantissa]
  rfl

theorem unpackExponent_eq_iff (n : Nat) (hn : n < 2 ^ 11) :
    @unpackExponent .binary64 b = BitVec.ofNat 11 n ↔
      b.toNat / 2 ^ 52 % 2 ^ 11 = n := by
  rw [← BitVec.toNat_inj, toNat_unpackExponent, BitVec.toNat_ofNat, Nat.mod_eq_of_lt hn]

theorem unpackMantissa_eq_zero_iff :
    @unpackMantissa .binary64 b = 0#52 ↔ b.toNat % 2 ^ 52 = 0 := by
  rw [← BitVec.toNat_inj, toNat_unpackMantissa]
  rfl

theorem ofBitVec_unpackSign : Sign.ofBitVec (@unpackSign .binary64 b) =
    if b.toNat < 2 ^ 63 then .positive else .negative := by
  have h := toNat_unpackSign b
  have hb := b.isLt
  have hs : @unpackSign .binary64 b = 0#1 ↔ b.toNat < 2 ^ 63 := by
    rw [← BitVec.toNat_inj, h]
    simp only [BitVec.toNat_ofNat]
    omega
  simp only [Sign.ofBitVec, hs]

/-- The parts of a double are its bits, cut at three places. -/
theorem parts_unpack : Parts (if b.toNat < 2 ^ 63 then .positive else .negative)
    (b.toNat / 2 ^ 52 % 2 ^ 11) (b.toNat % 2 ^ 52) (UnpackedFloat.unpack Format.binary64 b) := by
  rw [← ofBitVec_unpackSign]
  have hz := unpackExponent_eq_iff b 0 (by decide)
  have ht : @unpackExponent .binary64 b = -1#11 ↔ _ :=
    unpackExponent_eq_iff b 2047 (by decide)
  have hf := unpackMantissa_eq_zero_iff b
  unfold UnpackedFloat.unpack
  dsimp only
  split_ifs with h₁ h₂ h₃ h₄
  · exact .infinity (ht.1 h₁) (hf.1 h₂)
  · exact .notANumber (ht.1 h₁) (h₂ ∘ hf.2)
  · exact .zero (hz.1 h₃) (hf.1 h₄)
  · refine .subnormal (hz.1 h₃) (toNat_unpackMantissa b) ?_ _
    rw [h₃]
    rfl
  · refine .normal (h₃ ∘ hz.2) (h₁ ∘ ht.2) (toNat_one_append b) ?_ _
    rw [toNat_unpackExponent]
    rfl

theorem canonical_unpack : Canonical (UnpackedFloat.unpack Format.binary64 b) := by
  have h := parts_unpack b
  generalize UnpackedFloat.unpack Format.binary64 b = u at h
  cases h with
  | infinity | notANumber | zero => trivial
  | subnormal hn hm he =>
    simp only [Canonical]
    omega
  | normal h0 h1 hm he =>
    simp only [Canonical]
    omega

/-- A rank is told by the bits. -/
theorem rankOf_unpack : rankOf (UnpackedFloat.unpack Format.binary64 b) =
    if (b.toNat % 2 ^ 63 : Int) ≤ top then
      some (signed (if b.toNat < 2 ^ 63 then .positive else .negative) (b.toNat % 2 ^ 63))
    else none := by
  have h := parts_unpack b
  have hb := b.isLt
  generalize UnpackedFloat.unpack Format.binary64 b = u at h
  generalize b.toNat = n at h hb
  generalize (if n < 2 ^ 63 then Sign.positive else Sign.negative) = s at h
  cases h with
  | infinity hn hf =>
    have : (n % 2 ^ 63 : Int) = top := by unfold top; omega
    rw [if_pos this.le, this]
    rfl
  | notANumber hn hf =>
    have : ¬(n % 2 ^ 63 : Int) ≤ top := by unfold top; omega
    rw [if_neg this]
    rfl
  | zero hn hf =>
    have : (n % 2 ^ 63 : Int) = 0 := by omega
    rw [this]
    cases s <;> rfl
  | subnormal hn hm he =>
    have : (n % 2 ^ 63 : Int) ≤ top := by unfold top; omega
    rw [if_pos this, rankOf, magnitude]
    congr 2
    omega
  | normal h0 h1 hm he =>
    have : (n % 2 ^ 63 : Int) ≤ top := by unfold top; omega
    rw [if_pos this, rankOf, magnitude]
    congr 2
    omega

end Bits

section Order

/-- Doubles of one sign are told apart by the exponent, and then by the mantissa. -/
theorem compare_magnitude {m₁ m₂ : Nat} {e₁ e₂ : Int} {s₁ s₂ : Sign} {h₁ : 0 < m₁} {h₂ : 0 < m₂}
    (hc₁ : Canonical (.finite s₁ m₁ e₁ h₁)) (hc₂ : Canonical (.finite s₂ m₂ e₂ h₂)) :
    (compare e₁ e₂).then (compare m₁ m₂) = compare (magnitude m₁ e₁) (magnitude m₂ e₂) := by
  simp only [Canonical] at hc₁ hc₂
  rcases lt_trichotomy e₁ e₂ with h | rfl | h
  · have hr : magnitude m₁ e₁ < magnitude m₂ e₂ := by unfold magnitude; omega
    rw [compare_lt_iff_lt.2 h, compare_lt_iff_lt.2 hr]
    rfl
  · rw [compare_eq_iff_eq.2 rfl, Ordering.eq_then, magnitude, magnitude]
    rcases lt_trichotomy m₁ m₂ with h | rfl | h
    · rw [compare_lt_iff_lt.2 h, compare_lt_iff_lt.2 (by omega)]
    · rw [compare_eq_iff_eq.2 rfl, compare_eq_iff_eq.2 rfl]
    · rw [compare_gt_iff_gt.2 h, compare_gt_iff_gt.2 (by omega)]
  · have hr : magnitude m₂ e₂ < magnitude m₁ e₁ := by unfold magnitude; omega
    rw [compare_gt_iff_gt.2 h, compare_gt_iff_gt.2 hr]
    rfl

theorem compare_neg (a b : Int) : compare (-a) (-b) = (compare a b).swap := by
  rcases lt_trichotomy a b with h | rfl | h
  · rw [compare_lt_iff_lt.2 h, compare_gt_iff_gt.2 (by omega)]
    rfl
  · rw [compare_eq_iff_eq.2 rfl, compare_eq_iff_eq.2 rfl]
    rfl
  · rw [compare_gt_iff_gt.2 h, compare_lt_iff_lt.2 (by omega)]
    rfl

theorem magnitude_pos {s : Sign} {m : Nat} {e : Int} {h : 0 < m}
    (hc : Canonical (.finite s m e h)) : 0 < magnitude m e := by
  simp only [Canonical] at hc
  unfold magnitude
  omega

theorem magnitude_lt_top {s : Sign} {m : Nat} {e : Int} {h : 0 < m}
    (hc : Canonical (.finite s m e h)) : magnitude m e < top := by
  simp only [Canonical] at hc
  unfold magnitude top
  omega

theorem signed_bounds {s : Sign} {n : Int} (h0 : 0 < n) (h : n < top) :
    -top < signed s n ∧ signed s n < top := by
  cases s <;> simp only [signed] <;> omega

theorem signed_inj {s s' : Sign} {n n' : Int} (h0 : 0 < n) (h0' : 0 < n')
    (h : signed s n = signed s' n') : s = s' ∧ n = n' := by
  cases s <;> cases s' <;> simp only [signed] at h
  · exact ⟨rfl, neg_inj.1 h⟩
  · omega
  · omega
  · exact ⟨rfl, h⟩

/-- The comparison of two doubles is that of their ranks. -/
theorem compare_eq {u v : UnpackedFloat} (hu : Canonical u) (hv : Canonical v) :
    u.compare v = (rankOf u).bind fun a => (rankOf v).map fun b => compare a b := by
  have hlt : ∀ {a b : Int}, a < b → some Ordering.lt = some (compare a b) := fun h => by
    rw [compare_lt_iff_lt.2 h]
  have hgt : ∀ {a b : Int}, b < a → some Ordering.gt = some (compare a b) := fun h => by
    rw [compare_gt_iff_gt.2 h]
  rcases u with s | _ | s | ⟨s, m, e, hm⟩ <;> rcases v with s' | _ | s' | ⟨s', m', e', hm'⟩
  case finite.finite =>
    have h := magnitude_pos hu
    have h' := magnitude_pos hv
    have hc := congrArg some (compare_magnitude hu hv)
    rcases s with _ | _ <;> rcases s' with _ | _
    · exact (congrArg (Option.map Ordering.swap) hc).trans (congrArg some (compare_neg _ _).symm)
    · exact hlt (show -magnitude m e < magnitude m' e' by omega)
    · exact hgt (show -magnitude m' e' < magnitude m e by omega)
    · exact hc
  case infinity.finite =>
    obtain ⟨hlo, hhi⟩ := signed_bounds (magnitude_pos hv) (magnitude_lt_top hv)
    cases s
    · exact hlt hlo
    · exact hgt hhi
  case finite.infinity =>
    obtain ⟨hlo, hhi⟩ := signed_bounds (magnitude_pos hu) (magnitude_lt_top hu)
    cases s'
    · exact hgt hlo
    · exact hlt hhi
  case zero.finite =>
    cases s'
    · exact hgt (neg_neg_of_pos (magnitude_pos hv))
    · exact hlt (magnitude_pos hv)
  case finite.zero =>
    cases s
    · exact hlt (neg_neg_of_pos (magnitude_pos hu))
    · exact hgt (magnitude_pos hu)
  case infinity.infinity => cases s <;> cases s' <;> decide
  case infinity.zero | infinity.notANumber | finite.notANumber | zero.notANumber =>
    cases s <;> rfl
  case zero.infinity => cases s' <;> rfl
  case notANumber.infinity | notANumber.notANumber | notANumber.zero | notANumber.finite => rfl
  case zero.zero => rfl

theorem compare_unpack (x y : Float) : x.toModel.unpack.compare y.toModel.unpack =
    (rank? x).bind fun a => (rank? y).map fun b => compare a b :=
  compare_eq (canonical_unpack _) (canonical_unpack _)

theorem le_iff {x y : Float} :
    x ≤ y ↔ ∃ a b, rank? x = some a ∧ rank? y = some b ∧ a ≤ b := by
  have h : x ≤ y ↔ (x.toModel.unpack.compare y.toModel.unpack).any (·.isLE) = true :=
    decide_eq_true_iff
  rw [h, compare_unpack]
  rcases rank? x with _ | a <;> rcases rank? y with _ | b <;>
    simp [← Ordering.ne_gt_iff_isLE, compare_le_iff_le]

theorem lt_iff {x y : Float} :
    x < y ↔ ∃ a b, rank? x = some a ∧ rank? y = some b ∧ a < b := by
  have h : x < y ↔ (x.toModel.unpack.compare y.toModel.unpack == some .lt) = true :=
    decide_eq_true_iff
  rw [h, compare_unpack]
  rcases rank? x with _ | a <;> rcases rank? y with _ | b <;> simp [compare_lt_iff_lt]

end Order

section Ranks

theorem rank?_bounds {x : Float} {r : Int} (h : rank? x = some r) : -top ≤ r ∧ r ≤ top := by
  have htop : (0 : Int) ≤ top := by decide
  unfold rank? Float.Model.unpack at h
  rw [rankOf_unpack] at h
  split_ifs at h with hb hs <;> cases h <;> simp only [signed] <;> omega

/-- Some bits are those of a double that is no number, other ones are not in use. -/
theorem valid_of_le {b : BitVec 64} (h : (b.toNat % 2 ^ 63 : Int) ≤ top) :
    Format.binary64.Valid b := by
  constructor
  intro he hm
  rw [Ne, unpackMantissa_eq_zero_iff] at hm
  have he := (unpackExponent_eq_iff b 2047 (by decide)).1 he
  unfold top at h
  omega

theorem unpack_ofBits {b : UInt64} (h : (b.toBitVec.toNat % 2 ^ 63 : Int) ≤ top) :
    (Float.ofBits b).toModel.unpack = UnpackedFloat.unpack Format.binary64 b.toBitVec := by
  have hv := valid_of_le h
  unfold Float.ofBits Float.Model.ofBits Float.Model.unpack Float.Model.pack
  dsimp only
  rw [pack_unpack_of_valid hv (by decide)]

/-- Every whole number up to the top is a rank. -/
theorem exists_rank {r : Int} (hl : -top ≤ r) (hu : r ≤ top) : ∃ x, rank? x = some r := by
  have htop : top < 2 ^ 63 := by decide
  obtain ⟨n, hn, hmag, hsign⟩ : ∃ n : Nat, n < 2 ^ 64 ∧ (n % 2 ^ 63 : Int) ≤ top ∧
      signed (if n < 2 ^ 63 then .positive else .negative) (n % 2 ^ 63) = r := by
    rcases le_or_gt 0 r with h | h
    · refine ⟨r.toNat, by omega, by omega, ?_⟩
      rw [if_pos (by omega), signed]
      omega
    · refine ⟨2 ^ 63 + (-r).toNat, by omega, by omega, ?_⟩
      rw [if_neg (by omega), signed]
      omega
  have hb : (UInt64.ofNat n).toBitVec.toNat = n := by
    simpa using Nat.mod_eq_of_lt hn
  refine ⟨Float.ofBits (.ofNat n), ?_⟩
  rw [rank?, unpack_ofBits (by rwa [hb]), rankOf_unpack, hb, if_pos hmag, hsign]

/-- Finite doubles other than zero have ranks of their own. -/
theorem eq_of_rankOf_eq {s : Sign} {m : Nat} {e : Int} {hm : 0 < m} {u : UnpackedFloat}
    (hu : Canonical u) (hc : Canonical (.finite s m e hm))
    (h : rankOf u = rankOf (.finite s m e hm)) : u = .finite s m e hm := by
  have hpos := magnitude_pos hc
  have htop := magnitude_lt_top hc
  rcases u with s' | _ | s' | ⟨s', m', e', hm'⟩
  · have := (signed_inj (by decide) hpos (Option.some.inj h)).2
    omega
  · cases h
  · have h := Option.some.inj h
    cases s <;> simp only [signed] at h <;> omega
  · have hpos' := magnitude_pos hu
    obtain ⟨rfl, hmag⟩ := signed_inj hpos' hpos (Option.some.inj h)
    simp only [Canonical] at hu hc
    unfold magnitude at hmag
    obtain ⟨rfl, rfl⟩ : m' = m ∧ e' = e := by omega
    rfl

/-- Parts that a double can have are those of one. -/
theorem exists_unpack {s : Sign} {m : Nat} {e : Int} {hm : 0 < m}
    (hc : Canonical (.finite s m e hm)) : ∃ x : Float, x.toModel.unpack = .finite s m e hm := by
  have hpos := magnitude_pos hc
  have htop := magnitude_lt_top hc
  obtain ⟨x, hx⟩ := exists_rank (r := signed s (magnitude m e))
    (by cases s <;> simp only [signed] <;> omega) (by cases s <;> simp only [signed] <;> omega)
  exact ⟨x, eq_of_rankOf_eq (canonical_unpack _) hc hx⟩

/-- Doubles with the same parts are the same. -/
theorem eq_of_unpack {x y : Float} (h : x.toModel.unpack = y.toModel.unpack) : x = y := by
  have hb := (unpack_inj_of_valid x.toModel.valid y.toModel.valid (by decide)).1 h
  exact Float.toBits_inj.1 (UInt64.toBitVec_inj.1 hb)

theorem ofModel_pack_unpack (x : Float) :
    Float.ofModel (Float.Model.pack x.toModel.unpack) = x := by
  have hb := pack_unpack_of_valid x.toModel.valid (by decide)
  exact Float.toBits_inj.1 (UInt64.toBitVec_inj.1 hb)

end Ranks

end CommandGrammar.Double
