import CommandGrammar.Literal
import Mathlib.Tactic.IntervalCases

/-!
# Numerals of whole numbers

Every value of an integer type is read from its own digits. The digits of a number are those of its
tenth with one more behind, and what was read on the way lies between zero and the number, so the
type holds it as well.
-/

namespace CommandGrammar

namespace IntType

theorem holds_iff {t : IntType} {n : Int} : t.holds n = true ↔ t.least ≤ n ∧ n ≤ t.greatest := by
  simp [holds]

theorem isSigned_of_neg {t : IntType} {n : Int} (h : t.holds n = true) (hn : n < 0) :
    t.isSigned = true := by
  have hl := (holds_iff.1 h).1
  unfold least at hl
  split_ifs at hl with hs
  · exact hs
  · omega

/-- What lies between zero and a value of a type is one as well. -/
theorem holds_of_between {t : IntType} {n m : Int} (h : t.holds n = true)
    (hm : 0 ≤ m ∧ m ≤ n ∨ n ≤ m ∧ m ≤ 0) : t.holds m = true := by
  have h0 := holds_iff.1 (Numeral.holds_zero t)
  have hn := holds_iff.1 h
  rw [holds_iff]
  omega

end IntType

namespace Numeral

variable {t : IntType} {negative : Bool}

theorem extend_append (xs ys : List Char) : ∀ n : Int, extend t negative n (xs ++ ys) =
    (extend t negative n xs).bind fun m => extend t negative m ys := by
  induction xs with
  | nil => exact fun n => rfl
  | cons c xs ih =>
    intro n
    simp only [List.cons_append, extend]
    rcases digit? c with _ | d
    · rfl
    · by_cases h : t.holds (shift negative n d) = true
      · simp only [h, if_true]
        exact ih _
      · simp only [h]
        rfl

theorem digit?_digitChar {d : Nat} (hd : d < 10) : digit? d.digitChar = some d := by
  interval_cases d <;> rfl

theorem extend_digit {n : Int} {d : Nat} (hd : d < 10)
    (h : t.holds (shift negative n d) = true) :
    extend t negative n [d.digitChar] = .ok (shift negative n d) := by
  simp only [extend, digit?_digitChar hd, h, if_true]

/-- The number with given digits, on its side of zero. -/
def towards (negative : Bool) (n : Nat) : Int := if negative then -n else n

theorem shift_towards (n d : Nat) :
    shift negative (towards negative n) d = towards negative (n * 10 + d) := by
  unfold shift towards
  split_ifs <;> push_cast <;> omega

theorem extend_toDigits (n : Nat) (h : t.holds (towards negative n) = true) :
    extend t negative 0 (Nat.toDigits 10 n) = .ok (towards negative n) := by
  induction n using Nat.strong_induction_on with
  | _ n ih =>
    rw [Nat.toDigits_eq_if (by decide)]
    split_ifs with hn
    · have hd : shift negative 0 n = towards negative n := by
        simpa [towards] using @shift_towards negative 0 n
      rw [← hd] at h ⊢
      exact extend_digit hn h
    · have hdm : n / 10 * 10 + n % 10 = n := by omega
      have hd : shift negative (towards negative (n / 10)) (n % 10) = towards negative n := by
        rw [shift_towards, hdm]
      have hten : t.holds (towards negative (n / 10)) = true := by
        refine IntType.holds_of_between h ?_
        unfold towards
        split_ifs <;> omega
      rw [extend_append, ih (n / 10) (by omega) hten]
      rw [← hd] at h ⊢
      exact extend_digit (Nat.mod_lt _ (by decide)) h

theorem exists_toDigits (n : Nat) : ∃ c cs, Nat.toDigits 10 n = c :: cs ∧ c.isDigit = true := by
  obtain ⟨c, cs, h⟩ := List.exists_cons_of_ne_nil (Nat.toDigits_ne_nil (n := n) (b := 10))
  refine ⟨c, cs, h, Nat.isDigit_of_mem_toDigits (by decide) le_rfl (n := n) ?_⟩
  rw [h]
  exact List.mem_cons_self

theorem ne_sign_of_isDigit {c : Char} (h : c.isDigit = true) : c ≠ '-' ∧ c ≠ '+' := by
  constructor
  · rintro rfl
    cases h
  · rintro rfl
    cases h

theorem read_digits {s : String} {n : Nat} (hs : s.toList = Nat.toDigits 10 n)
    (h : t.holds n = true) : read t s = .ok n := by
  obtain ⟨c, cs, hc, hd⟩ := exists_toDigits n
  obtain ⟨hminus, hplus⟩ := ne_sign_of_isDigit hd
  have hr : read t s = extend t false 0 (c :: cs) := by
    unfold read
    rw [hs, hc]
    split
    · cases ‹c :: cs = []›
    · exact absurd (List.cons.inj ‹_›).1 hplus
    · exact absurd (List.cons.inj ‹_›).1 hminus
    · exact absurd (List.cons.inj ‹_›).1 hplus
    · exact absurd (List.cons.inj ‹_›).1 hminus
    · rfl
  rw [hr, ← hc]
  exact extend_toDigits n h

theorem read_minus_digits {s : String} {n : Nat} (hs : s.toList = '-' :: Nat.toDigits 10 n)
    (ht : t.isSigned = true) (h : t.holds (-n) = true) : read t s = .ok (-n) := by
  obtain ⟨c, cs, hc, hd⟩ := exists_toDigits n
  have hr : read t s = extend t true 0 (c :: cs) := by
    unfold read
    rw [hs, hc]
    simp [ht]
  rw [hr, ← hc]
  exact extend_toDigits n h

/-- A value of a type is read from its own digits. -/
theorem read_toString {n : Int} (h : t.holds n = true) : read t (toString n) = .ok n := by
  rcases n with n | n
  · exact read_digits (by rw [Int.toString_eq_repr]; exact Nat.toList_repr) h
  · refine read_minus_digits (n := n + 1) ?_ (IntType.isSigned_of_neg h (Int.negSucc_lt_zero n)) h
    rw [Int.toString_eq_repr, Int.repr, String.toList_append, Nat.toList_repr]
    rfl

end Numeral

namespace Literal

theorem int_toString {t : IntType} {n : Int} (h : t.holds n = true) :
    int t (toString n) = .ok n := by
  rw [int, Numeral.read_toString h]
  rfl

theorem holds_of_int {t : IntType} {token : String} {n : Int} (h : int t token = .ok n) :
    t.holds n = true := by
  unfold int at h
  rcases hr : Numeral.read t token with e | m <;> rw [hr] at h <;> cases h
  exact Numeral.holds_of_read hr

end Literal

end CommandGrammar
