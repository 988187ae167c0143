/-!
# Whole numbers in text

A numeral is an optional sign and at least one ASCII digit. `Numeral.read` reads one into the range
of an integer type from the left, so of several faults the leftmost is reported: a digit that leaves
the range comes before a stray character to its right.
-/

namespace CommandGrammar

/-- The integer types an argument can have, by width in bits. -/
inductive IntType where
  | i8 | i16 | i32 | i64
  | u8 | u16 | u32 | u64
  deriving DecidableEq, Repr

namespace IntType

def isSigned : IntType → Bool
  | i8 | i16 | i32 | i64 => true
  | u8 | u16 | u32 | u64 => false

def bits : IntType → Nat
  | i8 | u8 => 8
  | i16 | u16 => 16
  | i32 | u32 => 32
  | i64 | u64 => 64

def least (t : IntType) : Int :=
  if t.isSigned then -(Nat.pow 2 (t.bits - 1) : Nat) else 0

def greatest (t : IntType) : Int :=
  if t.isSigned then (Nat.pow 2 (t.bits - 1) : Nat) - 1 else (Nat.pow 2 t.bits : Nat) - 1

/-- Whether `n` is a value of the type. -/
def holds (t : IntType) (n : Int) : Bool :=
  t.least ≤ n && n ≤ t.greatest

end IntType

namespace Numeral

/-- Why a text is no numeral of a type. -/
inductive Fault where
  | empty
  | strayCharacter
  | tooLarge
  | tooSmall
  deriving DecidableEq, Repr

def Fault.message : Fault → String
  | .empty => "cannot parse integer from empty string"
  | .strayCharacter => "invalid digit found in string"
  | .tooLarge => "number too large to fit in target type"
  | .tooSmall => "number too small to fit in target type"

/-- The value of an ASCII decimal digit. -/
def digit? (c : Char) : Option Nat :=
  if '0' ≤ c ∧ c ≤ '9' then some (c.toNat - '0'.toNat) else none

/-- `n` with one more decimal digit, which leads away from zero. -/
def shift (negative : Bool) (n : Int) (d : Nat) : Int :=
  if negative then n * 10 - d else n * 10 + d

/-- Appends decimal digits to `n` as long as the type holds the result. -/
def extend (t : IntType) (negative : Bool) : Int → List Char → Except Fault Int
  | n, [] => .ok n
  | n, c :: rest =>
    match digit? c with
    | none => .error .strayCharacter
    | some d =>
      if t.holds (shift negative n d) then extend t negative (shift negative n d) rest
      else .error (if negative then .tooSmall else .tooLarge)

/-- Reads a numeral of the type. A minus sign is part of the numerals of signed types only; a plus
sign, of all. -/
def read (t : IntType) (s : String) : Except Fault Int :=
  match s.toList with
  | [] => .error .empty
  | ['+'] | ['-'] => .error .strayCharacter
  | '+' :: digits => extend t false 0 digits
  | '-' :: digits => if t.isSigned then extend t true 0 digits else .error .strayCharacter
  | digits => extend t false 0 digits

theorem holds_of_extend {t : IntType} {negative : Bool} :
    ∀ {cs : List Char} {n m : Int}, t.holds n = true → extend t negative n cs = .ok m →
      t.holds m = true
  | [], n, m, hn, h => by
    simp only [extend, Except.ok.injEq] at h
    exact h ▸ hn
  | c :: rest, n, m, hn, h => by
    simp only [extend] at h
    split at h
    · simp at h
    · split at h
      · exact holds_of_extend (by assumption) h
      · simp at h

theorem holds_zero (t : IntType) : t.holds 0 = true := by
  cases t <;> decide

/-- What is read is a value of the type. -/
theorem holds_of_read {t : IntType} {s : String} {n : Int} (h : read t s = .ok n) :
    t.holds n = true := by
  simp only [read] at h
  split at h
  · simp at h
  · simp at h
  · simp at h
  · exact holds_of_extend (holds_zero t) h
  · split at h
    · exact holds_of_extend (holds_zero t) h
    · simp at h
  · exact holds_of_extend (holds_zero t) h

end Numeral

end CommandGrammar
