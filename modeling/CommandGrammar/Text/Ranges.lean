/-!
# Ranges of characters

A property of characters that follows no rule is a table: the ranges of code points that have it,
in order, each as its first and its last code point.
-/

namespace CommandGrammar.Text

abbrev Ranges := List (Nat × Nat)

namespace Ranges

/-- A character lies in one of the ranges. -/
def holds (r : Ranges) (c : Char) : Bool :=
  r.any fun (first, last) => first ≤ c.toNat && c.toNat ≤ last

/-- Each range ends where it starts or later, and before the next one starts. -/
def isSorted : Ranges → Bool
  | [] => true
  | [(first, last)] => first ≤ last
  | (first, last) :: (first', last') :: r =>
    first ≤ last && last < first' && isSorted ((first', last') :: r)

end Ranges

end CommandGrammar.Text
