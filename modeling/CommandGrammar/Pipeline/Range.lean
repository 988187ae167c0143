import CommandGrammar.Pipeline.Attempt
import CommandGrammar.Value

/-!
# Ranges

A range has two ends, each of which belongs to it or not. A comparison with something that is not
ordered, such as a double that is no number, does not hold; so nothing lies between ends of that
kind.
-/

namespace CommandGrammar

structure Range (α : Type) where
  min : α
  max : α
  minInclusive : Bool
  maxInclusive : Bool

namespace Range

variable {α : Type} [LE α] [LT α] [DecidableLE α] [DecidableLT α]

/-- Whether a value is above a lower end. -/
def above (min : α) (inclusive : Bool) (x : α) : Bool :=
  if inclusive then min ≤ x else min < x

/-- Whether a value is below an upper end. -/
def below (max : α) (inclusive : Bool) (x : α) : Bool :=
  if inclusive then x ≤ max else x < max

def contains (r : Range α) (x : α) : Bool :=
  above r.min r.minInclusive x && below r.max r.maxInclusive x

/-- How an end is called in messages. -/
def endLabel (inclusive : Bool) : String :=
  if inclusive then "(inclusive)" else "(exclusive)"

variable [Shown α]

def message (r : Range α) : String :=
  "Expected value to be between " ++ Shown.text r.min ++ endLabel r.minInclusive ++ " and " ++
    Shown.text r.max ++ endLabel r.maxInclusive ++ "."

def check (r : Range α) (x : α) : Except String α :=
  if r.contains x then .ok x else .error r.message

/-- The check as a refinement of a pipeline. -/
def step (r : Range α) (x : α) : Attempt α :=
  .ofExcept (r.check x)

end Range

end CommandGrammar
