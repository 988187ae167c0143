import CommandGrammar.Policy

/-!
# Grammars

A grammar describes a command line as data, to be written in a file: the arguments and flags of the
root, the arguments and flags that may follow each flag, and exclusive groups of flags.
-/

namespace CommandGrammar

/-- Limits of a number. An absent end does not limit. -/
structure Bounds (α : Type) where
  min : Option α := none
  max : Option α := none
  minInclusive : Bool := true
  maxInclusive : Bool := true
  deriving Repr, BEq

/-- How an argument is converted. -/
inductive Converter where
  | text
  | integer (bounds : Bounds Int)
  | unsigned (bounds : Bounds Int)
  | number (bounds : Bounds Float)
  | choice (values : List String)
  | existingFile
  | existingDirectory
  deriving Repr, BEq

structure ArgSpec where
  name : String
  policy : Policy := .mandatory
  description : String := ""
  converter : Converter := .text
  deriving Repr, BEq

mutual

/-- A flag or an exclusive group of flags, which share a policy. -/
inductive FlagEntry where
  | flag (policy : Policy) (spec : FlagSpec)
  | group (policy : Policy) (members : List FlagSpec)
  deriving Repr, BEq

/-- A flag without its policy: its key and what may follow it. -/
inductive FlagSpec where
  | mk (key : String) (description : String) (args : List ArgSpec) (flags : List FlagEntry)
  deriving Repr, BEq

end

namespace FlagSpec

def key : FlagSpec → String
  | mk key _ _ _ => key

def description : FlagSpec → String
  | mk _ description _ _ => description

def args : FlagSpec → List ArgSpec
  | mk _ _ args _ => args

def flags : FlagSpec → List FlagEntry
  | mk _ _ _ flags => flags

/-- Whether anything may follow the flag. -/
def isComplex (spec : FlagSpec) : Bool :=
  !spec.args.isEmpty || !spec.flags.isEmpty

end FlagSpec

namespace FlagEntry

/-- The flags of an entry. -/
def specs : FlagEntry → List FlagSpec
  | flag _ spec => [spec]
  | group _ members => members

/-- Whether the entry puts a key into its scope. -/
def declares (e : FlagEntry) (key : String) : Bool :=
  e.specs.any (·.key == key)

end FlagEntry

structure Grammar where
  /-- The name of the program, until a command line gives another. -/
  program : Option String := none
  /-- Whether there is a flag that asks for help. -/
  help : Bool := false
  args : List ArgSpec := []
  flags : List FlagEntry := []
  deriving Repr, BEq

end CommandGrammar
