import CommandGrammar.Pipeline.Basic
import CommandGrammar.Policy
import CommandGrammar.Scheme.Error
import CommandGrammar.Value

/-!
# Schemes

A scheme is what a command line may look like. It is made of stores, one for each level of nesting:
a store lists the flags and exclusive groups of its level, and the positional arguments. A flag can
own a store of its own, whose content may follow it. The members of an exclusive group belong to the
store of the group; at most one of them can be used.

Stores, flags, groups and arguments are numbered in the order in which they are added, and refer to
each other by number. Store 0 is the root.
-/

namespace CommandGrammar

@[ext]
structure StoreId where
  index : Nat
  deriving DecidableEq, Repr

@[ext]
structure FlagId where
  index : Nat
  deriving DecidableEq, Repr

@[ext]
structure GroupId where
  index : Nat
  deriving DecidableEq, Repr

@[ext]
structure ArgId where
  index : Nat
  deriving DecidableEq, Repr

/-- What is written down when a flag has matched, given its key. -/
abbrev Trigger := String → String

structure Flag where
  key : String
  policy : Policy
  description : String
  /-- The store of what may follow the flag. -/
  children : Option StoreId
  /-- The exclusive group of which the flag is a member. -/
  group : Option GroupId
  trigger : Option Trigger

structure Group where
  store : StoreId
  policy : Policy
  members : List FlagId

structure Positional where
  name : String
  policy : Policy
  description : String
  pipeline : Pipeline Value

/-- A flag or group in the listing of a store. Members are listed in their group only. -/
inductive Entry where
  | flag (id : FlagId)
  | group (id : GroupId)
  deriving DecidableEq, Repr

/-- How many units of each policy there are. -/
structure Tally where
  mandatory : Nat := 0
  optional : Nat := 0
  deriving DecidableEq, Repr

def Tally.count (t : Tally) : Policy → Tally
  | .mandatory => { t with mandatory := t.mandatory + 1 }
  | .optional => { t with optional := t.optional + 1 }

structure Store where
  /-- Flags and groups in the order in which they were added. -/
  entries : List Entry := []
  /-- The keys that can be matched at this level, those of group members among them. -/
  keys : List (String × FlagId) := []
  args : List ArgId := []
  /-- The units of flags: a flag outside groups is one, a group with members is one. -/
  flagTally : Tally := {}
  argTally : Tally := {}

structure Scheme where
  stores : List Store := [{}]
  flags : List Flag := []
  groups : List Group := []
  args : List Positional := []
  /-- The flag that asks for help. -/
  help : Option FlagId := none

namespace Scheme

def root : StoreId := ⟨0⟩

variable (s : Scheme)

def store? (id : StoreId) : Option Store := s.stores[id.index]?

def flag? (id : FlagId) : Option Flag := s.flags[id.index]?

def group? (id : GroupId) : Option Group := s.groups[id.index]?

def arg? (id : ArgId) : Option Positional := s.args[id.index]?

def key? (id : FlagId) : Option String := (s.flag? id).map (·.key)

def argName? (id : ArgId) : Option String := (s.arg? id).map (·.name)

/-- The flag that a token is the key of at a level. -/
def keyed? (store : StoreId) (token : String) : Option FlagId :=
  (s.store? store).bind fun st => st.keys.lookup token

def argsOf (store : StoreId) : List ArgId :=
  ((s.store? store).map (·.args)).getD []

/-- The members of a group in the order in which they were added. -/
def members (group : GroupId) : List FlagId :=
  ((s.group? group).map (·.members)).getD []

/-- The flags and groups of a store in the order in which they were added, except that the flag
that asks for help comes last. -/
def entriesOf (store : StoreId) : List Entry :=
  let entries := ((s.store? store).map (·.entries)).getD []
  match s.help with
  | some help =>
    if store = root then entries.filter (· ≠ .flag help) ++ [.flag help] else entries
  | none => entries

end Scheme

end CommandGrammar
