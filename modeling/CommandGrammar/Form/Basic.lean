import CommandGrammar.Session

/-!
# Sessions in place

A form is a session as it is kept in place: the four lists of nodes, and on every node the mark that
the last pass has left there. Nodes are got by number, and a number that leads nowhere is a trap:
the computation stops at it, without an answer. What is computed on a form need not end, either.
-/

namespace CommandGrammar

/-- A flag, and whether it has matched. -/
structure FlagCell where
  flag : Flag
  matched : Bool := false

/-- A group, whether it has matched, and the member that was used. -/
structure GroupCell where
  group : Group
  matched : Bool := false
  chosen : Option FlagId := none

/-- An argument, whether it has matched, and its value. -/
structure ArgCell where
  arg : Positional
  matched : Bool := false
  value : Option Value := none

structure Form where
  stores : List Store := [{}]
  flags : List FlagCell := []
  groups : List GroupCell := []
  args : List ArgCell := []
  help : Option FlagId := none
  program : String := ""
  errorMode : ErrorMode := .exit
  consumed : List String := []
  /-- The triggers that the last pass fired. -/
  fired : List Firing := []

/-- An index out of bounds. -/
inductive Trap where
  | store (id : StoreId)
  | flag (id : FlagId)
  | group (id : GroupId)
  | arg (id : ArgId)
  /-- A place among the arguments of a store. -/
  | place (store : StoreId) (index : Nat)
  /-- A position in a command line. -/
  | position (n : Nat)
  deriving DecidableEq, Repr

/-- A computation on a form. It ends with an answer and the form then, or at a trap, or not at all.
-/
abbrev Act (α : Type) := StateT Form (ExceptT Trap Option) α

namespace Act

variable {α β : Type}

/-- What a computation makes of a form, if it ends. -/
def on (x : Act α) (form : Form) : Option (Except Trap (α × Form)) :=
  (x.run form).run

theorem on_pure (a : α) (form : Form) : (pure a : Act α).on form = some (.ok (a, form)) := rfl

theorem on_get (form : Form) : (get : Act Form).on form = some (.ok (form, form)) := rfl

theorem on_modify (f : Form → Form) (form : Form) :
    (modify f : Act Unit).on form = some (.ok ((), f form)) := rfl

theorem on_bind_of_ok {x : Act α} {form form' : Form} {a : α}
    (h : x.on form = some (.ok (a, form'))) (f : α → Act β) :
    (x >>= f).on form = (f a).on form' := by
  have hbind : (x >>= f).on form =
      (x.on form).bind (ExceptT.bindCont fun r => (f r.1).run r.2) := rfl
  rw [hbind, h]
  rfl

/-- The node with a number, in one of the lists. -/
def look {ν : Type} (nodes : Form → List ν) (index : Nat) (trap : Trap) : Act ν := do
  match (nodes (← get))[index]? with
  | some node => return node
  | none => throw trap

def storeAt (id : StoreId) : Act Store := look (·.stores) id.index (.store id)

def flagAt (id : FlagId) : Act FlagCell := look (·.flags) id.index (.flag id)

def groupAt (id : GroupId) : Act GroupCell := look (·.groups) id.index (.group id)

def argAt (id : ArgId) : Act ArgCell := look (·.args) id.index (.arg id)

def updateStore (id : StoreId) (f : Store → Store) : Act Unit := do
  let _ ← storeAt id
  modify fun form => { form with stores := form.stores.modify id.index f }

def updateFlag (id : FlagId) (f : FlagCell → FlagCell) : Act Unit := do
  let _ ← flagAt id
  modify fun form => { form with flags := form.flags.modify id.index f }

def updateGroup (id : GroupId) (f : GroupCell → GroupCell) : Act Unit := do
  let _ ← groupAt id
  modify fun form => { form with groups := form.groups.modify id.index f }

def updateArg (id : ArgId) (f : ArgCell → ArgCell) : Act Unit := do
  let _ ← argAt id
  modify fun form => { form with args := form.args.modify id.index f }

/-- The flags and groups of a store in order, except that the flag that asks for help comes last. -/
def entriesOf (store : StoreId) : Act (List Entry) := do
  let entries := (← storeAt store).entries
  match (← get).help with
  | some help =>
    return if store = Scheme.root then entries.filter (· ≠ .flag help) ++ [.flag help] else entries
  | none => return entries

end Act

end CommandGrammar
