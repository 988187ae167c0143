/-!
# Tables

A table has at most one entry under each name and lists them in the order of the names, by code
point.
-/

namespace CommandGrammar

structure Table (α : Type) where
  entries : List (String × α)
  deriving Repr, BEq

namespace Table

variable {α : Type}

def empty : Table α := ⟨[]⟩

/-- Puts an entry in its place; one under the same name is replaced. -/
def put (name : String) (a : α) : List (String × α) → List (String × α)
  | [] => [(name, a)]
  | (n, b) :: rest =>
    if name < n then (name, a) :: (n, b) :: rest
    else if name = n then (name, a) :: rest
    else (n, b) :: put name a rest

def insert (t : Table α) (name : String) (a : α) : Table α := ⟨put name a t.entries⟩

/-- The table of some entries, of which later ones replace earlier ones. -/
def ofList (entries : List (String × α)) : Table α :=
  entries.foldl (fun t (name, a) => t.insert name a) empty

end Table

end CommandGrammar
