/-!
# Policies

A unit of a grammar is mandatory or optional. Usage lines and option listings put brackets around
what is optional.
-/

namespace CommandGrammar

inductive Policy where
  | mandatory
  | optional
  deriving DecidableEq, Repr, Inhabited

namespace Policy

def isOptional (p : Policy) : Bool :=
  p = .optional

def bracket (p : Policy) (text : String) : String :=
  match p with
  | .mandatory => text
  | .optional => "[" ++ text ++ "]"

def name : Policy → String
  | .mandatory => "mandatory"
  | .optional => "optional"

def ofName? : String → Option Policy
  | "mandatory" => some .mandatory
  | "optional" => some .optional
  | _ => none

@[simp]
theorem ofName?_name (p : Policy) : ofName? p.name = some p := by
  cases p <;> rfl

end Policy

end CommandGrammar
