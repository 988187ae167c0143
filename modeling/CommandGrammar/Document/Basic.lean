/-!
# Documents

A document is the tree that a grammar file holds, whatever its notation. In one notation every
scalar has a type of its own; in the other a plain scalar only gets a type when nothing says which
type is wanted. So besides values with a type there are scalars as they were written, and nodes
under a tag; `Document.Scalar` settles what these are.
-/

namespace CommandGrammar

/-- How a scalar was written, as far as its type can depend on it. -/
inductive ScalarStyle where
  | plain
  | literal
  | quoted
  deriving DecidableEq, Repr

/-- What a tag says about the node under it. -/
inductive Tag where
  /-- A local tag, with the name after its exclamation mark. The mark alone is its own name. -/
  | named (name : String)
  /-- A local tag whose name is no text. -/
  | nameless
  | bool
  | integer
  | number
  | null
  /-- Any other tag. A scalar under it is a text, unless another type is wanted. -/
  | other
  deriving DecidableEq, Repr

inductive Document where
  | null
  | bool (b : Bool)
  | integer (n : Int)
  /-- The whole number zero after a minus sign, which unlike zero is not the number of a field. -/
  | minusZero
  | number (x : Float)
  | text (s : String)
  | list (items : List Document)
  | record (fields : List (Document × Document))
  /-- A scalar whose type is not settled. -/
  | written (style : ScalarStyle) (s : String)
  | tagged (tag : Tag) (d : Document)
  deriving Repr, Inhabited

namespace Document

/-- A record whose keys are texts. -/
def object (fields : List (String × Document)) : Document :=
  record (fields.map fun (name, d) => (text name, d))

end Document

end CommandGrammar
