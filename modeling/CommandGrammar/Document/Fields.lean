import CommandGrammar.Document.Scalar

/-!
# Records in documents

A record is read against the names of its fields, each of which may occur once. Depending on the
notation, the list of the field values in order can stand for the record, and a field can be called
by its number; `Rules` says what is granted. The values found are smaller than the record, so that a
tree of records can be read by recursion.
-/

namespace CommandGrammar.Document

/-- What a notation grants to records. -/
structure Rules where
  /-- A list of the values, in order, may stand for a record. -/
  lists : Bool
  /-- Names may be replaced by their numbers. -/
  numbers : Bool
  deriving DecidableEq, Repr

/-- A notation in which every scalar has a type. -/
def Rules.typed : Rules := { lists := true, numbers := false }

/-- A notation whose scalars get their types from what is wanted. -/
def Rules.untyped : Rules := { lists := false, numbers := false }

/-- A part of a document that was settled before it was known what is wanted. -/
def Rules.settled : Rules := { lists := true, numbers := true }

/-- A document inside `d`. -/
abbrev Part (d : Document) := { v : Document // sizeOf v < sizeOf d }

/-- The text of a scalar, whatever its type would be. -/
def text? : Document → Option String
  | text s | written _ s | tagged _ (written _ s) => some s
  | _ => none

/-- An empty plain scalar, which can stand for anything empty. -/
def isBlank : Document → Bool
  | written .plain "" | tagged _ (written .plain "") => true
  | _ => false

theorem sizeOf_lt_list {v : Document} {items : List Document} (h : v ∈ items) :
    sizeOf v < sizeOf (list items) := by
  have := List.sizeOf_lt_of_mem h
  simp only [list.sizeOf_spec]
  omega

theorem sizeOf_lt_record {k v : Document} {fields : List (Document × Document)}
    (h : (k, v) ∈ fields) : sizeOf v < sizeOf (record fields) := by
  have := List.sizeOf_lt_of_mem h
  simp only [Prod.mk.sizeOf_spec] at this
  simp only [record.sizeOf_spec]
  omega

/-- The items of a list. -/
def items? : (d : Document) → Option (List (Part d))
  | list items => some (items.attach.map fun ⟨v, h⟩ => ⟨v, sizeOf_lt_list h⟩)
  | tagged tag (list items) => some (items.attach.map fun ⟨v, h⟩ =>
      ⟨v, Nat.lt_trans (sizeOf_lt_list h) (by simp only [tagged.sizeOf_spec]; omega)⟩)
  | d => if d.isBlank then some [] else none

/-- The keys and values of a record. -/
def fields? : (d : Document) → Option (List (Document × Part d))
  | record fields => some (fields.attach.map fun ⟨(k, v), h⟩ => (k, ⟨v, sizeOf_lt_record h⟩))
  | tagged tag (record fields) => some (fields.attach.map fun ⟨(k, v), h⟩ =>
      (k, ⟨v, Nat.lt_trans (sizeOf_lt_record h) (by simp only [tagged.sizeOf_spec]; omega)⟩))
  | d => if d.isBlank then some [] else none

/-- What a key or a variant means among some names. -/
inductive Meaning where
  | known (i : Nat)
  | unknown
  deriving DecidableEq, Repr

/-- The meaning of a document as a name; none if it cannot be one. -/
def meaning? (rules : Rules) (names : List String) (d : Document) : Option Meaning :=
  match d with
  | integer n =>
    if rules.numbers && 0 ≤ n then
      some (if n.toNat < names.length then .known n.toNat else .unknown)
    else none
  | d => d.text?.map fun s =>
    match names.idxOf? s with
    | some i => .known i
    | none => .unknown

/-- Puts the values of a record into the slots of its fields. An unknown name is an error, or else
passed over; a name that occurs twice is an error. -/
def fill {α : Type} (rules : Rules) (strict : Bool) (names : List String) :
    List (Option α) → List (Document × α) → Option (List (Option α))
  | slots, [] => some slots
  | slots, (k, v) :: rest =>
    match meaning? rules names k with
    | none => none
    | some .unknown => if strict then none else fill rules strict names slots rest
    | some (.known i) =>
      match slots[i]? with
      | some none => fill rules strict names (slots.set i (some v)) rest
      | _ => none

/-- The values of the named fields of a record, in the order of the names. -/
def slots? (rules : Rules) (strict : Bool) (names : List String) (d : Document) :
    Option (List (Option (Part d))) :=
  match d.fields? with
  | some fields => fill rules strict names (names.map fun _ => none) fields
  | none =>
    if rules.lists then
      d.items?.bind fun items =>
        if items.length ≤ names.length then
          some (items.map some ++ List.replicate (names.length - items.length) none)
        else none
    else none

end CommandGrammar.Document
