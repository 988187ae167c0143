import CommandGrammar.Document.Fields
import CommandGrammar.Grammar.Basic

/-!
# Grammars in documents

A grammar is a record, and so is everything in it. Fields that nobody declared are errors, except
among the settings of a converter; fields with a default can be left out. The entries of a scope and
the settings of a converter are settled before they are read, because what they are is only known
afterwards: an entry is read as a group if it can be, else as a flag.
-/

namespace CommandGrammar

open Document (Rules)

/-- A truth value. A plain scalar is read as one even under a tag. -/
def Document.bool? : Document → Option Bool
  | .bool b => some b
  | .written .plain s | .tagged _ (.written .plain s) => Scalar.bool? s
  | .tagged .bool (.written .literal s) => Scalar.bool? s
  | _ => none

/-- A text or nothing. Nothing is written as null or, plainly, not at all. -/
def Document.textOrNull? : Document → Option (Option String)
  | .null => some none
  | .text s => some (some s)
  | .written .plain s => some (if s.isEmpty || Scalar.isNull s then none else some s)
  | .written _ s => some (some s)
  | .tagged .null (.written .plain s) => if Scalar.isNull s then some none else none
  | .tagged _ (.written _ s) => some (some s)
  | _ => none

namespace Policy

def names : List String := ["mandatory", "optional"]

def ofMeaning? : Document.Meaning → Option Policy
  | .known 0 => some .mandatory
  | .known 1 => some .optional
  | _ => none

/-- A policy is its name. It can also be a record of its name and null, or a local tag on nothing,
where the notation has those. -/
def ofDocument? (rules : Rules) : Document → Option Policy
  | .text s | .written _ s => ofName? s
  | .tagged tag (.written style s) =>
    match tag.name? with
    | some name =>
      if style = .plain ∧ (s.isEmpty ∨ Scalar.isNull s) then ofName? name else none
    | none => ofName? s
  | .record [(k, .null)] =>
    if rules.lists then (Document.meaning? rules names k).bind ofMeaning? else none
  | _ => none

end Policy

namespace Converter

def typeNames : List String :=
  ["text", "integer", "unsigned", "number", "choice", "existing_file", "existing_dir"]

/-- What stands under a tag, which may not have a name of its own. -/
def untagged? : Document → Option Document
  | .tagged tag d => if tag.name?.isSome then none else some d
  | d => some d

/-- The type of a converter and its other settings, which are settled. -/
def split? (rules : Rules) (d : Document) : Option (Document.Meaning × Document) := do
  match ← untagged? d with
  | .list (type :: settings) => do
    let m ← Document.meaning? rules typeNames type
    return (m, .list (← Document.settleAll settings))
  | .record fields => do
    let keyed ← fields.mapM fun (k, v) => k.settle.map fun k => (k, v)
    let isType : Document × Document → Bool
      | (.text "type", _) => true
      | _ => false
    match keyed.partition isType with
    | ([(_, type)], settings) =>
      let m ← Document.meaning? rules typeNames type
      let settings ← settings.mapM fun (k, v) => v.settle.map fun v => (k, v)
      return (m, .record settings)
    | _ => none
  | _ => none

/-- A whole number of a type, or nothing. -/
def intOrNull? (t : IntType) : Document → Option (Option Int)
  | .null => some none
  | .minusZero => some (some 0)
  | .integer n => if t.holds n then some (some n) else none
  | _ => none

/-- A double, or nothing. -/
def floatOrNull? : Document → Option (Option Float)
  | .null => some none
  | .number x => some (some x)
  | .minusZero => some (some 0)
  | .integer n => some (some (Float.ofInt n))
  | _ => none

def boundNames : List String := ["min", "max", "min_inclusive", "max_inclusive"]

/-- Bounds from the settings of a converter; ends that are not mentioned do not limit, and ends are
inclusive unless it is said otherwise. -/
def bounds? {α : Type} (limit? : Document → Option (Option α)) (settings : Document) :
    Option (Bounds α) := do
  match ← settings.slots? .settled false boundNames with
  | [min, max, minInclusive, maxInclusive] =>
    return {
      min := (← min.mapM fun d => limit? d.val).join
      max := (← max.mapM fun d => limit? d.val).join
      minInclusive := (← minInclusive.mapM fun d => d.val.bool?).getD true
      maxInclusive := (← maxInclusive.mapM fun d => d.val.bool?).getD true }
  | _ => none

def textList? (d : Document) : Option (List String) :=
  d.items?.bind fun items => items.mapM fun i => i.val.text?

def choice? (settings : Document) : Option Converter := do
  match ← settings.slots? .settled false ["values"] with
  | [some values] => return choice (← textList? values.val)
  | _ => none

/-- A converter without settings passes over the fields of a record, but not over items. -/
def bare? (c : Converter) (settings : Document) : Option Converter :=
  match settings with
  | .list (_ :: _) => none
  | _ => some c

def ofDocument? (rules : Rules) (d : Document) : Option Converter := do
  let (m, settings) ← split? rules d
  match m with
  | .known 0 => bare? text settings
  | .known 1 => return integer (← bounds? (intOrNull? .i64) settings)
  | .known 2 => return unsigned (← bounds? (intOrNull? .u64) settings)
  | .known 3 => return number (← bounds? floatOrNull? settings)
  | .known 4 => choice? settings
  | .known 5 => bare? existingFile settings
  | .known 6 => bare? existingDirectory settings
  | _ => none

end Converter

namespace ArgSpec

def fieldNames : List String := ["name", "policy", "description", "convert"]

def ofDocument? (rules : Rules) (d : Document) : Option ArgSpec := do
  match ← d.slots? rules true fieldNames with
  | [some name, policy, description, converter] =>
    return {
      name := ← name.val.text?
      policy := (← policy.mapM fun d => Policy.ofDocument? rules d.val).getD .mandatory
      description := (← description.mapM fun d => d.val.text?).getD ""
      converter := (← converter.mapM fun d => Converter.ofDocument? rules d.val).getD .text }
  | _ => none

/-- The arguments in a list. -/
def listOfDocument? (rules : Rules) (d : Document) : Option (List ArgSpec) :=
  d.items?.bind fun items => items.mapM fun i => ofDocument? rules i.val

end ArgSpec

namespace FlagEntry

def flagNames : List String := ["key", "policy", "description", "args", "flags"]

def memberNames : List String := ["key", "description", "args", "flags"]

def groupNames : List String := ["exclusive", "members"]

mutual

/-- A settled entry: a group if it can be read as one, else a flag. -/
def ofDocument? (d : Document) : Option FlagEntry :=
  match asGroup? d with
  | some e => some e
  | none => asFlag? d
termination_by (sizeOf d, 1)

def asGroup? (d : Document) : Option FlagEntry := do
  match ← d.slots? .settled true groupNames with
  | [some policy, some members] =>
    return group (← Policy.ofDocument? .settled policy.val) (← membersOfDocument? members.val)
  | _ => none
termination_by (sizeOf d, 0)
decreasing_by exact .left _ _ members.property

def asFlag? (d : Document) : Option FlagEntry := do
  match ← d.slots? .settled true flagNames with
  | [some key, policy, description, args, flags] =>
    return flag ((← policy.mapM fun d => Policy.ofDocument? .settled d.val).getD .mandatory)
      ⟨← key.val.text?,
        (← description.mapM fun d => d.val.text?).getD "",
        (← args.mapM fun d => ArgSpec.listOfDocument? .settled d.val).getD [],
        (← flags.mapM fun d => listOfDocument? d.val).getD []⟩
  | _ => none
termination_by (sizeOf d, 0)
decreasing_by exact .left _ _ d.property

def memberOfDocument? (d : Document) : Option FlagSpec := do
  match ← d.slots? .settled true memberNames with
  | [some key, description, args, flags] =>
    return ⟨← key.val.text?,
      (← description.mapM fun d => d.val.text?).getD "",
      (← args.mapM fun d => ArgSpec.listOfDocument? .settled d.val).getD [],
      (← flags.mapM fun d => listOfDocument? d.val).getD []⟩
  | _ => none
termination_by (sizeOf d, 0)
decreasing_by exact .left _ _ d.property

/-- The members in a list. -/
def membersOfDocument? (d : Document) : Option (List FlagSpec) :=
  d.items?.bind fun items => items.mapM fun i => memberOfDocument? i.val
termination_by (sizeOf d, 0)
decreasing_by exact .left _ _ i.property

/-- The entries in a list. -/
def listOfDocument? (d : Document) : Option (List FlagEntry) :=
  d.items?.bind fun items => items.mapM fun i => ofDocument? i.val
termination_by (sizeOf d, 0)
decreasing_by exact .left _ _ i.property

end

end FlagEntry

namespace Grammar

def fieldNames : List String := ["program", "help", "args", "flags"]

/-- The entries of the root, which are settled one by one. -/
def entriesOfDocument? (d : Document) : Option (List FlagEntry) :=
  d.items?.bind fun items => items.mapM fun i => i.val.settle.bind FlagEntry.ofDocument?

def ofDocument? (rules : Rules) (d : Document) : Option Grammar := do
  match ← d.slots? rules true fieldNames with
  | [program, help, args, flags] =>
    return {
      program := (← program.mapM fun d => d.val.textOrNull?).join
      help := (← help.mapM fun d => d.val.bool?).getD false
      args := (← args.mapM fun d => ArgSpec.listOfDocument? rules d.val).getD []
      flags := (← flags.mapM fun d => entriesOfDocument? d.val).getD [] }
  | _ => none

end Grammar

end CommandGrammar
