import CommandGrammar.Proofs.Variants

/-!
# Fields that are not declared

A grammar is a tree of objects, and each object is read as something that declares its fields. If
the grammar is read, so was every object in it, and no object uses a name that is not declared; an
entry uses the names of a group only or those of a flag only. Converters are the exception: a
setting that a converter does not have is passed over with its value.
-/

namespace CommandGrammar

open Document (Denotes HasField HasItem Part Rules UsesOnly)

variable {α β : Type} {rules r : Rules} {d e v : Document}

/-! ## Objects -/

/-- What an object in a grammar is read as. -/
inductive ObjectKind where
  | grammar
  | entry
  | member
  | argument
  | converter
  deriving DecidableEq

namespace ObjectKind

/-- The names an object may use. An entry may be a group or a flag; the names of a converter depend
on its type. -/
def vocabularies : ObjectKind → List (List String)
  | grammar => [Grammar.fieldNames]
  | entry => [FlagEntry.groupNames, FlagEntry.flagNames]
  | member => [FlagEntry.memberNames]
  | argument => [ArgSpec.fieldNames]
  | converter => []

/-- The object is read without a failure. -/
def Reads : ObjectKind → Rules → Document → Prop
  | grammar, rules, d => ∃ g, Grammar.ofDocument? rules d = some g
  | entry, rules, d => rules = .settled ∧ ∃ e, FlagEntry.ofDocument? d = some e
  | member, rules, d => rules = .settled ∧ ∃ spec, FlagEntry.memberOfDocument? d = some spec
  | argument, rules, d => ∃ a, ArgSpec.ofDocument? rules d = some a
  | converter, rules, d => ∃ c, Converter.ofDocument? rules d = some c

end ObjectKind

/-- A document has a value under a name. -/
abbrev Document.HasNamed (rules : Rules) (names : List String) (d : Document) (name : String)
    (v : Document) : Prop :=
  name ∈ names ∧ d.HasField rules names (names.idxOf name) v

/-- The objects in the document of a grammar, by what they are read as: what is in an entry of the
root, with that entry, is read after it was settled. -/
inductive Document.Object (rules : Rules) (d : Document) :
    ObjectKind → Rules → Document → Prop where
  | root : Object rules d .grammar rules d
  | rootEntry {list item e : Document} (hl : d.HasNamed rules Grammar.fieldNames "flags" list)
      (hi : list.HasItem item) (hs : item.settle = some e) : Object rules d .entry .settled e
  | argument {kind : ObjectKind} {r : Rules} {names : List String} {e list item : Document}
      (h : Object rules d kind r e) (hn : names ∈ kind.vocabularies)
      (hl : e.HasNamed r names "args" list) (hi : list.HasItem item) :
      Object rules d .argument r item
  | entry {kind : ObjectKind} {r : Rules} {names : List String} {e list item : Document}
      (h : Object rules d kind r e) (hk : kind = .entry ∨ kind = .member)
      (hn : names ∈ kind.vocabularies) (hl : e.HasNamed r names "flags" list)
      (hi : list.HasItem item) : Object rules d .entry r item
  | member {r : Rules} {e list item : Document} (h : Object rules d .entry r e)
      (hl : e.HasNamed r FlagEntry.groupNames "members" list) (hi : list.HasItem item) :
      Object rules d .member r item
  | converter {r : Rules} {e c : Document} (h : Object rules d .argument r e)
      (hc : e.HasNamed r ArgSpec.fieldNames "convert" c) : Object rules d .converter r c

/-! ## What is read of an object -/

theorem Grammar.slots_of_ofDocument? {g : Grammar} (h : ofDocument? rules d = some g) :
    ∃ program help args flags a f,
      d.slots? rules true fieldNames = some [program, help, args, flags] ∧
      args.mapM (fun p => ArgSpec.listOfDocument? rules p.val) = some a ∧
      flags.mapM (fun p => entriesOfDocument? p.val) = some f := by
  obtain ⟨slots, hslots, h⟩ := Option.bind_eq_some_iff.1 h
  split at h
  · simp only [Option.bind_eq_bind, Option.bind_eq_some_iff] at h
    obtain ⟨_, -, _, -, a, ha, f, hf, -⟩ := h
    exact ⟨_, _, _, _, a, f, hslots, ha, hf⟩
  · cases h

theorem ArgSpec.slots_of_ofDocument? {a : ArgSpec} (h : ofDocument? rules d = some a) :
    ∃ name policy description converter c,
      d.slots? rules true fieldNames = some [some name, policy, description, converter] ∧
      converter.mapM (fun p => Converter.ofDocument? rules p.val) = some c := by
  obtain ⟨slots, hslots, h⟩ := Option.bind_eq_some_iff.1 h
  split at h
  · simp only [Option.bind_eq_bind, Option.bind_eq_some_iff] at h
    obtain ⟨_, -, _, -, _, -, c, hc, -⟩ := h
    exact ⟨_, _, _, _, c, hslots, hc⟩
  · cases h

theorem FlagEntry.slots_of_memberOfDocument? {spec : FlagSpec}
    (h : memberOfDocument? d = some spec) :
    ∃ key description args flags a f,
      d.slots? .settled true memberNames = some [some key, description, args, flags] ∧
      args.mapM (fun p => ArgSpec.listOfDocument? .settled p.val) = some a ∧
      flags.mapM (fun p => listOfDocument? p.val) = some f := by
  rw [memberOfDocument?] at h
  obtain ⟨slots, hslots, h⟩ := Option.bind_eq_some_iff.1 h
  split at h
  · simp only [Option.bind_eq_bind, Option.bind_eq_some_iff] at h
    obtain ⟨_, -, _, -, a, ha, f, hf, -⟩ := h
    exact ⟨_, _, _, _, a, f, hslots, ha, hf⟩
  · cases h

namespace FlagEntry

variable {entry : FlagEntry}

/-- An entry with a field that only flags have is read as a flag. -/
theorem asFlag?_of_field {i : Nat} (he : ofDocument? d = some entry)
    (h : d.HasField .settled flagNames i v) (hi : groupNames.length ≤ i) :
    asFlag? d = some entry := by
  rcases ofDocument?_cases he with hg | hf
  · obtain ⟨_, _, _, _, hslots, -⟩ := slots_of_asGroup? hg
    obtain ⟨hlen, hplaces⟩ := Document.slots?_eq_some hslots
    obtain ⟨p, hp, -⟩ := (hplaces i v).2
      (h.of_usesOnly (fun _ hf hg => names_disjoint hg hf) (Document.usesOnly_of_slots? hslots))
    have hlt := (List.getElem?_eq_some_iff.1 hp).1
    omega
  · exact hf

/-- An entry with members is read as a group, since a policy is no list. -/
theorem asGroup?_of_members {list : Document} (he : ofDocument? d = some entry)
    (h : d.HasField .settled groupNames 1 list) (hi : list.HasItem v) :
    asGroup? d = some entry := by
  rcases ofDocument?_cases he with hg | hf
  · exact hg
  · obtain ⟨_, policy, _, _, _, _, _, _, hslots, hp, -⟩ := slots_of_asFlag? hf
    obtain ⟨p, hread⟩ :=
      (h.of_usesOnly names_disjoint (Document.usesOnly_of_slots? hslots)).exists_read hslots rfl hp
    obtain ⟨items, hitems, q, hq, -⟩ := hi
    rcases Policy.items?_cases hread with hnone | ⟨hnil, -⟩
    · cases hitems.symm.trans hnone
    · cases hitems.symm.trans hnil
      cases hq

end FlagEntry

/-! ## Every object is read -/

namespace Document.Object

theorem argument_read {kind : ObjectKind} {names : List String} {list : Document}
    (h : kind.Reads r e) (hn : names ∈ kind.vocabularies) (hl : e.HasNamed r names "args" list)
    (hi : list.HasItem v) : ObjectKind.argument.Reads r v := by
  obtain ⟨hmem, hfield⟩ := hl
  suffices h : ∃ as, ArgSpec.listOfDocument? r list = some as by
    obtain ⟨as, has⟩ := h
    exact hi.exists_read has
  cases kind with
  | grammar =>
    obtain rfl := List.mem_singleton.1 hn
    obtain ⟨g, hg⟩ := h
    obtain ⟨_, _, args, _, a, _, hslots, ha, -⟩ := Grammar.slots_of_ofDocument? hg
    exact hfield.exists_read hslots rfl ha
  | entry =>
    obtain ⟨rfl, entry, he⟩ := h
    obtain rfl | hn := List.mem_cons.1 hn
    · exact absurd hmem (by decide)
    obtain rfl := List.mem_singleton.1 hn
    have hflag := FlagEntry.asFlag?_of_field he hfield (by decide)
    obtain ⟨_, _, _, args, _, _, a, _, hslots, -, ha, -⟩ := FlagEntry.slots_of_asFlag? hflag
    exact hfield.exists_read hslots rfl ha
  | member =>
    obtain ⟨rfl, spec, hspec⟩ := h
    obtain rfl := List.mem_singleton.1 hn
    obtain ⟨_, _, args, _, a, _, hslots, ha, -⟩ := FlagEntry.slots_of_memberOfDocument? hspec
    exact hfield.exists_read hslots rfl ha
  | argument =>
    obtain rfl := List.mem_singleton.1 hn
    exact absurd hmem (by decide)
  | converter => exact absurd hn List.not_mem_nil

theorem entry_read {kind : ObjectKind} {names : List String} {list : Document}
    (h : kind.Reads r e) (hk : kind = .entry ∨ kind = .member) (hn : names ∈ kind.vocabularies)
    (hl : e.HasNamed r names "flags" list) (hi : list.HasItem v) :
    ObjectKind.entry.Reads r v := by
  obtain ⟨hmem, hfield⟩ := hl
  suffices h : r = .settled ∧ ∃ es, FlagEntry.listOfDocument? list = some es by
    obtain ⟨hr, es, hes⟩ := h
    rw [FlagEntry.listOfDocument?] at hes
    exact ⟨hr, hi.exists_read hes⟩
  obtain rfl | rfl := hk
  · obtain ⟨rfl, entry, he⟩ := h
    obtain rfl | hn := List.mem_cons.1 hn
    · exact absurd hmem (by decide)
    obtain rfl := List.mem_singleton.1 hn
    have hflag := FlagEntry.asFlag?_of_field he hfield (by decide)
    obtain ⟨_, _, _, _, flags, _, _, f, hslots, -, -, hf, -⟩ := FlagEntry.slots_of_asFlag? hflag
    exact ⟨rfl, hfield.exists_read hslots rfl hf⟩
  · obtain ⟨rfl, spec, hspec⟩ := h
    obtain rfl := List.mem_singleton.1 hn
    obtain ⟨_, _, _, flags, _, f, hslots, -, hf⟩ := FlagEntry.slots_of_memberOfDocument? hspec
    exact ⟨rfl, hfield.exists_read hslots rfl hf⟩

theorem member_read {list : Document} (h : ObjectKind.entry.Reads r e)
    (hl : e.HasNamed r FlagEntry.groupNames "members" list) (hi : list.HasItem v) :
    ObjectKind.member.Reads r v := by
  obtain ⟨-, hfield⟩ := hl
  obtain ⟨rfl, entry, he⟩ := h
  have hgroup := FlagEntry.asGroup?_of_members he hfield hi
  obtain ⟨_, members, _, ms, hslots, -, hms, -⟩ := FlagEntry.slots_of_asGroup? hgroup
  obtain ⟨p, hp, rfl⟩ := ((Document.slots?_eq_some hslots).2 _ _).2 hfield
  obtain rfl : members = p := Option.some.inj (Option.some.inj hp)
  rw [FlagEntry.membersOfDocument?] at hms
  exact ⟨rfl, hi.exists_read hms⟩

theorem converter_read {c : Document} (h : ObjectKind.argument.Reads r e)
    (hc : e.HasNamed r ArgSpec.fieldNames "convert" c) : ObjectKind.converter.Reads r c := by
  obtain ⟨a, ha⟩ := h
  obtain ⟨_, _, _, converter, _, hslots, hread⟩ := ArgSpec.slots_of_ofDocument? ha
  exact hc.2.exists_read hslots rfl hread

theorem rootEntry_read {list item : Document} (h : ObjectKind.grammar.Reads rules d)
    (hl : d.HasNamed rules Grammar.fieldNames "flags" list) (hi : list.HasItem item)
    (hs : item.settle = some e) : ObjectKind.entry.Reads .settled e := by
  obtain ⟨g, hg⟩ := h
  obtain ⟨_, _, _, flags, _, f, hslots, -, hf⟩ := Grammar.slots_of_ofDocument? hg
  obtain ⟨es, hes⟩ := hl.2.exists_read hslots rfl hf
  obtain ⟨entry, hentry⟩ :=
    hi.exists_read (f := fun v => v.settle.bind FlagEntry.ofDocument?) hes
  rw [hs, Option.bind_some] at hentry
  exact ⟨rfl, entry, hentry⟩

/-- Where a grammar is read, every object in it is. -/
theorem reads {kind : ObjectKind} (hd : ObjectKind.grammar.Reads rules d)
    (h : Object rules d kind r e) : kind.Reads r e := by
  induction h with
  | root => exact hd
  | rootEntry hl hi hs => exact rootEntry_read hd hl hi hs
  | argument _ hn hl hi ih => exact argument_read ih hn hl hi
  | entry _ hk hn hl hi ih => exact entry_read ih hk hn hl hi
  | member _ hl hi ih => exact member_read ih hl hi
  | converter _ hc ih => exact converter_read ih hc

end Document.Object

/-- An object that is read uses the names of one of its vocabularies only, unless it is a
converter. -/
theorem ObjectKind.Reads.usesOnly {kind : ObjectKind} (h : kind.Reads r e)
    (hk : kind ≠ .converter) :
    ∃ names ∈ kind.vocabularies, e.UsesOnly r names := by
  cases kind with
  | grammar =>
    obtain ⟨g, hg⟩ := h
    obtain ⟨_, _, _, _, _, _, hslots, -⟩ := Grammar.slots_of_ofDocument? hg
    exact ⟨_, List.mem_singleton_self _, Document.usesOnly_of_slots? hslots⟩
  | entry =>
    obtain ⟨rfl, entry, he⟩ := h
    rcases FlagEntry.ofDocument?_cases he with hg | hf
    · obtain ⟨_, _, _, _, hslots, -⟩ := FlagEntry.slots_of_asGroup? hg
      exact ⟨_, List.mem_cons_self, Document.usesOnly_of_slots? hslots⟩
    · obtain ⟨_, _, _, _, _, _, _, _, hslots, -⟩ := FlagEntry.slots_of_asFlag? hf
      exact ⟨_, List.mem_cons_of_mem _ (List.mem_singleton_self _),
        Document.usesOnly_of_slots? hslots⟩
  | member =>
    obtain ⟨rfl, spec, hspec⟩ := h
    obtain ⟨_, _, _, _, _, _, hslots, -⟩ := FlagEntry.slots_of_memberOfDocument? hspec
    exact ⟨_, List.mem_singleton_self _, Document.usesOnly_of_slots? hslots⟩
  | argument =>
    obtain ⟨a, ha⟩ := h
    obtain ⟨_, _, _, _, _, hslots, -⟩ := ArgSpec.slots_of_ofDocument? ha
    exact ⟨_, List.mem_singleton_self _, Document.usesOnly_of_slots? hslots⟩
  | converter => exact absurd rfl hk

/-! ## Settings of converters -/

namespace Document

theorem fill_map (rules : Rules) (strict : Bool) (names : List String) (f : α → β) :
    ∀ (fields : List (Document × α)) (slots : List (Option α)),
      fill rules strict names (slots.map (·.map f)) (fields.map fun x => (x.1, f x.2)) =
        (fill rules strict names slots fields).map (·.map (·.map f))
  | [], _ => rfl
  | (k, a) :: fields, slots => by
    rw [List.map_cons, fill, fill]
    rcases meaning? rules names k with _ | i | _
    · rfl
    · dsimp only
      rw [List.getElem?_map]
      rcases slots[i]? with _ | _ | b
      · rfl
      · simp only [Option.map_some, Option.map_none, ← fill_map rules strict names f fields,
          List.map_set]
      · rfl
    · dsimp only
      split
      · rfl
      · exact fill_map rules strict names f fields slots

/-- A lenient record passes over a name that it does not know. -/
theorem fill_insert {names : List String} {k : Document} {a : α} {after : List (Document × α)}
    (hk : meaning? rules names k = some .unknown) :
    ∀ (before : List (Document × α)) (slots : List (Option α)),
      fill rules false names slots (before ++ (k, a) :: after) =
        fill rules false names slots (before ++ after)
  | [], slots => by
    rw [List.nil_append, List.nil_append, fill, hk]
    rfl
  | (k', b) :: before, slots => by
    rw [List.cons_append, List.cons_append, fill, fill]
    simp only [fill_insert hk before]

/-- The values in the slots of a record. -/
theorem slots?_record_val (rules : Rules) (strict : Bool) (names : List String)
    (fields : List (Document × Document)) :
    ((record fields).slots? rules strict names).map (·.map (·.map Subtype.val)) =
      fill rules strict names (names.map fun _ => none) fields := by
  have h := fill_map rules strict names (Subtype.val : Part (record fields) → Document)
    (fields.attach.map fun x => (x.1.1, ⟨x.1.2, sizeOf_lt_record x.2⟩)) (names.map fun _ => none)
  rw [List.map_map, List.map_map] at h
  refine Eq.trans h.symm ?_
  exact congrArg (fill rules strict names _) (List.attach_map_subtype_val fields)

end Document

namespace Converter

/-- Bounds from the values of their settings. -/
def boundsOf (limit? : Document → Option (Option α)) :
    List (Option Document) → Option (Bounds α)
  | [min, max, minInclusive, maxInclusive] => do
    return {
      min := (← min.mapM limit?).join
      max := (← max.mapM limit?).join
      minInclusive := (← minInclusive.mapM Document.bool?).getD true
      maxInclusive := (← maxInclusive.mapM Document.bool?).getD true }
  | _ => none

theorem bounds?_record (limit? : Document → Option (Option α))
    (fields : List (Document × Document)) : bounds? limit? (.record fields) =
      (Document.fill .settled false boundNames (boundNames.map fun _ => none) fields).bind
        (boundsOf limit?) := by
  rw [← Document.slots?_record_val, Option.bind_map]
  refine Option.bind_congr fun slots _ => ?_
  rcases slots with _ | ⟨min, _ | ⟨max, _ | ⟨lo, _ | ⟨hi, _ | ⟨_, _⟩⟩⟩⟩⟩
  · rfl
  · rfl
  · rfl
  · rfl
  · cases min <;> cases max <;> cases lo <;> cases hi <;> rfl
  · rfl

theorem choice?_record (fields : List (Document × Document)) : choice? (.record fields) =
    (Document.fill .settled false ["values"] [none] fields).bind fun
      | [some values] => (textList? values).map choice
      | _ => none := by
  rw [← List.map_singleton (f := fun _ : String => (none : Option Document)) (a := "values"),
    ← Document.slots?_record_val, Option.bind_map]
  refine Option.bind_congr fun slots _ => ?_
  rcases slots with _ | ⟨_ | values, _ | ⟨_, _⟩⟩
  · rfl
  · rfl
  · rfl
  · exact Option.map_eq_bind.symm
  · rfl

/-- The names of the settings that a converter has, besides its type. -/
def settingNames : Converter → List String
  | integer _ | unsigned _ | number _ => boundNames
  | choice _ => ["values"]
  | text | existingFile | existingDirectory => []

theorem settingNames_of_choice? {c : Converter} (h : choice? d = some c) :
    c.settingNames = ["values"] := by
  obtain ⟨slots, -, h⟩ := Option.bind_eq_some_iff.1 h
  split at h
  · obtain ⟨values, -, h⟩ := Option.bind_eq_some_iff.1 h
    cases h
    rfl
  · cases h

variable {k w : Document} {name : String} {before after : List (Document × Document)}

theorem bounds?_insert (limit? : Document → Option (Option α)) (hn : name ∉ boundNames) :
    bounds? limit? (.record (before ++ (.text name, w) :: after)) =
      bounds? limit? (.record (before ++ after)) := by
  rw [bounds?_record, bounds?_record, Document.fill_insert (Document.meaning?_of_not_mem hn)]

theorem bounded_insert {limit? : Document → Option (Option α)} {f : Bounds α → Converter}
    {c : Converter} (hf : ∀ b, (f b).settingNames = boundNames) (hc : name ∉ c.settingNames)
    (h : ((bounds? limit? (.record (before ++ after))).bind fun b => some (f b)) = some c) :
    ((bounds? limit? (.record (before ++ (.text name, w) :: after))).bind fun b => some (f b)) =
      some c := by
  obtain ⟨b, -, hb⟩ := Option.bind_eq_some_iff.1 h
  rw [← Option.some.inj hb, hf] at hc
  rw [bounds?_insert limit? hc, h]

theorem choice?_insert (hn : name ∉ ["values"]) :
    choice? (.record (before ++ (.text name, w) :: after)) =
      choice? (.record (before ++ after)) := by
  rw [choice?_record, choice?_record, Document.fill_insert (Document.meaning?_of_not_mem hn)]

/-- Whether a setting, whose key is settled, is the type of the converter. -/
def isType : Document × Document → Bool
  | (.text "type", _) => true
  | _ => false

/-- The type of a converter and its other settings, once the keys are settled. -/
def splitKeyed? (rules : Rules) (keyed : List (Document × Document)) :
    Option (Document.Meaning × Document) :=
  match keyed.filter isType with
  | [(_, type)] => do
    let m ← Document.meaning? rules typeNames type
    let settings ← (keyed.filter (not ∘ isType)).mapM fun x => x.2.settle.map fun v => (x.1, v)
    return (m, .record settings)
  | _ => none

theorem split?_record (rules : Rules) (fields : List (Document × Document)) :
    split? rules (.record fields) =
      (fields.mapM fun (x : Document × Document) => x.1.settle.map fun k => (k, x.2)).bind
        (splitKeyed? rules) := by
  unfold split? untagged?
  simp only [Option.bind_eq_bind, Option.bind_some, List.partition_eq_filter_filter]
  refine Option.bind_congr fun keyed _ => ?_
  unfold splitKeyed?
  split
  · rename_i k type settings h
    obtain ⟨htype, hsettings⟩ := Prod.mk.inj h
    rw [show keyed.filter isType = [(k, type)] from htype,
      show keyed.filter (not ∘ isType) = settings from hsettings]
    rfl
  · rename_i hn
    split
    · rename_i k type htype
      exact absurd (congrArg (Prod.mk · _) htype) (hn k type _)
    · rfl

theorem mapM_insert {f : α → Option β} {before after : List α} {a : α} {b : β} {ys : List β}
    (ha : f a = some b) (h : (before ++ after).mapM f = some ys) :
    ∃ ys₁ ys₂, ys = ys₁ ++ ys₂ ∧ (before ++ a :: after).mapM f = some (ys₁ ++ b :: ys₂) := by
  simp only [List.mapM_append, Option.bind_eq_bind, Option.bind_eq_some_iff, Option.pure_def,
    Option.some.injEq] at h
  obtain ⟨ys₁, h₁, ys₂, h₂, rfl⟩ := h
  exact ⟨ys₁, ys₂, rfl, by simp [List.mapM_append, List.mapM_cons, h₁, h₂, ha]⟩

/-- One more setting is split off with the others. -/
theorem split?_insert {m : Document.Meaning} {settings : Document}
    (hk : k.settle = some (.text name)) (hv : v.settle = some w) (hn : name ≠ "type")
    (h : split? rules (.record (before ++ after)) = some (m, settings)) :
    ∃ before' after', settings = .record (before' ++ after') ∧
      split? rules (.record (before ++ (k, v) :: after)) =
        some (m, .record (before' ++ (.text name, w) :: after')) := by
  have hother : isType (.text name, v) = false := by
    unfold isType
    split
    · simp_all
    · rfl
  rw [split?_record] at h ⊢
  obtain ⟨keyed, hkeyed, h⟩ := Option.bind_eq_some_iff.1 h
  obtain ⟨keyed₁, keyed₂, rfl, hkeyed'⟩ :=
    mapM_insert (a := (k, v)) (b := (Document.text name, v)) (by simp [hk]) hkeyed
  rw [hkeyed', Option.bind_some]
  unfold splitKeyed? at h ⊢
  rw [List.filter_append] at h ⊢
  rw [List.filter_cons_of_neg (by simp [hother])]
  split at h
  · obtain ⟨m', hm, h⟩ := Option.bind_eq_some_iff.1 h
    obtain ⟨settings, hsettings, h⟩ := Option.bind_eq_some_iff.1 h
    cases h
    rw [List.filter_append] at hsettings ⊢
    rw [List.filter_cons_of_pos (by simp [hother])]
    obtain ⟨before', after', rfl, hsettings'⟩ :=
      mapM_insert (a := (Document.text name, v)) (b := (Document.text name, w)) (by simp [hv])
        hsettings
    refine ⟨before', after', rfl, ?_⟩
    rw [hm, hsettings']
    rfl
  · cases h

/-- A setting that a converter does not have is passed over, whatever its value. -/
theorem ofDocument?_insert {c : Converter} (hk : k.settle = some (.text name))
    (hv : v.settle = some w) (hn : name ≠ "type") (hc : name ∉ c.settingNames)
    (h : ofDocument? rules (.record (before ++ after)) = some c) :
    ofDocument? rules (.record (before ++ (k, v) :: after)) = some c := by
  rw [ofDocument?] at h ⊢
  obtain ⟨⟨m, settings⟩, hsplit, h⟩ := Option.bind_eq_some_iff.1 h
  obtain ⟨before', after', rfl, hsplit'⟩ := split?_insert hk hv hn hsplit
  rw [hsplit', Option.bind_eq_bind, Option.bind_some]
  dsimp only at h ⊢
  split at h
  · exact h
  · exact bounded_insert (fun _ => rfl) hc h
  · exact bounded_insert (fun _ => rfl) hc h
  · exact bounded_insert (fun _ => rfl) hc h
  · rw [settingNames_of_choice? h] at hc
    rw [choice?_insert hc, h]
  · exact h
  · exact h
  · cases h

end Converter

/-! ## What is refused -/

namespace Document

variable {names : List String} {name : String} {fields : List (String × Document)}
  {items : List Document}

theorem mem_fields_object (h : (name, v) ∈ fields) :
    ∃ p, (object fields).fields? = some p ∧ ∃ q, (text name, q) ∈ p ∧ q.val = v := by
  have hmem : (text name, v) ∈ fields.map fun x => (text x.1, x.2) := List.mem_map_of_mem h
  refine ⟨_, rfl, ⟨v, sizeOf_lt_record hmem⟩, ?_, rfl⟩
  exact List.mem_map.2 ⟨⟨_, hmem⟩, List.mem_attach _ _, rfl⟩

theorem hasNamed_object (rules : Rules) (h : (name, v) ∈ fields) (hn : name ∈ names) :
    (object fields).HasNamed rules names name v := by
  obtain ⟨p, hp, q, hq, hv⟩ := mem_fields_object h
  refine ⟨hn, ?_⟩
  unfold HasField
  rw [hp]
  exact ⟨text name, q, hq, meaning?_text hn, hv⟩

theorem hasItem_list (h : v ∈ items) : (list items).HasItem v := by
  obtain ⟨parts, hparts, hval⟩ := items?_list items
  rw [← hval, List.mem_map] at h
  exact ⟨parts, hparts, h⟩

theorem not_usesOnly_object (h : (name, v) ∈ fields) (hn : name ∉ names) :
    ¬(object fields).UsesOnly rules names := by
  intro hu
  obtain ⟨p, hp, q, hq, -⟩ := mem_fields_object h
  obtain ⟨i, hi⟩ := hu p hp _ q hq
  rw [Denotes, meaning?_of_not_mem hn] at hi
  cases hi

end Document

namespace Grammar

/-- An undeclared name in any object other than a converter makes the grammar unreadable. In a
converter it never does: the converter is read as if the setting were not there. -/
theorem undeclared_refused (rules : Rules) :
    (∀ d kind r e, Document.Object rules d kind r e → kind ≠ .converter →
        (∀ names ∈ kind.vocabularies, ¬e.UsesOnly r names) → ofDocument? rules d = none) ∧
      ∀ c before after k v name w, k.settle = some (.text name) → v.settle = some w →
        name ≠ "type" → name ∉ Converter.settingNames c →
        Converter.ofDocument? rules (.record (before ++ after)) = some c →
        Converter.ofDocument? rules (.record (before ++ (k, v) :: after)) = some c := by
  refine ⟨fun d kind r e h hk hn => ?_, fun c before after k v name w hk hv hne hc h =>
    Converter.ofDocument?_insert hk hv hne hc h⟩
  rcases hd : ofDocument? rules d with _ | g
  · rfl
  · obtain ⟨names, hnames, hu⟩ := (h.reads ⟨g, hd⟩).usesOnly hk
    exact absurd hu (hn names hnames)

/-- A member whose description is misspelt. -/
def misspeltMember : Document :=
  .object [("key", .text "-a"), ("descr", .text "Adds.")]

def misspeltGroup : Document :=
  .object [("exclusive", .text "optional"), ("members", .list [misspeltMember])]

theorem misspeltMember_refused :
    ofDocument? .typed (.object [("flags", .list [misspeltGroup])]) = none := by
  refine (undeclared_refused .typed).1 _ .member .settled misspeltMember ?_ (by decide) ?_
  · refine .member (e := misspeltGroup) ?_ ?_
      (Document.hasItem_list (List.mem_singleton_self misspeltMember))
    · exact .rootEntry (Document.hasNamed_object _ List.mem_cons_self (by decide))
        (Document.hasItem_list List.mem_cons_self) rfl
    · exact Document.hasNamed_object _ (List.mem_cons_of_mem _ List.mem_cons_self) (by decide)
  · intro names hnames
    obtain rfl := List.mem_singleton.1 hnames
    exact Document.not_usesOnly_object (List.mem_cons_of_mem _ List.mem_cons_self) (by decide)

/-- A converter whose upper bound is misspelt. -/
def misspeltInteger : Document :=
  .object [("type", .text "integer"), ("mx", .integer 3)]

def misspeltArg : Document :=
  .object [("name", .text "n"), ("convert", misspeltInteger)]

theorem misspeltInteger_read :
    Document.Object .typed (.object [("args", .list [misspeltArg])]) .converter .typed
        misspeltInteger ∧
      "mx" ∉ "type" :: "values" :: Converter.boundNames ∧
      ofDocument? .typed (.object [("args", .list [misspeltArg])]) =
        some { args := [⟨"n", .mandatory, "", .integer {}⟩] } := by
  refine ⟨.converter (e := misspeltArg) ?_ ?_, by decide, by cbv⟩
  · exact .argument .root (List.mem_singleton_self _)
      (Document.hasNamed_object _ List.mem_cons_self (by decide))
      (Document.hasItem_list List.mem_cons_self)
  · exact Document.hasNamed_object _ (List.mem_cons_of_mem _ List.mem_cons_self) (by decide)

end Grammar

end CommandGrammar
