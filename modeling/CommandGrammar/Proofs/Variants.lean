import Mathlib
import CommandGrammar.Proofs.Fitting
import CommandGrammar.Proofs.Slots

/-!
# Groups and flags are told apart

An entry is read as a group if it can be, else as a flag. Nothing can be read as both. The names of
their fields differ, so both could only read the same numbered fields, or the items of a list; and
then the members of the one are the policy of the other, but members are a list, and a policy is
none. So it does not matter which is tried first, for an entry or for any entry inside it.
-/

namespace CommandGrammar

open Document (HasField HasItem UsesOnly)

variable {α β : Type} {d v : Document} {i : Nat}

namespace Document

/-! ## Parts without tags -/

theorem isUntagged_of_mem {items : List Document} (h : areUntagged items = true) :
    ∀ v ∈ items, v.isUntagged = true := by
  induction items with
  | nil => simp
  | cons a items ih =>
    rw [areUntagged, Bool.and_eq_true] at h
    exact List.forall_mem_cons.2 ⟨h.1, ih h.2⟩

theorem isUntagged_of_mem_fields {fields : List (Document × Document)}
    (h : fieldsAreUntagged fields = true) : ∀ x ∈ fields, x.2.isUntagged = true := by
  induction fields with
  | nil => simp
  | cons x fields ih =>
    obtain ⟨k, v⟩ := x
    rw [fieldsAreUntagged, Bool.and_eq_true, Bool.and_eq_true] at h
    exact List.forall_mem_cons.2 ⟨h.1.2, ih h.2⟩

theorem HasItem.isUntagged (h : d.HasItem v) (hd : d.isUntagged = true) : v.isUntagged = true := by
  obtain ⟨items, hitems, p, hp, rfl⟩ := h
  unfold items? at hitems
  split at hitems
  · cases hitems
    obtain ⟨⟨w, hw⟩, -, rfl⟩ := List.mem_map.1 hp
    rw [isUntagged] at hd
    exact isUntagged_of_mem hd w hw
  · cases hd
  · split_ifs at hitems
    cases hitems
    cases hp

theorem HasField.isUntagged {rules : Rules} {names : List String} (h : d.HasField rules names i v)
    (hd : d.isUntagged = true) : v.isUntagged = true := by
  unfold HasField at h
  split at h
  · rename_i fields hf
    obtain ⟨k, p, hp, -, rfl⟩ := h
    unfold fields? at hf
    split at hf
    · cases hf
      obtain ⟨⟨⟨k', w⟩, hw⟩, -, heq⟩ := List.mem_map.1 hp
      cases heq
      rw [isUntagged] at hd
      exact isUntagged_of_mem_fields hd _ hw
    · cases hd
    · split_ifs at hf
      cases hf
      cases hp
  · obtain ⟨items, hitems, p, hp, rfl⟩ := h
    exact HasItem.isUntagged ⟨items, hitems, p, List.mem_of_getElem? hp, rfl⟩ hd

theorem slot_isUntagged {rules : Rules} {strict : Bool} {names : List String}
    {slots : List (Option (Part d))} {p : Part d} (h : d.slots? rules strict names = some slots)
    (hp : some p ∈ slots) (hd : d.isUntagged = true) : p.val.isUntagged = true := by
  obtain ⟨i, hi⟩ := List.mem_iff_getElem?.1 hp
  exact (((slots?_eq_some h).2 i p.val).1 ⟨p, hi, rfl⟩).isUntagged hd

theorem isUntagged_of_settleBare {style : ScalarStyle} {s : String}
    (h : Scalar.settleBare style s = some v) : v.isUntagged = true := by
  cases style with
  | plain =>
    rcases settlePlain_cases (show Scalar.settlePlain s = some v from h) with
      rfl | ⟨b, rfl, -⟩ | ⟨n, rfl⟩ | rfl | ⟨x, rfl⟩ | ⟨rfl, -⟩ <;> rfl
  | literal | quoted =>
    cases h
    rfl

theorem isUntagged_of_settleTagged {tag : Tag} {style : ScalarStyle} {s : String}
    (h : Scalar.settleTagged tag style s = some v) : v.isUntagged = true := by
  cases tag with
  | named => cases h
  | nameless => exact isUntagged_of_settleBare h
  | bool =>
    obtain ⟨b, -, rfl⟩ := Option.map_eq_some_iff.1 h
    rfl
  | integer =>
    obtain ⟨n, -, rfl⟩ := Option.map_eq_some_iff.1 h
    unfold Scalar.settleInteger
    split <;> rfl
  | number =>
    obtain ⟨x, -, rfl⟩ := Option.map_eq_some_iff.1 h
    rfl
  | null =>
    unfold Scalar.settleTagged at h
    split_ifs at h
    cases h
    rfl
  | other =>
    cases h
    rfl

mutual

/-- What a document settles to has no tags. -/
theorem isUntagged_of_settle : ∀ (d : Document) {v : Document}, d.settle = some v →
    v.isUntagged = true
  | written style s, v, h => by
    rw [settle] at h
    exact isUntagged_of_settleBare h
  | list items, v, h => by
    rw [settle] at h
    obtain ⟨vs, hvs, rfl⟩ := Option.map_eq_some_iff.1 h
    rw [isUntagged]
    exact areUntagged_of_settleAll items hvs
  | record fields, v, h => by
    rw [settle] at h
    obtain ⟨vs, hvs, rfl⟩ := Option.map_eq_some_iff.1 h
    rw [isUntagged]
    exact areUntagged_of_settleFields fields hvs
  | tagged tag d, v, h => by
    by_cases hw : ∃ style s, d = written style s
    · obtain ⟨style, s, rfl⟩ := hw
      rw [settle] at h
      exact isUntagged_of_settleTagged h
    · rw [settle] at h
      · split_ifs at h
        exact isUntagged_of_settle d h
      · exact fun style s hd => hw ⟨style, s, hd⟩
  | null, v, h | bool _, v, h | integer _, v, h | minusZero, v, h | number _, v, h
  | text _, v, h => by
    cases h
    rfl

theorem areUntagged_of_settleAll : ∀ (ds : List Document) {vs : List Document},
    settleAll ds = some vs → areUntagged vs = true
  | [], vs, h => by
    cases h
    rfl
  | d :: ds, vs, h => by
    simp only [settleAll, Option.bind_eq_bind, Option.bind_eq_some_iff, Option.pure_def,
      Option.some.injEq] at h
    obtain ⟨v, hv, vs', hvs, rfl⟩ := h
    rw [areUntagged, Bool.and_eq_true]
    exact ⟨isUntagged_of_settle d hv, areUntagged_of_settleAll ds hvs⟩

theorem areUntagged_of_settleFields : ∀ (fs : List (Document × Document))
    {gs : List (Document × Document)}, settleFields fs = some gs → fieldsAreUntagged gs = true
  | [], gs, h => by
    cases h
    rfl
  | (k, v) :: fs, gs, h => by
    simp only [settleFields, Option.bind_eq_bind, Option.bind_eq_some_iff, Option.pure_def,
      Option.some.injEq] at h
    obtain ⟨k', hk, v', hv, gs', hgs, rfl⟩ := h
    rw [fieldsAreUntagged, Bool.and_eq_true, Bool.and_eq_true]
    exact ⟨⟨isUntagged_of_settle k hk, isUntagged_of_settle v hv⟩,
      areUntagged_of_settleFields fs hgs⟩

end

end Document

namespace Policy

/-- A policy is no list; only a tag can make it look like an empty one. -/
theorem items?_cases {rules : Document.Rules} {p : Policy} (h : ofDocument? rules d = some p) :
    d.items? = none ∨ d.items? = some [] ∧ d.isUntagged = false := by
  unfold Document.items?
  split
  · cases h
  · cases h
  · split_ifs with hb
    · right
      refine ⟨rfl, ?_⟩
      unfold Document.isBlank at hb
      split at hb
      · cases h
      · rfl
      · cases hb
    · exact .inl rfl

end Policy

namespace FlagEntry

/-! ## Both orders -/

mutual

/-- A settled entry, if `flagFirst` tells for each entry what it is tried as first. -/
def readBy (flagFirst : Document → Bool) (d : Document) : Option FlagEntry :=
  if flagFirst d then (asFlagBy flagFirst d).or (asGroupBy flagFirst d)
  else (asGroupBy flagFirst d).or (asFlagBy flagFirst d)
termination_by (sizeOf d, 1)

def asGroupBy (flagFirst : Document → Bool) (d : Document) : Option FlagEntry := do
  match ← d.slots? .settled true groupNames with
  | [some policy, some members] =>
    return group (← Policy.ofDocument? .settled policy.val) (← membersBy flagFirst members.val)
  | _ => none
termination_by (sizeOf d, 0)
decreasing_by exact .left _ _ members.property

def asFlagBy (flagFirst : Document → Bool) (d : Document) : Option FlagEntry := do
  match ← d.slots? .settled true flagNames with
  | [some key, policy, description, args, flags] =>
    return flag ((← policy.mapM fun d => Policy.ofDocument? .settled d.val).getD .mandatory)
      ⟨← key.val.text?,
        (← description.mapM fun d => d.val.text?).getD "",
        (← args.mapM fun d => ArgSpec.listOfDocument? .settled d.val).getD [],
        (← flags.mapM fun d => entriesBy flagFirst d.val).getD []⟩
  | _ => none
termination_by (sizeOf d, 0)
decreasing_by exact .left _ _ d.property

def memberBy (flagFirst : Document → Bool) (d : Document) : Option FlagSpec := do
  match ← d.slots? .settled true memberNames with
  | [some key, description, args, flags] =>
    return ⟨← key.val.text?,
      (← description.mapM fun d => d.val.text?).getD "",
      (← args.mapM fun d => ArgSpec.listOfDocument? .settled d.val).getD [],
      (← flags.mapM fun d => entriesBy flagFirst d.val).getD []⟩
  | _ => none
termination_by (sizeOf d, 0)
decreasing_by exact .left _ _ d.property

def membersBy (flagFirst : Document → Bool) (d : Document) : Option (List FlagSpec) :=
  d.items?.bind fun items => items.mapM fun i => memberBy flagFirst i.val
termination_by (sizeOf d, 0)
decreasing_by exact .left _ _ i.property

def entriesBy (flagFirst : Document → Bool) (d : Document) : Option (List FlagEntry) :=
  d.items?.bind fun items => items.mapM fun i => readBy flagFirst i.val
termination_by (sizeOf d, 0)
decreasing_by exact .left _ _ i.property

end

/-! ## What is read -/

theorem slots_of_asGroup? {e : FlagEntry} (h : asGroup? d = some e) :
    ∃ policy members p ms, d.slots? .settled true groupNames = some [some policy, some members] ∧
      Policy.ofDocument? .settled policy.val = some p ∧
      membersOfDocument? members.val = some ms ∧ e = .group p ms := by
  rw [asGroup?] at h
  obtain ⟨slots, hslots, h⟩ := Option.bind_eq_some_iff.1 h
  split at h
  · simp only [Option.bind_eq_bind, Option.bind_eq_some_iff] at h
    obtain ⟨p, hp, ms, hms, h⟩ := h
    cases h
    exact ⟨_, _, p, ms, hslots, hp, hms, rfl⟩
  · cases h

theorem slots_of_asFlag? {e : FlagEntry} (h : asFlag? d = some e) :
    ∃ key policy description args flags p a f,
      d.slots? .settled true flagNames = some [some key, policy, description, args, flags] ∧
      policy.mapM (fun d => Policy.ofDocument? .settled d.val) = some p ∧
      args.mapM (fun d => ArgSpec.listOfDocument? .settled d.val) = some a ∧
      flags.mapM (fun d => listOfDocument? d.val) = some f ∧
      ∃ spec, e = .flag (p.getD .mandatory) spec := by
  rw [asFlag?] at h
  obtain ⟨slots, hslots, h⟩ := Option.bind_eq_some_iff.1 h
  split at h
  · simp only [Option.bind_eq_bind, Option.bind_eq_some_iff] at h
    obtain ⟨p, hp, _, -, _, -, a, ha, f, hf, h⟩ := h
    cases h
    exact ⟨_, _, _, _, _, p, a, f, hslots, hp, ha, hf, _, rfl⟩
  · cases h

theorem names_disjoint : groupNames.Disjoint flagNames :=
  List.disjoint_left.2 (by decide)

/-- Nothing without tags is both a group and a flag. -/
theorem asGroup?_or_asFlag? (hd : d.isUntagged = true) : asGroup? d = none ∨ asFlag? d = none := by
  rcases hg : asGroup? d with _ | e
  · exact .inl rfl
  · rcases hf : asFlag? d with _ | e'
    · exact .inr rfl
    · exfalso
      obtain ⟨_, members, _, ms, hgroup, -, hms, -⟩ := slots_of_asGroup? hg
      obtain ⟨_, policy, _, _, _, p, _, _, hflag, hp, -⟩ := slots_of_asFlag? hf
      -- the members of the group are what the flag has for a policy
      have hplace := ((Document.slots?_eq_some hgroup).2 1 members.val).1 ⟨members, rfl, rfl⟩
      obtain ⟨q, hq, hval⟩ := ((Document.slots?_eq_some hflag).2 1 members.val).2
        (hplace.of_usesOnly names_disjoint (Document.usesOnly_of_slots? hflag))
      obtain rfl : policy = some q := Option.some.inj hq
      obtain ⟨p', hp', -⟩ := Option.map_eq_some_iff.1 hp
      rw [membersOfDocument?, ← hval] at hms
      rcases Policy.items?_cases hp' with hnone | ⟨-, htag⟩
      · rw [hnone] at hms
        cases hms
      · rw [Document.slot_isUntagged hflag (List.mem_of_getElem? hq) hd] at htag
        cases htag

theorem or_comm_of_none {a b : Option α} (h : a = none ∨ b = none) : a.or b = b.or a := by
  rcases h with rfl | rfl <;> simp

mutual

theorem readBy_eq (flagFirst : Document → Bool) (d : Document) (hd : d.isUntagged = true) :
    readBy flagFirst d = ofDocument? d := by
  have hor : ofDocument? d = (asGroup? d).or (asFlag? d) := by
    rw [ofDocument?]
    rcases asGroup? d <;> rfl
  rw [readBy, asGroupBy_eq flagFirst d hd, asFlagBy_eq flagFirst d hd, hor,
    or_comm_of_none (asGroup?_or_asFlag? hd), ite_self]
termination_by (sizeOf d, 1)

theorem asGroupBy_eq (flagFirst : Document → Bool) (d : Document) (hd : d.isUntagged = true) :
    asGroupBy flagFirst d = asGroup? d := by
  rw [asGroupBy, asGroup?]
  refine Option.bind_congr fun slots hslots => ?_
  rcases slots with _ | ⟨_ | policy, _ | ⟨_ | members, _ | ⟨_, _⟩⟩⟩ <;> try rfl
  have hm : members.val.isUntagged = true := Document.slot_isUntagged hslots (by simp) hd
  have := members.property
  dsimp only
  rw [membersBy_eq flagFirst members.val hm]
termination_by (sizeOf d, 0)

theorem asFlagBy_eq (flagFirst : Document → Bool) (d : Document) (hd : d.isUntagged = true) :
    asFlagBy flagFirst d = asFlag? d := by
  rw [asFlagBy, asFlag?]
  refine Option.bind_congr fun slots hslots => ?_
  rcases slots with
    _ | ⟨_ | key, _ | ⟨policy, _ | ⟨description, _ | ⟨args, _ | ⟨flags, _ | ⟨_, _⟩⟩⟩⟩⟩⟩ <;> try rfl
  have hflags : ∀ f, flags = some f → entriesBy flagFirst f.val = listOfDocument? f.val := by
    rintro f rfl
    have := f.property
    exact entriesBy_eq flagFirst f.val (Document.slot_isUntagged hslots (by simp) hd)
  dsimp only
  rw [Document.slot_congr hflags]
termination_by (sizeOf d, 0)

theorem memberBy_eq (flagFirst : Document → Bool) (d : Document) (hd : d.isUntagged = true) :
    memberBy flagFirst d = memberOfDocument? d := by
  rw [memberBy, memberOfDocument?]
  refine Option.bind_congr fun slots hslots => ?_
  rcases slots with
    _ | ⟨_ | key, _ | ⟨description, _ | ⟨args, _ | ⟨flags, _ | ⟨_, _⟩⟩⟩⟩⟩ <;> try rfl
  have hflags : ∀ f, flags = some f → entriesBy flagFirst f.val = listOfDocument? f.val := by
    rintro f rfl
    have := f.property
    exact entriesBy_eq flagFirst f.val (Document.slot_isUntagged hslots (by simp) hd)
  dsimp only
  rw [Document.slot_congr hflags]
termination_by (sizeOf d, 0)

theorem membersBy_eq (flagFirst : Document → Bool) (d : Document) (hd : d.isUntagged = true) :
    membersBy flagFirst d = membersOfDocument? d := by
  rw [membersBy, membersOfDocument?]
  refine Document.items?_congr fun v hv => ?_
  have := hv.sizeOf_lt
  exact memberBy_eq flagFirst v (hv.isUntagged hd)
termination_by (sizeOf d, 0)

theorem entriesBy_eq (flagFirst : Document → Bool) (d : Document) (hd : d.isUntagged = true) :
    entriesBy flagFirst d = listOfDocument? d := by
  rw [entriesBy, listOfDocument?]
  refine Document.items?_congr fun v hv => ?_
  have := hv.sizeOf_lt
  exact readBy_eq flagFirst v (hv.isUntagged hd)
termination_by (sizeOf d, 0)

end

/-- A settled entry is a group or a flag, never both, and it is read as the same in whatever order
these are tried, for the entry itself and for each of those inside it. -/
theorem read_unambiguous (hd : d.isUntagged = true) :
    (asGroup? d = none ∨ asFlag? d = none) ∧
      (∀ flagFirst, readBy flagFirst d = ofDocument? d) ∧
      ∀ e, ofDocument? d = some e →
        ((∃ policy members, e = .group policy members) ↔ asFlag? d = none) := by
  refine ⟨asGroup?_or_asFlag? hd, fun flagFirst => readBy_eq flagFirst d hd, fun e he => ?_⟩
  rcases ofDocument?_cases he with hg | hf
  · obtain ⟨_, _, p, ms, -, -, -, rfl⟩ := slots_of_asGroup? hg
    refine iff_of_true ⟨p, ms, rfl⟩ ?_
    rcases asGroup?_or_asFlag? hd with hnone | hnone
    · rw [hg] at hnone
      cases hnone
    · exact hnone
  · obtain ⟨_, _, _, _, _, p, _, _, -, -, -, -, spec, rfl⟩ := slots_of_asFlag? hf
    refine iff_of_false ?_ (by rw [hf]; simp)
    rintro ⟨_, _, heq⟩
    cases heq

/-- Two items: the key and the policy of a flag, or the policy and the members of a group. -/
def pair : Document :=
  .list [.text "optional", .list [.list [.text "mandatory"], .list [.text "-x", .text "Less."]]]

theorem pair_read_unambiguous : pair.isUntagged = true ∧ asFlag? pair = none ∧
    ∀ flagFirst, readBy flagFirst pair =
      some (.group .optional [⟨"mandatory", "", [], []⟩, ⟨"-x", "Less.", [], []⟩]) := by
  have hread : ofDocument? pair =
      some (.group .optional [⟨"mandatory", "", [], []⟩, ⟨"-x", "Less.", [], []⟩]) := by cbv
  obtain ⟨-, horder, hgroup⟩ := read_unambiguous (d := pair) rfl
  exact ⟨rfl, (hgroup _ hread).1 ⟨_, _, rfl⟩, fun flagFirst => (horder flagFirst).trans hread⟩

end FlagEntry

namespace Grammar

/-- The entries of the root are read alike in either order, too. -/
theorem entriesOfDocument?_eq (flagFirst : Document → Bool) (d : Document) :
    entriesOfDocument? d = d.items?.bind fun items => items.mapM fun i =>
      i.val.settle.bind (FlagEntry.readBy flagFirst) := by
  unfold entriesOfDocument?
  refine Document.items?_congr (f := fun v => v.settle.bind FlagEntry.ofDocument?)
    (g := fun v => v.settle.bind (FlagEntry.readBy flagFirst)) fun v _ => ?_
  refine Option.bind_congr fun w hw => ?_
  exact (FlagEntry.readBy_eq flagFirst w (Document.isUntagged_of_settle v hw)).symm

end Grammar

end CommandGrammar
