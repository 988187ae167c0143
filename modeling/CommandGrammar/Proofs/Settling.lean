import CommandGrammar.Document.Fields
import CommandGrammar.Document.Scalar
import Mathlib.Data.List.Forall2
import Mathlib.Logic.Function.Basic

/-!
# Documents that settle

An untagged document settles to another one if its scalars, as they are written, have the types of
the other. What a notation reads back from a text is of that kind, and so is a document that has all
its types. A scalar that settles to a text or a truth value is read as that, a list as the list of
what its items settle to, and a record has the values that the other one has under its names.
-/

namespace CommandGrammar.Document

mutual

def isUntagged : Document → Bool
  | tagged _ _ => false
  | list items => areUntagged items
  | record fields => fieldsAreUntagged fields
  | _ => true

def areUntagged : List Document → Bool
  | [] => true
  | d :: ds => d.isUntagged && areUntagged ds

def fieldsAreUntagged : List (Document × Document) → Bool
  | [] => true
  | (k, v) :: rest => k.isUntagged && v.isUntagged && fieldsAreUntagged rest

end

structure Settles (d v : Document) : Prop where
  untagged : d.isUntagged = true
  settle : d.settle = some v

variable {d v : Document} {s : String} {vs : List Document} {rules : Rules} {strict : Bool}
  {names : List String}

section Scalars

/-- A plain scalar is nothing, or a text or truth value that it spells, or a number. -/
theorem settlePlain_cases (h : Scalar.settlePlain s = some v) :
    v = null ∨ (∃ b, v = bool b ∧ Scalar.bool? s = some b) ∨ (∃ n, v = integer n) ∨
      v = minusZero ∨ (∃ x, v = number x) ∨
        v = text s ∧ (s.isEmpty || Scalar.isNull s) = false := by
  unfold Scalar.settlePlain at h
  split at h
  · cases h
    exact .inl rfl
  · rename_i hn
    rw [Bool.not_eq_true] at hn
    split at h
    · rename_i b hb
      cases h
      exact .inr (.inl ⟨b, rfl, hb⟩)
    · split at h
      · split at h
        · cases h
          unfold Scalar.settleInteger
          split_ifs
          · exact .inr (.inr (.inr (.inl rfl)))
          · exact .inr (.inr (.inl ⟨_, rfl⟩))
        · cases h
      · split at h
        · cases h
          exact .inr (.inr (.inr (.inr (.inl ⟨_, rfl⟩))))
        · cases h
          exact .inr (.inr (.inr (.inr (.inr ⟨rfl, hn⟩))))

theorem Settles.of_text (h : d.Settles (text s)) : d = text s ∨ ∃ style, d = written style s ∧
    (style = .plain → (s.isEmpty || Scalar.isNull s) = false) := by
  obtain ⟨hu, h⟩ := h
  cases d with
  | text s' =>
    cases h
    exact .inl rfl
  | written style s' =>
    right
    cases style with
    | plain =>
      have hc := settlePlain_cases (show Scalar.settlePlain s' = some (text s) from h)
      simp only [reduceCtorEq, false_and, exists_false, false_or, text.injEq] at hc
      obtain ⟨rfl, hn⟩ := hc
      exact ⟨.plain, rfl, fun _ => hn⟩
    | literal | quoted =>
      cases h
      exact ⟨_, rfl, by simp⟩
  | tagged => cases hu
  | list items => simp [Document.settle] at h
  | record fields => simp [Document.settle] at h
  | null | bool | integer | minusZero | number => simp [Document.settle] at h

theorem Settles.text? (h : d.Settles (text s)) : d.text? = some s := by
  rcases h.of_text with rfl | ⟨style, rfl, -⟩ <;> rfl

theorem Settles.meaning?_eq (h : d.Settles (text s)) :
    meaning? rules names d = meaning? rules names (text s) := by
  rcases h.of_text with rfl | ⟨style, rfl, -⟩ <;> rfl

theorem Settles.of_bool {b : Bool} (h : d.Settles (bool b)) :
    d = bool b ∨ ∃ s, d = written .plain s ∧ Scalar.bool? s = some b := by
  obtain ⟨hu, h⟩ := h
  cases d with
  | bool b' =>
    cases h
    exact .inl rfl
  | written style s =>
    cases style with
    | plain =>
      have hc := settlePlain_cases (show Scalar.settlePlain s = some (bool b) from h)
      simp only [reduceCtorEq, bool.injEq, exists_eq_left', exists_false, false_and, false_or,
        or_false] at hc
      exact .inr ⟨s, rfl, hc⟩
    | literal | quoted => cases h
  | tagged => cases hu
  | list items => simp [Document.settle] at h
  | record fields => simp [Document.settle] at h
  | null | text | integer | minusZero | number => simp [Document.settle] at h

theorem written_not_settles {style : ScalarStyle} (h : (written style s).settle = some v) :
    (∀ items, v ≠ list items) ∧ ∀ fields, v ≠ record fields := by
  cases style with
  | plain =>
    rcases settlePlain_cases (show Scalar.settlePlain s = some v from h) with
      rfl | ⟨b, rfl, -⟩ | ⟨n, rfl⟩ | rfl | ⟨x, rfl⟩ | ⟨rfl, -⟩ <;> simp
  | literal | quoted =>
    cases h
    simp

end Scalars

section Containers

theorem settleAll_forall₂ : ∀ {ds vs : List Document}, areUntagged ds = true →
    settleAll ds = some vs → List.Forall₂ Settles ds vs
  | [], vs, _, h => by
    cases h
    exact .nil
  | d :: ds, vs, hu, h => by
    rw [areUntagged, Bool.and_eq_true] at hu
    simp only [settleAll, Option.bind_eq_bind, Option.bind_eq_some_iff, Option.pure_def,
      Option.some.injEq] at h
    obtain ⟨v, hv, vs', hvs, rfl⟩ := h
    exact .cons ⟨hu.1, hv⟩ (settleAll_forall₂ hu.2 hvs)

/-- The keys and values of a record settle to those of another one. -/
abbrev FieldSettles (x y : Document × Document) : Prop := x.1.Settles y.1 ∧ x.2.Settles y.2

theorem settleFields_forall₂ : ∀ {fs gs : List (Document × Document)},
    fieldsAreUntagged fs = true → settleFields fs = some gs → List.Forall₂ FieldSettles fs gs
  | [], gs, _, h => by
    cases h
    exact .nil
  | (k, v) :: fs, gs, hu, h => by
    rw [fieldsAreUntagged, Bool.and_eq_true, Bool.and_eq_true] at hu
    simp only [settleFields, Option.bind_eq_bind, Option.bind_eq_some_iff, Option.pure_def,
      Option.some.injEq] at h
    obtain ⟨k', hk, v', hv, gs', hgs, rfl⟩ := h
    exact .cons ⟨⟨hu.1.1, hk⟩, hu.1.2, hv⟩ (settleFields_forall₂ hu.2 hgs)

theorem Settles.of_list (h : d.Settles (list vs)) :
    ∃ ds, d = list ds ∧ List.Forall₂ Settles ds vs := by
  obtain ⟨hu, h⟩ := h
  cases d with
  | list items =>
    simp only [Document.settle, Option.map_eq_some_iff, list.injEq] at h
    obtain ⟨_, h, rfl⟩ := h
    exact ⟨items, rfl, settleAll_forall₂ hu h⟩
  | written style s => exact absurd rfl ((written_not_settles h).1 vs)
  | tagged => cases hu
  | record fields => simp [Document.settle] at h
  | null | bool | integer | minusZero | number | text => simp [Document.settle] at h

theorem Settles.of_record {gs : List (Document × Document)} (h : d.Settles (record gs)) :
    ∃ fs, d = record fs ∧ List.Forall₂ FieldSettles fs gs := by
  obtain ⟨hu, h⟩ := h
  cases d with
  | record fields =>
    simp only [Document.settle, Option.map_eq_some_iff, record.injEq] at h
    obtain ⟨_, h, rfl⟩ := h
    exact ⟨fields, rfl, settleFields_forall₂ hu h⟩
  | written style s => exact absurd rfl ((written_not_settles h).2 gs)
  | tagged => cases hu
  | list items => simp [Document.settle] at h
  | null | bool | integer | minusZero | number | text => simp [Document.settle] at h

theorem settles_text (s : String) : (text s).Settles (text s) := ⟨rfl, rfl⟩

theorem settles_list {items : List Document} (h : ∀ d ∈ items, d.Settles d) :
    (list items).Settles (list items) := by
  have hall : areUntagged items = true ∧ settleAll items = some items := by
    induction items with
    | nil => exact ⟨rfl, rfl⟩
    | cons d ds ih =>
      obtain ⟨hd, hds⟩ := List.forall_mem_cons.1 h
      obtain ⟨hu, hs⟩ := ih hds
      exact ⟨by simp [areUntagged, hd.untagged, hu], by simp [settleAll, hd.settle, hs]⟩
  exact ⟨hall.1, by simp [settle, hall.2]⟩

theorem settles_object {fields : List (String × Document)} (h : ∀ x ∈ fields, x.2.Settles x.2) :
    (object fields).Settles (object fields) := by
  have hall : fieldsAreUntagged (fields.map fun x => (text x.1, x.2)) = true ∧
      settleFields (fields.map fun x => (text x.1, x.2)) =
        some (fields.map fun x => (text x.1, x.2)) := by
    induction fields with
    | nil => exact ⟨rfl, rfl⟩
    | cons x xs ih =>
      obtain ⟨hx, hxs⟩ := List.forall_mem_cons.1 h
      obtain ⟨hu, hs⟩ := ih hxs
      exact ⟨by simp [fieldsAreUntagged, isUntagged, hx.untagged, hu],
        by simp [settleFields, settle, hx.settle, hs]⟩
  refine ⟨hall.1, ?_⟩
  change (settleFields (fields.map fun x => (text x.1, x.2))).map record =
    some (record (fields.map fun x => (text x.1, x.2)))
  rw [hall.2, Option.map_some]

end Containers

section Slots

variable {α β : Type}

theorem meaning?_text {n : String} (h : n ∈ names) :
    meaning? rules names (text n) = some (.known (names.idxOf n)) := by
  rcases hi : names.idxOf? n with _ | i
  · exact absurd h (List.idxOf?_eq_none_iff.1 hi)
  · simp [meaning?, Document.text?, List.idxOf_eq_getD_idxOf?, hi]

/-- Values under distinct names end in the slots of these names, whatever the order. -/
theorem fill_names (rules : Rules) (strict : Bool) (hn : names.Nodup) :
    ∀ {fields : List (Document × α)} {named : List (String × β)} {R : α → β → Prop}
    (slot : String → Option α),
    List.Forall₂ (fun x y => x.1.Settles (text y.1) ∧ R x.2 y.2) fields named →
    (named.map (·.1)).Nodup → (∀ y ∈ named, y.1 ∈ names ∧ slot y.1 = none) →
    ∃ slot', fill rules strict names (names.map slot) fields = some (names.map slot') ∧
      ∀ n, match named.lookup n with
        | some b => ∃ a, slot' n = some a ∧ R a b
        | none => slot' n = slot n
  | [], [], R, slot, .nil, _, _ => ⟨slot, rfl, fun n => rfl⟩
  | (k, a) :: fields, (n, b) :: named, R, slot, .cons ⟨hk, hR⟩ h, hd, hm => by
    -- the invariant is that the slots of the names still to come are empty, as `fill` demands
    obtain ⟨⟨hmem, hslot⟩, hm⟩ := List.forall_mem_cons.1 hm
    rw [List.map_cons, List.nodup_cons] at hd
    have hfresh : ∀ y ∈ named, y.1 ≠ n := by
      rintro y hy rfl
      exact hd.1 (List.mem_map_of_mem (f := (·.1)) hy)
    have hlt : names.idxOf n < names.length := List.idxOf_lt_length_iff.2 hmem
    have hempty : (names.map slot)[names.idxOf n]? = some none := by
      rw [List.getElem?_map, List.getElem?_eq_getElem hlt, Option.map_some,
        List.getElem_idxOf hlt, hslot]
    have hset : (names.map slot).set (names.idxOf n) (some a) =
        names.map (Function.update slot n (some a)) := by
      refine List.ext_getElem (by simp) fun i hi _ => ?_
      have hi' : i < names.length := by simpa using hi
      rw [List.getElem_set, List.getElem_map, List.getElem_map]
      split_ifs with hin
      · subst hin
        rw [List.getElem_idxOf hlt, Function.update_self]
      · have hne : names[i] ≠ n := by
          rintro rfl
          exact hin (hn.idxOf_getElem i hi')
        rw [Function.update_of_ne hne]
    have hm' : ∀ y ∈ named, y.1 ∈ names ∧ Function.update slot n (some a) y.1 = none := by
      intro y hy
      rw [Function.update_of_ne (hfresh y hy)]
      exact hm y hy
    obtain ⟨slot', hfill, hslot'⟩ := fill_names rules strict hn _ h hd.2 hm'
    refine ⟨slot', ?_, fun m => ?_⟩
    · rw [fill, hk.meaning?_eq, meaning?_text hmem]
      simp only [hempty]
      rw [hset]
      exact hfill
    · have hm := hslot' m
      by_cases hmn : m = n
      · subst hmn
        have hnone : named.lookup m = none := by
          rw [List.lookup_eq_none_iff]
          intro y hy
          simpa using (hfresh y hy).symm
        rw [hnone] at hm
        simp only [List.lookup_cons, beq_self_eq_true]
        exact ⟨a, by rw [hm, Function.update_self], hR⟩
      · have hbeq : (m == n) = false := by simpa using hmn
        simp only [List.lookup_cons, hbeq]
        rw [Function.update_of_ne hmn] at hm
        exact hm

/-- A record whose fields come in the order of their names is read as the values of the names. -/
theorem slots?_record (rules : Rules) (strict : Bool) {fields : List (Document × Document)}
    {named : List (String × β)} {R : Document → β → Prop} (hn : names.Nodup)
    (hsub : (named.map (·.1)).Sublist names)
    (h : List.Forall₂ (fun x y => x.1.Settles (text y.1) ∧ R x.2 y.2) fields named) :
    ∃ slots, (record fields).slots? rules strict names = some slots ∧
      List.Forall₂ (Option.Rel fun p b => R p.val b) slots (names.map (List.lookup · named)) := by
  have hparts : List.Forall₂ (fun (x : Document × Part (record fields)) y =>
      x.1.Settles (text y.1) ∧ R x.2.val y.2)
      (fields.attach.map fun x => (x.1.1, ⟨x.1.2, sizeOf_lt_record x.2⟩)) named := by
    rw [List.forall₂_map_left_iff]
    rw [← List.attach_map_subtype_val fields, List.forall₂_map_left_iff] at h
    exact h
  obtain ⟨slot, hfill, hslot⟩ := fill_names rules strict
    (R := fun (p : Part (record fields)) b => R p.val b) hn (fun _ => none) hparts (hsub.nodup hn)
    fun y hy => ⟨hsub.subset (List.mem_map_of_mem hy), rfl⟩
  refine ⟨names.map slot, hfill, ?_⟩
  rw [List.forall₂_map_left_iff, List.forall₂_map_right_iff]
  refine List.forall₂_same.2 fun n _ => ?_
  have hs := hslot n
  rcases hl : List.lookup n named with _ | b
  · simp only [hl] at hs
    rw [hs]
    exact .none
  · simp only [hl] at hs
    obtain ⟨a, ha, hR⟩ := hs
    rw [ha]
    exact .some hR

variable {named : List (String × Document)}

/-- The slot of a field that is written holds what settles to its value, any other is empty. -/
abbrev SlotFor (slot : Option (Part d)) (field : Option Document) : Prop :=
  Option.Rel (fun p v => p.val.Settles v) slot field

theorem Settles.slots? (h : d.Settles (object named)) (rules : Rules) (strict : Bool)
    (hn : names.Nodup) (hsub : (named.map (·.1)).Sublist names) :
    ∃ slots, d.slots? rules strict names = some slots ∧
      List.Forall₂ SlotFor slots (names.map (List.lookup · named)) := by
  obtain ⟨fs, rfl, hfs⟩ := h.of_record
  exact slots?_record rules strict hn hsub (List.forall₂_map_right_iff.1 hfs)

theorem object_slots? (rules : Rules) (strict : Bool) (hn : names.Nodup)
    (hsub : (named.map (·.1)).Sublist names) :
    ∃ slots, (object named).slots? rules strict names = some slots ∧
      List.Forall₂ (Option.Rel fun p v => p.val = v) slots (names.map (List.lookup · named)) := by
  refine slots?_record rules strict (R := fun a v => a = v) hn hsub ?_
  rw [List.forall₂_map_left_iff]
  exact List.forall₂_same.2 fun x _ => ⟨settles_text x.1, rfl⟩

/-- A name that is not declared is refused. -/
theorem Settles.slots?_of_not_mem {name : String} {value : Document}
    (h : d.Settles (object ((name, value) :: named))) (hn : name ∉ names) :
    d.slots? rules true names = none := by
  obtain ⟨fs, rfl, hfs⟩ := h.of_record
  rw [List.map_cons, List.forall₂_cons_right_iff] at hfs
  obtain ⟨⟨k, v⟩, fs, ⟨hk, -⟩, -, rfl⟩ := hfs
  have hm : meaning? rules names k = some .unknown := by
    rw [Settles.meaning?_eq hk]
    simp [meaning?, Document.text?, List.idxOf?_eq_none_iff.2 hn]
  change fill rules true names (names.map fun _ => none) ((k, _) :: _) = none
  simp only [fill, hm, if_true]

end Slots

section Items

variable {α γ : Type}

theorem mapM_of_forall₂ {f : α → Option γ} : ∀ {l : List α} {xs : List γ},
    List.Forall₂ (fun a x => f a = some x) l xs → l.mapM f = some xs
  | [], [], .nil => rfl
  | a :: l, x :: xs, .cons h hl => by
    rw [List.mapM_cons, h, mapM_of_forall₂ hl]
    rfl

theorem items?_list (items : List Document) :
    ∃ parts, (list items).items? = some parts ∧ parts.map (·.val) = items := by
  refine ⟨_, rfl, ?_⟩
  rw [List.map_map]
  exact List.attach_map_subtype_val items

theorem items?_mapM {f : Document → Option γ} {items : List Document} {xs : List γ}
    (h : List.Forall₂ (fun i x => f i = some x) items xs) :
    ((list items).items?.bind fun parts => parts.mapM fun i => f i.val) = some xs := by
  obtain ⟨parts, hp, hval⟩ := items?_list items
  rw [hp, Option.bind_some]
  rw [← hval, List.forall₂_map_left_iff] at h
  exact mapM_of_forall₂ h

end Items

end CommandGrammar.Document
