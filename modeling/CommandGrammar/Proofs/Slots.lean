import CommandGrammar.Grammar.Decode
import CommandGrammar.Proofs.Settling

/-!
# What a record puts into its slots

The slot of a name holds what the record has under that name, or under its number where numbers may
stand for names; if a list stands for the record, it holds the item in its place. A strict record is
only read if each of its keys is one of the names. What the names are does not matter for a number,
so two sets of names that have nothing in common agree on the keys that both know.
-/

namespace CommandGrammar.Document

variable {α β : Type} {rules : Rules} {strict : Bool} {names names' : List String} {d v : Document}
  {i : Nat}

/-- A key is one of the names, or the number of one. -/
def Denotes (rules : Rules) (names : List String) (k : Document) (i : Nat) : Prop :=
  meaning? rules names k = some (.known i)

/-- The document has a value in the place `i` of some names. -/
def HasField (rules : Rules) (names : List String) (d : Document) (i : Nat) (v : Document) : Prop :=
  match d.fields? with
  | some fields => ∃ k p, (k, p) ∈ fields ∧ Denotes rules names k i ∧ p.val = v
  | none => ∃ items, d.items? = some items ∧ ∃ p, items[i]? = some p ∧ p.val = v

/-- A list, or what may stand for one, has an item. -/
def HasItem (d v : Document) : Prop :=
  ∃ items, d.items? = some items ∧ ∃ p ∈ items, p.val = v

/-- Every key of a record is one of the names. -/
def UsesOnly (rules : Rules) (names : List String) (d : Document) : Prop :=
  ∀ fields, d.fields? = some fields → ∀ k p, (k, p) ∈ fields → ∃ i, Denotes rules names k i

/-! ## Keys -/

theorem mem_of_idxOf? {s : String} (h : names.idxOf? s = some i) : s ∈ names := by
  by_contra hn
  rw [List.idxOf?_eq_none_iff.2 hn] at h
  cases h

/-- A key is a number, which does not depend on the names, or a text, which is one of them. -/
theorem Denotes.cases {k : Document} (h : Denotes rules names k i) : i < names.length ∧
    ((∃ n, k = integer n ∧ i = n.toNat) ∨
      (∀ n, k ≠ integer n) ∧ ∃ s, k.text? = some s ∧ names.idxOf? s = some i) := by
  unfold Denotes meaning? at h
  split at h
  · split_ifs at h with hr hn
    · cases h
      exact ⟨hn, .inl ⟨_, rfl, rfl⟩⟩
    · cases h
  · rename_i hk
    obtain ⟨s, hs, h⟩ := Option.map_eq_some_iff.1 h
    split at h
    · rename_i j hj
      cases h
      exact ⟨(List.idxOf?_eq_some_iff.1 hj).1, .inr ⟨hk, s, hs, hj⟩⟩
    · cases h

theorem meaning?_of_not_mem {name : String} (hn : name ∉ names) :
    meaning? rules names (text name) = some .unknown := by
  simp [meaning?, text?, List.idxOf?_eq_none_iff.2 hn]

/-- A key that both sides know is a number if they have no name in common. -/
theorem Denotes.eq_of_disjoint {k : Document} {j : Nat} (hd : names.Disjoint names')
    (h : Denotes rules names k i) (h' : Denotes rules names' k j) : i = j := by
  obtain ⟨n, rfl, rfl⟩ | ⟨hk, s, hs, hi⟩ := h.cases.2
  · obtain ⟨m, hm, rfl⟩ | ⟨hk', -⟩ := h'.cases.2
    · cases hm
      rfl
    · exact absurd rfl (hk' n)
  · obtain ⟨m, hm, -⟩ | ⟨-, s', hs', hj⟩ := h'.cases.2
    · exact absurd hm (hk m)
    · obtain rfl := Option.some.inj (hs.symm.trans hs')
      exact absurd (mem_of_idxOf? hj) (hd (mem_of_idxOf? hi))

/-! ## Slots -/

theorem fill_eq_some : ∀ {fields : List (Document × α)} {slots slots' : List (Option α)},
    fill rules strict names slots fields = some slots' →
      slots'.length = slots.length ∧ ∀ i a, slots'[i]? = some (some a) ↔
        slots[i]? = some (some a) ∨ ∃ k, (k, a) ∈ fields ∧ Denotes rules names k i
  | [], slots, slots', h => by
    cases h
    simp
  | (k, b) :: fields, slots, slots', h => by
    rw [fill] at h
    split at h
    · cases h
    · rename_i hk
      split_ifs at h
      obtain ⟨hlen, hslots⟩ := fill_eq_some h
      refine ⟨hlen, fun i a => ?_⟩
      have hne : ¬Denotes rules names k i := by
        unfold Denotes
        rw [hk]
        simp
      rw [hslots]
      simp [List.mem_cons, or_and_right, exists_or, hne]
    · rename_i j hj
      split at h
      · rename_i hempty
        obtain ⟨hlen, hslots⟩ := fill_eq_some h
        refine ⟨hlen.trans List.length_set, fun i a => ?_⟩
        obtain ⟨hlt, hnone⟩ := List.getElem?_eq_some_iff.1 hempty
        rw [hslots, List.getElem?_set]
        by_cases hji : j = i
        · subst hji
          simp [hlt, hnone, Denotes, hj, or_and_right, exists_or, eq_comm]
        · have hne : ¬Denotes rules names k i := by
            unfold Denotes
            rw [hj]
            simpa using hji
          simp [hji, or_and_right, exists_or, hne]
      · cases h

theorem fill_usesOnly : ∀ {fields : List (Document × α)} {slots slots' : List (Option α)},
    fill rules true names slots fields = some slots' →
      ∀ k a, (k, a) ∈ fields → ∃ i, Denotes rules names k i
  | [], _, _, _, _, _, hm => absurd hm List.not_mem_nil
  | (k, b) :: fields, slots, slots', h, k', a, hm => by
    rw [fill] at h
    split at h
    · cases h
    · simp at h
    · rename_i j hj
      split at h
      · rcases List.mem_cons.1 hm with heq | hm
        · cases heq
          exact ⟨j, hj⟩
        · exact fill_usesOnly h k' a hm
      · cases h

/-- The slots of a document that is read, whatever names its values are looked up by. -/
theorem slots?_eq_some {slots : List (Option (Part d))}
    (h : d.slots? rules strict names = some slots) :
    slots.length = names.length ∧ ∀ i v, (∃ p, slots[i]? = some (some p) ∧ p.val = v) ↔
      d.HasField rules names i v := by
  unfold slots? at h
  unfold HasField
  rcases hf : d.fields? with _ | fields
  · rw [hf] at h
    dsimp only at h ⊢
    split_ifs at h
    obtain ⟨items, hitems, h⟩ := Option.bind_eq_some_iff.1 h
    split_ifs at h with hle
    cases h
    refine ⟨by simp; omega, fun i v => ?_⟩
    simp only [hitems, Option.some.injEq, exists_eq_left']
    refine exists_congr fun p => and_congr_left fun _ => ?_
    rw [List.getElem?_append, List.getElem?_map, List.getElem?_replicate]
    split_ifs <;> simp_all
  · rw [hf] at h
    dsimp only at h ⊢
    obtain ⟨hlen, hslots⟩ := fill_eq_some h
    refine ⟨by simpa using hlen, fun i v => ?_⟩
    have hempty {p : Part d} : (names.map fun _ => none)[i]? ≠ some (some p) := by
      rw [List.getElem?_map]
      rcases names[i]? <;> simp
    simp only [hslots, hempty, false_or]
    constructor
    · rintro ⟨p, ⟨k, hk, hd⟩, rfl⟩
      exact ⟨k, p, hk, hd, rfl⟩
    · rintro ⟨k, p, hk, hd, rfl⟩
      exact ⟨p, ⟨k, hk, hd⟩, rfl⟩

/-- Values in the places of some names are in the same places of other ones, if those are all that
is used and have nothing in common with the first. -/
theorem HasField.of_usesOnly (h : d.HasField rules names i v) (hd : names.Disjoint names')
    (hu : d.UsesOnly rules names') : d.HasField rules names' i v := by
  unfold HasField at h ⊢
  split at h
  · rename_i fields hf
    obtain ⟨k, p, hk, hi, hv⟩ := h
    obtain ⟨j, hj⟩ := hu fields hf k p hk
    obtain rfl := hi.eq_of_disjoint hd hj
    exact ⟨k, p, hk, hj, hv⟩
  · exact h

theorem usesOnly_of_slots? {slots : List (Option (Part d))}
    (h : d.slots? rules true names = some slots) : d.UsesOnly rules names := by
  intro fields hf k p hm
  unfold slots? at h
  rw [hf] at h
  exact fill_usesOnly h k p hm

/-! ## What is read of the values -/

theorem HasItem.sizeOf_lt (h : d.HasItem v) : sizeOf v < sizeOf d := by
  obtain ⟨items, -, p, -, rfl⟩ := h
  exact p.property

theorem mapM_congr {f g : α → Option β} : ∀ {l : List α}, (∀ a ∈ l, f a = g a) →
    l.mapM f = l.mapM g
  | [], _ => rfl
  | a :: l, h => by
    obtain ⟨ha, hl⟩ := List.forall_mem_cons.1 h
    rw [List.mapM_cons, List.mapM_cons, ha, mapM_congr hl]

/-- The items of a list are read alike if each of them is. -/
theorem items?_congr {f g : Document → Option α} (h : ∀ v, d.HasItem v → f v = g v) :
    (d.items?.bind fun items => items.mapM fun i => f i.val) =
      d.items?.bind fun items => items.mapM fun i => g i.val :=
  Option.bind_congr fun items hitems =>
    mapM_congr fun i hi => h i.val ⟨items, hitems, i, hi, rfl⟩

theorem slot_congr {f g : Document → Option α} {o : Option (Part d)}
    (h : ∀ p, o = some p → f p.val = g p.val) :
    o.mapM (fun p => f p.val) = o.mapM fun p => g p.val := by
  rcases o with _ | p
  · rfl
  · rw [Option.mapM_some, Option.mapM_some, h p rfl]

theorem exists_of_mapM {f : α → Option β} : ∀ {l : List α} {xs : List β},
    l.mapM f = some xs → ∀ a ∈ l, ∃ x, f a = some x
  | [], _, _, _, ha => absurd ha List.not_mem_nil
  | a :: l, xs, h, b, hb => by
    rw [List.mapM_cons] at h
    obtain ⟨x, hx, h⟩ := Option.bind_eq_some_iff.1 h
    obtain ⟨ys, hys, -⟩ := Option.bind_eq_some_iff.1 h
    rcases List.mem_cons.1 hb with rfl | hb
    · exact ⟨x, hx⟩
    · exact exists_of_mapM hys b hb

/-- Where a list is read, so is each item. -/
theorem HasItem.exists_read {f : Document → Option α} {xs : List α} (h : d.HasItem v)
    (hx : (d.items?.bind fun items => items.mapM fun i => f i.val) = some xs) :
    ∃ x, f v = some x := by
  obtain ⟨items, hitems, p, hp, rfl⟩ := h
  rw [hitems, Option.bind_some] at hx
  exact exists_of_mapM hx p hp

/-- What is read from a slot is read from the value in its place. -/
theorem HasField.exists_read {slots : List (Option (Part d))} {slot : Option (Part d)}
    {f : Document → Option α} {a : Option α} (h : d.HasField rules names i v)
    (hs : d.slots? rules strict names = some slots) (hi : slots[i]? = some slot)
    (ha : slot.mapM (fun p => f p.val) = some a) : ∃ x, f v = some x := by
  obtain ⟨p, hp, rfl⟩ := ((slots?_eq_some hs).2 i v).2 h
  obtain rfl := Option.some.inj (hi.symm.trans hp)
  obtain ⟨x, hx, -⟩ := Option.map_eq_some_iff.1 ha
  exact ⟨x, hx⟩

end CommandGrammar.Document
