import CommandGrammar.Form.Basic
import CommandGrammar.Proofs.Found

/-!
# The marks of a pass

The form of a session has the marks of its pass on the nodes of its scheme. Computations on forms
are compared with sessions: `Gives` says that a computation ends, at no trap, with an answer and the
form of a session. A node that is there can be got and changed, and to change its mark is to let the
pass find it.

A node that is not there has no mark, and an argument has a value if it has matched: so much of a
pass is needed when nodes are added, and when an argument gets its value.
-/

namespace CommandGrammar

/-- What a pass has found is in the scheme, and its arguments have matched with values. -/
structure Pass.Within (p : Pass) (s : Scheme) : Prop where
  matched : ∀ {id}, p.isMatched id = true → id.index < s.flags.length
  grouped : ∀ {g}, p.isGroupMatched g = true → g.index < s.groups.length
  chosen : ∀ {g m}, p.chosen? g = some m → g.index < s.groups.length ∧ m.index < s.flags.length
  filled : ∀ {a}, p.isFilled a = true → a.index < s.args.length
  valued : ∀ a, p.isFilled a = (p.value? a).isSome

namespace Pass

variable (p : Pass)

def flagCells (flags : List Flag) : List FlagCell :=
  flags.mapIdx fun i flag => { flag, matched := p.isMatched ⟨i⟩ }

def groupCells (groups : List Group) : List GroupCell :=
  groups.mapIdx fun i group =>
    { group, matched := p.isGroupMatched ⟨i⟩, chosen := p.chosen? ⟨i⟩ }

def argCells (args : List Positional) : List ArgCell :=
  args.mapIdx fun i arg => { arg, matched := p.isFilled ⟨i⟩, value := p.value? ⟨i⟩ }

end Pass

namespace Session

variable (t : Session)

/-- The same session amid another pass. -/
def amid (p : Pass) : Session := { t with pass := p }

/-- The same session with another scheme. -/
def under (s : Scheme) : Session := { t with scheme := s }

/-- The session in place. -/
def form : Form where
  stores := t.scheme.stores
  flags := t.pass.flagCells t.scheme.flags
  groups := t.pass.groupCells t.scheme.groups
  args := t.pass.argCells t.scheme.args
  help := t.scheme.help
  program := t.program
  errorMode := t.errorMode
  consumed := t.pass.consumed
  fired := t.pass.fired

end Session

/-- On the form of a session a computation ends, at no trap, with an answer and the form of another
session. -/
def Act.Gives {α : Type} (x : Act α) (t : Session) (a : α) (t' : Session) : Prop :=
  x.on t.form = some (.ok (a, t'.form))

/-! ## Changes of numbered lists -/

section Lists

variable {α β : Type} {f f' : Nat → α → β} {l : List α} {n : Nat}

theorem modify_mapIdx {g : β → β} (h : ∀ i a, f' i a = if i = n then g (f i a) else f i a) :
    (l.mapIdx f).modify n g = l.mapIdx f' := by
  refine List.ext_getElem? fun i => ?_
  rw [List.getElem?_modify, List.getElem?_mapIdx, List.getElem?_mapIdx]
  rcases l[i]? with _ | a
  · rfl
  · rcases eq_or_ne n i with rfl | hne
    · simp [h]
    · simp [h, hne, hne.symm]

theorem mapIdx_modify {g : β → β} {k : α → α} (h : ∀ i a, f i (k a) = g (f i a)) :
    (l.mapIdx f).modify n g = (l.modify n k).mapIdx f := by
  refine List.ext_getElem? fun i => ?_
  rw [List.getElem?_modify, List.getElem?_mapIdx, List.getElem?_mapIdx, List.getElem?_modify]
  rcases l[i]? with _ | a
  · rfl
  · rcases eq_or_ne n i with rfl | hne
    · simp [h]
    · simp [hne]

theorem map_mapIdx {γ : Type} (g : β → γ) :
    (l.mapIdx f).map g = l.mapIdx fun i a => g (f i a) := by
  refine (List.mapIdx_eq_iff.2 fun i => ?_).symm
  rw [List.getElem?_map, List.getElem?_mapIdx, Option.map_map]
  rfl

end Lists

namespace Pass

variable (p : Pass)

theorem flagCells_modify (f : Flag → Flag) (n : Nat) (flags : List Flag) :
    (p.flagCells flags).modify n (fun cell => { cell with flag := f cell.flag }) =
      p.flagCells (flags.modify n f) :=
  mapIdx_modify fun _ _ => rfl

theorem groupCells_modify (f : Group → Group) (n : Nat) (groups : List Group) :
    (p.groupCells groups).modify n (fun cell => { cell with group := f cell.group }) =
      p.groupCells (groups.modify n f) :=
  mapIdx_modify fun _ _ => rfl

theorem flagCells_mark (id : FlagId) (flags : List Flag) :
    (p.flagCells flags).modify id.index (fun cell => { cell with matched := true }) =
      (p.mark id).flagCells flags := by
  refine modify_mapIdx fun i f => ?_
  rw [isMatched_mark]
  by_cases hi : i = id.index
  · simp [hi]
  · simp [hi, FlagId.ext_iff]

/-- Only an open choice is made. -/
theorem groupCells_choose {g : GroupId} (hopen : p.chosen? g = none) (id : FlagId)
    (groups : List Group) :
    (p.groupCells groups).modify g.index
      (fun cell => { cell with chosen := some id, matched := true }) =
      (p.choose g id).groupCells groups := by
  refine modify_mapIdx fun i gr => ?_
  by_cases hi : i = g.index
  · have hg : (⟨i⟩ : GroupId) = g := GroupId.ext hi
    rw [chosen?] at hopen
    simp [choose, isGroupMatched, chosen?, List.lookup_append, hi, hopen]
  · have hne : ((⟨i⟩ : GroupId) == g) = false := by simpa [GroupId.ext_iff] using hi
    simp [choose, isGroupMatched, chosen?, List.lookup_append, List.lookup_cons, hi, hne,
      GroupId.ext_iff]

/-- Only an argument without a value is given one. -/
theorem argCells_fill {id : ArgId} (hopen : p.value? id = none) (v : Value)
    (args : List Positional) :
    (p.argCells args).modify id.index
      (fun cell => { cell with matched := true, value := some v }) =
      (p.fill id v).argCells args := by
  refine modify_mapIdx fun i a => ?_
  rw [isFilled_fill, value?_fill]
  by_cases hi : i = id.index
  · have hid : (⟨i⟩ : ArgId) = id := ArgId.ext hi
    simp [hi, hopen]
  · simp [hi, ArgId.ext_iff]

end Pass

namespace Act

variable {α β : Type} {x : Act α} {t t' t'' : Session} {a : α} {b : β}

namespace Gives

theorem pure : (pure a : Act α).Gives t a t := on_pure a t.form

theorem get : (get : Act Form).Gives t t.form t := on_get t.form

theorem bind {f : α → Act β} (h : x.Gives t a t') (h' : (f a).Gives t' b t'') :
    (x >>= f).Gives t b t'' :=
  (on_bind_of_ok h f).trans h'

theorem map {f : α → β} (h : x.Gives t a t') : (f <$> x).Gives t (f a) t' := by
  rw [map_eq_pure_bind]
  exact h.bind pure

/-- What leaves the session as it is can be done for each element of a list. -/
theorem mapM {f : α → Act β} {g : α → β} {l : List α} (h : ∀ a ∈ l, (f a).Gives t (g a) t) :
    (l.mapM f).Gives t (l.map g) t := by
  induction l with
  | nil => exact pure
  | cons a l ih =>
    rw [List.mapM_cons]
    exact (h a List.mem_cons_self).bind
      ((ih fun b hb => h b (List.mem_cons_of_mem a hb)).bind pure)

/-- What is there for each element of a list is all that a list of findings has. -/
theorem filterMapM {f : α → Act β} {g : α → Option β} {l : List α}
    (h : ∀ a ∈ l, ∃ b, g a = some b ∧ (f a).Gives t b t) :
    (l.mapM f).Gives t (l.filterMap g) t := by
  induction l with
  | nil => exact pure
  | cons a l ih =>
    obtain ⟨b, hb, hf⟩ := h a List.mem_cons_self
    rw [List.mapM_cons, List.filterMap_cons_some hb]
    exact hf.bind ((ih fun b hb => h b (List.mem_cons_of_mem a hb)).bind pure)

theorem modify {u : Session} {f : Form → Form} (h : f t.form = u.form) :
    (modify f : Act PUnit).Gives t () u := by
  rw [Gives, on_modify, h]

theorem look {ν : Type} {nodes : Form → List ν} {index : Nat} {trap : Trap} {node : ν}
    (h : (nodes t.form)[index]? = some node) : (look nodes index trap).Gives t node t := by
  refine get.bind ?_
  rw [h]
  exact pure

end Gives

/-! ## Nodes that are there -/

section Nodes

variable {s : Scheme} {st : Store} {flag : Flag} {group : Group} {arg : Positional}

theorem storeAt_gives {id : StoreId} (h : t.scheme.store? id = some st) :
    (storeAt id).Gives t st t :=
  .look h

theorem flagAt_gives {id : FlagId} (h : t.scheme.flag? id = some flag) :
    (flagAt id).Gives t { flag, matched := t.pass.isMatched id } t :=
  .look (List.getElem?_mapIdx.trans (congrArg (Option.map _) h))

theorem groupAt_gives {id : GroupId} (h : t.scheme.group? id = some group) :
    (groupAt id).Gives t
      { group, matched := t.pass.isGroupMatched id, chosen := t.pass.chosen? id } t :=
  .look (List.getElem?_mapIdx.trans (congrArg (Option.map _) h))

theorem argAt_gives {id : ArgId} (h : t.scheme.arg? id = some arg) :
    (argAt id).Gives t { arg, matched := t.pass.isFilled id, value := t.pass.value? id } t :=
  .look (List.getElem?_mapIdx.trans (congrArg (Option.map _) h))

theorem entriesOf_gives {store : StoreId} (h : t.scheme.store? store = some st) :
    (entriesOf store).Gives t (t.scheme.entriesOf store) t := by
  refine (storeAt_gives h).bind (Gives.get.bind ?_)
  rw [Session.form, Scheme.entriesOf, h]
  rcases t.scheme.help with _ | help
  · exact .pure
  · exact .pure

end Nodes

/-! ## Changes of nodes -/

section Changes

variable {st : Store} {flag : Flag} {group : Group} {arg : Positional}

theorem updateStore_gives {id : StoreId} (h : t.scheme.store? id = some st) (f : Store → Store) :
    (updateStore id f).Gives t () (t.under (t.scheme.updateStore id f)) :=
  (storeAt_gives h).bind (.modify rfl)

theorem updateFlag_gives {id : FlagId} (h : t.scheme.flag? id = some flag) (f : Flag → Flag) :
    (updateFlag id fun cell => { cell with flag := f cell.flag }).Gives t ()
      (t.under (t.scheme.updateFlag id f)) :=
  (flagAt_gives h).bind (.modify (congrArg (fun flags => { t.form with flags })
    (t.pass.flagCells_modify f _ _)))

theorem updateGroup_gives {id : GroupId} (h : t.scheme.group? id = some group)
    (f : Group → Group) :
    (updateGroup id fun cell => { cell with group := f cell.group }).Gives t ()
      (t.under (t.scheme.updateGroup id f)) :=
  (groupAt_gives h).bind (.modify (congrArg (fun groups => { t.form with groups })
    (t.pass.groupCells_modify f _ _)))

theorem mark_gives {id : FlagId} (h : t.scheme.flag? id = some flag) :
    (updateFlag id fun cell => { cell with matched := true }).Gives t ()
      (t.amid (t.pass.mark id)) :=
  (flagAt_gives h).bind (.modify (congrArg (fun flags => { t.form with flags })
    (t.pass.flagCells_mark id _)))

theorem choose_gives {g : GroupId} (h : t.scheme.group? g = some group)
    (hopen : t.pass.chosen? g = none) (id : FlagId) :
    (updateGroup g fun cell => { cell with chosen := some id, matched := true }).Gives t ()
      (t.amid (t.pass.choose g id)) :=
  (groupAt_gives h).bind (.modify (congrArg (fun groups => { t.form with groups })
    (t.pass.groupCells_choose hopen id _)))

theorem fill_gives {id : ArgId} (h : t.scheme.arg? id = some arg)
    (hopen : t.pass.value? id = none) (v : Value) :
    (updateArg id fun cell => { cell with matched := true, value := some v }).Gives t ()
      (t.amid (t.pass.fill id v)) :=
  (argAt_gives h).bind (.modify (congrArg (fun args => { t.form with args })
    (t.pass.argCells_fill hopen v _)))

end Changes

end Act

/-! ## What a pass finds is there -/

namespace Pass.Within

variable {p : Pass} {s s' : Scheme} {id : FlagId} {flag : Flag}

theorem empty (s : Scheme) : Pass.Within {} s :=
  ⟨fun h => by simp [Pass.isMatched] at h, fun h => by simp [Pass.isGroupMatched] at h,
    fun h => by simp [Pass.chosen?] at h, fun h => by simp [Pass.isFilled] at h, fun _ => rfl⟩

theorem mark (h : p.Within s) (hid : id.index < s.flags.length) : (p.mark id).Within s where
  matched hm := by
    rw [isMatched_mark, Bool.or_eq_true, beq_iff_eq] at hm
    rcases hm with hm | rfl
    · exact h.matched hm
    · exact hid
  grouped := h.grouped
  chosen := h.chosen
  filled := h.filled
  valued := h.valued

theorem complete (h : p.Within s) (hid : id.index < s.flags.length) :
    (p.complete id flag).Within s := by
  rw [complete_eq]
  exact ⟨(h.mark hid).matched, h.grouped, h.chosen, h.filled, h.valued⟩

theorem choosing (h : p.Within s) (hid : id.index < s.flags.length)
    (hg : ∀ g, flag.group = some g → g.index < s.groups.length) :
    (p.choosing id flag).Within s where
  matched hm := h.matched (by rwa [isMatched_choosing] at hm)
  grouped hm := by
    rw [isGroupMatched_choosing, Bool.or_eq_true, beq_iff_eq] at hm
    exact hm.elim h.grouped (hg _)
  chosen hm := by
    rw [chosen?_choosing, Option.or_eq_some_iff] at hm
    rcases hm with hm | ⟨-, hm⟩
    · exact h.chosen hm
    · split_ifs at hm with hgroup
      cases hm
      exact ⟨hg _ hgroup, hid⟩
  filled hm := h.filled (by rwa [isFilled_choosing] at hm)
  valued a := by
    rw [isFilled_choosing, value?_choosing]
    exact h.valued a

theorem fill (h : p.Within s) {a : ArgId} (ha : a.index < s.args.length) (v : Value) :
    (p.fill a v).Within s where
  matched := h.matched
  grouped := h.grouped
  chosen := h.chosen
  filled hm := by
    rw [isFilled_fill, Bool.or_eq_true, beq_iff_eq] at hm
    rcases hm with hm | rfl
    · exact h.filled hm
    · exact ha
  valued x := by
    rw [isFilled_fill, value?_fill, h.valued]
    by_cases hx : x = a <;> simp [hx]

/-! ### Nodes that are not there -/

theorem isMatched_eq_false (h : p.Within s) (hid : s.flags.length ≤ id.index) :
    p.isMatched id = false :=
  Bool.eq_false_iff.2 fun hm => absurd (h.matched hm) hid.not_gt

theorem isGroupMatched_eq_false (h : p.Within s) {g : GroupId} (hg : s.groups.length ≤ g.index) :
    p.isGroupMatched g = false :=
  Bool.eq_false_iff.2 fun hm => absurd (h.grouped hm) hg.not_gt

theorem chosen?_eq_none (h : p.Within s) {g : GroupId} (hg : s.groups.length ≤ g.index) :
    p.chosen? g = none := by
  rcases hm : p.chosen? g with _ | m
  · rfl
  · exact absurd (h.chosen hm).1 hg.not_gt

theorem isFilled_eq_false (h : p.Within s) {a : ArgId} (ha : s.args.length ≤ a.index) :
    p.isFilled a = false :=
  Bool.eq_false_iff.2 fun hm => absurd (h.filled hm) ha.not_gt

theorem value?_eq_none (h : p.Within s) {a : ArgId} (ha : s.args.length ≤ a.index) :
    p.value? a = none := by
  rw [← Option.not_isSome_iff_eq_none, ← h.valued, h.isFilled_eq_false ha]
  exact Bool.false_ne_true

theorem mono (h : p.Within s) (hf : s.flags.length ≤ s'.flags.length)
    (hg : s.groups.length ≤ s'.groups.length) (ha : s.args.length ≤ s'.args.length) :
    p.Within s' :=
  ⟨fun hm => (h.matched hm).trans_le hf, fun hm => (h.grouped hm).trans_le hg,
    fun hm => ⟨(h.chosen hm).1.trans_le hg, (h.chosen hm).2.trans_le hf⟩,
    fun hm => (h.filled hm).trans_le ha, h.valued⟩

/-! ### New nodes -/

theorem flagCells_concat (h : p.Within s) (f : Flag) :
    p.flagCells (s.flags ++ [f]) = p.flagCells s.flags ++ [{ flag := f }] := by
  rw [flagCells, List.mapIdx_concat, h.isMatched_eq_false (le_refl s.flags.length)]
  rfl

theorem groupCells_concat (h : p.Within s) (g : Group) :
    p.groupCells (s.groups ++ [g]) = p.groupCells s.groups ++ [{ group := g }] := by
  rw [groupCells, List.mapIdx_concat, h.isGroupMatched_eq_false (le_refl s.groups.length),
    h.chosen?_eq_none (le_refl s.groups.length)]
  rfl

theorem argCells_concat (h : p.Within s) (a : Positional) :
    p.argCells (s.args ++ [a]) = p.argCells s.args ++ [{ arg := a }] := by
  rw [argCells, List.mapIdx_concat, h.isFilled_eq_false (le_refl s.args.length),
    h.value?_eq_none (le_refl s.args.length)]
  rfl

end Pass.Within

end CommandGrammar
