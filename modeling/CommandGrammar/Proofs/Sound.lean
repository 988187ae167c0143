import CommandGrammar.Proofs.Found

/-!
# The invariant of a walk

A node is touched when its token was consumed: a flag that has matched or whose store is open, or an
argument that has matched. Nothing is touched below a flag that is not, so every touched node can be
reached from the root through touched flags. The open stores are nested in each other, a group has
the member that was touched in it and no other, and the store of a flag that has matched lacks
nothing.
-/

namespace CommandGrammar

/-- A node that a token can be consumed for. -/
inductive Node where
  | flag (id : FlagId)
  | arg (id : ArgId)
  deriving DecidableEq, Repr

/-- A flag whose store is open. -/
def Walk.IsOpen (w : Walk) (id : FlagId) : Prop := ∃ f ∈ w.frames, f.owner = id

def Walk.Touched (w : Walk) : Node → Prop
  | .flag id => w.pass.isMatched id = true ∨ w.IsOpen id
  | .arg id => w.pass.isFilled id = true

namespace Scheme

def Home (s : Scheme) : Node → StoreId → Prop
  | .flag id, store => ∃ key, (key, id) ∈ s.keysOf store
  | .arg id, store => id ∈ s.argsOf store

/-- Each store of the stack is that of a flag of the store under it. -/
def Chain (s : Scheme) : List Frame → Prop
  | [] => True
  | f :: fs => s.flag? f.owner = some f.flag ∧ f.flag.children = some f.store ∧
      (f.flag.key, f.owner) ∈ s.keysOf (Walk.topOf fs) ∧ s.Chain fs

/-- The root, or the store of a touched flag. -/
def Reached (s : Scheme) (w : Walk) (store : StoreId) : Prop :=
  store = root ∨ ∃ id f, s.flag? id = some f ∧ f.children = some store ∧ w.Touched (.flag id)

structure Sound (s : Scheme) (w : Walk) : Prop where
  chain : s.Chain w.frames
  open_unmatched : ∀ {id}, w.IsOpen id → w.pass.isMatched id = false
  known : ∀ {n}, w.Touched n → ∃ store, s.Home n store
  reached : ∀ {n store}, w.Touched n → s.Home n store → s.Reached w store
  chosen_member : ∀ {g m}, w.pass.chosen? g = some m →
    w.Touched (.flag m) ∧ ∃ f, s.flag? m = some f ∧ f.group = some g
  member_chosen : ∀ {id f g}, w.Touched (.flag id) → s.flag? id = some f → f.group = some g →
    w.pass.chosen? g = some id
  matched_filled : ∀ {id f store}, w.pass.isMatched id = true → s.flag? id = some f →
    f.children = some store → s.Filled w.pass store
  group_matched : ∀ g, w.pass.isGroupMatched g = (w.pass.chosen? g).isSome
  arg_value : ∀ a, w.pass.isFilled a = (w.pass.value? a).isSome

variable {s : Scheme} {w w' : Walk}

section Lookups

theorem keyFlag?_eq_some (hl : s.Linked) {store : StoreId} {token : String} {id : FlagId}
    {flag : Flag} (h : s.keyFlag? store token = some (id, flag)) :
    (token, id) ∈ s.keysOf store ∧ s.flag? id = some flag ∧ flag.key = token := by
  simp only [keyFlag?, Option.bind_eq_some_iff, Option.map_eq_some_iff, Prod.mk.injEq] at h
  obtain ⟨id', hk, f, hf, rfl, rfl⟩ := h
  have hk := (keyed?_eq_some_iff hl).1 hk
  obtain ⟨f', hf', h⟩ := exists_flag_of_key? (hl.key_eq hk)
  obtain rfl := Option.some.inj (hf'.symm.trans hf)
  exact ⟨hk, hf, h⟩

theorem taker?_eq_some {p : Pass} {store : StoreId} {token : String} {id : ArgId}
    {a : Except ParseError Value} (h : s.taker? p store token = some (id, a)) :
    id ∈ s.argsOf store ∧ s.answer? p token id = some a := by
  obtain ⟨id', hid, h⟩ := List.exists_of_findSome?_eq_some h
  simp only [Option.map_eq_some_iff, Prod.mk.injEq] at h
  obtain ⟨a, ha, rfl, rfl⟩ := h
  exact ⟨hid, ha⟩

theorem answer?_eq_ok {p : Pass} {token : String} {id : ArgId} {v : Value}
    (h : s.answer? p token id = some (.ok v)) : p.isFilled id = false ∧
      ∃ arg, s.arg? id = some arg ∧ (arg.pipeline.run token).result = .ok v := by
  unfold answer? at h
  split at h
  · cases h
  · rename_i arg ha
    split_ifs at h with hf
    split at h
    · cases h
      exact ⟨by simpa using hf, arg, ha, ‹_›⟩
    · cases h
    · cases h

theorem rival?_eq_none {p : Pass} {flag : Flag} :
    p.rival? flag = none ↔ ∀ g, flag.group = some g → p.chosen? g = none := by
  simp [Pass.rival?, Option.bind_eq_none_iff]

theorem rival?_eq_some {p : Pass} {flag : Flag} {group : GroupId} {m : FlagId} :
    p.rival? flag = some (group, m) ↔ flag.group = some group ∧ p.chosen? group = some m := by
  simp only [Pass.rival?, Option.bind_eq_some_iff, Option.map_eq_some_iff, Prod.mk.injEq]
  constructor
  · rintro ⟨g, hg, m', hc, rfl, rfl⟩
    exact ⟨hg, hc⟩
  · rintro ⟨hg, hc⟩
    exact ⟨group, hg, m, hc, rfl, rfl⟩

end Lookups

theorem Arena.home_unique {loose : List FlagId} (ha : s.Arena loose) {n : Node} {a b : StoreId}
    (h : s.Home n a) (h' : s.Home n b) : a = b := by
  rcases n with id | id
  · obtain ⟨k, h⟩ := h
    obtain ⟨k', h'⟩ := h'
    exact ha.key_store_unique h h'
  · exact ha.arg_store_unique h h'

theorem Arena.not_home_of_lt {loose : List FlagId} (ha : s.Arena loose) {n : Node} {a b : StoreId}
    (h : s.Home n a) (hlt : b.index < a.index) : ¬s.Home n b := by
  intro h'
  rw [ha.home_unique h' h] at hlt
  exact lt_irrefl _ hlt

theorem Chain.top_reached (hc : s.Chain w.frames) : s.Reached w w.top := by
  unfold Walk.top
  rcases h : w.frames with _ | ⟨f, fs⟩
  · exact .inl rfl
  · rw [h] at hc
    exact .inr ⟨f.owner, f.flag, hc.1, hc.2.1, .inr ⟨f, by simp [h], rfl⟩⟩

theorem Reached.mono (ht : ∀ id, w.Touched (.flag id) → w'.Touched (.flag id)) {store : StoreId}
    (h : s.Reached w store) : s.Reached w' store := by
  rcases h with h | ⟨id, f, hf, hc, h⟩
  · exact .inl h
  · exact .inr ⟨id, f, hf, hc, ht id h⟩

theorem Sound.reached_touch (hw : s.Sound w) (ha : s.WellFormed) {n : Node}
    (hn : s.Home n w.top) (ht : ∀ m, w'.Touched m ↔ w.Touched m ∨ m = n) {m : Node}
    {store : StoreId} (hm : w'.Touched m) (hs : s.Home m store) : s.Reached w' store := by
  have hmono : ∀ id, w.Touched (.flag id) → w'.Touched (.flag id) := fun id h => (ht _).2 (.inl h)
  rcases (ht m).1 hm with h | rfl
  · exact (hw.reached h hs).mono hmono
  · rw [ha.home_unique hs hn]
    exact (Chain.top_reached hw.chain).mono hmono

section Chain

variable {fs : List Frame} {f : Frame}

/-- The innermost store is the deepest of the stack. -/
theorem Chain.index_le (ha : s.WellFormed) : ∀ {fs : List Frame}, s.Chain fs → ∀ f ∈ fs,
    f.store.index ≤ (Walk.topOf fs).index
  | [], _, _, h => by simp at h
  | g :: fs, ⟨hg, hc, hk, hfs⟩, f, h => by
    rcases List.mem_cons.1 h with rfl | h
    · exact le_rfl
    · exact (hfs.index_le ha f h).trans (ha.deeper hk hg hc).le

theorem Chain.exists_home : ∀ {fs : List Frame}, s.Chain fs → ∀ f ∈ fs,
    s.flag? f.owner = some f.flag ∧ f.flag.children = some f.store ∧
      ∃ store, (f.flag.key, f.owner) ∈ s.keysOf store
  | [], _, _, h => by simp at h
  | g :: fs, ⟨hg, hc, hk, hfs⟩, f, h => by
    rcases List.mem_cons.1 h with rfl | h
    · exact ⟨hg, hc, _, hk⟩
    · exact hfs.exists_home f h

theorem Chain.eq_nil_of_root (ha : s.WellFormed) : ∀ {fs : List Frame}, s.Chain fs →
    Walk.topOf fs = root → fs = []
  | [], _, _ => rfl
  | _ :: _, ⟨hf, hc, _, _⟩, h => absurd h (ha.child_ne_root hf hc)

/-- The flags of the innermost store are not those of open stores. -/
theorem Chain.owner_ne (ha : s.WellFormed) (hc : s.Chain fs) {id : FlagId}
    (hn : s.Home (.flag id) (Walk.topOf fs)) (hf : f ∈ fs) : f.owner ≠ id := by
  rintro rfl
  obtain ⟨hfl, hch, store, hk⟩ := hc.exists_home f hf
  obtain ⟨key, hn⟩ := hn
  have h1 := hc.index_le ha f hf
  have h2 := ha.deeper hn hfl hch
  omega

end Chain

/-- A flag of the innermost store that has not matched is untouched. -/
theorem Sound.not_touched (hw : s.Sound w) (ha : s.WellFormed) {id : FlagId}
    (hn : s.Home (.flag id) w.top) (hm : w.pass.isMatched id = false) :
    ¬w.Touched (.flag id) := by
  rintro (h | ⟨f, hf, ho⟩)
  · exact Bool.false_ne_true (hm.symm.trans h)
  · exact Chain.owner_ne ha hw.chain hn hf ho

/-- What a reached store is nested in was reached. -/
theorem Sound.reached_of_below (hw : s.Sound w) (ha : s.WellFormed) {a b : StoreId}
    (h : s.Below a b) (hb : s.Reached w b) : s.Reached w a := by
  induction h using Relation.ReflTransGen.head_induction_on with
  | refl => exact hb
  | head hn _ ih =>
    obtain ⟨key, id, f, hk, hf, hc⟩ := hn
    rcases ih with rfl | ⟨id', f', hf', hc', ht⟩
    · exact absurd rfl (ha.child_ne_root hf hc)
    · obtain rfl := ha.owner_unique hf hf' hc hc'
      exact hw.reached ht ⟨key, hk⟩

section Touch

variable (w) {id : FlagId} {flag : Flag} (token : String) (rest : List String)

theorem touched_mark (fired : List Firing) (m : Node) :
    (w.eat token rest { (w.pass.choosing id flag).mark id with fired }).Touched m ↔
      w.Touched m ∨ m = .flag id := by
  set w' := w.eat token rest { (w.pass.choosing id flag).mark id with fired }
  rcases m with x | a
  · have hm : w'.pass.isMatched x = (w.pass.isMatched x || x == id) := by
      rw [← Pass.isMatched_choosing w.pass id flag x, ← Pass.isMatched_mark]
      rfl
    simp only [Walk.Touched, hm, Bool.or_eq_true, beq_iff_eq, Node.flag.injEq]
    exact or_right_comm
  · simp only [reduceCtorEq, or_false]
    rw [Walk.Touched, Walk.Touched, ← Pass.isFilled_choosing w.pass id flag]
    rfl

theorem touched_descend (store : StoreId) (m : Node) :
    Walk.Touched { w.eat token rest (w.pass.choosing id flag) with
      frames := { owner := id, flag, store } :: w.frames } m ↔ w.Touched m ∨ m = .flag id := by
  rcases m with x | a
  · have ho : (∃ f ∈ { owner := id, flag, store } :: w.frames, f.owner = x) ↔
        w.IsOpen x ∨ x = id := by
      simp [Walk.IsOpen, or_comm, eq_comm]
    simp only [Walk.Touched, Walk.eat, Pass.isMatched_choosing, Node.flag.injEq]
    rw [Walk.IsOpen, ho]
    exact or_assoc.symm
  · simp [Walk.Touched, Walk.eat]

theorem touched_fill (a : ArgId) (v : Value) (m : Node) :
    (w.eat token rest (w.pass.fill a v)).Touched m ↔ w.Touched m ∨ m = .arg a := by
  rcases m with x | b
  · simp only [Walk.Touched, Walk.eat, Pass.isMatched_fill, reduceCtorEq, or_false]
    rfl
  · simp [Walk.Touched, Walk.eat]

variable {w} in
/-- The flag of a store that is closed was touched before. -/
theorem touched_close {f : Frame} {frames : List Frame} (hf : w.frames = f :: frames) (m : Node) :
    Walk.Touched { w with frames, pass := w.pass.complete f.owner f.flag } m ↔ w.Touched m := by
  rcases m with x | a
  · simp only [Walk.Touched, Walk.IsOpen, Pass.isMatched_complete, hf, List.mem_cons,
      exists_eq_or_imp, Bool.or_eq_true, beq_iff_eq, eq_comm (a := x)]
    exact or_assoc
  · simp [Walk.Touched]

end Touch

section Take

variable {id : FlagId} {flag : Flag}

/-- The choice in a group, when one of its members is touched for the first time. -/
theorem Sound.choose (hw : s.Sound w) (hf : s.flag? id = some flag)
    (hg : w.pass.rival? flag = none) (ht : ∀ m, w'.Touched m ↔ w.Touched m ∨ m = .flag id)
    (hc : ∀ g, w'.pass.chosen? g = (w.pass.choosing id flag).chosen? g) :
    (∀ {g m}, w'.pass.chosen? g = some m →
      w'.Touched (.flag m) ∧ ∃ f, s.flag? m = some f ∧ f.group = some g) ∧
    ∀ {id' f g}, w'.Touched (.flag id') → s.flag? id' = some f → f.group = some g →
      w'.pass.chosen? g = some id' := by
  have hg := rival?_eq_none.1 hg
  refine ⟨fun {g m} h => ?_, fun {id' f g} h hf' hfg => ?_⟩
  · rw [hc, Pass.chosen?_choosing] at h
    rcases ho : w.pass.chosen? g with _ | m'
    · rw [ho] at h
      simp only [Option.none_or, Option.ite_none_right_eq_some, Option.some.injEq] at h
      obtain ⟨hfg, rfl⟩ := h
      exact ⟨(ht _).2 (.inr rfl), flag, hf, hfg⟩
    · rw [ho] at h
      cases h
      exact ⟨(ht _).2 (.inl (hw.chosen_member ho).1), (hw.chosen_member ho).2⟩
  · rw [hc, Pass.chosen?_choosing]
    rcases (ht _).1 h with h | h
    · rw [hw.member_chosen h hf' hfg]
      rfl
    · cases h
      obtain rfl := Option.some.inj (hf'.symm.trans hf)
      simp [hg g hfg, hfg]

theorem Sound.group_matched_choosing (hw : s.Sound w) (g : GroupId) :
    (w.pass.choosing id flag).isGroupMatched g =
      ((w.pass.choosing id flag).chosen? g).isSome := by
  rw [Pass.isGroupMatched_choosing, Pass.chosen?_choosing, hw.group_matched]
  by_cases h : flag.group = some g <;> simp [h]

theorem Sound.mark (hw : s.Sound w) (ha : s.WellFormed) {token : String} {rest : List String}
    (hk : s.keyFlag? w.top token = some (id, flag)) (hg : w.pass.rival? flag = none)
    (hc : flag.children = none) (fired : List Firing) :
    s.Sound (w.eat token rest { (w.pass.choosing id flag).mark id with fired }) := by
  obtain ⟨hkey, hf, -⟩ := keyFlag?_eq_some ha.toLinked hk
  have hhome : s.Home (.flag id) w.top := ⟨token, hkey⟩
  set w' := w.eat token rest { (w.pass.choosing id flag).mark id with fired } with hw'
  have hm : ∀ x, w'.pass.isMatched x = (w.pass.isMatched x || x == id) := fun x => by
    rw [← Pass.isMatched_choosing w.pass id flag x, ← Pass.isMatched_mark]
    rfl
  have hgrow : w.pass.Grows w'.pass :=
    Pass.grows_choosing.trans (Pass.grows_mark.trans Pass.grows_fired)
  have ht : ∀ m, w'.Touched m ↔ w.Touched m ∨ m = .flag id := touched_mark w token rest fired
  have hch := hw.choose hf hg ht fun g => rfl
  exact {
    chain := hw.chain
    open_unmatched := by
      rintro x ⟨f, hfm, rfl⟩
      have hne := Chain.owner_ne ha hw.chain hhome hfm
      rw [hm, hw.open_unmatched ⟨f, hfm, rfl⟩]
      simpa using hne
    known := fun hn => ((ht _).1 hn).elim hw.known fun h => ⟨w.top, h ▸ hhome⟩
    reached := hw.reached_touch ha hhome ht
    chosen_member := hch.1
    member_chosen := hch.2
    matched_filled := by
      intro x f store hx hfx hcx
      rw [hm, Bool.or_eq_true, beq_iff_eq] at hx
      rcases hx with hx | rfl
      · exact (hw.matched_filled hx hfx hcx).grows hgrow
      · obtain rfl := Option.some.inj (hfx.symm.trans hf)
        rw [hc] at hcx
        cases hcx
    group_matched := hw.group_matched_choosing
    arg_value := fun a => by
      have := hw.arg_value a
      rw [← Pass.isFilled_choosing w.pass id flag, ← Pass.value?_choosing w.pass id flag] at this
      exact this }

/-- A flag with content opens its store. -/
theorem Sound.descend (hw : s.Sound w) (ha : s.WellFormed) {token : String} {rest : List String}
    {store : StoreId} (hk : s.keyFlag? w.top token = some (id, flag))
    (hm : w.pass.isMatched id = false) (hg : w.pass.rival? flag = none)
    (hc : flag.children = some store) :
    s.Sound { w.eat token rest (w.pass.choosing id flag) with
      frames := { owner := id, flag, store } :: w.frames } := by
  obtain ⟨hkey, hf, hft⟩ := keyFlag?_eq_some ha.toLinked hk
  have hhome : s.Home (.flag id) w.top := ⟨token, hkey⟩
  set w' : Walk := { w.eat token rest (w.pass.choosing id flag) with
    frames := { owner := id, flag, store } :: w.frames } with hw'
  have hpass : w'.pass = w.pass.choosing id flag := rfl
  have hopen : ∀ x, w'.IsOpen x ↔ w.IsOpen x ∨ x = id := fun x => by
    simp [Walk.IsOpen, hw', or_comm, eq_comm]
  have ht : ∀ m, w'.Touched m ↔ w.Touched m ∨ m = .flag id :=
    touched_descend w token rest store
  have hch := hw.choose hf hg ht fun g => rfl
  exact {
    chain := ⟨hf, hc, by rw [hft]; exact hkey, hw.chain⟩
    open_unmatched := by
      intro x hx
      rw [hpass, Pass.isMatched_choosing]
      rcases (hopen x).1 hx with hx | rfl
      · exact hw.open_unmatched hx
      · exact hm
    known := fun hn => ((ht _).1 hn).elim hw.known fun h => ⟨w.top, h ▸ hhome⟩
    reached := hw.reached_touch ha hhome ht
    chosen_member := hch.1
    member_chosen := hch.2
    matched_filled := by
      intro x f store' hx hfx hcx
      rw [hpass, Pass.isMatched_choosing] at hx
      exact (hw.matched_filled hx hfx hcx).grows Pass.grows_choosing
    group_matched := hw.group_matched_choosing
    arg_value := fun a => by
      simpa [hpass] using hw.arg_value a }

end Take

theorem Sound.fill (hw : s.Sound w) (ha : s.WellFormed) {token : String} {rest : List String}
    {id : ArgId} {v : Value} (hn : id ∈ s.argsOf w.top) :
    s.Sound (w.eat token rest (w.pass.fill id v)) := by
  set w' := w.eat token rest (w.pass.fill id v) with hw'
  have hpass : w'.pass = w.pass.fill id v := rfl
  have ht : ∀ m, w'.Touched m ↔ w.Touched m ∨ m = .arg id := touched_fill w token rest id v
  have hflag : ∀ x, w'.Touched (.flag x) ↔ w.Touched (.flag x) := fun x => by simp [ht]
  exact {
    chain := hw.chain
    open_unmatched := hw.open_unmatched
    known := fun hm => ((ht _).1 hm).elim hw.known fun h => ⟨w.top, h ▸ hn⟩
    reached := hw.reached_touch ha (n := .arg id) hn ht
    chosen_member := fun h =>
      ⟨(hflag _).2 (hw.chosen_member h).1, (hw.chosen_member h).2⟩
    member_chosen := fun h => hw.member_chosen ((hflag _).1 h)
    matched_filled := fun hx hf hc => (hw.matched_filled hx hf hc).grows Pass.grows_fill
    group_matched := hw.group_matched
    arg_value := fun a => by
      rw [hpass, Pass.isFilled_fill, Pass.value?_fill, hw.arg_value]
      by_cases h : a = id <;> simp [h] }

theorem Sound.close (hw : s.Sound w) (ha : s.WellFormed) {f : Frame} {frames : List Frame}
    (hf : w.frames = f :: frames) (hs : s.Filled w.pass w.top) :
    s.Sound { w with frames, pass := w.pass.complete f.owner f.flag } := by
  set w' : Walk := { w with frames, pass := w.pass.complete f.owner f.flag } with hw'
  have hpass : w'.pass = w.pass.complete f.owner f.flag := rfl
  obtain ⟨hfl, hch, hkey, hchain⟩ := hf ▸ hw.chain
  have ht : ∀ m, w'.Touched m ↔ w.Touched m := touched_close hf
  have htop : w.top = f.store := by simp [Walk.top, Walk.topOf, hf]
  exact {
    chain := hchain
    open_unmatched := by
      rintro x ⟨f', hf', rfl⟩
      have hne := Chain.owner_ne ha hchain ⟨_, hkey⟩ hf'
      have hold := hw.open_unmatched ⟨f', by rw [hf]; exact List.mem_cons_of_mem _ hf', rfl⟩
      rw [hpass, Pass.isMatched_complete, hold]
      simpa using hne
    known := fun hn => hw.known ((ht _).1 hn)
    reached := fun hn hs => (hw.reached ((ht _).1 hn) hs).mono fun id => (ht _).2
    chosen_member := by
      intro g m h
      rw [hpass, Pass.chosen?_complete] at h
      exact ⟨(ht _).2 (hw.chosen_member h).1, (hw.chosen_member h).2⟩
    member_chosen := by
      intro id f' g h hf' hg
      rw [hpass, Pass.chosen?_complete]
      exact hw.member_chosen ((ht _).1 h) hf' hg
    matched_filled := by
      intro x f' store hx hf' hc
      rw [hpass, Pass.isMatched_complete, Bool.or_eq_true, beq_iff_eq] at hx
      rcases hx with hx | rfl
      · exact (hw.matched_filled hx hf' hc).grows Pass.grows_complete
      · obtain rfl := Option.some.inj (hf'.symm.trans hfl)
        obtain rfl := Option.some.inj (hc.symm.trans hch)
        exact (htop ▸ hs).grows Pass.grows_complete
    group_matched := by simpa [hpass] using hw.group_matched
    arg_value := by simpa [hpass] using hw.arg_value }

theorem Sound.advance (hw : s.Sound w) (ha : s.WellFormed) (h : s.Advance w w') :
    s.Sound w' := by
  cases h with
  | simple hr hk hm hg hh hc =>
    rw [Pass.complete_eq]
    exact hw.mark ha hk hg hc _
  | nested hr hk hm hg hh hc => exact hw.descend ha hk hm hg hc
  | fill hr hk ht => exact hw.fill ha (taker?_eq_some ht).1
  | close hf hn hs => exact hw.close ha hf (shortfall?_eq_none.1 hs)

theorem Sound.halt {o : Except ParseError Outcome} (hw : s.Sound w) (ha : s.WellFormed)
    (h : s.Halt w w' o) : s.Sound w' := by
  cases h with
  | help hr hk hm hg hh =>
    obtain ⟨f, hf, -, -, hc, -⟩ := ha.help_flag hh
    obtain ⟨-, hf', -⟩ := keyFlag?_eq_some ha.toLinked hk
    obtain rfl := Option.some.inj (hf'.symm.trans hf)
    exact hw.mark ha hk hg hc _
  | repeated | conflict | refused | lacking | parsed | leftover => exact hw

theorem sound_start (tokens : List String) : s.Sound { rest := tokens } where
  chain := trivial
  open_unmatched := fun _ => rfl
  known {n} h := by
    rcases n with x | a <;> simp [Walk.Touched, Walk.IsOpen, Pass.isMatched, Pass.isFilled] at h
  reached {n store} h := by
    rcases n with x | a <;> simp [Walk.Touched, Walk.IsOpen, Pass.isMatched, Pass.isFilled] at h
  chosen_member h := by simp [Pass.chosen?] at h
  member_chosen h := by simp [Walk.Touched, Walk.IsOpen, Pass.isMatched] at h
  matched_filled h := by simp [Pass.isMatched] at h
  group_matched _ := rfl
  arg_value _ := rfl

theorem Sound.reaches (hw : s.Sound w) (ha : s.WellFormed)
    (h : Relation.ReflTransGen s.Advance w w') : s.Sound w' := by
  induction h with
  | refl => exact hw
  | tail _ h ih => exact ih.advance ha h

theorem sound_of_reaches (ha : s.WellFormed) {tokens : List String}
    (h : Relation.ReflTransGen s.Advance { rest := tokens } w) : s.Sound w :=
  (sound_start tokens).reaches ha h

end Scheme

end CommandGrammar
