import CommandGrammar.Proofs.Placement
import CommandGrammar.Proofs.Sound

/-!
# Counting units

A store compares how many mandatory units it has met with how many it has. No unit is met twice, so
the counts are equal only if every single unit has been met. A flag that matches is met as one unit
of its own store, whether it stands for itself or for its group, and an argument likewise; the
counts of all other stores stay as they are.
-/

namespace CommandGrammar

section Count

variable {α : Type} {a b b' : α → Bool}

/-- As many elements as not are counted, unless one is left out. -/
theorem countP_and_lt_countP : ∀ {l : List α},
    l.countP (fun x => a x && b x) < l.countP a ↔ (l.any fun x => a x && !b x) = true
  | [] => by simp
  | x :: l => by
    have ih := countP_and_lt_countP (l := l)
    have hle : l.countP (fun x => a x && b x) ≤ l.countP a :=
      List.countP_mono_left fun y _ hy => (Bool.and_eq_true_iff.1 hy).1
    rw [List.countP_cons, List.countP_cons, List.any_cons, Bool.or_eq_true, ← ih]
    cases a x <;> cases b x <;> simp
    omega

/-- One element more is counted. -/
theorem countP_and_of_gain [DecidableEq α] {x : α} (hx : b x = false) : ∀ {l : List α},
    l.Nodup → x ∈ l → (∀ y ∈ l, b' y = (b y || y == x)) →
      l.countP (fun y => a y && b' y) = l.countP (fun y => a y && b y) + if a x then 1 else 0
  | [], _, h, _ => by simp at h
  | y :: l, hn, h, hb => by
    obtain ⟨hy, hn⟩ := List.nodup_cons.1 hn
    have hb' := List.forall_mem_cons.1 hb
    rw [List.countP_cons, List.countP_cons]
    by_cases hyx : y = x
    · subst hyx
      have hl : l.countP (fun z => a z && b' z) = l.countP (fun z => a z && b z) := by
        refine List.countP_congr fun z hz => ?_
        have hzy : z ≠ y := fun h => hy (h ▸ hz)
        rw [hb'.2 z hz, beq_eq_false_iff_ne.2 hzy, Bool.or_false]
      rw [hl, hb'.1, hx]
      simp
    · have ih := countP_and_of_gain hx hn ((List.mem_cons.1 h).resolve_left fun h => hyx h.symm)
        hb'.2
      rw [ih, hb'.1, beq_eq_false_iff_ne.2 hyx, Bool.or_false]
      omega

end Count

def Flag.unit (id : FlagId) (flag : Flag) : Entry :=
  match flag.group with
  | none => .flag id
  | some group => .group group

namespace Scheme

variable (s : Scheme)

/-- The mandatory units of a store that a pass has met. -/
def metUnits (p : Pass) (store : StoreId) : Met where
  flags := (s.listing store).countP fun e => s.unitPolicy? e = some .mandatory && p.meets e
  args := (s.argsOf store).countP fun id => s.argPolicy? id = some .mandatory && p.isFilled id

variable {s} {p p' : Pass} {store : StoreId}

theorem metUnits_flags_lt (ha : s.WellFormed) {st : Store} (hst : s.store? store = some st) :
    (s.metUnits p store).flags < st.flagTally.mandatory ↔ s.lacksFlag p store = true := by
  rw [ha.flagTally hst, ofUnits_filterMap, lacksFlag, ← countP_and_lt_countP]
  simp [metUnits, listing, hst]

theorem metUnits_args_lt (ha : s.WellFormed) {st : Store} (hst : s.store? store = some st) :
    (s.metUnits p store).args < st.argTally.mandatory ↔ s.lacksArg p store = true := by
  rw [ha.argTally hst, ofUnits_filterMap, lacksArg, ← countP_and_lt_countP]
  simp [metUnits, argsOf, hst]

/-- The counts of a store tell what it lacks. -/
theorem lack?_metUnits (ha : s.WellFormed) (p : Pass) (store : StoreId) (rest : List String) :
    s.lack? store (s.metUnits p store) p rest = s.shortfall? p store rest := by
  unfold lack? shortfall?
  rcases hst : s.store? store with _ | st
  · simp [lacksFlag, lacksArg, listing, argsOf, hst]
  · rcases rest with _ | ⟨token, rest⟩ <;>
      simp only [metUnits_flags_lt ha hst, metUnits_args_lt ha hst]

/-- What leaves the nodes of a store as they are leaves its counts as they are. -/
theorem metUnits_congr (hf : ∀ e ∈ s.listing store, p'.meets e = p.meets e)
    (ha : ∀ id ∈ s.argsOf store, p'.isFilled id = p.isFilled id) :
    s.metUnits p' store = s.metUnits p store := by
  simp only [metUnits, Met.mk.injEq]
  exact ⟨List.countP_congr fun e he => by rw [hf e he],
    List.countP_congr fun id hid => by rw [ha id hid]⟩

/-- A flag is the only one of its unit that can match: it is no member, or it is the member used in
its group. -/
def Stands (p : Pass) (id : FlagId) (flag : Flag) : Prop :=
  ∀ g, p.chosen? g = some id ↔ flag.group = some g

theorem Sound.stands {w : Walk} (hw : s.Sound w) {id : FlagId} {flag : Flag}
    (hf : s.flag? id = some flag) (ht : w.Touched (.flag id)) : Stands w.pass id flag := by
  intro g
  refine ⟨fun h => ?_, hw.member_chosen ht hf⟩
  obtain ⟨-, f, hf', hg⟩ := hw.chosen_member h
  obtain rfl := Option.some.inj (hf'.symm.trans hf)
  exact hg

theorem Sound.stands_choosing {w : Walk} (hw : s.Sound w) {id : FlagId} {flag : Flag}
    (hf : s.flag? id = some flag) (hg : w.pass.rival? flag = none) :
    Stands (w.pass.choosing id flag) id flag := by
  intro g
  rw [Pass.chosen?_choosing]
  by_cases h : flag.group = some g
  · simp [rival?_eq_none.1 hg g h, h]
  · simp only [h, if_false, Option.or_none, iff_false]
    intro hc
    obtain ⟨-, f, hf', hg'⟩ := hw.chosen_member hc
    obtain rfl := Option.some.inj (hf'.symm.trans hf)
    exact h hg'

/-- Only its own unit is met when a flag matches. -/
theorem meets_complete (ha : s.WellFormed) {id : FlagId} {flag : Flag}
    (hf : s.flag? id = some flag) (hs : Stands p id flag) {e : Entry} (he : e ∈ s.listing store) :
    (p.complete id flag).meets e = (p.meets e || e == flag.unit id) := by
  rcases e with x | g
  · simp only [Pass.meets, Pass.isMatched_complete]
    congr 1
    by_cases hx : x = id
    · subst hx
      obtain ⟨f, hf', hg, -⟩ := ha.flag_listed he
      obtain rfl := Option.some.inj (hf'.symm.trans hf)
      simp [Flag.unit, hg]
    · rcases hg : flag.group with _ | g <;> simp [Flag.unit, hg, hx]
  · have hu : (Entry.group g == flag.unit id) = (flag.group == some g) := by
      rcases hg : flag.group with _ | g' <;> simp [Flag.unit, hg, Bool.beq_eq_decide_eq, eq_comm]
    simp only [Pass.meets, Pass.chosen?_complete, hu]
    rcases hc : p.chosen? g with _ | m
    · have : flag.group ≠ some g := fun h => by simp [(hs g).2 h] at hc
      simpa using this
    · have : (m == id) = (flag.group == some g) := by
        rw [Bool.eq_iff_iff, beq_iff_eq, beq_iff_eq, ← hs g, hc, Option.some.injEq]
      simp [this]

theorem meets_unit {id : FlagId} {flag : Flag} (hs : Stands p id flag) :
    p.meets (flag.unit id) = p.isMatched id := by
  unfold Flag.unit
  rcases hg : flag.group with _ | g
  · rfl
  · simp [Pass.meets, (hs g).2 hg]

theorem unit_mem_listing (ha : s.WellFormed) {key : String} {id : FlagId} {flag : Flag}
    (hk : (key, id) ∈ s.keysOf store) (hf : s.flag? id = some flag) :
    flag.unit id ∈ s.listing store ∧ s.unitPolicy? (flag.unit id) = some flag.policy := by
  unfold Flag.unit
  rcases ha.listed_of_key hk hf with ⟨hg, he⟩ | ⟨group, g, hfg, hg, hm, hp, -, he⟩
  · rw [hg]
    exact ⟨he, by simp [unitPolicy?, hf]⟩
  · rw [hfg]
    have : g.members ≠ [] := List.ne_nil_of_mem hm
    exact ⟨he, by simp [unitPolicy?, hg, this, hp]⟩

theorem home_of_group (ha : s.WellFormed) {id : FlagId} {flag : Flag} {g : GroupId}
    (hf : s.flag? id = some flag) (hg : flag.group = some g) (he : .group g ∈ s.listing store) :
    s.Home (.flag id) store := by
  obtain ⟨store', hk⟩ := ha.exists_key_store hf
  rcases ha.listed_of_key hk hf with ⟨hn, -⟩ | ⟨g', gr, hg', hgr, -, -, hs, -⟩
  · rw [hg] at hn
    cases hn
  · obtain rfl := Option.some.inj (hg.symm.trans hg')
    obtain ⟨gr', hgr', rfl⟩ := ha.group_listed he
    obtain rfl := Option.some.inj (hgr.symm.trans hgr')
    rw [hs]
    exact ⟨_, hk⟩

/-- A unit stands in the listing of the store in which its flag is keyed, and in no other. -/
theorem home_of_unit (ha : s.WellFormed) {id : FlagId} {flag : Flag} (hf : s.flag? id = some flag)
    (he : flag.unit id ∈ s.listing store) : s.Home (.flag id) store := by
  unfold Flag.unit at he
  split at he
  · obtain ⟨f, -, -, hk⟩ := ha.flag_listed he
    exact ⟨_, hk⟩
  · exact home_of_group ha hf ‹_› he

section Step

variable {id : FlagId} {flag : Flag}

/-- A flag that matches is one unit more in its store. -/
theorem metUnits_complete (ha : s.WellFormed) {key : String} (hk : (key, id) ∈ s.keysOf store)
    (hf : s.flag? id = some flag) (hs : Stands p id flag) (hm : p.isMatched id = false) :
    s.metUnits (p.complete id flag) store = (s.metUnits p store).countFlag flag.policy := by
  obtain ⟨hu, hp⟩ := unit_mem_listing ha hk hf
  have hflags := countP_and_of_gain (a := fun e => s.unitPolicy? e = some .mandatory)
    ((meets_unit hs).trans hm) (ha.listing_nodup store) hu fun e => meets_complete ha hf hs
  simp only [metUnits, hflags, hp, Pass.isFilled_complete]
  rcases flag.policy <;> simp [Met.countFlag]

/-- A flag that matches changes nothing in other stores. -/
theorem metUnits_complete_of_not_home (ha : s.WellFormed) (hf : s.flag? id = some flag)
    (hs : Stands p id flag) (hn : ¬s.Home (.flag id) store) :
    s.metUnits (p.complete id flag) store = s.metUnits p store := by
  refine metUnits_congr (fun e he => ?_) fun a _ => by simp
  have hne : (e == flag.unit id) = false :=
    beq_eq_false_iff_ne.2 fun h => hn (home_of_unit ha hf (h ▸ he))
  rw [meets_complete ha hf hs he, hne, Bool.or_false]

theorem metUnits_choosing (hm : p.isMatched id = false) (hg : p.rival? flag = none) :
    s.metUnits (p.choosing id flag) store = s.metUnits p store := by
  refine metUnits_congr (fun e _ => ?_) fun a _ => by simp
  rcases e with x | g
  · simp [Pass.meets]
  · simp only [Pass.meets, Pass.chosen?_choosing]
    by_cases h : flag.group = some g
    · simp [rival?_eq_none.1 hg g h, h, hm]
    · simp only [h, if_false, Option.or_none]
      congr 1
      funext x
      simp

theorem metUnits_fill (ha : s.WellFormed) {a : ArgId} {arg : Positional} {v : Value}
    (hn : a ∈ s.argsOf store) (harg : s.arg? a = some arg) (hf : p.isFilled a = false) :
    s.metUnits (p.fill a v) store = (s.metUnits p store).countArg arg.policy := by
  have hargs := countP_and_of_gain (a := fun x => s.argPolicy? x = some .mandatory)
    hf (ha.args_nodup store) hn fun x _ => Pass.isFilled_fill p a v x
  have hp : s.argPolicy? a = some arg.policy := by simp [argPolicy?, harg]
  simp only [metUnits, hargs, hp]
  rcases arg.policy <;> simp [Met.countArg] <;> rfl

theorem metUnits_fill_of_not_mem {a : ArgId} {v : Value} (hn : a ∉ s.argsOf store) :
    s.metUnits (p.fill a v) store = s.metUnits p store := by
  refine metUnits_congr (fun e _ => ?_) fun x hx => ?_
  · rcases e with x | g <;> rfl
  · have hne : (x == a) = false := beq_eq_false_iff_ne.2 fun h => hn (h ▸ hx)
    rw [Pass.isFilled_fill, hne, Bool.or_false]

end Step

theorem metUnits_start (store : StoreId) : s.metUnits {} store = {} := by
  simp only [metUnits, Met.mk.injEq, List.countP_eq_zero]
  exact ⟨fun e _ => by rcases e <;> simp [Pass.meets, Pass.isMatched, Pass.chosen?],
    fun id _ => by simp [Pass.isFilled]⟩

/-- No unit of a store is met that has not been reached. -/
theorem Sound.metUnits_eq_zero {w : Walk} (hw : s.Sound w) (ha : s.WellFormed)
    (hr : ¬s.Reached w store) : s.metUnits w.pass store = {} := by
  have hflag : ∀ e ∈ s.listing store, w.pass.meets e = false := by
    intro e he
    rw [← Bool.not_eq_true]
    intro hm
    rcases e with id | g
    · obtain ⟨f, -, -, hk⟩ := ha.flag_listed he
      exact hr (hw.reached (n := .flag id) (.inl hm) ⟨_, hk⟩)
    · obtain ⟨m, hc, hm⟩ := (Option.any_eq_true _ _).1 hm
      obtain ⟨ht, f, hf, hg⟩ := hw.chosen_member hc
      exact hr (hw.reached ht (home_of_group ha hf hg he))
  have harg : ∀ id ∈ s.argsOf store, w.pass.isFilled id = false := by
    intro id hid
    rw [← Bool.not_eq_true]
    intro hf
    exact hr (hw.reached (n := .arg id) hf hid)
  have hflags : s.metUnits w.pass store = ⟨0, 0⟩ := by
    simp only [metUnits, Met.mk.injEq, List.countP_eq_zero]
    exact ⟨fun e he => by simp [hflag e he], fun id hid => by simp [harg id hid]⟩
  exact hflags

end Scheme

end CommandGrammar
