import CommandGrammar.Proofs.Exclusivity
import CommandGrammar.Scheme.Usage

/-!
# The options that an error names

When a store stops short of something, the error names what the store could still use. Which flags
these are is found twice: the list goes through the listing of the store and asks what has matched
and what was chosen, a store that reads looks a key up and asks the flag. The two agree as long as
no member of a group has matched without being chosen, which holds in every pass.
-/

namespace CommandGrammar.Scheme

open Relation

variable (s : Scheme)

/-- The flags of a level in the order of registration, members where their group stands. -/
def flagsOf (store : StoreId) : List FlagId := (s.listing store).flatMap s.entryFlags

/-- The flags of a level in the order in which they are offered: the one that asks for help is one
of the root, and comes last there. -/
def menu (store : StoreId) : List FlagId :=
  (s.flagsOf store).filter (fun id => s.help ≠ some id) ++
    if store = root then s.help.toList else []

/-- A store that reads a key, with nothing behind it, sees neither a repetition nor a conflict. -/
def IsUsable (p : Pass) (store : StoreId) (met : Met) (key : String) : Prop :=
  ∀ e, (s.readStore store met p [key]).ending = .failed e →
    e.kind ≠ .repeatedFlag ∧ e.kind ≠ .exclusiveConflict

/-- Options name the flags of a store that are usable, each once, and no others. -/
structure NamesFlags (p : Pass) (store : StoreId) (ids : List FlagId) (options : List String) :
    Prop where
  texts : options.map some =
    ids.map fun id => (s.flag? id).map fun f => if f.policy = .optional then "[" ++ f.key ++ "]"
      else f.key
  keyed : ∀ {id}, id ∈ ids → ∃ key, s.keyed? store key = some id
  startable : ∀ {key id flag}, s.keyFlag? store key = some (id, flag) →
    (id ∈ ids ↔ ∃ p', s.start p id flag = .ok p')
  usable : ∀ {key id} (met : Met), s.keyed? store key = some id →
    (id ∈ ids ↔ s.IsUsable p store met key)
  once : (ids.map s.key?).Nodup
  order : ids.Sublist (s.menu store)
  menu_once : (s.menu store).Nodup

/-- Options name the arguments of a store that have not matched. -/
def NamesArgs (p : Pass) (store : StoreId) (options : List String) : Prop :=
  options.map some = ((s.argsOf store).filter fun id => !p.isFilled id).map fun id =>
    (s.arg? id).map fun a => if a.policy = .optional then "[" ++ a.name ++ "]" else a.name

/-- The innermost store that is open when a pass ends. -/
def stopsIn (tokens : List String) : StoreId := (s.walk { rest := tokens }).1.top

/-- What a store reports that stops where the pass ends. -/
inductive Reports (w : Walk) : ParseError → Prop where
  | flags (hr : w.rest = []) (hf : s.lacksFlag w.pass w.top = true) :
      Reports w (.missingMandatoryFlag (s.availableFlags w.pass w.top))
  | args (hr : w.rest = []) (hf : s.lacksFlag w.pass w.top = false)
      (ha : s.lacksArg w.pass w.top = true) :
      Reports w (.missingMandatoryArgument (s.availableArgs w.pass w.top))
  | token {token} (hk : s.keyFlag? w.top token = none) (hd : s.AllDecline w.pass w.top token)
      (hl : s.lacksFlag w.pass w.top = true ∨ w.top = root ∧ s.Filled w.pass w.top) :
      Reports w (.unexpectedArgument token
        (s.availableFlags w.pass w.top ++ s.availableArgs w.pass w.top))

/-- The options of an error are what the store that raised it could still use. -/
structure NamesOptions (tokens : List String) (p : Pass) (outcome : Except ParseError Outcome) :
    Prop where
  missing : ∀ {options}, outcome = .error (.missingMandatoryFlag options) →
    ∃ ids, s.NamesFlags p (s.stopsIn tokens) ids options
  unexpected : ∀ {token options}, outcome = .error (.unexpectedArgument token options) →
    ∃ ids flags args, options = flags ++ args ∧ s.NamesFlags p (s.stopsIn tokens) ids flags ∧
      s.NamesArgs p (s.stopsIn tokens) args

variable {s} {p : Pass} {store : StoreId} {id : FlagId} {flag : Flag} {e : Entry}

section Menu

/-- A flag of a level is one of its own unit only. -/
theorem eq_unit_of_mem_entryFlags (ha : s.WellFormed) (he : e ∈ s.listing store)
    (hid : id ∈ s.entryFlags e) (hf : s.flag? id = some flag) : e = flag.unit id := by
  rcases e with x | g
  · obtain rfl := List.mem_singleton.1 hid
    obtain ⟨f, hf', hg, -⟩ := ha.flag_listed he
    obtain rfl := Option.some.inj (hf'.symm.trans hf)
    simp [Flag.unit, hg]
  · obtain ⟨f, hf', hg⟩ := group_of_mem_members ha hid
    obtain rfl := Option.some.inj (hf'.symm.trans hf)
    simp [Flag.unit, hg]

theorem mem_flagsOf (ha : s.WellFormed) :
    id ∈ s.flagsOf store ↔ ∃ key, (key, id) ∈ s.keysOf store := by
  rw [flagsOf, List.mem_flatMap]
  constructor
  · rintro ⟨x | g, he, hid⟩
    · obtain rfl := List.mem_singleton.1 hid
      obtain ⟨f, -, -, hk⟩ := ha.flag_listed he
      exact ⟨f.key, hk⟩
    · obtain ⟨gr, hgr, rfl⟩ := ha.group_listed he
      obtain ⟨gr', hgr', hm⟩ := mem_members.1 hid
      obtain rfl := Option.some.inj (hgr.symm.trans hgr')
      obtain ⟨f, -, -, -, hk⟩ := ha.member hgr hm
      exact ⟨f.key, hk⟩
  · rintro ⟨key, hk⟩
    obtain ⟨f, hf, -⟩ := exists_flag_of_key? (ha.key_eq hk)
    rcases ha.listed_of_key hk hf with ⟨-, he⟩ | ⟨g, gr, -, hgr, hm, -, -, he⟩
    · exact ⟨_, he, List.mem_singleton.2 rfl⟩
    · exact ⟨_, he, mem_members.2 ⟨gr, hgr, hm⟩⟩

theorem exists_flag_of_mem_flagsOf (ha : s.WellFormed) (h : id ∈ s.flagsOf store) :
    ∃ f, s.flag? id = some f := by
  obtain ⟨key, hk⟩ := (mem_flagsOf ha).1 h
  obtain ⟨f, hf, -⟩ := exists_flag_of_key? (ha.key_eq hk)
  exact ⟨f, hf⟩

theorem flagsOf_nodup (ha : s.WellFormed) (store : StoreId) : (s.flagsOf store).Nodup := by
  refine List.nodup_flatMap.2 ⟨fun e he => ?_, (ha.listing_nodup store).imp_of_mem ?_⟩
  · rcases e with x | g
    · exact List.nodup_singleton x
    · obtain ⟨gr, hgr, -⟩ := ha.group_listed he
      simpa [entryFlags, members, hgr] using ha.members_nodup hgr
  · intro e e' he he' hne x hx hx'
    have hmem : x ∈ s.flagsOf store := List.mem_flatMap.2 ⟨e, he, hx⟩
    obtain ⟨f, hf⟩ := exists_flag_of_mem_flagsOf ha hmem
    exact hne ((eq_unit_of_mem_entryFlags ha he hx hf).trans
      (eq_unit_of_mem_entryFlags ha he' hx' hf).symm)

/-- The flag that asks for help is one of the root and of no other store. -/
theorem help_mem_flagsOf (ha : s.WellFormed) (hh : s.help = some id) :
    id ∈ s.flagsOf store ↔ store = root := by
  obtain ⟨f, -, -, -, -, hl⟩ := ha.help_flag hh
  have hroot : id ∈ s.flagsOf root := List.mem_flatMap.2 ⟨_, hl, List.mem_singleton.2 rfl⟩
  refine ⟨fun h => ?_, fun h => h ▸ hroot⟩
  obtain ⟨key, hk⟩ := (mem_flagsOf ha).1 h
  obtain ⟨key', hk'⟩ := (mem_flagsOf ha).1 hroot
  exact ha.key_store_unique hk hk'

theorem mem_menu (ha : s.WellFormed) : id ∈ s.menu store ↔ id ∈ s.flagsOf store := by
  by_cases hh : s.help = some id
  · rw [help_mem_flagsOf ha hh]
    by_cases hr : store = root <;> simp [menu, hh, hr]
  · have hne : id ∉ (if store = root then s.help.toList else []) := by
      split_ifs
      · simpa using hh
      · exact List.not_mem_nil
    simp only [menu, List.mem_append, List.mem_filter, hne]
    simp [hh]

theorem mem_menu_iff_keyed (ha : s.WellFormed) :
    id ∈ s.menu store ↔ ∃ key, (key, id) ∈ s.keysOf store :=
  (mem_menu ha).trans (mem_flagsOf ha)

theorem menu_nodup (ha : s.WellFormed) (store : StoreId) : (s.menu store).Nodup := by
  refine List.nodup_append.2 ⟨(flagsOf_nodup ha store).filter _, ?_, ?_⟩
  · split_ifs
    · rcases s.help with _ | help <;> simp
    · exact List.nodup_nil
  · rintro a hm b hb rfl
    rw [List.mem_filter, decide_eq_true_iff] at hm
    split_ifs at hb
    · exact hm.2 (Option.mem_toList.1 hb)
    · cases hb

theorem filter_flatMap_eq {α β : Type} {f : α → List β} {q : β → Bool} {r : α → Bool} :
    ∀ {l : List α}, (∀ a ∈ l, (f a).filter q = if r a then f a else []) →
      (l.flatMap f).filter q = (l.filter r).flatMap f
  | [], _ => rfl
  | a :: l, h => by
    have ih := filter_flatMap_eq (l := l) fun b hb => h b (List.mem_cons_of_mem a hb)
    rw [List.flatMap_cons, List.filter_append, ih, h a List.mem_cons_self, List.filter_cons]
    split_ifs <;> simp

theorem entriesOf_of_help {help : FlagId} (hh : s.help = some help) (store : StoreId) :
    s.entriesOf store = if store = root then
      (s.listing store).filter (· ≠ Entry.flag help) ++ [.flag help] else s.listing store := by
  simp only [entriesOf, hh]
  rfl

theorem entriesOf_of_no_help (hh : s.help = none) (store : StoreId) :
    s.entriesOf store = s.listing store := by
  simp only [entriesOf, hh]
  rfl

theorem mem_listing_of_mem_entriesOf (ha : s.WellFormed) (h : e ∈ s.entriesOf store) :
    e ∈ s.listing store := by
  rcases hh : s.help with _ | help
  · rwa [entriesOf_of_no_help hh] at h
  · rw [entriesOf_of_help hh] at h
    split_ifs at h with hr
    · rcases List.mem_append.1 h with h | h
      · exact List.mem_of_mem_filter h
      · obtain ⟨-, -, -, -, -, hl⟩ := ha.help_flag hh
        rwa [List.mem_singleton.1 h, hr]
    · exact h

/-- The flag that asks for help is in no group. -/
theorem help_not_mem_members (ha : s.WellFormed) (hh : s.help = some id) (g : GroupId) :
    id ∉ s.members g := by
  intro hm
  obtain ⟨f, hf, hfg⟩ := group_of_mem_members ha hm
  obtain ⟨-, -, -, -, -, hl⟩ := ha.help_flag hh
  obtain ⟨f', hf', hn, -⟩ := ha.flag_listed hl
  obtain rfl := Option.some.inj (hf'.symm.trans hf)
  cases hn.symm.trans hfg

/-- The flags are offered in the order in which the units of the store are. -/
theorem menu_eq (ha : s.WellFormed) (store : StoreId) :
    s.menu store = (s.entriesOf store).flatMap s.entryFlags := by
  rcases hh : s.help with _ | help
  · simp [menu, hh, flagsOf, entriesOf_of_no_help hh]
  · rw [entriesOf_of_help hh, menu, hh]
    by_cases hr : store = root
    · rw [if_pos hr, if_pos hr, List.flatMap_append]
      refine congrArg₂ _ (filter_flatMap_eq fun e _ => ?_) (by simp [entryFlags])
      rcases e with x | g
      · by_cases hx : help = x <;> simp [entryFlags, hx, eq_comm]
      · simp only [ne_eq, reduceCtorEq, not_false_eq_true, decide_true, if_true]
        refine List.filter_eq_self.2 fun m hm => ?_
        simpa using fun h : help = m => help_not_mem_members ha hh g (h ▸ hm)
    · have hn := (help_mem_flagsOf ha hh).not.2 hr
      rw [if_neg hr, if_neg hr, List.append_nil]
      refine List.filter_eq_self.2 fun m hm => ?_
      simpa using fun h : help = m => hn (h ▸ hm)

end Menu

section Usable

variable {key : String} {met : Met}

variable (s) in
/-- A flag that has not matched, in a group in which none was chosen. -/
def isFree (p : Pass) (id : FlagId) : Bool :=
  (s.flag? id).any fun f => !p.isMatched id && (p.rival? f).isNone

theorem isFree_iff (hf : s.flag? id = some flag) :
    s.isFree p id = true ↔ p.isMatched id = false ∧ p.rival? flag = none := by
  simp [isFree, hf]

theorem start_of_free (hm : p.isMatched id = false) (hg : p.rival? flag = none) :
    s.start p id flag = .ok (p.choosing id flag) := by
  unfold start Pass.choosing
  rw [if_neg (by simp [hm])]
  rcases h : flag.group with _ | g
  · rfl
  · simp [rival?_eq_none.1 hg g h]

theorem exists_start_iff (hf : s.flag? id = some flag) :
    (∃ p', s.start p id flag = .ok p') ↔ s.isFree p id = true := by
  rw [isFree_iff hf]
  constructor
  · rintro ⟨p', h⟩
    exact ⟨(start_eq_ok h).1, (start_eq_ok h).2.1⟩
  · rintro ⟨hm, hg⟩
    exact ⟨_, start_of_free hm hg⟩

theorem start_error_kind {e : ParseError} (h : s.start p id flag = .error e) :
    e.kind = .repeatedFlag ∨ e.kind = .exclusiveConflict := by
  unfold start at h
  split_ifs at h
  · cases h
    exact .inl rfl
  · split at h
    · cases h
    · split at h <;> cases h
      exact .inr rfl

/-- A store that is at the end of the tokens fails for what is missing only. -/
theorem readStore_nil_kind {e : ParseError}
    (h : (s.readStore store met p []).ending = .failed e) :
    e.kind ≠ .repeatedFlag ∧ e.kind ≠ .exclusiveConflict := by
  unfold readStore close at h
  dsimp only at h
  split at h
  · cases h
  · rename_i e' hl
    cases h
    unfold lack? at hl
    split at hl
    · cases hl
    · split_ifs at hl <;> cases hl <;> simp [ParseError.kind]

theorem isUsable_iff (hk : s.keyFlag? store key = some (id, flag)) :
    s.IsUsable p store met key ↔ ∃ p', s.start p id flag = .ok p' := by
  unfold IsUsable
  rw [readStore, ← keyFlag?]
  simp only [hk]
  rcases hs : s.start p id flag with e | p'
  · have hkind := start_error_kind hs
    simp only [reduceCtorEq, exists_false, iff_false]
    intro h
    have := h e rfl
    tauto
  · refine iff_of_true (fun e h => ?_) ⟨p', rfl⟩
    dsimp only at h
    split_ifs at h with hh
    split at h
    · exact readStore_nil_kind h
    · split at h
      · rename_i left hle _
        obtain rfl := List.eq_nil_of_length_eq_zero (Nat.le_zero.1 hle)
        exact readStore_nil_kind h
      · exact readStore_nil_kind h

/-- In each group the matched members were chosen. -/
def Choosy (s : Scheme) (p : Pass) : Prop :=
  ∀ {g m}, m ∈ s.members g → p.isMatched m = true → p.chosen? g = some m

theorem isFree_member (ha : s.WellFormed) (hp : s.Choosy p) {g : GroupId}
    (hm : id ∈ s.members g) : s.isFree p id = (p.chosen? g).isNone := by
  obtain ⟨f, hf, hg⟩ := group_of_mem_members ha hm
  rcases hc : p.chosen? g with _ | m
  · have hmatched : p.isMatched id = false := by
      by_contra h
      cases hc.symm.trans (hp hm (by simpa using h))
    simpa using (isFree_iff hf).2 ⟨hmatched, rival?_eq_none.2 fun g' hg' => by
      cases hg.symm.trans hg'
      exact hc⟩
  · have hn : ¬s.isFree p id = true := fun h => by
      cases hc.symm.trans (rival?_eq_none.1 ((isFree_iff hf).1 h).2 g hg)
    simpa using hn

/-- The listing of a store and the flags themselves say the same of what can be used. -/
theorem availableFlags_eq (ha : s.WellFormed) (hp : s.Choosy p) (store : StoreId) :
    s.availableFlags p store =
      ((s.menu store).filter (s.isFree p)).filterMap s.flagOption := by
  rw [menu_eq ha, availableFlags, List.filter_flatMap, List.filterMap_flatMap]
  refine List.flatMap_congr fun e he => ?_
  rcases e with x | g
  · obtain ⟨f, hf, hg, -⟩ := ha.flag_listed (mem_listing_of_mem_entriesOf ha he)
    have hx : s.isFree p x = !p.isMatched x := by
      rw [Bool.eq_iff_iff, isFree_iff hf, Pass.rival?, hg]
      simp
    by_cases h : p.isMatched x <;> simp [entryFlags, hx, h, flagOption, hf]
  · rcases hc : p.chosen? g with _ | m
    · have hall : ∀ x ∈ s.members g, s.isFree p x = true := fun x hx => by
        rw [isFree_member ha hp hx, hc]
        rfl
      simp [entryFlags, hc, List.filter_eq_self.2 hall]
    · have hnone : ∀ x ∈ s.members g, ¬s.isFree p x = true := fun x hx => by
        rw [isFree_member ha hp hx, hc]
        exact Bool.false_ne_true
      simp [entryFlags, hc, List.filter_eq_nil_iff.2 hnone]

theorem bracket_eq (policy : Policy) (text : String) :
    policy.bracket text = if policy = .optional then "[" ++ text ++ "]" else text := by
  cases policy <;> rfl

theorem namesFlags (ha : s.WellFormed) (hp : s.Choosy p) (store : StoreId) :
    s.NamesFlags p store ((s.menu store).filter (s.isFree p)) (s.availableFlags p store) := by
  have hknown : ∀ {id}, id ∈ s.menu store → ∃ key, (key, id) ∈ s.keysOf store :=
    (mem_menu_iff_keyed ha).1
  have hstart : ∀ {key id flag}, s.keyFlag? store key = some (id, flag) →
      (id ∈ (s.menu store).filter (s.isFree p) ↔ ∃ p', s.start p id flag = .ok p') := by
    intro key id flag hk
    obtain ⟨hkey, hf, -⟩ := keyFlag?_eq_some ha.toLinked hk
    rw [exists_start_iff hf, List.mem_filter, mem_menu_iff_keyed ha]
    exact and_iff_right ⟨key, hkey⟩
  refine ⟨?_, ?_, hstart, ?_, ?_, List.filter_sublist, menu_nodup ha store⟩
  · rw [availableFlags_eq ha hp, map_some_filterMap]
    · simp [flagOption, bracket_eq]
    · intro id hid
      obtain ⟨key, hk⟩ := hknown (List.mem_of_mem_filter hid)
      obtain ⟨f, hf, -⟩ := exists_flag_of_key? (ha.key_eq hk)
      simp [flagOption, hf]
  · intro id hid
    obtain ⟨key, hk⟩ := hknown (List.mem_of_mem_filter hid)
    exact ⟨key, (keyed?_eq_some_iff ha.toLinked).2 hk⟩
  · intro key id met hk
    obtain ⟨f, hf, -⟩ := exists_flag_of_key? (ha.key_eq ((keyed?_eq_some_iff ha.toLinked).1 hk))
    have hkf : s.keyFlag? store key = some (id, f) := by simp [keyFlag?, hk, hf]
    exact (hstart hkf).trans (isUsable_iff hkf).symm
  · -- a key of a level belongs to one flag, so flags with one key are the same
    refine ((menu_nodup ha store).filter _).map_on fun a hma b hmb hab => ?_
    obtain ⟨key, hk⟩ := hknown (List.mem_of_mem_filter hma)
    obtain ⟨key', hk'⟩ := hknown (List.mem_of_mem_filter hmb)
    rw [ha.key_eq hk, ha.key_eq hk'] at hab
    cases hab
    rw [← keyed?_eq_some_iff ha.toLinked] at hk hk'
    exact Option.some.inj (hk.symm.trans hk')

theorem namesArgs (ha : s.WellFormed) (p : Pass) (store : StoreId) :
    s.NamesArgs p store (s.availableArgs p store) := by
  unfold NamesArgs availableArgs
  rw [map_some_filterMap]
  · simp [bracket_eq]
  · intro id hid
    obtain ⟨a, harg⟩ := ha.exists_arg (List.mem_of_mem_filter hid)
    simp [harg]

end Usable

section Errors

variable {w last : Walk} {options : List String}

theorem Sound.choosy (hw : s.Sound w) (ha : s.WellFormed) : s.Choosy w.pass :=
  fun hm h => hw.chosen_of_mem ha hm (.inl h)

theorem Halt.eq_of_error {e : ParseError} (h : s.Halt w last (.error e)) : last = w := by
  cases h <;> rfl

theorem Halt.reports {e : ParseError} (ha : s.WellFormed) (h : s.Halt w last (.error e))
    (he : e.kind = .missingMandatoryFlag ∨ e.kind = .missingMandatoryArgument ∨
      e.kind = .unexpectedArgument) : s.Reports w e := by
  generalize ho : Except.error e = o at h
  cases h with
  | repeated | conflict =>
    cases ho
    simp [ParseError.kind] at he
  | help | parsed => cases ho
  | refused hr hk ht =>
    cases ho
    obtain ⟨name, reason, -, -, rfl, -⟩ := exists_refusedBy ha ht
    simp [ParseError.kind] at he
  | lacking hn hs =>
    cases ho
    unfold shortfall? at hs
    rcases hr : w.rest with _ | ⟨token, rest⟩ <;> simp only [hr] at hs <;>
      split_ifs at hs with hf hg <;> cases hs
    · exact .flags hr hf
    · exact .args hr (by simpa using hf) hg
    · obtain ⟨hk, ht⟩ := hn token rest hr
      exact .token hk (allDecline_of_taker? ha ht) (.inl hf)
    · have hno := (allDecline_of_taker? ha (hn token rest hr).2).lacksArg_eq
      cases hg.symm.trans hno
  | @leftover token rest hf hr hk ht hs =>
    cases ho
    have htop : w.top = root := by simp [Walk.top, Walk.topOf, hf]
    rw [← htop]
    exact .token hk (allDecline_of_taker? ha ht) (.inr ⟨htop, shortfall?_eq_none.1 hs⟩)

theorem parse_namesOptions (ha : s.WellFormed) (tokens : List String) :
    s.NamesOptions tokens (s.parse tokens).1 (s.parse tokens).2 := by
  obtain ⟨w, hr, ho⟩ := walk_reaches (s := s) { rest := tokens }
  have hlast := (sound_of_reaches ha hr).halt ha ho
  rw [parse_eq_walk ha tokens]
  set last := (s.walk { rest := tokens }).1 with hl
  have hp : s.Choosy { last.pass with consumed := last.consumed } := hlast.choosy ha
  constructor
  · intro options he
    dsimp only at he
    rw [he] at ho
    cases ho.reports ha (.inl rfl) with
    | flags =>
      rw [← ho.eq_of_error]
      exact ⟨_, namesFlags ha hp last.top⟩
  · intro token options he
    dsimp only at he
    rw [he] at ho
    cases ho.reports ha (.inr (.inr rfl)) with
    | token =>
      rw [← ho.eq_of_error]
      exact ⟨_, _, _, rfl, namesFlags ha hp last.top, namesArgs ha _ last.top⟩

end Errors

end CommandGrammar.Scheme

namespace CommandGrammar.Session

/-- Whatever a session went through before: the options that an error names are the flags that the
store could still use and the arguments that have not matched, in the order of registration. -/
theorem after_parse_options (script : List Call) (tokens : List String) :
    (after script).scheme.NamesOptions tokens ((after script).parse tokens).1.pass
        ((after script).parse tokens).2 ∧
      ∀ earlier, earlier <+: script →
        (after earlier).scheme.Lengthens (after script).scheme :=
  ⟨Scheme.parse_namesOptions (after_wellFormed script) tokens, fun _ => after_lengthens⟩

end CommandGrammar.Session
