import CommandGrammar.Form.Usage
import CommandGrammar.Proofs.Positions
import CommandGrammar.Proofs.UsageLine

/-!
# Usage texts from the nodes

The usage texts written in place are those of the scheme. A store in place is entered whenever a
flag has it, so it must be known that this ends: the stores of the flags of a store are behind it,
and there are no others.
-/

namespace CommandGrammar

namespace Scheme

variable {s : Scheme} {store : StoreId} {id : FlagId} {flag : Flag}

theorem mem_menu_of_mem_entryFlags (ha : s.WellFormed) {e : Entry} (he : e ∈ s.entriesOf store)
    (hid : id ∈ s.entryFlags e) : id ∈ s.menu store :=
  menu_eq ha store ▸ List.mem_flatMap.2 ⟨e, he, hid⟩

theorem exists_flag_of_mem_menu (ha : s.WellFormed) (hid : id ∈ s.menu store) :
    ∃ f, s.flag? id = some f := by
  obtain ⟨key, hk⟩ := (mem_menu_iff_keyed ha).1 hid
  obtain ⟨f, hf, -⟩ := exists_flag_of_key? (ha.key_eq hk)
  exact ⟨f, hf⟩

theorem argsOf_eq {st : Store} (hst : s.store? store = some st) : s.argsOf store = st.args := by
  rw [argsOf, hst]
  rfl

end Scheme

namespace Act

variable {t : Session} {store : StoreId} {st : Store} {id : FlagId} {flag : Flag}

/-! ## Summaries -/

theorem argSummary_gives {a : ArgId} {arg : Positional} (h : t.scheme.arg? a = some arg) :
    (argSummary a).Gives t (t.scheme.argSummary a) t := by
  rw [Scheme.argSummary, h]
  exact (argAt_gives h).bind .pure

theorem args_give {β : Type} {f : ArgId → Act β} {g : ArgId → β} (ha : t.scheme.WellFormed)
    (hst : t.scheme.store? store = some st)
    (h : ∀ {a arg}, t.scheme.arg? a = some arg → (f a).Gives t (g a) t) :
    (st.args.mapM f).Gives t ((t.scheme.argsOf store).map g) t := by
  rw [Scheme.argsOf_eq hst]
  refine .mapM fun a hmem => ?_
  obtain ⟨arg, harg⟩ := ha.exists_arg (Scheme.mem_argsOf.2 ⟨st, hst, hmem⟩)
  exact h harg

theorem flagSummary_gives_of (hf : t.scheme.flag? id = some flag)
    (h : ∀ {child}, flag.children = some child →
      child.summary.Gives t (t.scheme.summary child) t) :
    id.summary.Gives t (t.scheme.flagSummary id) t := by
  rw [FlagId.summary, Scheme.flagSummary, hf]
  refine (flagAt_gives hf).bind ?_
  dsimp only
  rcases hc : flag.children with _ | child
  · simp only [String.append_empty]
    exact .pure
  · exact (h hc).bind .pure

theorem entrySummary_gives {e : Entry} (ha : t.scheme.WellFormed)
    (he : e ∈ t.scheme.entriesOf store)
    (h : ∀ id ∈ t.scheme.entryFlags e, id.summary.Gives t (t.scheme.flagSummary id) t) :
    e.summary.Gives t (t.scheme.entrySummary t.scheme.flagSummary e) t := by
  have he := Scheme.mem_listing_of_mem_entriesOf ha he
  rw [Entry.summary.eq_def]
  rcases e with id | g
  · obtain ⟨f, hf, -⟩ := ha.flag_listed he
    rw [Scheme.entrySummary, hf]
    exact (flagAt_gives hf).bind ((h id (List.mem_singleton_self id)).bind .pure)
  · obtain ⟨group, hg, -⟩ := ha.group_listed he
    rw [Scheme.entrySummary, hg]
    refine (groupAt_gives hg).bind ?_
    dsimp only
    split_ifs
    · exact .pure
    · exact (Gives.mapM fun m hm => h m (Scheme.mem_members.2 ⟨group, hg, hm⟩)).bind .pure

theorem summary_gives (ha : t.scheme.WellFormed) (store : StoreId) :
    ∀ st, t.scheme.store? store = some st →
      store.summary.Gives t (t.scheme.summary store) t := by
  induction store using Scheme.nesting_induction ha with
  | h store ih =>
    intro st hst
    rw [StoreId.summary, Scheme.summary_eq ha]
    refine (storeAt_gives hst).bind ((args_give ha hst argSummary_gives).bind
      ((entriesOf_gives hst).bind (.bind (.mapM fun e he => ?_) .pure)))
    refine entrySummary_gives ha he fun id hid => ?_
    have hmenu := Scheme.mem_menu_of_mem_entryFlags ha he hid
    obtain ⟨f, hf⟩ := Scheme.exists_flag_of_mem_menu ha hmenu
    refine flagSummary_gives_of hf fun {child} hc => ?_
    obtain ⟨st', hst'⟩ := ha.exists_child hf hc
    exact ih child (Scheme.nests_of_mem_menu ha hmenu (by rw [hf]; exact hc)) st' hst'

theorem flagSummary_gives (ha : t.scheme.WellFormed) (hf : t.scheme.flag? id = some flag) :
    id.summary.Gives t (t.scheme.flagSummary id) t := by
  refine flagSummary_gives_of hf fun {child} hc => ?_
  obtain ⟨st, hst⟩ := ha.exists_child hf hc
  exact summary_gives ha child st hst

/-! ## Help -/

theorem argHelp_gives (level : Nat) {a : ArgId} {arg : Positional}
    (h : t.scheme.arg? a = some arg) : (argHelp level a).Gives t (t.scheme.argHelp level a) t := by
  rw [Scheme.argHelp, h]
  exact (argAt_gives h).bind .pure

theorem entryFlags_gives {e : Entry} (ha : t.scheme.WellFormed)
    (he : e ∈ t.scheme.entriesOf store) : (entryFlags e).Gives t (t.scheme.entryFlags e) t := by
  have he := Scheme.mem_listing_of_mem_entriesOf ha he
  rcases e with id | g
  · exact .pure
  · obtain ⟨group, hg, -⟩ := ha.group_listed he
    rw [Scheme.entryFlags, Scheme.members, hg]
    exact (groupAt_gives hg).bind .pure

theorem flagHelp_gives_of (ha : t.scheme.WellFormed) (level : Nat)
    (hf : t.scheme.flag? id = some flag)
    (h : ∀ {child}, flag.children = some child →
      (child.help (level + 1)).Gives t (t.scheme.storeHelp child (level + 1)) t) :
    (id.help level).Gives t (t.scheme.flagHelp level id) t := by
  rw [FlagId.help, Scheme.flagHelp, hf]
  refine (flagAt_gives hf).bind ?_
  dsimp only
  split_ifs
  · exact .pure
  all_goals
    refine (flagSummary_gives ha hf).bind ?_
    rcases hc : flag.children with _ | child
    · simp only [String.append_empty]
      exact .pure
    · exact (h hc).bind .pure

theorem storeHelp_gives (ha : t.scheme.WellFormed) (store : StoreId) :
    ∀ level st, t.scheme.store? store = some st →
      (store.help level).Gives t (t.scheme.storeHelp store level) t := by
  induction store using Scheme.nesting_induction ha with
  | h store ih =>
    intro level st hst
    rw [StoreId.help, Scheme.storeHelp_eq ha, Scheme.menu_eq ha, List.flatMap_def]
    refine (storeAt_gives hst).bind ((args_give ha hst (argHelp_gives level)).bind
      ((entriesOf_gives hst).bind ((Gives.mapM fun e he => entryFlags_gives ha he).bind
        (.bind (.mapM fun id hid => ?_) .pure))))
    rw [← List.flatMap_def, ← Scheme.menu_eq ha] at hid
    obtain ⟨f, hf⟩ := Scheme.exists_flag_of_mem_menu ha hid
    refine flagHelp_gives_of ha level hf fun {child} hc => ?_
    obtain ⟨st', hst'⟩ := ha.exists_child hf hc
    exact ih child (Scheme.nests_of_mem_menu ha hid (by rw [hf]; exact hc)) (level + 1) st' hst'

/-! ## Texts -/

theorem usageSummary_gives (ha : t.scheme.WellFormed) : usageSummary.Gives t t.usageSummary t := by
  obtain ⟨st, hst⟩ := ha.exists_root
  exact Gives.get.bind ((summary_gives ha _ st hst).bind .pure)

theorem usageHelp_gives (ha : t.scheme.WellFormed) : usageHelp.Gives t t.usageHelp t := by
  obtain ⟨st, hst⟩ := ha.exists_root
  exact storeHelp_gives ha _ 1 st hst

theorem usage_gives (ha : t.scheme.WellFormed) : usage.Gives t t.usage t :=
  (usageSummary_gives ha).bind ((usageHelp_gives ha).bind .pure)

theorem failureReport_gives (ha : t.scheme.WellFormed) (e : ParseError) :
    (failureReport e).Gives t (t.failureReport e) t :=
  Gives.get.bind ((usage_gives ha).bind .pure)

end Act

end CommandGrammar
