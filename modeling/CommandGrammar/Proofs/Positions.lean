import CommandGrammar.Form.Reading
import CommandGrammar.Proofs.Marks
import CommandGrammar.Proofs.Shortage

/-!
# Reading by positions

A pass in place does what a pass over lists of tokens does: it ends at no trap, in the same way, and
at the position behind the tokens that were read, which is in the command line. Every number that it
meets was put where it is by a registration, or by the pass itself, and leads to a node.
-/

namespace CommandGrammar

/-- What is found when a token has been offered. -/
def Pass.offered (p : Pass) : Offer → Pass
  | .taken id _ v => p.fill id v
  | .refused .. | .declined => p

namespace Scheme

/-- In place a store reads what a reading says, and stops at the position where the rest begins. -/
structure ReadsTo (t : Session) (tokens : List String) (x : Act (Ending × Nat)) (p : Pass)
    {rest : List String} (r : Reading rest) : Prop where
  within : r.pass.Within t.scheme
  gives : ∃ n ≤ tokens.length, tokens.drop n = r.rest ∧
    x.Gives (t.amid p) (r.ending, n) (t.amid r.pass)

end Scheme

namespace Act

open Scheme (root Outcome)

variable {t t' : Session} {p p' : Pass} {store : StoreId} {st : Store} {id : FlagId} {flag : Flag}

/-! ## Options -/

section Listed

variable {s : Scheme}

theorem exists_member (ha : s.WellFormed) {g : GroupId} {group : Group}
    (hg : s.group? g = some group) : ∀ m ∈ group.members, ∃ f, s.flag? m = some f := by
  intro m hm
  obtain ⟨f, hf, -⟩ := ha.member hg hm
  exact ⟨f, hf⟩

end Listed

theorem keyOf_gives (h : t.scheme.flag? id = some flag) : (keyOf id).Gives t flag.key t :=
  (flagAt_gives h).bind .pure

theorem flagOption_gives (h : t.scheme.flag? id = some flag) :
    (flagOption id).Gives t (flag.policy.bracket flag.key) t :=
  (flagAt_gives h).bind .pure

theorem keys_give {ids : List FlagId} (h : ∀ id ∈ ids, ∃ f, t.scheme.flag? id = some f) :
    (ids.mapM keyOf).Gives t (ids.filterMap t.scheme.key?) t := by
  refine .filterMapM fun id hid => ?_
  obtain ⟨f, hf⟩ := h id hid
  exact ⟨f.key, congrArg (Option.map Flag.key) hf, keyOf_gives hf⟩

theorem flagOptions_give {ids : List FlagId} (h : ∀ id ∈ ids, ∃ f, t.scheme.flag? id = some f) :
    (ids.mapM flagOption).Gives t (ids.filterMap t.scheme.flagOption) t := by
  refine .filterMapM fun id hid => ?_
  obtain ⟨f, hf⟩ := h id hid
  exact ⟨_, congrArg (Option.map _) hf, flagOption_gives hf⟩

theorem availableFlags_gives (ha : t.scheme.WellFormed) (hst : t.scheme.store? store = some st) :
    (availableFlags store).Gives t (t.scheme.availableFlags t.pass store) t := by
  rw [Scheme.availableFlags, List.flatMap_def]
  refine (entriesOf_gives hst).bind (.bind (.mapM fun e he => ?_) .pure)
  have he := Scheme.mem_listing_of_mem_entriesOf ha he
  rcases e with id | g
  · obtain ⟨f, hf, -⟩ := ha.flag_listed he
    refine (flagAt_gives hf).bind ?_
    simp only [Scheme.flagOption, hf]
    exact .pure
  · obtain ⟨group, hg, -⟩ := ha.group_listed he
    refine (groupAt_gives hg).bind ?_
    dsimp only
    split
    · exact .pure
    · rw [Scheme.members, hg]
      exact flagOptions_give (exists_member ha hg)

theorem availableArgs_gives (ha : t.scheme.WellFormed) (hst : t.scheme.store? store = some st) :
    (availableArgs store).Gives t (t.scheme.availableArgs t.pass store) t := by
  let cell? (id : ArgId) : Option ArgCell := (t.scheme.arg? id).map fun arg =>
    { arg, matched := t.pass.isFilled id, value := t.pass.value? id }
  have hcells : (st.args.mapM argAt).Gives t (st.args.filterMap cell?) t := by
    refine .filterMapM fun id hid => ?_
    obtain ⟨arg, harg⟩ := ha.exists_arg (Scheme.mem_argsOf.2 ⟨st, hst, hid⟩)
    exact ⟨_, congrArg (Option.map _) harg, argAt_gives harg⟩
  have hargs : t.scheme.availableArgs t.pass store =
      ((st.args.filterMap cell?).filter fun cell => !cell.matched).map fun cell =>
        cell.arg.policy.bracket cell.arg.name := by
    rw [Scheme.availableArgs, Scheme.argsOf, hst, List.filterMap_filter, List.filter_filterMap,
      List.map_filterMap]
    refine List.filterMap_congr fun id _ => ?_
    rcases harg : t.scheme.arg? id with _ | arg <;> rcases hid : t.pass.isFilled id <;>
      simp [cell?, harg, hid]
  rw [hargs]
  exact (storeAt_gives hst).bind (hcells.bind .pure)

theorem unexpected_gives (ha : t.scheme.WellFormed) (hst : t.scheme.store? store = some st)
    (token : String) :
    (unexpected store token).Gives t (t.scheme.unexpected t.pass store token) t :=
  (availableFlags_gives ha hst).bind ((availableArgs_gives ha hst).bind .pure)

theorem close_gives (ha : t.scheme.WellFormed) (hst : t.scheme.store? store = some st) (met : Met)
    (rest : List String) :
    (close store met rest.head?).Gives t (t.scheme.close store met t.pass rest) t := by
  refine (storeAt_gives hst).bind ?_
  simp only [Scheme.close, Scheme.lack?, hst]
  split_ifs
  · rcases rest with _ | ⟨token, rest⟩
    · exact (availableFlags_gives ha hst).bind .pure
    · exact (unexpected_gives ha hst token).bind .pure
  · rcases rest with _ | ⟨token, rest⟩
    · exact (availableArgs_gives ha hst).bind .pure
    · exact (unexpected_gives ha hst token).bind .pure
  · exact .pure

/-! ## Flags -/

theorem exists_group (ha : t.scheme.WellFormed) (hf : t.scheme.flag? id = some flag) {g : GroupId}
    (hg : flag.group = some g) : ∃ group, t.scheme.group? g = some group := by
  obtain ⟨group, hgr, -⟩ := Scheme.mem_members.1 (Scheme.mem_members_of_group ha hf hg)
  exact ⟨group, hgr⟩

theorem start_gives_ok (ha : t.scheme.WellFormed) (hf : t.scheme.flag? id = some flag)
    (h : t.scheme.start t.pass id flag = .ok p') :
    (start id { flag, matched := t.pass.isMatched id }).Gives t none (t.amid p') := by
  unfold Scheme.start at h
  unfold start
  split_ifs at h with hm
  rw [if_neg hm]
  rcases hg : flag.group with _ | g <;> simp only [hg] at h ⊢
  · cases h
    exact .pure
  · obtain ⟨group, hgr⟩ := exists_group ha hf hg
    split at h
    · rename_i hopen
      cases h
      refine (groupAt_gives hgr).bind ?_
      rw [hopen]
      exact (choose_gives hgr hopen id).bind .pure
    · cases h

/-- A conflict names flags that are there: the one that was used, and all members of the group. -/
theorem start_gives_error (ha : t.scheme.WellFormed) (hp : t.pass.Within t.scheme)
    (hf : t.scheme.flag? id = some flag) {e : ParseError}
    (h : t.scheme.start t.pass id flag = .error e) :
    (start id { flag, matched := t.pass.isMatched id }).Gives t (some e) t := by
  unfold Scheme.start at h
  unfold start
  split_ifs at h with hm
  · cases h
    rw [if_pos hm]
    exact .pure
  · rw [if_neg hm]
    rcases hg : flag.group with _ | g <;> simp only [hg] at h ⊢
    · cases h
    · obtain ⟨group, hgr⟩ := exists_group ha hf hg
      split at h
      · cases h
      · rename_i first hfirst
        cases h
        obtain ⟨f, hf'⟩ : ∃ f, t.scheme.flag? first = some f :=
          ⟨_, List.getElem?_eq_getElem (hp.chosen hfirst).2⟩
        have hkey : t.scheme.key? first = some f.key := congrArg (Option.map Flag.key) hf'
        rw [hkey, Option.getD_some, Scheme.members, hgr]
        refine (groupAt_gives hgr).bind ?_
        rw [hfirst]
        exact (groupAt_gives hgr).bind ((keyOf_gives hf').bind ((keyOf_gives hf).bind
          ((keys_give (exists_member ha hgr)).bind .pure)))

theorem complete_gives (hf : t.scheme.flag? id = some flag) :
    (complete id).Gives t () (t.amid (t.pass.complete id flag)) := by
  refine (mark_gives hf).bind ((flagAt_gives (t := t.amid (t.pass.mark id)) hf).bind ?_)
  unfold Pass.complete
  dsimp only
  rcases flag.trigger with _ | f
  · exact .pure
  · exact .modify rfl

/-! ## Arguments -/

/-- All places of a store have arguments that are there. -/
theorem offer_gives (ha : t.scheme.WellFormed) (hp : t.pass.Within t.scheme)
    (hst : t.scheme.store? store = some st) (token : String) : ∀ places : List Nat,
    (∀ place ∈ places, place < st.args.length) →
      let o := t.scheme.offer t.pass token (places.filterMap (st.args[·]?))
      (offer store token places).Gives t o (t.amid (t.pass.offered o))
  | [], _ => .pure
  | place :: places, h => by
    have ih := offer_gives ha hp hst token places fun i hi => h i (List.mem_cons_of_mem _ hi)
    have hlt : place < st.args.length := h place List.mem_cons_self
    have hplace : st.args[place]? = some st.args[place] := List.getElem?_eq_getElem hlt
    obtain ⟨arg, harg⟩ :=
      ha.exists_arg (Scheme.mem_argsOf.2 ⟨st, hst, List.getElem_mem hlt⟩)
    dsimp only
    rw [List.filterMap_cons_some hplace]
    refine (storeAt_gives hst).bind ?_
    simp only [hplace, Scheme.offer, harg]
    refine (argAt_gives harg).bind ?_
    dsimp only
    split_ifs with hm
    · exact ih
    · rcases (arg.pipeline.run token).result with reason | v
      · rcases arg.policy
        · exact .pure
        · exact ih
      · have hopen : t.pass.value? st.args[place] = none := by
          simpa [hm] using hp.valued st.args[place]
        exact (fill_gives harg hopen v).bind .pure

theorem filterMap_getElem?_range {α : Type} (l : List α) :
    (List.range l.length).filterMap (l[·]?) = l := by
  induction l using List.reverseRecOn with
  | nil => rfl
  | append_singleton l a ih =>
    have hl : (List.range l.length).filterMap ((l ++ [a])[·]?) = l := by
      refine Eq.trans (List.filterMap_congr fun i hi => ?_) ih
      exact List.getElem?_append_left (List.mem_range.1 hi)
    rw [List.length_append, List.length_singleton, List.range_succ, List.filterMap_append, hl]
    simp

theorem offerAll_gives (ha : t.scheme.WellFormed) (hp : t.pass.Within t.scheme)
    (hst : t.scheme.store? store = some st) (token : String) :
    let o := t.scheme.offer t.pass token (t.scheme.argsOf store)
    (offerAll store token).Gives t o (t.amid (t.pass.offered o)) := by
  have h := offer_gives ha hp hst token (List.range st.args.length) fun _ => List.mem_range.1
  rw [filterMap_getElem?_range] at h
  rw [Scheme.argsOf, hst]
  exact (storeAt_gives hst).bind h

/-! ## Stores -/

section Stores

variable {tokens rest : List String} {n m : Nat} {token : String} {met : Met} {r : Ending × Nat}

/-- A flag that stops the pass stops the store that calls for it. -/
theorem read_gives_stopped (hst : t.scheme.store? store = some st)
    (hn : tokens[n]? = some token) (hk : st.keys.lookup token = some id)
    (h : (id.matchKey tokens n).Gives t r t') (hr : r.1 ≠ .closed) :
    (store.read tokens met n).Gives t r t' := by
  rw [StoreId.read, hn]
  refine (storeAt_gives hst).bind ?_
  rw [hk]
  refine h.bind ?_
  obtain ⟨ending, m⟩ := r
  rcases ending with _ | _ | e
  · exact absurd rfl hr
  · exact .pure
  · exact .pure

theorem read_gives_matched (hst : t.scheme.store? store = some st)
    (hn : tokens[n]? = some token) (hk : st.keys.lookup token = some id)
    (h : (id.matchKey tokens n).Gives t (.closed, m) t') (hf : t'.scheme.flag? id = some flag)
    {t'' : Session}
    (h' : (store.read tokens (met.countFlag flag.policy) m).Gives t' r t'') :
    (store.read tokens met n).Gives t r t'' := by
  rw [StoreId.read, hn]
  refine (storeAt_gives hst).bind ?_
  rw [hk]
  exact h.bind ((flagAt_gives hf).bind h')

theorem matchKey_gives_refused (hf : t.scheme.flag? id = some flag) {e : ParseError}
    (hs : (start id { flag, matched := t.pass.isMatched id }).Gives t (some e) t) :
    (id.matchKey tokens n).Gives t (.failed e, n) t := by
  rw [FlagId.matchKey]
  exact (flagAt_gives hf).bind (hs.bind .pure)

theorem matchKey_gives_help (hf : t.scheme.flag? id = some flag)
    (hs : (start id { flag, matched := t.pass.isMatched id }).Gives t none (t.amid p'))
    (hh : t.scheme.help = some id) :
    (id.matchKey tokens n).Gives t (.help, n + 1) (t.amid (p'.mark id)) := by
  rw [FlagId.matchKey]
  refine (flagAt_gives hf).bind (hs.bind (Gives.get.bind ?_))
  rw [if_pos (show (t.amid p').form.help = some id from hh)]
  exact (mark_gives (t := t.amid p') hf).bind .pure

theorem matchKey_gives_simple (hf : t.scheme.flag? id = some flag)
    (hs : (start id { flag, matched := t.pass.isMatched id }).Gives t none (t.amid p'))
    (hh : t.scheme.help ≠ some id) (hc : flag.children = none) :
    (id.matchKey tokens n).Gives t (.closed, n + 1) (t.amid (p'.complete id flag)) := by
  rw [FlagId.matchKey]
  refine (flagAt_gives hf).bind (hs.bind (Gives.get.bind ?_))
  rw [if_neg (show (t.amid p').form.help ≠ some id from hh)]
  simp only [hc]
  exact (complete_gives (t := t.amid p') hf).bind .pure

theorem matchKey_gives_nested (hf : t.scheme.flag? id = some flag)
    (hs : (start id { flag, matched := t.pass.isMatched id }).Gives t none (t.amid p'))
    (hh : t.scheme.help ≠ some id) {child : StoreId} (hc : flag.children = some child)
    {p'' : Pass}
    (h : (child.read tokens {} (n + 1)).Gives (t.amid p') (.closed, m) (t.amid p'')) :
    (id.matchKey tokens n).Gives t (.closed, m) (t.amid (p''.complete id flag)) := by
  rw [FlagId.matchKey]
  refine (flagAt_gives hf).bind (hs.bind (Gives.get.bind ?_))
  rw [if_neg (show (t.amid p').form.help ≠ some id from hh)]
  simp only [hc]
  exact h.bind ((complete_gives (t := t.amid p'') hf).bind .pure)

theorem matchKey_gives_stopped (hf : t.scheme.flag? id = some flag)
    (hs : (start id { flag, matched := t.pass.isMatched id }).Gives t none (t.amid p'))
    (hh : t.scheme.help ≠ some id) {child : StoreId} (hc : flag.children = some child)
    (h : (child.read tokens {} (n + 1)).Gives (t.amid p') r t') (hr : r.1 ≠ .closed) :
    (id.matchKey tokens n).Gives t r t' := by
  rw [FlagId.matchKey]
  refine (flagAt_gives hf).bind (hs.bind (Gives.get.bind ?_))
  rw [if_neg (show (t.amid p').form.help ≠ some id from hh)]
  simp only [hc]
  refine h.bind ?_
  obtain ⟨ending, m⟩ := r
  rcases ending with _ | _ | e
  · exact absurd rfl hr
  · exact .pure
  · exact .pure

theorem of_drop_eq_cons (h : tokens.drop n = token :: rest) :
    tokens[n]? = some token ∧ n + 1 ≤ tokens.length ∧ tokens.drop (n + 1) = rest := by
  have hn : tokens[n]? = some token := by rw [← List.head?_drop, h, List.head?_cons]
  refine ⟨hn, (List.getElem?_eq_some_iff.1 hn).1, ?_⟩
  rw [← List.tail_drop, h, List.tail_cons]

theorem lookup_eq_some (ha : t.scheme.WellFormed) (hst : t.scheme.store? store = some st)
    (hk : t.scheme.keyFlag? store token = some (id, flag)) :
    st.keys.lookup token = some id ∧ t.scheme.flag? id = some flag := by
  obtain ⟨hkey, hf, -⟩ := Scheme.keyFlag?_eq_some ha.toLinked hk
  have hkeyed := (Scheme.keyed?_eq_some_iff ha.toLinked).2 hkey
  rw [Scheme.keyed?, hst] at hkeyed
  exact ⟨hkeyed, hf⟩

theorem lookup_eq_none (ha : t.scheme.WellFormed) (hst : t.scheme.store? store = some st)
    (hk : t.scheme.keyFlag? store token = none) : st.keys.lookup token = none := by
  have hkeyed := Scheme.keyed?_eq_none ha.toLinked hk
  rwa [Scheme.keyed?, hst] at hkeyed

/-- A token that is no key is offered to the arguments. -/
theorem read_gives_offered (ha : t.scheme.WellFormed) (hp : t.pass.Within t.scheme)
    (hst : t.scheme.store? store = some st) (hn : tokens[n]? = some token)
    (hk : t.scheme.keyFlag? store token = none) {o : Offer}
    (ho : t.scheme.offer t.pass token (t.scheme.argsOf store) = o)
    (h : (match o with
      | .taken _ policy _ => store.read tokens (met.countArg policy) (n + 1)
      | .refused name reason => return (.failed (.conversionFailure name reason), n)
      | .declined => return (← close store met (some token), n)).Gives
        (t.amid (t.pass.offered o)) r t') :
    (store.read tokens met n).Gives t r t' := by
  have hoffer := offerAll_gives ha hp hst token
  rw [ho] at hoffer
  rw [StoreId.read, hn]
  refine (storeAt_gives hst).bind ?_
  rw [lookup_eq_none ha hst hk]
  exact hoffer.bind h

theorem within_choosing (ha : t.scheme.WellFormed) (hf : t.scheme.flag? id = some flag)
    (hp : p.Within t.scheme) (hs : t.scheme.start p id flag = .ok p') : p'.Within t.scheme := by
  obtain ⟨-, -, rfl⟩ := Scheme.start_eq_ok hs
  refine hp.choosing (Scheme.lt_of_flag? hf) fun g hg => ?_
  obtain ⟨group, hgr⟩ := exists_group ha hf hg
  exact (List.getElem?_eq_some_iff.1 hgr).1

theorem offer_lt {v : Value} {a : ArgId} {policy : Policy} {ids : List ArgId}
    (h : t.scheme.offer p token ids = .taken a policy v) : a.index < t.scheme.args.length := by
  have hoff := Scheme.offer_eq (s := t.scheme) p token ids
  rw [h] at hoff
  obtain ⟨-, arg, harg, -⟩ := hoff
  exact (List.getElem?_eq_some_iff.1 harg).1

theorem read_readsTo (ha : t.scheme.WellFormed) (tokens : List String) (store : StoreId)
    (met : Met) (p : Pass) (rest : List String) : ∀ n st, t.scheme.store? store = some st →
      p.Within t.scheme → n ≤ tokens.length → tokens.drop n = rest →
      Scheme.ReadsTo t tokens (store.read tokens met n) p
        (t.scheme.readStore store met p rest) := by
  fun_induction Scheme.readStore t.scheme store met p rest with
  | case1 store met p =>
    intro n st hst hp hn hd
    have hnone : tokens[n]? = none := List.getElem?_eq_none (List.drop_eq_nil_iff.1 hd)
    refine ⟨hp, n, hn, hd, ?_⟩
    rw [StoreId.read, hnone]
    exact (close_gives (t := t.amid p) ha hst met []).bind .pure
  | case2 store met p token rest id flag hk e hs =>
    intro n st hst hp hn hd
    obtain ⟨htoken, -, -⟩ := of_drop_eq_cons hd
    obtain ⟨hkey, hf⟩ := lookup_eq_some ha hst hk
    have hflag : (id.matchKey tokens n).Gives (t.amid p) (.failed e, n) (t.amid p) :=
      matchKey_gives_refused (t := t.amid p) hf (start_gives_error (t := t.amid p) ha hp hf hs)
    have hopen : Ending.failed e ≠ .closed := by simp
    exact ⟨hp, n, hn, hd, read_gives_stopped (t := t.amid p) hst htoken hkey hflag hopen⟩
  | case3 store met p token rest id flag hk p' hs hh =>
    intro n st hst hp hn hd
    obtain ⟨htoken, hle, hd⟩ := of_drop_eq_cons hd
    obtain ⟨hkey, hf⟩ := lookup_eq_some ha hst hk
    have hflag : (id.matchKey tokens n).Gives (t.amid p) (.help, n + 1) (t.amid (p'.mark id)) :=
      matchKey_gives_help (t := t.amid p) hf (start_gives_ok (t := t.amid p) ha hf hs) hh
    have hopen : Ending.help ≠ .closed := by simp
    exact ⟨(within_choosing ha hf hp hs).mark (Scheme.lt_of_flag? hf), n + 1, hle, hd,
      read_gives_stopped (t := t.amid p) hst htoken hkey hflag hopen⟩
  | case4 store met p token rest id flag hk p' hs hh hc ih =>
    intro n st hst hp hn hd
    obtain ⟨htoken, hle, hd⟩ := of_drop_eq_cons hd
    obtain ⟨hkey, hf⟩ := lookup_eq_some ha hst hk
    have hflag : (id.matchKey tokens n).Gives (t.amid p) (.closed, n + 1)
        (t.amid (p'.complete id flag)) :=
      matchKey_gives_simple (t := t.amid p) hf (start_gives_ok (t := t.amid p) ha hf hs) hh hc
    obtain ⟨hw, m, hm, hdm, h⟩ := ih _ st hst
      ((within_choosing ha hf hp hs).complete (Scheme.lt_of_flag? hf)) hle hd
    exact ⟨hw, m, hm, hdm, read_gives_matched (t := t.amid p) hst htoken hkey hflag hf h⟩
  | case5 store met p token rest id flag hk p₁ hs hh child hc p₂ left hle hr r ihc ih =>
    intro n st hst hp hn hd
    obtain ⟨htoken, hle, hd⟩ := of_drop_eq_cons hd
    obtain ⟨hkey, hf⟩ := lookup_eq_some ha hst hk
    obtain ⟨st', hst'⟩ := ha.exists_child hf hc
    have hchild := ihc _ st' hst' (within_choosing ha hf hp hs) hle hd
    rw [hr] at hchild
    obtain ⟨hw₂, k, hk, hdk, hinner⟩ := hchild
    have hflag := matchKey_gives_nested (t := t.amid p) hf
      (start_gives_ok (t := t.amid p) ha hf hs) hh hc hinner
    obtain ⟨hw, m, hm, hdm, h⟩ := ih k st hst (hw₂.complete (Scheme.lt_of_flag? hf)) hk hdk
    exact ⟨hw, m, hm, hdm, read_gives_matched (t := t.amid p) hst htoken hkey hflag hf h⟩
  | case6 store met p token rest id flag hk p₁ hs hh child hc hr ih =>
    intro n st hst hp hn hd
    obtain ⟨htoken, hle, hd⟩ := of_drop_eq_cons hd
    obtain ⟨hkey, hf⟩ := lookup_eq_some ha hst hk
    obtain ⟨st', hst'⟩ := ha.exists_child hf hc
    obtain ⟨hw, m, hm, hdm, hinner⟩ := ih _ st' hst' (within_choosing ha hf hp hs) hle hd
    have hopen : (t.scheme.readStore child {} p₁ rest).ending ≠ .closed := fun he => by
      rcases h : t.scheme.readStore child {} p₁ rest with ⟨ending, p', left, hle⟩
      rw [h] at he
      obtain rfl : ending = .closed := he
      exact hr p' left hle h
    have hflag := matchKey_gives_stopped (t := t.amid p) hf
      (start_gives_ok (t := t.amid p) ha hf hs) hh hc hinner hopen
    exact ⟨hw, m, hm, hdm, read_gives_stopped (t := t.amid p) hst htoken hkey hflag hopen⟩
  | case7 store met p token rest hk id policy v ho ih =>
    intro n st hst hp hn hd
    obtain ⟨htoken, hle, hd⟩ := of_drop_eq_cons hd
    have hfill : (p.fill id v).Within t.scheme := hp.fill (offer_lt ho) v
    obtain ⟨hw, m, hm, hdm, h⟩ := ih _ st hst hfill hle hd
    exact ⟨hw, m, hm, hdm,
      read_gives_offered (t := t.amid p) ha hp hst htoken hk ho h⟩
  | case8 store met p token rest hk name reason ho =>
    intro n st hst hp hn hd
    obtain ⟨htoken, -, -⟩ := of_drop_eq_cons hd
    exact ⟨hp, n, hn, hd, read_gives_offered (t := t.amid p) ha hp hst htoken hk ho .pure⟩
  | case9 store met p token rest hk ho =>
    intro n st hst hp hn hd
    obtain ⟨htoken, -, -⟩ := of_drop_eq_cons hd
    exact ⟨hp, n, hn, hd, read_gives_offered (t := t.amid p) ha hp hst htoken hk ho
      ((close_gives (t := t.amid p) ha hst met (token :: rest)).bind .pure)⟩

end Stores

/-! ## Command lines -/

theorem form_reset (t : Session) : t.reset.form = t.form.cleared := by
  simp only [Session.form, Session.reset, Form.cleared, Pass.flagCells, Pass.groupCells,
    Pass.argCells, map_mapIdx]
  rfl

theorem reset_gives : reset.Gives t () t.reset := .modify (form_reset t).symm

theorem before_gives {tokens rest : List String} {n : Nat} (hn : n ≤ tokens.length)
    (hd : tokens.drop n = rest) :
    (before tokens n).Gives t (tokens.take (tokens.length - rest.length)) t := by
  have hlen : tokens.length - rest.length = n := by
    rw [← hd, List.length_drop]
    omega
  rw [hlen, before, if_pos hn]
  exact .pure

/-- What is left of a command line is what stands at the position where the root has stopped. -/
theorem conclude_gives (ha : t.scheme.WellFormed) {tokens : List String} {n : Nat}
    (hd : tokens.drop n = (t.scheme.readStore root {} {} tokens).rest) :
    let r := t.scheme.readStore root {} {} tokens
    (conclude tokens r.ending n).Gives (t.amid r.pass) (t.parse tokens).2 (t.amid r.pass) := by
  obtain ⟨st, hst⟩ := ha.exists_root
  simp only [Session.parse, Scheme.parse]
  generalize t.scheme.readStore root {} {} tokens = r at hd ⊢
  rcases r with ⟨_ | _ | e, p, _ | ⟨token, rest⟩, hle⟩
  case closed.nil =>
    have hnone : tokens[n]? = none := List.getElem?_eq_none (List.drop_eq_nil_iff.1 hd)
    rw [conclude, hnone]
    exact .pure
  case closed.cons =>
    obtain ⟨htoken, -, -⟩ := of_drop_eq_cons hd
    rw [conclude, htoken]
    exact (unexpected_gives (t := t.amid p) ha hst token).bind .pure
  all_goals exact .pure

theorem parse_gives (ha : t.scheme.WellFormed) (tokens : List String) :
    (parse tokens).Gives t (t.parse tokens).2 (t.parse tokens).1 := by
  obtain ⟨st, hst⟩ := ha.exists_root
  obtain ⟨-, n, hn, hd, h⟩ :=
    read_readsTo ha tokens root {} {} tokens 0 st hst (.empty _) (Nat.zero_le _) rfl
  exact reset_gives.bind (h.bind ((conclude_gives ha hd).bind ((before_gives hn hd).bind
    ((Gives.modify rfl).bind .pure))))

theorem parse_within (ha : t.scheme.WellFormed) (tokens : List String) :
    (t.parse tokens).1.pass.Within t.scheme := by
  obtain ⟨st, hst⟩ := ha.exists_root
  have hw := (read_readsTo ha tokens root {} {} tokens 0 st hst (.empty _) (Nat.zero_le _)
    rfl).within
  exact ⟨hw.matched, hw.grouped, hw.chosen, hw.filled, hw.valued⟩

end Act

end CommandGrammar
