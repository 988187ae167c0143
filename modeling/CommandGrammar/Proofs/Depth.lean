import CommandGrammar.Proofs.Progress
import CommandGrammar.Proofs.Requests
import Mathlib.Order.Bounds.Defs

/-!
# All recursions end

In a form that is reached by requests, the store of a flag has a larger number than the store that
has the flag. So the stores below a store have a greatest depth, its height, and the usage texts,
which enter every store they meet, are written.

A command line is read in rounds, and between two rounds stores are opened. `readIn` is such a
reading with both under guard: the next round has to begin behind a token that was read, and so has
an opened store, and stores are opened within one another up to a given depth only. What goes
against this does not end. Up to the height of the store the guards change nothing.
-/

namespace CommandGrammar

/-! ## Heights -/

namespace Form

/-- The stores of the flags whose keys a store has. -/
def childrenOf (form : Form) (store : StoreId) : List StoreId :=
  (((form.stores[store.index]?).map (·.keys)).getD []).filterMap fun x =>
    (form.flags[x.2.index]?).bind (·.flag.children)

/-- How deep stores lie below a store. Only a store behind it is entered. -/
def height (form : Form) (store : StoreId) : Nat :=
  ((form.childrenOf store).map fun child =>
    if _h : store.index < child.index ∧ child.index < form.stores.length then
      form.height child + 1
    else 0).max?.getD 0
termination_by form.stores.length - store.index

/-- The store of a flag is there, behind the store that has the flag. -/
def Deepens (form : Form) : Prop :=
  ∀ {store child}, child ∈ form.childrenOf store →
    store.index < child.index ∧ child.index < form.stores.length

/-- Stores one below the other, the first of them right below a store. -/
def Descends (form : Form) (store : StoreId) (path : List StoreId) : Prop :=
  (store :: path).IsChain fun store child => child ∈ form.childrenOf store

variable {form form' : Form} {store child : StoreId}

theorem childrenOf_cleared (form : Form) (store : StoreId) :
    form.cleared.childrenOf store = form.childrenOf store := by
  simp only [childrenOf, cleared, List.getElem?_map, Option.bind_map, Function.comp_def]

theorem childrenOf_congr (h : form'.cleared = form.cleared) (store : StoreId) :
    form'.childrenOf store = form.childrenOf store := by
  rw [← childrenOf_cleared form', h, childrenOf_cleared]

theorem height_eq (hd : form.Deepens) (store : StoreId) :
    form.height store = ((form.childrenOf store).map (form.height · + 1)).max?.getD 0 := by
  rw [height]
  refine congrArg (fun l : List Nat => l.max?.getD 0) (List.map_congr_left fun child hc => ?_)
  exact dif_pos (hd hc)

theorem height_lt (hd : form.Deepens) (hc : child ∈ form.childrenOf store) :
    form.height child < form.height store := by
  rw [height_eq hd store]
  exact List.le_max?_getD_of_mem (List.mem_map_of_mem hc)

/-- Below a store there is one that is lower by one only, unless there is none at all. -/
theorem exists_child_of_height (hd : form.Deepens) {k : Nat} (h : form.height store = k + 1) :
    ∃ child ∈ form.childrenOf store, form.height child = k := by
  rw [height_eq hd] at h
  rcases hm : ((form.childrenOf store).map (form.height · + 1)).max? with _ | m
  · rw [hm] at h
    cases h
  · rw [hm, Option.getD_some] at h
    obtain ⟨child, hc, hk⟩ := List.mem_map.1 (List.max?_mem hm)
    exact ⟨child, hc, Nat.succ_injective (hk.trans h)⟩

theorem exists_descends (hd : form.Deepens) :
    ∀ (k : Nat) (store : StoreId), form.height store = k →
      ∃ path, form.Descends store path ∧ path.length = k
  | 0, store, _ => ⟨[], .singleton store, rfl⟩
  | k + 1, store, h => by
    obtain ⟨child, hc, hk⟩ := exists_child_of_height hd h
    obtain ⟨path, hp, hlen⟩ := exists_descends hd k child hk
    exact ⟨child :: path, .cons_cons hc hp, congrArg (· + 1) hlen⟩

theorem length_le_height (hd : form.Deepens) :
    ∀ (path : List StoreId) (store : StoreId), form.Descends store path →
      path.length ≤ form.height store
  | [], _, _ => Nat.zero_le _
  | child :: path, store, h => by
    obtain ⟨hc, hp⟩ := List.isChain_cons_cons.1 h
    exact (Nat.succ_le_succ (length_le_height hd path child hp)).trans (height_lt hd hc)

theorem isGreatest_height (hd : form.Deepens) (store : StoreId) :
    IsGreatest {k | ∃ path, form.Descends store path ∧ path.length = k} (form.height store) := by
  refine ⟨exists_descends hd _ store rfl, ?_⟩
  rintro _ ⟨path, hp, rfl⟩
  exact length_le_height hd path store hp

/-- A flag with a store, in the store of another one. -/
example : (Session.after [.register (.complexFlag Scheme.root "remote" .optional "Remotes."),
    .register (.complexFlag ⟨1⟩ "add" .optional "Adds one.")]).form.height Scheme.root = 2 := by
  decide +kernel

end Form

/-! ## Readings under guard -/

/-- A computation that does not end. -/
def Act.stuck {α : Type} : Act α := fun _ => (none : Option (Except Trap (α × Form)))

open Act

/-- Reads tokens into a store, going on and opening stores only behind a token that was read, and
opening stores in one another up to a depth only. -/
def StoreId.readIn (depth : Nat) (store : StoreId) (tokens : List String) (met : Met)
    (position : Nat) : Act (Ending × Nat) :=
  store.round
    (fun met next =>
      if _h : position < next ∧ position < tokens.length then store.readIn depth tokens met next
      else stuck)
    (fun child next =>
      match depth with
      | 0 => stuck
      | depth + 1 =>
        if position < next ∧ position < tokens.length then child.readIn depth tokens {} next
        else stuck)
    tokens met position
termination_by (depth, tokens.length - position)

namespace Act

theorem on_bind_congr {α β : Type} {x y : Act α} {form : Form} (h : x.on form = y.on form)
    (f : α → Act β) : (x >>= f).on form = (y >>= f).on form := by
  rw [on_bind, on_bind, h]

section Congr

variable {goOn goOn' : Met → Nat → Act (Ending × Nat)}
  {openStore openStore' : StoreId → Nat → Act (Ending × Nat)} {form : Form} {n : Nat}

/-- Only the opening of its own store matters to a flag. -/
theorem matchWith_congr (id : FlagId)
    (hopen : ∀ child form', (form.flags[id.index]?).bind (·.flag.children) = some child →
      form'.cleared = form.cleared →
      (openStore child (n + 1)).on form' = (openStore' child (n + 1)).on form') :
    (id.matchWith openStore n).on form = (id.matchWith openStore' n).on form := by
  refine (look_ends _ _ _ form).bind_congr ?_
  rintro cell form ⟨hcell, rfl⟩
  refine (start_ends id cell form n).bind_congr ?_
  rintro (_ | e) form₁ h₁
  · refine (get_looks form₁).bind_congr ?_
    rintro form₂ form₁ rfl
    split_ifs
    · rfl
    · rcases hc : cell.flag.children with _ | child
      · rfl
      · exact on_bind_congr (hopen child form₁ (by rw [hcell]; exact hc) h₁.cleared) _
  · rfl

/-- Only what goes on behind a token and the opening of its children matter to a store. -/
theorem round_congr (store : StoreId) (tokens : List String) (met : Met)
    (hgo : ∀ met m form', n < m → n < tokens.length → form'.cleared = form.cleared →
      (goOn met m).on form' = (goOn' met m).on form')
    (hopen : ∀ child form', child ∈ form.childrenOf store → n < tokens.length →
      form'.cleared = form.cleared →
      (openStore child (n + 1)).on form' = (openStore' child (n + 1)).on form')
    (hends : ∀ child form, (openStore child (n + 1)).Ends form fun r form' =>
      form.Advances (n + 1) form' r.2) :
    (store.round goOn openStore tokens met n).on form =
      (store.round goOn' openStore' tokens met n).on form := by
  rw [StoreId.round, StoreId.round]
  rcases htoken : tokens[n]? with _ | token
  · rfl
  have hn : n < tokens.length := (List.getElem?_eq_some_iff.1 htoken).1
  refine (look_ends _ _ _ form).bind_congr ?_
  rintro st form ⟨hst, rfl⟩
  rcases hk : st.keys.lookup token with _ | id
  · refine (offerAll_ends store token form n).bind_congr ?_
    rintro (⟨id, policy, v⟩ | ⟨name, reason⟩ | _) form₁ h₁
    · exact hgo _ (n + 1) form₁ (Nat.lt_succ_self n) hn h₁.cleared
    · rfl
    · rfl
  · have hmatch : (id.matchWith openStore n).on form = (id.matchWith openStore' n).on form := by
      refine matchWith_congr id fun child form' hc h => hopen child form' ?_ hn h
      rw [Form.childrenOf, hst]
      exact List.mem_filterMap.2 ⟨(token, id), mem_of_lookup_eq_some hk, hc⟩
    refine Eq.trans ((matchWith_ends id n hends form).bind_congr ?_) (on_bind_congr hmatch _)
    rintro ⟨_ | _ | e, m⟩ form₁ ⟨h₁, hm⟩
    · refine (flagAt_looks id form₁).bind_congr ?_
      rintro cell _ rfl
      exact hgo _ m _ (hm rfl) hn h₁.cleared
    · rfl
    · rfl

end Congr

/-- The guards change nothing if the depth is the height of the store, or more. The induction is on
the depth, and for one depth on the tokens that are left. -/
theorem readIn_eq_read {form : Form} (hd : form.Deepens) (tokens : List String) (depth : Nat) :
    ∀ store, form.height store ≤ depth → ∀ met n marked, marked.cleared = form.cleared →
      (store.readIn depth tokens met n).on marked = (store.read tokens met n).on marked := by
  induction depth using Nat.strong_induction_on with
  | _ depth ihd =>
    intro store hh met n
    induction hleft : tokens.length - n using Nat.strong_induction_on generalizing met n with
    | _ left ih =>
      subst hleft
      intro marked hm
      rw [StoreId.readIn, StoreId.read_eq]
      refine (round_congr store tokens met (fun met m form' hnm hn h => ?_)
        (fun child form' hc hn h => ?_)
        fun child form => read_ends child tokens {} (n + 1) form).symm
      · rw [dif_pos ⟨hnm, hn⟩]
        exact (ih _ (by omega) met m rfl form' (h.trans hm)).symm
      · rw [Form.childrenOf_congr hm] at hc
        have hlt := (Form.height_lt hd hc).trans_le hh
        obtain ⟨depth, rfl⟩ := Nat.exists_eq_add_one_of_ne_zero (Nat.ne_zero_of_lt hlt)
        dsimp only
        rw [if_pos ⟨Nat.lt_succ_self n, hn⟩]
        exact (ihd depth (Nat.lt_succ_self depth) child (Nat.le_of_lt_succ hlt) {} (n + 1) form'
          (h.trans hm)).symm

end Act

/-! ## Forms that are reached -/

namespace Form

/-- A flag belongs to a store that has its key, that lists it, or that lists its group. -/
inductive Holds (form : Form) (store : StoreId) : FlagId → Prop
  | keyed {st : Store} {key : String} {id : FlagId} : form.stores[store.index]? = some st →
    (key, id) ∈ st.keys → Holds form store id
  | listed {st : Store} {id : FlagId} : form.stores[store.index]? = some st →
    .flag id ∈ st.entries → Holds form store id
  | member {st : Store} {g : GroupId} {cell : GroupCell} {id : FlagId} :
    form.stores[store.index]? = some st → .group g ∈ st.entries →
    form.groups[g.index]? = some cell → id ∈ cell.group.members → Holds form store id

/-- The recursions over the stores of a form end, and so they do in a pass, which changes marks
only. -/
structure RecursionsEnd (form : Form) : Prop where
  /-- The store of a flag has a larger number than the store to which the flag belongs. -/
  deepens : ∀ {store id cell child}, form.Holds store id → form.flags[id.index]? = some cell →
    cell.flag.children = some child → store.index < child.index ∧ child.index < form.stores.length
  summary : ∀ store : StoreId, store.index < form.stores.length →
    ∃ text, store.summary.on form = some (.ok (text, form))
  flagSummary : ∀ id : FlagId, id.index < form.flags.length →
    ∃ text, id.summary.on form = some (.ok (text, form))
  help : ∀ store : StoreId, store.index < form.stores.length → ∀ level,
    ∃ text, (store.help level).on form = some (.ok (text, form))
  flagHelp : ∀ id : FlagId, id.index < form.flags.length → ∀ level,
    ∃ text, (id.help level).on form = some (.ok (text, form))
  read : ∀ marked : Form, marked.cleared = form.cleared → ∀ (store : StoreId) tokens met n,
    (store.read tokens met n).Ends marked fun r form' => marked.Advances n form' r.2
  /-- A flag that lets its store go on has read a token. -/
  matchKey : ∀ marked : Form, marked.cleared = form.cleared → ∀ (id : FlagId) tokens n,
    (id.matchKey tokens n).Ends marked fun r form' =>
      marked.Advances n form' r.2 ∧ (r.1 = .closed → n < r.2)
  height : ∀ store, IsGreatest {k | ∃ path, form.Descends store path ∧ path.length = k}
    (form.height store)
  /-- A store goes on, and opens other stores, only behind a token that it has read, and they are
  opened in one another no deeper than they are nested. -/
  guarded : ∀ marked : Form, marked.cleared = form.cleared → ∀ (store : StoreId) tokens met n,
    (store.readIn (form.height store) tokens met n).on marked =
      (store.read tokens met n).on marked
  /-- Every store reads every command line, from every position, to a position in it. -/
  answered : ∀ store : StoreId, store.index < form.stores.length →
    ∀ tokens met n, n ≤ tokens.length →
      ∃ r form', (store.read tokens met n).on form = some (.ok (r, form')) ∧ r.2 ≤ tokens.length
  /-- No more flags and arguments match in a pass than there are tokens. -/
  parse : ∀ tokens, ∃ outcome form', (Act.parse tokens).on form = some (.ok (outcome, form')) ∧
    form'.matchCount ≤ tokens.length

end Form

namespace Session

variable {t : Session}

theorem keysOf_of_holds (ha : t.scheme.WellFormed) {store : StoreId} {id : FlagId}
    (h : t.form.Holds store id) : ∃ key, (key, id) ∈ t.scheme.keysOf store := by
  rcases h with ⟨hst, hk⟩ | ⟨hst, he⟩ | ⟨hst, he, hg, hm⟩
  · exact ⟨_, Scheme.mem_keysOf.2 ⟨_, hst, hk⟩⟩
  · obtain ⟨f, -, -, hk⟩ := ha.flag_listed (Scheme.mem_listing.2 ⟨_, hst, he⟩)
    exact ⟨f.key, hk⟩
  · obtain ⟨group, hgroup, rfl⟩ := ha.group_listed (Scheme.mem_listing.2 ⟨_, hst, he⟩)
    obtain ⟨group', hgroup', rfl⟩ :=
      Option.map_eq_some_iff.1 (List.getElem?_mapIdx.symm.trans hg)
    cases hgroup.symm.trans hgroup'
    obtain ⟨f, -, -, -, hk⟩ := ha.member hgroup hm
    exact ⟨f.key, hk⟩

theorem form_behind (ha : t.scheme.WellFormed) {store child : StoreId} {id : FlagId}
    {cell : FlagCell} (h : t.form.Holds store id) (hf : t.form.flags[id.index]? = some cell)
    (hc : cell.flag.children = some child) :
    store.index < child.index ∧ child.index < t.form.stores.length := by
  obtain ⟨key, hk⟩ := keysOf_of_holds ha h
  obtain ⟨f, hflag, rfl⟩ := Option.map_eq_some_iff.1 (List.getElem?_mapIdx.symm.trans hf)
  exact Scheme.Nests.behind ha ⟨key, id, f, hk, hflag, hc⟩

theorem form_deepens (ha : t.scheme.WellFormed) : t.form.Deepens := by
  intro store child hc
  obtain ⟨⟨key, id⟩, hk, hc⟩ := List.mem_filterMap.1 hc
  obtain ⟨st, hst, hk⟩ := Scheme.mem_keysOf.1 hk
  obtain ⟨cell, hf, hc⟩ := Option.bind_eq_some_iff.1 hc
  exact form_behind ha (.keyed hst hk) hf hc

theorem exists_flag_of_lt {id : FlagId} (h : id.index < t.form.flags.length) :
    ∃ f, t.scheme.flag? id = some f :=
  ⟨_, List.getElem?_eq_getElem (t.form_flags_length ▸ h)⟩

theorem Tight.recursionsEnd (h : t.Tight) : t.form.RecursionsEnd where
  deepens := form_behind h.scheme
  summary store hlt := by
    obtain ⟨st, hst⟩ := Scheme.exists_store?_of_lt hlt
    exact ⟨_, Act.summary_gives h.scheme store st hst⟩
  flagSummary id hlt := by
    obtain ⟨f, hf⟩ := exists_flag_of_lt hlt
    exact ⟨_, Act.flagSummary_gives h.scheme hf⟩
  help store hlt level := by
    obtain ⟨st, hst⟩ := Scheme.exists_store?_of_lt hlt
    exact ⟨_, Act.storeHelp_gives h.scheme store level st hst⟩
  flagHelp id hlt level := by
    obtain ⟨f, hf⟩ := exists_flag_of_lt hlt
    refine ⟨_, Act.flagHelp_gives_of h.scheme level hf fun {child} hc => ?_⟩
    obtain ⟨st, hst⟩ := h.scheme.exists_child hf hc
    exact Act.storeHelp_gives h.scheme child (level + 1) st hst
  read marked _ store tokens met n := Act.read_ends store tokens met n marked
  matchKey marked _ id tokens n := Act.matchKey_ends id tokens n marked
  height := Form.isGreatest_height (form_deepens h.scheme)
  guarded marked hm store tokens met n :=
    Act.readIn_eq_read (form_deepens h.scheme) tokens _ store le_rfl met n marked hm
  answered store hlt tokens met n hn := by
    obtain ⟨st, hst⟩ := Scheme.exists_store?_of_lt hlt
    obtain ⟨-, m, hm, -, hgives⟩ :=
      Act.read_readsTo h.scheme tokens store met t.pass _ n st hst h.pass hn rfl
    exact ⟨_, _, hgives, hm⟩
  parse tokens := by
    have hgives := Act.parse_gives h.scheme tokens
    exact ⟨_, _, hgives, (Act.parse_ends tokens t.form).of_ok hgives⟩

end Session

/-- After any requests all recursions end. -/
theorem Act.serve_recursions_end (requests : List Request) :
    let (answers, t) := Session.serve {} requests
    (serve requests).on {} = some (.ok (answers, t.form)) ∧ t.form.RecursionsEnd :=
  ⟨serve_gives requests Session.tight_empty,
    (Session.Tight.serve requests Session.tight_empty).recursionsEnd⟩

end CommandGrammar
