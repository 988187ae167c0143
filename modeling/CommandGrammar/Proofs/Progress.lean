import CommandGrammar.Form.Reading
import CommandGrammar.Proofs.Marks

/-!
# Reading gets on

A store that reads in place goes round after round, and a flag with a store of its own has it opened
in between. Whatever the form is like, and wherever its numbers lead, a further round begins behind
the one before it in the command line, and so does an opened store. As the tokens run out, every
reading ends, with an answer or at a trap. On the way only marks are changed, and no more flags and
arguments come to match than tokens are read.

A round is written once for all uses: it is given what goes on after it, and what opens a store.
-/

namespace CommandGrammar

/-! ## Computations that end -/

namespace Act

variable {α β : Type} {x : Act α} {f g : α → Act β} {form form' : Form} {P Q : α → Form → Prop}
  {R : β → Form → Prop}

/-- On a form a computation ends: at a trap, or with an answer and a form of which something is
true. -/
def Ends (x : Act α) (form : Form) (Q : α → Form → Prop) : Prop :=
  (∃ trap, x.on form = some (.error trap)) ∨
    ∃ a form', x.on form = some (.ok (a, form')) ∧ Q a form'

/-- A computation ends on every form, and leaves it as it is. -/
def Looks (x : Act α) : Prop := ∀ form, x.Ends form fun _ form' => form' = form

theorem on_bind (x : Act α) (f : α → Act β) (form : Form) :
    (x >>= f).on form = (x.on form).bind (ExceptT.bindCont fun r => (f r.1).run r.2) := rfl

theorem on_bind_of_error {trap : Trap} (h : x.on form = some (.error trap)) (f : α → Act β) :
    (x >>= f).on form = some (.error trap) := by
  rw [on_bind, h]
  rfl

namespace Ends

theorem pure {a : α} (h : Q a form) : (pure a : Act α).Ends form Q :=
  .inr ⟨a, form, on_pure a form, h⟩

theorem trap (t : Trap) : (throw t : Act α).Ends form Q := .inl ⟨t, rfl⟩

theorem modify {f : Form → Form} {Q : PUnit → Form → Prop} (h : Q () (f form)) :
    (modify f : Act PUnit).Ends form Q :=
  .inr ⟨(), f form, on_modify f form, h⟩

theorem mono (h : x.Ends form P) (hpq : ∀ a form', P a form' → Q a form') : x.Ends form Q :=
  h.imp_right fun ⟨a, form', hx, hp⟩ => ⟨a, form', hx, hpq a form' hp⟩

theorem bind (h : x.Ends form P) (hf : ∀ a form', P a form' → (f a).Ends form' R) :
    (x >>= f).Ends form R := by
  rcases h with ⟨t, hx⟩ | ⟨a, form', hx, hp⟩
  · exact .inl ⟨t, on_bind_of_error hx f⟩
  · rw [Ends, on_bind_of_ok hx]
    exact hf a form' hp

/-- What comes after a computation matters only where the computation can lead. -/
theorem bind_congr (h : x.Ends form P)
    (hfg : ∀ a form', P a form' → (f a).on form' = (g a).on form') :
    (x >>= f).on form = (x >>= g).on form := by
  rcases h with ⟨t, hx⟩ | ⟨a, form', hx, hp⟩
  · rw [on_bind_of_error hx, on_bind_of_error hx]
  · rw [on_bind_of_ok hx, on_bind_of_ok hx, hfg a form' hp]

theorem of_ok (h : x.Ends form Q) {a : α} (hx : x.on form = some (.ok (a, form'))) :
    Q a form' := by
  rcases h with ⟨t, ht⟩ | ⟨b, form'', hb, hq⟩
  · cases ht.symm.trans hx
  · cases hb.symm.trans hx
    exact hq

end Ends

namespace Looks

theorem pure (a : α) : (Pure.pure a : Act α).Looks := fun _ => .pure rfl

theorem bind (h : x.Looks) (hf : ∀ a, (f a).Looks) : (x >>= f).Looks := fun form =>
  (h form).bind fun a _ hform => hform ▸ hf a form

theorem mapM {l : List α} (h : ∀ a, (f a).Looks) : (l.mapM f).Looks := by
  induction l with
  | nil => exact pure []
  | cons a l ih =>
    rw [List.mapM_cons]
    exact (h a).bind fun b => ih.bind fun bs => pure (b :: bs)

/-- What looks first has to end on the form that was there. -/
theorem followed (h : x.Looks) (hf : ∀ a, (f a).Ends form R) : (x >>= f).Ends form R :=
  (h form).bind fun a _ hform => hform ▸ hf a

end Looks

/-! ## What only looks -/

theorem look_ends {ν : Type} (nodes : Form → List ν) (index : Nat) (trap : Trap) (form : Form) :
    (look nodes index trap).Ends form fun node form' =>
      (nodes form)[index]? = some node ∧ form' = form := by
  rcases h : (nodes form)[index]? with _ | node
  · refine .inl ⟨trap, (on_bind_of_ok (on_get form) _).trans ?_⟩
    rw [h]
    rfl
  · refine .inr ⟨node, form, (on_bind_of_ok (on_get form) _).trans ?_, rfl, rfl⟩
    rw [h]
    rfl

theorem look_looks {ν : Type} (nodes : Form → List ν) (index : Nat) (trap : Trap) :
    (look nodes index trap).Looks := fun form =>
  (look_ends nodes index trap form).mono fun _ _ h => h.2

theorem get_looks : (get : Act Form).Looks := fun form => .inr ⟨form, form, on_get form, rfl⟩

theorem storeAt_looks (id : StoreId) : (storeAt id).Looks := look_looks _ _ _

theorem flagAt_looks (id : FlagId) : (flagAt id).Looks := look_looks _ _ _

theorem groupAt_looks (id : GroupId) : (groupAt id).Looks := look_looks _ _ _

theorem argAt_looks (id : ArgId) : (argAt id).Looks := look_looks _ _ _

theorem entriesOf_looks (store : StoreId) : (entriesOf store).Looks := by
  refine (storeAt_looks store).bind fun st => get_looks.bind fun form => ?_
  rcases form.help with _ | help
  · exact .pure _
  · exact .pure _

theorem keyOf_looks (id : FlagId) : (keyOf id).Looks := (flagAt_looks id).bind fun _ => .pure _

theorem flagOption_looks (id : FlagId) : (flagOption id).Looks :=
  (flagAt_looks id).bind fun _ => .pure _

theorem entryOptions_looks (e : Entry) : (entryOptions e).Looks := by
  rcases e with id | g
  · exact (flagAt_looks id).bind fun _ => .pure _
  · refine (groupAt_looks g).bind fun cell => ?_
    split_ifs
    · exact .pure _
    · exact .mapM flagOption_looks

theorem availableFlags_looks (store : StoreId) : (availableFlags store).Looks :=
  (entriesOf_looks store).bind fun _ => (Looks.mapM entryOptions_looks).bind fun _ => .pure _

theorem availableArgs_looks (store : StoreId) : (availableArgs store).Looks :=
  (storeAt_looks store).bind fun _ => (Looks.mapM argAt_looks).bind fun _ => .pure _

theorem unexpected_looks (store : StoreId) (token : String) : (unexpected store token).Looks :=
  (availableFlags_looks store).bind fun _ => (availableArgs_looks store).bind fun _ => .pure _

theorem close_looks (store : StoreId) (met : Met) (next : Option String) :
    (close store met next).Looks := by
  refine (storeAt_looks store).bind fun st => ?_
  split_ifs
  · rcases next with _ | token
    · exact (availableFlags_looks store).bind fun _ => .pure _
    · exact (unexpected_looks store token).bind fun _ => .pure _
  · rcases next with _ | token
    · exact (availableArgs_looks store).bind fun _ => .pure _
    · exact (unexpected_looks store token).bind fun _ => .pure _
  · exact .pure _

end Act

/-! ## Nodes that come to match -/

namespace Form

/-- How many flags and arguments have matched. -/
def matchCount (form : Form) : Nat :=
  form.flags.countP (·.matched) + form.args.countP (·.matched)

/-- Between two positions of a command line only marks are changed, and no more nodes come to match
than there are tokens between them. -/
structure Advances (form : Form) (n : Nat) (form' : Form) (m : Nat) : Prop where
  le : n ≤ m
  cleared : form'.cleared = form.cleared
  matched : form'.matchCount + n ≤ form.matchCount + m

namespace Advances

variable {form form' form'' : Form} {n m k : Nat}

theorem refl (form : Form) (n : Nat) : form.Advances n form n := ⟨le_rfl, rfl, le_rfl⟩

theorem trans (h : form.Advances n form' m) (h' : form'.Advances m form'' k) :
    form.Advances n form'' k where
  le := h.le.trans h'.le
  cleared := h'.cleared.trans h.cleared
  matched := by
    have := h.matched
    have := h'.matched
    omega

theorem of_le (h : form.Advances n form' m) (hk : k ≤ n) : form.Advances k form' m where
  le := hk.trans h.le
  cleared := h.cleared
  matched := by
    have := h.matched
    omega

/-- Only how far apart the positions are counts. -/
theorem of_succ (h : form.Advances (n + 1) form' (m + 1)) : form.Advances n form' m where
  le := Nat.le_of_succ_le_succ h.le
  cleared := h.cleared
  matched := by
    have := h.matched
    omega

end Advances

section Modify

variable {α β : Type}

theorem map_modify {f : α → α} {g : α → β} (h : ∀ a, g (f a) = g a) (i : Nat) :
    ∀ l : List α, (l.modify i f).map g = l.map g := by
  induction i with
  | zero => exact fun l => by cases l <;> simp [h]
  | succ i ih => exact fun l => by cases l <;> simp [ih]

theorem countP_modify_le (p : α → Bool) (f : α → α) (i : Nat) :
    ∀ l : List α, (l.modify i f).countP p ≤ l.countP p + 1 := by
  induction i with
  | zero =>
    intro l
    rcases l with _ | ⟨a, l⟩
    · exact Nat.zero_le _
    · simp only [List.modify_zero_cons, List.countP_cons]
      split_ifs <;> omega
  | succ i ih =>
    intro l
    rcases l with _ | ⟨a, l⟩
    · exact Nat.zero_le _
    · simp only [List.modify_succ_cons, List.countP_cons]
      have := ih l
      omega

end Modify

variable (form : Form) (n : Nat)

theorem advances_flag (id : FlagId) : form.Advances n
    { form with flags := form.flags.modify id.index fun cell => { cell with matched := true } }
    (n + 1) where
  le := Nat.le_succ n
  cleared := by simp only [cleared, map_modify, implies_true]
  matched := by
    have := countP_modify_le (·.matched) (fun cell : FlagCell => { cell with matched := true })
      id.index form.flags
    dsimp only [matchCount]
    omega

/-- The choice in a group is none of the marks that are counted. -/
theorem advances_group (group : GroupId) (id : FlagId) : form.Advances n
    { form with
      groups := form.groups.modify group.index
        (fun cell => { cell with chosen := some id, matched := true }) } n where
  le := le_rfl
  cleared := by simp only [cleared, map_modify, implies_true]
  matched := le_rfl

theorem advances_arg (id : ArgId) (v : Value) : form.Advances n
    { form with
      args := form.args.modify id.index fun cell => { cell with matched := true, value := some v } }
    (n + 1) where
  le := Nat.le_succ n
  cleared := by simp only [cleared, map_modify, implies_true]
  matched := by
    have := countP_modify_le (·.matched)
      (fun cell : ArgCell => { cell with matched := true, value := some v }) id.index form.args
    dsimp only [matchCount]
    omega

end Form

namespace Act

/-! ## Marking -/

theorem mark_ends (id : FlagId) (form : Form) (n : Nat) :
    (updateFlag id fun cell => { cell with matched := true }).Ends form
      fun _ form' => form.Advances n form' (n + 1) :=
  (flagAt_looks id).followed fun _ => .modify (form.advances_flag n id)

theorem pick_ends (group : GroupId) (id : FlagId) (form : Form) (n : Nat) :
    (updateGroup group fun cell => { cell with chosen := some id, matched := true }).Ends form
      fun _ form' => form.Advances n form' n :=
  (groupAt_looks group).followed fun _ => .modify (form.advances_group n group id)

theorem fill_ends (id : ArgId) (v : Value) (form : Form) (n : Nat) :
    (updateArg id fun cell => { cell with matched := true, value := some v }).Ends form
      fun _ form' => form.Advances n form' (n + 1) :=
  (argAt_looks id).followed fun _ => .modify (form.advances_arg n id v)

theorem choose_ends (group : GroupId) (id : FlagId) (form : Form) (n : Nat) :
    (choose group id).Ends form fun _ form' => form.Advances n form' n := by
  refine (groupAt_looks group).followed fun cell => ?_
  rcases cell.chosen with _ | first
  · exact (pick_ends group id form n).bind fun _ _ h => .pure h
  · refine (groupAt_looks group).followed fun cell => (keyOf_looks first).followed fun _ =>
      (keyOf_looks id).followed fun _ => (Looks.mapM keyOf_looks).followed fun _ => ?_
    exact .pure (.refl form n)

theorem start_ends (id : FlagId) (cell : FlagCell) (form : Form) (n : Nat) :
    (start id cell).Ends form fun _ form' => form.Advances n form' n := by
  unfold start
  split_ifs
  · exact .pure (.refl form n)
  · rcases cell.flag.group with _ | group
    · exact .pure (.refl form n)
    · exact choose_ends group id form n

theorem complete_ends (id : FlagId) (form : Form) (n : Nat) :
    (complete id).Ends form fun _ form' => form.Advances n form' (n + 1) := by
  refine (mark_ends id form n).bind fun _ form' h => ?_
  refine (flagAt_looks id).followed fun cell => ?_
  dsimp only
  rcases cell.flag.trigger with _ | t
  · exact .pure h
  · exact .modify ⟨h.le, h.cleared, h.matched⟩

/-- A token is taken by one argument, if by any. -/
theorem offer_ends (store : StoreId) (token : String) (form : Form) (n : Nat) :
    ∀ places : List Nat, (offer store token places).Ends form fun o form' =>
      match o with
      | .taken .. => form.Advances n form' (n + 1)
      | .refused .. | .declined => form.Advances n form' n
  | [] => .pure (.refl form n)
  | place :: places => by
    have ih := offer_ends store token form n places
    refine (storeAt_looks store).followed fun st => ?_
    rcases st.args[place]? with _ | id
    · exact .trap _
    · refine (argAt_looks id).followed fun cell => ?_
      split_ifs
      · exact ih
      · rcases (cell.arg.pipeline.run token).result with reason | v
        · rcases cell.arg.policy
          · exact .pure (.refl form n)
          · exact ih
        · exact (fill_ends id v form n).bind fun _ _ h => .pure h

theorem offerAll_ends (store : StoreId) (token : String) (form : Form) (n : Nat) :
    (offerAll store token).Ends form fun o form' =>
      match o with
      | .taken .. => form.Advances n form' (n + 1)
      | .refused .. | .declined => form.Advances n form' n :=
  (storeAt_looks store).followed fun _ => offer_ends store token form n _

end Act

/-! ## Rounds -/

open Act

/-- Matches a flag whose key stands at a position, given what opens the store of a flag. -/
def FlagId.matchWith (openStore : StoreId → Nat → Act (Ending × Nat)) (id : FlagId)
    (position : Nat) : Act (Ending × Nat) := do
  let cell ← flagAt id
  match ← start id cell with
  | some e => return (.failed e, position)
  | none =>
    if (← get).help = some id then
      updateFlag id fun cell => { cell with matched := true }
      return (.help, position + 1)
    else
      match cell.flag.children with
      | none =>
        complete id
        return (.closed, position + 1)
      | some child =>
        match ← openStore child (position + 1) with
        | (.closed, position) =>
          complete id
          return (.closed, position)
        | stopped => return stopped

/-- What a store does with one token, given what goes on with the next and what opens the store of
a flag. -/
def StoreId.round (goOn : Met → Nat → Act (Ending × Nat))
    (openStore : StoreId → Nat → Act (Ending × Nat)) (store : StoreId) (tokens : List String)
    (met : Met) (position : Nat) : Act (Ending × Nat) := do
  match tokens[position]? with
  | none => return (← close store met none, position)
  | some token =>
    match (← storeAt store).keys.lookup token with
    | some id =>
      match ← id.matchWith openStore position with
      | (.closed, position) => goOn (met.countFlag (← flagAt id).flag.policy) position
      | stopped => return stopped
    | none =>
      match ← offerAll store token with
      | .taken _ policy _ => goOn (met.countArg policy) (position + 1)
      | .refused name reason => return (.failed (.conversionFailure name reason), position)
      | .declined => return (← close store met (some token), position)

theorem FlagId.matchKey_eq (id : FlagId) (tokens : List String) (n : Nat) :
    id.matchKey tokens n = id.matchWith (fun child => child.read tokens {}) n := by
  rw [FlagId.matchKey]
  rfl

theorem StoreId.read_eq (store : StoreId) (tokens : List String) (met : Met) (n : Nat) :
    store.read tokens met n =
      store.round (store.read tokens) (fun child => child.read tokens {}) tokens met n := by
  conv_lhs => rw [StoreId.read]
  simp only [FlagId.matchKey_eq]
  rfl

namespace Act

section Rounds

variable {goOn : Met → Nat → Act (Ending × Nat)} {openStore : StoreId → Nat → Act (Ending × Nat)}
  {tokens : List String}

/-- A flag that lets its store go on has used up its key. -/
theorem matchWith_ends (id : FlagId) (n : Nat)
    (hopen : ∀ child form, (openStore child (n + 1)).Ends form fun r form' =>
      form.Advances (n + 1) form' r.2) (form : Form) :
    (id.matchWith openStore n).Ends form fun r form' =>
      form.Advances n form' r.2 ∧ (r.1 = .closed → n < r.2) := by
  refine (flagAt_looks id).followed fun cell => (start_ends id cell form n).bind ?_
  rintro (_ | e) form₁ h₁
  · refine get_looks.followed fun form₂ => ?_
    split_ifs
    · exact (mark_ends id form₁ n).bind fun _ form₃ h₃ => .pure ⟨h₁.trans h₃, nofun⟩
    · rcases cell.flag.children with _ | child
      · exact (complete_ends id form₁ n).bind fun _ form₃ h₃ =>
          .pure ⟨h₁.trans h₃, fun _ => Nat.lt_succ_self n⟩
      · refine (hopen child form₁).bind ?_
        rintro ⟨_ | _ | e, m⟩ form₃ h₃
        -- the key pays for the mark of the flag, which is set behind its store
        · exact (complete_ends id form₃ m).bind fun _ form₄ h₄ =>
            .pure ⟨h₁.trans (h₃.trans h₄).of_succ, fun _ => h₃.le⟩
        all_goals exact .pure ⟨h₁.trans (h₃.of_le (Nat.le_succ n)), nofun⟩
  · exact .pure ⟨h₁, nofun⟩

/-- A round ends if what may come after it does, with fewer tokens left. -/
theorem round_ends (store : StoreId) (met : Met) (n : Nat)
    (hgo : ∀ met m form, tokens.length - m < tokens.length - n →
      (goOn met m).Ends form fun r form' => form.Advances m form' r.2)
    (hopen : ∀ child form, tokens.length - (n + 1) < tokens.length - n →
      (openStore child (n + 1)).Ends form fun r form' => form.Advances (n + 1) form' r.2)
    (form : Form) :
    (store.round goOn openStore tokens met n).Ends form fun r form' =>
      form.Advances n form' r.2 := by
  rw [StoreId.round]
  rcases htoken : tokens[n]? with _ | token
  · exact (close_looks store met none).followed fun _ => .pure (.refl form n)
  have hn : n < tokens.length := (List.getElem?_eq_some_iff.1 htoken).1
  refine (storeAt_looks store).followed fun st => ?_
  rcases st.keys.lookup token with _ | id
  · refine (offerAll_ends store token form n).bind ?_
    rintro (⟨id, policy, v⟩ | ⟨name, reason⟩ | _) form₁ h₁
    · exact (hgo _ (n + 1) form₁ (by omega)).mono fun _ _ h => h₁.trans h
    · exact .pure h₁
    · exact (close_looks store met (some token)).followed fun _ => .pure h₁
  · refine (matchWith_ends id n (fun child form => hopen child form (by omega)) form).bind ?_
    rintro ⟨_ | _ | e, m⟩ form₁ ⟨h₁, hm⟩
    · refine (flagAt_looks id).followed fun cell => ?_
      have hm : n < m := hm rfl
      exact (hgo _ m form₁ (by omega)).mono fun _ _ h => h₁.trans h
    all_goals exact .pure h₁

end Rounds

/-! ## Readings -/

/-- Every reading ends, whatever the form is like. -/
theorem read_ends (store : StoreId) (tokens : List String) (met : Met) (n : Nat) (form : Form) :
    (store.read tokens met n).Ends form fun r form' => form.Advances n form' r.2 := by
  induction hleft : tokens.length - n using Nat.strong_induction_on
    generalizing store met n form with
  | _ left ih =>
    subst hleft
    rw [StoreId.read_eq]
    exact round_ends store met n (fun met m form hm => ih _ hm store met m form rfl)
      (fun child form hm => ih _ hm child {} (n + 1) form rfl) form

theorem matchKey_ends (id : FlagId) (tokens : List String) (n : Nat) (form : Form) :
    (id.matchKey tokens n).Ends form fun r form' =>
      form.Advances n form' r.2 ∧ (r.1 = .closed → n < r.2) := by
  rw [FlagId.matchKey_eq]
  exact matchWith_ends id n (fun child form => read_ends child tokens {} (n + 1) form) form

theorem conclude_looks (tokens : List String) (ending : Ending) (n : Nat) :
    (conclude tokens ending n).Looks := by
  rcases ending with _ | _ | e
  · rw [conclude]
    rcases tokens[n]? with _ | token
    · exact .pure _
    · exact (unexpected_looks _ token).bind fun _ => .pure _
  · exact .pure _
  · exact .pure _

theorem matchCount_cleared (form : Form) : form.cleared.matchCount = 0 := by
  simp [Form.matchCount, Form.cleared, List.countP_map, Function.comp_def]

/-- Every pass ends, and no more flags and arguments match in it than there are tokens. -/
theorem parse_ends (tokens : List String) (form : Form) :
    (parse tokens).Ends form fun _ form' => form'.matchCount ≤ tokens.length := by
  have hreset : reset.Ends form fun _ form' => form' = form.cleared := .modify rfl
  refine hreset.bind ?_
  rintro _ _ rfl
  refine (read_ends Scheme.root tokens {} 0 form.cleared).bind ?_
  rintro ⟨ending, n⟩ form₁ h
  refine (conclude_looks tokens ending n).followed fun outcome => ?_
  rw [before]
  split_ifs with hn
  · have hle := h.matched
    rw [matchCount_cleared] at hle
    have hconsumed : (modify fun form => { form with consumed := tokens.take n } : Act Unit).Ends
        form₁ fun _ form' => form'.matchCount ≤ tokens.length :=
      .modify (show form₁.matchCount ≤ tokens.length by omega)
    exact hconsumed.bind fun _ _ h => .pure h
  · exact .inl ⟨_, on_bind_of_error rfl _⟩

end Act

end CommandGrammar
