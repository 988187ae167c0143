import CommandGrammar.Pass.Reading
import CommandGrammar.Proofs.Arena

/-!
# Reading with an explicit stack

A machine that reads a command line without recursion. It keeps the open stores on a stack, the root
at the bottom: each other one is the store of a flag whose key was consumed and that has not matched
yet. Besides it keeps what the pass found, and no counters: whether a store lacks something is read
off its nodes.

The machine looks at one token at a time. A token that the innermost store takes is consumed. At
any other token, and at the end, the innermost store must lack nothing; then it is closed, its flag
has matched, and the same token is looked at again. A step consumes a token or closes a store, so
the machine stops.
-/

namespace CommandGrammar

namespace Pass

variable (p : Pass)

/-- Whether a unit has matched: a flag, or the member used in a group. -/
def meets : Entry → Bool
  | .flag id => p.isMatched id
  | .group id => (p.chosen? id).any p.isMatched

/-- Records the choice of a flag in its group, if it is in one. -/
def choosing (id : FlagId) (flag : Flag) : Pass :=
  match flag.group with
  | none => p
  | some group => p.choose group id

/-- The member used in the group of a flag. -/
def rival? (flag : Flag) : Option (GroupId × FlagId) :=
  flag.group.bind fun group => (p.chosen? group).map fun first => (group, first)

end Pass

/-- An open store above the root, and the flag that it belongs to. -/
structure Frame where
  owner : FlagId
  flag : Flag
  store : StoreId

/-- A state of the machine. The innermost open store comes first. -/
structure Walk where
  frames : List Frame := []
  pass : Pass := {}
  consumed : List String := []
  rest : List String

namespace Walk

def topOf : List Frame → StoreId
  | [] => Scheme.root
  | f :: _ => f.store

variable (w : Walk)

def top : StoreId := topOf w.frames

def eat (token : String) (rest : List String) (pass : Pass) : Walk :=
  { w with pass, consumed := w.consumed ++ [token], rest }

/-- Steps that are left at most: a token can be consumed and open a store, which is then closed. -/
def size : Nat := 2 * w.rest.length + w.frames.length

end Walk

namespace Scheme

variable (s : Scheme)

/-- The flag that a token is the key of at a level. -/
def keyFlag? (store : StoreId) (token : String) : Option (FlagId × Flag) :=
  (s.keyed? store token).bind fun id => (s.flag? id).map fun flag => (id, flag)

def lacksFlag (p : Pass) (store : StoreId) : Bool :=
  (s.listing store).any fun e => s.unitPolicy? e = some .mandatory && !p.meets e

def lacksArg (p : Pass) (store : StoreId) : Bool :=
  (s.argsOf store).any fun id => s.argPolicy? id = some .mandatory && !p.isFilled id

/-- What a store lacks, mandatory flags and groups first. -/
def shortfall? (p : Pass) (store : StoreId) (rest : List String) : Option ParseError :=
  if s.lacksFlag p store then
    match rest with
    | [] => some (.missingMandatoryFlag (s.availableFlags p store))
    | token :: _ => some (s.unexpected p store token)
  else if s.lacksArg p store then
    match rest with
    | [] => some (.missingMandatoryArgument (s.availableArgs p store))
    | token :: _ => some (s.unexpected p store token)
  else none

/-- What a positional argument makes of a token: nothing if it has matched or declines. -/
def answer? (p : Pass) (token : String) (id : ArgId) : Option (Except ParseError Value) :=
  match s.arg? id with
  | none => none
  | some arg =>
    if p.isFilled id then none
    else
      match (arg.pipeline.run token).result, arg.policy with
      | .ok v, _ => some (.ok v)
      | .error reason, .mandatory => some (.error (.conversionFailure arg.name reason))
      | .error _, .optional => none

/-- The first argument of a level that does not pass a token over. -/
def taker? (p : Pass) (store : StoreId) (token : String) :
    Option (ArgId × Except ParseError Value) :=
  (s.argsOf store).findSome? fun id => (s.answer? p token id).map fun a => (id, a)

/-- Closes the innermost store, if it lacks nothing. With the root the walk ends, and every token
must have been consumed. -/
def leave (w : Walk) : Walk ⊕ (Walk × Except ParseError Outcome) :=
  match s.shortfall? w.pass w.top w.rest with
  | some e => .inr (w, .error e)
  | none =>
    match w.frames, w.rest with
    | f :: frames, _ => .inl { w with frames, pass := w.pass.complete f.owner f.flag }
    | [], [] => .inr (w, .ok .parsed)
    | [], token :: _ => .inr (w, .error (s.unexpected w.pass root token))

/-- Looks at the next token: the next state, or the last one and how the walk ends. -/
def step (w : Walk) : Walk ⊕ (Walk × Except ParseError Outcome) :=
  match w.rest with
  | [] => s.leave w
  | token :: rest =>
    match s.keyFlag? w.top token with
    | some (id, flag) =>
      if w.pass.isMatched id then .inr (w, .error (.repeatedFlag flag.key))
      else
        match w.pass.rival? flag with
        | some (group, first) =>
          .inr (w, .error (.exclusiveConflict ((s.key? first).getD "") flag.key
            ((s.members group).filterMap s.key?)))
        | none =>
          let p := w.pass.choosing id flag
          if s.help = some id then .inr (w.eat token rest (p.mark id), .ok .help)
          else
            match flag.children with
            | none => .inl (w.eat token rest (p.complete id flag))
            | some store =>
              .inl { w.eat token rest p with frames := { owner := id, flag, store } :: w.frames }
    | none =>
      match s.taker? w.pass w.top token with
      | some (id, .ok v) => .inl (w.eat token rest (w.pass.fill id v))
      | some (_, .error e) => .inr (w, .error e)
      | none => s.leave w

/-- The innermost store takes no token: none is left, or it cannot take the next one. -/
def Declines (w : Walk) : Prop := ∀ token rest, w.rest = token :: rest →
  s.keyFlag? w.top token = none ∧ s.taker? w.pass w.top token = none

/-- How a walk goes on: the innermost store takes a token, or is closed. -/
inductive Advance (w : Walk) : Walk → Prop where
  | simple {token rest id flag} (hr : w.rest = token :: rest)
      (hk : s.keyFlag? w.top token = some (id, flag)) (hm : w.pass.isMatched id = false)
      (hg : w.pass.rival? flag = none) (hh : s.help ≠ some id) (hc : flag.children = none) :
      Advance w (w.eat token rest ((w.pass.choosing id flag).complete id flag))
  | nested {token rest id flag store} (hr : w.rest = token :: rest)
      (hk : s.keyFlag? w.top token = some (id, flag)) (hm : w.pass.isMatched id = false)
      (hg : w.pass.rival? flag = none) (hh : s.help ≠ some id)
      (hc : flag.children = some store) :
      Advance w { w.eat token rest (w.pass.choosing id flag) with
        frames := { owner := id, flag, store } :: w.frames }
  | fill {token rest id v} (hr : w.rest = token :: rest)
      (hk : s.keyFlag? w.top token = none) (ht : s.taker? w.pass w.top token = some (id, .ok v)) :
      Advance w (w.eat token rest (w.pass.fill id v))
  | close {f frames} (hf : w.frames = f :: frames) (hn : s.Declines w)
      (hs : s.shortfall? w.pass w.top w.rest = none) :
      Advance w { w with frames, pass := w.pass.complete f.owner f.flag }

/-- How a walk ends. -/
inductive Halt (w : Walk) : Walk → Except ParseError Outcome → Prop where
  | repeated {token rest id flag} (hr : w.rest = token :: rest)
      (hk : s.keyFlag? w.top token = some (id, flag)) (hm : w.pass.isMatched id = true) :
      Halt w w (.error (.repeatedFlag flag.key))
  | conflict {token rest id flag group first} (hr : w.rest = token :: rest)
      (hk : s.keyFlag? w.top token = some (id, flag)) (hm : w.pass.isMatched id = false)
      (hg : w.pass.rival? flag = some (group, first)) :
      Halt w w (.error (.exclusiveConflict ((s.key? first).getD "") flag.key
        ((s.members group).filterMap s.key?)))
  | help {token rest id flag} (hr : w.rest = token :: rest)
      (hk : s.keyFlag? w.top token = some (id, flag)) (hm : w.pass.isMatched id = false)
      (hg : w.pass.rival? flag = none) (hh : s.help = some id) :
      Halt w (w.eat token rest ((w.pass.choosing id flag).mark id)) (.ok .help)
  | refused {token rest id e} (hr : w.rest = token :: rest)
      (hk : s.keyFlag? w.top token = none)
      (ht : s.taker? w.pass w.top token = some (id, .error e)) :
      Halt w w (.error e)
  | lacking {e} (hn : s.Declines w) (hs : s.shortfall? w.pass w.top w.rest = some e) :
      Halt w w (.error e)
  | parsed (hf : w.frames = []) (hr : w.rest = [])
      (hs : s.shortfall? w.pass w.top w.rest = none) :
      Halt w w (.ok .parsed)
  | leftover {token rest} (hf : w.frames = []) (hr : w.rest = token :: rest)
      (hk : s.keyFlag? w.top token = none) (ht : s.taker? w.pass w.top token = none)
      (hs : s.shortfall? w.pass w.top w.rest = none) :
      Halt w w (.error (s.unexpected w.pass root token))

variable {s} {w w' : Walk} {o : Except ParseError Outcome}

theorem leave_advance (hn : s.Declines w) (h : s.leave w = .inl w') : s.Advance w w' := by
  unfold leave at h
  split at h
  · cases h
  · rename_i hs
    split at h
    · cases h
      exact .close ‹_› hn hs
    · cases h
    · cases h

theorem leave_halt (hn : s.Declines w) (h : s.leave w = .inr (w', o)) : s.Halt w w' o := by
  unfold leave at h
  split at h
  · cases h
    exact .lacking hn ‹_›
  · rename_i hs
    split at h
    · cases h
    · cases h
      exact .parsed ‹_› ‹_› hs
    · rename_i hf hr
      cases h
      exact .leftover hf hr (hn _ _ hr).1 (hn _ _ hr).2 hs

theorem step_advance (h : s.step w = .inl w') : s.Advance w w' := by
  unfold step at h
  split at h
  · rename_i hr
    exact leave_advance (fun token rest h => by simp [hr] at h) h
  · rename_i token rest hr
    split at h
    · rename_i id flag hk
      split at h
      · cases h
      · rename_i hm
        rw [Bool.not_eq_true] at hm
        split at h
        · cases h
        · rename_i hg
          split_ifs at h with hh
          split at h
          · cases h
            exact .simple hr hk hm hg hh ‹_›
          · cases h
            exact .nested hr hk hm hg hh ‹_›
    · rename_i hk
      split at h
      · cases h
        exact .fill hr hk ‹_›
      · cases h
      · rename_i ht
        refine leave_advance (fun token' rest' h' => ?_) h
        rw [hr] at h'
        cases h'
        exact ⟨hk, ht⟩

theorem step_halt (h : s.step w = .inr (w', o)) : s.Halt w w' o := by
  unfold step at h
  split at h
  · rename_i hr
    exact leave_halt (fun token rest h => by simp [hr] at h) h
  · rename_i token rest hr
    split at h
    · rename_i id flag hk
      split at h
      · cases h
        exact .repeated hr hk ‹_›
      · rename_i hm
        rw [Bool.not_eq_true] at hm
        split at h
        · cases h
          exact .conflict hr hk hm ‹_›
        · rename_i hg
          split_ifs at h with hh
          · cases h
            exact .help hr hk hm hg hh
          · split at h <;> cases h
    · rename_i hk
      split at h
      · cases h
      · cases h
        exact .refused hr hk ‹_›
      · rename_i ht
        refine leave_halt (fun token' rest' h' => ?_) h
        rw [hr] at h'
        cases h'
        exact ⟨hk, ht⟩

theorem step_eq_leave (hn : s.Declines w) : s.step w = s.leave w := by
  unfold step
  rcases hr : w.rest with _ | ⟨token, rest⟩
  · rfl
  · obtain ⟨hk, ht⟩ := hn token rest hr
    simp only [hk, ht]

theorem Advance.step_eq (h : s.Advance w w') : s.step w = .inl w' := by
  cases h with
  | simple hr hk hm hg hh hc => simp [step, hr, hk, hm, hg, hh, hc]
  | nested hr hk hm hg hh hc => simp [step, hr, hk, hm, hg, hh, hc]
  | fill hr hk ht => simp [step, hr, hk, ht]
  | close hf hn hs =>
    rw [step_eq_leave hn, leave, hs]
    simp only [hf]

theorem Halt.step_eq (h : s.Halt w w' o) : s.step w = .inr (w', o) := by
  cases h with
  | repeated hr hk hm => simp [step, hr, hk, hm]
  | conflict hr hk hm hg => simp [step, hr, hk, hm, hg]
  | help hr hk hm hg hh => simp [step, hr, hk, hm, hg, hh]
  | refused hr hk ht => simp [step, hr, hk, ht]
  | lacking hn hs => rw [step_eq_leave hn, leave, hs]
  | parsed hf hr hs =>
    rw [step_eq_leave (by simp [Declines, hr]), leave, hs]
    simp only [hf, hr]
  | leftover hf hr hk ht hs =>
    rw [step_eq_leave fun _ _ h => by cases hr.symm.trans h; exact ⟨hk, ht⟩, leave, hs]
    simp only [hf, hr]

theorem advance_rightUnique : Relator.RightUnique s.Advance := fun _ _ _ h h' =>
  Sum.inl.inj (h.step_eq.symm.trans h'.step_eq)

theorem Advance.size_lt (h : s.Advance w w') : w'.size < w.size := by
  cases h with
  | simple hr | nested hr | fill hr =>
    simp only [Walk.size, Walk.eat, hr, List.length_cons]
    omega
  | close hf =>
    simp only [Walk.size, hf, List.length_cons]
    omega

variable (s) in
/-- Walks until the machine stops. -/
def walk (w : Walk) : Walk × Except ParseError Outcome :=
  match _h : s.step w with
  | .inl w' => walk w'
  | .inr last => last
termination_by w.size
decreasing_by exact (step_advance _h).size_lt

theorem walk_of_inl (h : s.step w = .inl w') : s.walk w = s.walk w' := by
  rw [walk]
  split
  · rename_i h'
    cases h.symm.trans h'
    rfl
  · rename_i h'
    cases h.symm.trans h'

theorem walk_of_inr {last : Walk × Except ParseError Outcome} (h : s.step w = .inr last) :
    s.walk w = last := by
  rw [walk]
  split
  · rename_i h'
    cases h.symm.trans h'
  · rename_i h'
    cases h.symm.trans h'
    rfl

theorem walk_eq_of_reaches (h : Relation.ReflTransGen s.Advance w w') : s.walk w = s.walk w' := by
  induction h with
  | refl => rfl
  | tail _ h ih => rw [ih, walk_of_inl h.step_eq]

theorem Halt.walk_eq (h : s.Halt w w' o) : s.walk w = (w', o) := walk_of_inr h.step_eq

/-- A walk goes on from state to state and ends in the last one. -/
theorem walk_reaches (w : Walk) : ∃ last, Relation.ReflTransGen s.Advance w last ∧
    s.Halt last (s.walk w).1 (s.walk w).2 := by
  rcases h : s.step w with w' | ⟨last, o⟩
  · have ha := step_advance h
    obtain ⟨last, hl, ho⟩ := walk_reaches w'
    exact ⟨last, .head ha hl, by rwa [walk_of_inl h]⟩
  · exact ⟨w, .refl, by rw [walk_of_inr h]; exact step_halt h⟩
termination_by w.size
decreasing_by exact ha.size_lt

end Scheme

end CommandGrammar
