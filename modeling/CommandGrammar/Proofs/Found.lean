import CommandGrammar.Proofs.Machine

/-!
# How a pass grows

What each step adds to a pass: a flag, a choice or a value. Nothing that was found is lost, so a
unit that has matched stays matched and a store that lacks nothing goes on lacking nothing.
-/

namespace CommandGrammar

namespace Pass

variable (p : Pass) (id : FlagId) (flag : Flag)

theorem complete_eq : p.complete id flag = { p.mark id with
    fired := p.fired ++ (flag.trigger.map fun t => ⟨id, flag.key, t flag.key⟩).toList } := by
  unfold complete
  split <;> simp_all [mark]

@[simp]
theorem isMatched_mark (x : FlagId) :
    (p.mark id).isMatched x = (p.isMatched x || x == id) := by
  simp [isMatched, mark, Bool.beq_eq_decide_eq]

@[simp]
theorem isMatched_complete (x : FlagId) :
    (p.complete id flag).isMatched x = (p.isMatched x || x == id) := by
  rw [complete_eq]
  exact isMatched_mark p id x

@[simp]
theorem isMatched_choosing (x : FlagId) : (p.choosing id flag).isMatched x = p.isMatched x := by
  unfold choosing
  split <;> rfl

@[simp]
theorem isMatched_fill (a : ArgId) (v : Value) (x : FlagId) :
    (p.fill a v).isMatched x = p.isMatched x := rfl

@[simp]
theorem chosen?_mark (g : GroupId) : (p.mark id).chosen? g = p.chosen? g := rfl

@[simp]
theorem chosen?_complete (g : GroupId) : (p.complete id flag).chosen? g = p.chosen? g := by
  rw [complete_eq]
  rfl

@[simp]
theorem chosen?_fill (a : ArgId) (v : Value) (g : GroupId) :
    (p.fill a v).chosen? g = p.chosen? g := rfl

theorem chosen?_choosing (g : GroupId) : (p.choosing id flag).chosen? g =
    (p.chosen? g).or (if flag.group = some g then some id else none) := by
  unfold choosing
  rcases hg : flag.group with _ | g'
  · simp
  · simp only [choose, chosen?, List.lookup_append, Option.some.injEq]
    by_cases h : g' = g
    · simp [h]
    · have : (g == g') = false := by simpa using fun hg => h hg.symm
      simp [h, List.lookup_cons, this]

@[simp]
theorem isGroupMatched_mark (g : GroupId) :
    (p.mark id).isGroupMatched g = p.isGroupMatched g := rfl

@[simp]
theorem isGroupMatched_complete (g : GroupId) :
    (p.complete id flag).isGroupMatched g = p.isGroupMatched g := by
  rw [complete_eq]
  rfl

@[simp]
theorem isGroupMatched_fill (a : ArgId) (v : Value) (g : GroupId) :
    (p.fill a v).isGroupMatched g = p.isGroupMatched g := rfl

theorem isGroupMatched_choosing (g : GroupId) : (p.choosing id flag).isGroupMatched g =
    (p.isGroupMatched g || flag.group == some g) := by
  unfold choosing
  rcases hg : flag.group with _ | g'
  · simp
  · simp [choose, isGroupMatched, Bool.beq_eq_decide_eq, eq_comm]

@[simp]
theorem isFilled_mark (a : ArgId) : (p.mark id).isFilled a = p.isFilled a := rfl

@[simp]
theorem isFilled_complete (a : ArgId) : (p.complete id flag).isFilled a = p.isFilled a := by
  rw [complete_eq]
  rfl

@[simp]
theorem isFilled_choosing (a : ArgId) : (p.choosing id flag).isFilled a = p.isFilled a := by
  unfold choosing
  split <;> rfl

@[simp]
theorem isFilled_fill (a : ArgId) (v : Value) (x : ArgId) :
    (p.fill a v).isFilled x = (p.isFilled x || x == a) := by
  simp [isFilled, fill, Bool.beq_eq_decide_eq]

@[simp]
theorem value?_complete (a : ArgId) : (p.complete id flag).value? a = p.value? a := by
  rw [complete_eq]
  rfl

@[simp]
theorem value?_mark (a : ArgId) : (p.mark id).value? a = p.value? a := rfl

@[simp]
theorem value?_choosing (a : ArgId) : (p.choosing id flag).value? a = p.value? a := by
  unfold choosing
  split <;> rfl

theorem value?_fill (a : ArgId) (v : Value) (x : ArgId) :
    (p.fill a v).value? x = (p.value? x).or (if x = a then some v else none) := by
  simp only [value?, fill, List.lookup_append]
  by_cases h : x = a
  · simp [h]
  · have : (x == a) = false := by simpa using h
    simp [h, List.lookup_cons, this]

/-- A pass has found all that another one has. -/
structure Grows (p p' : Pass) : Prop where
  matched : ∀ {id}, p.isMatched id = true → p'.isMatched id = true
  chosen : ∀ {g m}, p.chosen? g = some m → p'.chosen? g = some m
  filled : ∀ {a}, p.isFilled a = true → p'.isFilled a = true
  value : ∀ {a v}, p.value? a = some v → p'.value? a = some v

variable {p} {p' p'' : Pass} {id flag}

theorem grows_fired {fired : List Firing} : p.Grows { p with fired } :=
  ⟨fun h => h, fun h => h, fun h => h, fun h => h⟩

theorem grows_consumed {consumed : List String} : p.Grows { p with consumed } :=
  ⟨fun h => h, fun h => h, fun h => h, fun h => h⟩

theorem Grows.trans (h : p.Grows p') (h' : p'.Grows p'') : p.Grows p'' :=
  ⟨fun h₁ => h'.matched (h.matched h₁), fun h₁ => h'.chosen (h.chosen h₁),
    fun h₁ => h'.filled (h.filled h₁), fun h₁ => h'.value (h.value h₁)⟩

theorem grows_mark : p.Grows (p.mark id) := by
  constructor <;> simp +contextual

theorem grows_complete : p.Grows (p.complete id flag) := by
  constructor <;> simp +contextual

theorem grows_choosing : p.Grows (p.choosing id flag) := by
  constructor <;> simp +contextual [chosen?_choosing]

theorem grows_fill {a : ArgId} {v : Value} : p.Grows (p.fill a v) := by
  constructor <;> simp +contextual [value?_fill]

theorem Grows.meets (h : p.Grows p') {e : Entry} (he : p.meets e = true) : p'.meets e = true := by
  rcases e with x | g
  · exact h.matched he
  · obtain ⟨m, hm, hx⟩ := (Option.any_eq_true _ _).1 he
    exact (Option.any_eq_true _ _).2 ⟨m, h.chosen hm, h.matched hx⟩

end Pass

namespace Scheme

variable {s : Scheme} {p p' : Pass} {store : StoreId}

theorem lacksFlag_eq_false : s.lacksFlag p store = false ↔
    ∀ e ∈ s.listing store, s.unitPolicy? e = some .mandatory → p.meets e = true := by
  simp [lacksFlag]

theorem lacksArg_eq_false : s.lacksArg p store = false ↔
    ∀ id ∈ s.argsOf store, s.argPolicy? id = some .mandatory → p.isFilled id = true := by
  simp [lacksArg]

theorem shortfall?_eq_none {rest : List String} : s.shortfall? p store rest = none ↔
    s.lacksFlag p store = false ∧ s.lacksArg p store = false := by
  unfold shortfall?
  rcases s.lacksFlag p store <;> rcases s.lacksArg p store <;> rcases rest <;> simp

/-- What a store lacks is reported at the next token, or behind the last one. -/
theorem shortfall?_eq_some {rest : List String} {e : ParseError}
    (h : s.shortfall? p store rest = some e) :
    (rest = [] ∧ (e = .missingMandatoryFlag (s.availableFlags p store) ∨
      e = .missingMandatoryArgument (s.availableArgs p store))) ∨
      ∃ token rest', rest = token :: rest' ∧ e = s.unexpected p store token := by
  unfold shortfall? at h
  rcases rest with _ | ⟨token, rest⟩ <;> split_ifs at h <;> cases h
  · exact .inl ⟨rfl, .inl rfl⟩
  · exact .inl ⟨rfl, .inr rfl⟩
  · exact .inr ⟨token, rest, rfl, rfl⟩
  · exact .inr ⟨token, rest, rfl, rfl⟩

def Filled (s : Scheme) (p : Pass) (store : StoreId) : Prop :=
  s.lacksFlag p store = false ∧ s.lacksArg p store = false

theorem Filled.grows (hs : s.Filled p store) (h : p.Grows p') : s.Filled p' store :=
  ⟨lacksFlag_eq_false.2 fun e he hp => h.meets (lacksFlag_eq_false.1 hs.1 e he hp),
    lacksArg_eq_false.2 fun id hid hp => h.filled (lacksArg_eq_false.1 hs.2 id hid hp)⟩

variable {w w' : Walk} {o : Except ParseError Outcome}

theorem Advance.grows (h : s.Advance w w') : w.pass.Grows w'.pass := by
  cases h with
  | simple => exact Pass.grows_choosing.trans Pass.grows_complete
  | nested => exact Pass.grows_choosing
  | fill => exact Pass.grows_fill
  | close => exact Pass.grows_complete

end Scheme

end CommandGrammar
