import CommandGrammar.Proofs.Checking

/-!
# What a faulty grammar is refused for

The places of a grammar where something can be wrong are its arguments and its keys, in the order in
which they are written. Checking and building stop at the same place, the first one with a fault. A
key has one fault at most. An argument can have two, and then the check reports the one of its name,
and building the one of its converter. At any other place they report the same.
-/

namespace CommandGrammar

/-! ## Places and their faults -/

/-- What is wrong with an argument: with its name, then with its converter. -/
def ArgSpec.faults (a : ArgSpec) : List GrammarError :=
  (if Text.isBlankText a.name then [.scheme .emptyArgumentName] else []) ++
    (a.converter.fault?.map (.invalidConverter a.name)).toList

/-- What is wrong with a key, given those in front of it in its scope. -/
def keyFaults (seen : List String) (key : String) : List GrammarError :=
  if Text.isBlankText key then [.scheme .emptyKey]
  else if seen.contains key then [.scheme (.duplicateKey key)]
  else []

/-- The keys of an entry and those in front of it, latest first. -/
def FlagEntry.keysOnto (seen : List String) (e : FlagEntry) : List String :=
  (e.specs.map (·.key)).reverse ++ seen

mutual

def FlagEntry.places (seen : List String) : FlagEntry → List (List GrammarError)
  | .flag _ spec => spec.places seen
  | .group _ members => FlagSpec.allPlaces seen members

/-- The key of a flag, its arguments, and the flags after it, which have a scope of their own. -/
def FlagSpec.places (seen : List String) : FlagSpec → List (List GrammarError)
  | ⟨key, _, args, flags⟩ =>
    keyFaults seen key :: (args.map ArgSpec.faults ++ FlagEntry.allPlaces [] flags)

def FlagEntry.allPlaces (seen : List String) : List FlagEntry → List (List GrammarError)
  | [] => []
  | e :: es => e.places seen ++ FlagEntry.allPlaces (e.keysOnto seen) es

def FlagSpec.allPlaces (seen : List String) : List FlagSpec → List (List GrammarError)
  | [] => []
  | spec :: specs => spec.places seen ++ FlagSpec.allPlaces (spec.key :: seen) specs

end

namespace Grammar

/-- All places of a grammar. The flag that asks for help comes last. -/
def places (g : Grammar) : List (List GrammarError) :=
  g.args.map ArgSpec.faults ++ FlagEntry.allPlaces [] g.flags ++
    if g.help then [keyFaults (g.flags.foldl FlagEntry.keysOnto []) Scheme.helpKey] else []

/-- The faults of the first place that has any. -/
def firstFaults (g : Grammar) : List GrammarError :=
  (g.places.find? (!·.isEmpty)).getD []

end Grammar

/-- A result if there is no fault, else the first fault. -/
inductive Blames {α : Type} : List GrammarError → Except GrammarError α → Prop where
  | none {a : α} : Blames [] (.ok a)
  | first {e : GrammarError} {rest : List GrammarError} : Blames (e :: rest) (.error e)

section Blames

variable {α β : Type} {R : α → β → Prop} {fs gs : List GrammarError} {x : Except GrammarError α}
  {y : Except GrammarError β} {seen : List String} {key : String}

theorem Blames.eq_error_iff (h : Blames fs x) (e : GrammarError) :
    x = .error e ↔ fs.head? = some e := by
  cases h with
  | none => simp
  | first => simp

theorem Blames.bind {f : α → Except GrammarError β} (h : Blames fs x)
    (hf : ∀ {a}, x = .ok a → Blames gs (f a)) : Blames (fs ++ gs) (x >>= f) := by
  cases h with
  | none => exact hf rfl
  | first => exact .first

theorem Agrees.exists_of_ok {b : β} (h : Agrees R x y) (hy : y = .ok b) :
    ∃ a, x = .ok a ∧ R a b := by
  cases h with
  | ok h =>
    cases hy
    exact ⟨_, rfl, h⟩
  | error => cases hy

theorem keyFaults_reverse : (keyFaults seen key).reverse = keyFaults seen key := by
  unfold keyFaults
  split_ifs <;> rfl

theorem addKey_blames : Blames (keyFaults seen key) (Grammar.addKey seen key) := by
  unfold keyFaults Grammar.addKey
  split_ifs
  · exact .first
  · exact .first
  · exact .none

/-- A registration that agrees with the check of its key is refused for that key. -/
theorem Agrees.blames {R : List String → β → Prop} (h : Agrees R (Grammar.addKey seen key) y) :
    Blames (keyFaults seen key) y := by
  unfold Grammar.addKey at h
  unfold keyFaults
  split_ifs at h ⊢
  · obtain _ | ⟨⟨⟩⟩ := h
    exact .first
  · obtain _ | ⟨⟨⟩⟩ := h
    exact .first
  · obtain ⟨_⟩ | _ := h
    exact .none

end Blames

/-! ## Checking -/

section Check

open Scheme

variable {files : Files}

theorem checkArgs_blames (files : Files) : ∀ args : List ArgSpec,
    Blames (args.map ArgSpec.faults).flatten (Grammar.checkArgs files args)
  | [] => .none
  | a :: args => by
    rw [Grammar.checkArgs, List.map_cons, List.flatten_cons, ArgSpec.faults]
    by_cases hb : Text.isBlankText a.name = true
    · rw [if_pos hb, if_pos hb]
      exact .first
    · rw [if_neg hb, if_neg hb]
      rcases hf : a.converter.fault? with _ | fault
      · simp only [Converter.pipeline, hf]
        exact checkArgs_blames files args
      · simp only [Converter.pipeline, hf]
        exact .first

theorem checkSpecs_seen : ∀ {specs : List FlagSpec} {seen seen' : List String},
    Grammar.checkSpecs files seen specs = .ok seen' → seen' = (specs.map (·.key)).reverse ++ seen
  | [], seen, seen', h => by
    rw [Grammar.checkSpecs] at h
    cases h
    rfl
  | spec :: specs, seen, seen', h => by
    rw [Grammar.checkSpecs] at h
    obtain ⟨seen₁, hspec, h⟩ := exists_of_bind_ok h
    obtain rfl := checkSpec_eq_ok hspec
    rw [checkSpecs_seen h, List.map_cons, List.reverse_cons, List.append_assoc]
    rfl

theorem checkEntry_seen {e : FlagEntry} {seen seen' : List String}
    (h : Grammar.checkEntry files seen e = .ok seen') : seen' = e.keysOnto seen := by
  rcases e with ⟨policy, spec⟩ | ⟨policy, members⟩
  · rw [Grammar.checkEntry] at h
    exact checkSpec_eq_ok h
  · rw [Grammar.checkEntry] at h
    exact checkSpecs_seen h

theorem checkEntries_seen : ∀ {es : List FlagEntry} {seen seen' : List String},
    Grammar.checkEntries files seen es = .ok seen' → seen' = es.foldl FlagEntry.keysOnto seen
  | [], seen, seen', h => by
    rw [Grammar.checkEntries] at h
    cases h
    rfl
  | e :: es, seen, seen', h => by
    rw [Grammar.checkEntries] at h
    obtain ⟨seen₁, hentry, h⟩ := exists_of_bind_ok h
    obtain rfl := checkEntry_seen hentry
    rw [List.foldl_cons]
    exact checkEntries_seen h

mutual

theorem checkEntries_blames (files : Files) : ∀ (es : List FlagEntry) (seen : List String),
    Blames (FlagEntry.allPlaces seen es).flatten (Grammar.checkEntries files seen es)
  | [], _ => by
    rw [FlagEntry.allPlaces, Grammar.checkEntries]
    exact .none
  | e :: es, seen => by
    rw [FlagEntry.allPlaces, List.flatten_append, Grammar.checkEntries]
    refine (checkEntry_blames files e seen).bind fun hseen => ?_
    obtain rfl := checkEntry_seen hseen
    exact checkEntries_blames files es _

theorem checkEntry_blames (files : Files) : ∀ (e : FlagEntry) (seen : List String),
    Blames (e.places seen).flatten (Grammar.checkEntry files seen e)
  | .flag _ spec, seen => by
    rw [FlagEntry.places, Grammar.checkEntry]
    exact checkSpec_blames files spec seen
  | .group _ members, seen => by
    rw [FlagEntry.places, Grammar.checkEntry]
    exact checkSpecs_blames files members seen

theorem checkSpecs_blames (files : Files) : ∀ (specs : List FlagSpec) (seen : List String),
    Blames (FlagSpec.allPlaces seen specs).flatten (Grammar.checkSpecs files seen specs)
  | [], _ => by
    rw [FlagSpec.allPlaces, Grammar.checkSpecs]
    exact .none
  | spec :: specs, seen => by
    rw [FlagSpec.allPlaces, List.flatten_append, Grammar.checkSpecs]
    refine (checkSpec_blames files spec seen).bind fun hseen => ?_
    obtain rfl := checkSpec_eq_ok hseen
    exact checkSpecs_blames files specs _

theorem checkSpec_blames (files : Files) : ∀ (spec : FlagSpec) (seen : List String),
    Blames (spec.places seen).flatten (Grammar.checkSpec files seen spec)
  | ⟨key, _, args, flags⟩, seen => by
    rw [FlagSpec.places, List.flatten_cons, List.flatten_append, Grammar.checkSpec]
    refine addKey_blames.bind fun _ => (checkArgs_blames files args).bind fun _ => ?_
    refine (List.append_nil (FlagEntry.allPlaces [] flags).flatten).symm ▸ ?_
    exact (checkEntries_blames files flags []).bind fun _ => .none

end

end Check

/-! ## Building -/

section Build

open Scheme

variable {files : Files} {store : StoreId} {seen : List String}

theorem addArgs_blames (files : Files) (store : StoreId) (parent : NodePath) :
    ∀ (args : List ArgSpec) {d : Draft}, d.scheme.Scope store seen →
      Blames ((args.map ArgSpec.faults).flatMap List.reverse) (d.addArgs files store parent args)
  | [], _, _ => .none
  | a :: args, d, hs => by
    rw [Draft.addArgs, List.map_cons, List.flatMap_cons, ArgSpec.faults, List.reverse_append]
    rcases hf : a.converter.fault? with _ | fault
    · simp only [Converter.pipeline, hf, addArg_eq hs]
      by_cases hb : Text.isBlankText a.name = true
      · simp only [hb, if_true]
        exact .first
      · simp only [hb]
        exact addArgs_blames files store parent args (hs.withArg store _).toScope
    · simp only [Converter.pipeline, hf]
      exact .first

/-- A flag is added with all that may follow it, if all of that is blamed for its faults. -/
theorem addSpec_blames_of {d : Draft} {key description : String} {args : List ArgSpec}
    {flags : List FlagEntry} (path : NodePath)
    {complex : Except GrammarError (Scheme × FlagId × StoreId)}
    {simple : Except GrammarError (Scheme × FlagId)}
    (hcomplex : Agrees (fun seen' x => d.scheme.Nested x.1 store x.2.2 seen')
      (Grammar.addKey seen key) complex)
    (hsimple : Agrees (fun seen' x => d.scheme.Grown x.1 store seen')
      (Grammar.addKey seen key) simple)
    (ih : ∀ {d : Draft} (child : StoreId) (path : NodePath), d.scheme.Scope child [] →
      Blames ((FlagEntry.allPlaces [] flags).flatMap List.reverse)
        (d.addEntries files child path flags)) :
    Blames ((FlagSpec.places seen ⟨key, description, args, flags⟩).flatMap List.reverse)
      (if (FlagSpec.mk key description args flags).isComplex then do
        let (scheme, id, children) ← complex
        let d ← (d.noteFlag scheme path id).addArgs files children path args
        d.addEntries files children path flags
      else do
        let (scheme, id) ← simple
        return d.noteFlag scheme path id) := by
  rw [FlagSpec.places, List.flatMap_cons, keyFaults_reverse, List.flatMap_append]
  split_ifs with hc
  · refine hcomplex.blames.bind ?_
    rintro ⟨scheme, id, child⟩ hok
    obtain ⟨seen', -, h⟩ := hcomplex.exists_of_ok hok
    have hinner : (d.noteFlag scheme path id).scheme.Scope child [] := h.inner
    refine (addArgs_blames files child path args hinner).bind fun {d₁} hargs => ?_
    obtain ⟨-, -, hgrown⟩ := (addArgs_agrees files child path args hinner).exists_of_ok hargs
    exact ih child path hgrown.toScope
  · obtain ⟨rfl, rfl⟩ : args = [] ∧ flags = [] := by
      simpa [FlagSpec.isComplex, FlagSpec.args, FlagSpec.flags] using hc
    exact hsimple.blames.bind fun _ => .none

mutual

theorem addEntries_blames (files : Files) : ∀ (es : List FlagEntry) {d : Draft} {seen : List String}
    (store : StoreId) (parent : NodePath), d.scheme.Scope store seen →
      Blames ((FlagEntry.allPlaces seen es).flatMap List.reverse)
        (d.addEntries files store parent es)
  | [], _, _, _, _, _ => by
    rw [FlagEntry.allPlaces, Draft.addEntries]
    exact .none
  | e :: es, d, seen, store, parent, hs => by
    rw [FlagEntry.allPlaces, List.flatMap_append, Draft.addEntries]
    refine (addEntry_blames files e store parent hs).bind fun hok => ?_
    -- the keys that the store has now are those that the check would have seen
    obtain ⟨seen', hseen, hgrown⟩ := (addEntry_agrees files e store parent hs).exists_of_ok hok
    obtain rfl := checkEntry_seen hseen
    exact addEntries_blames files es store parent hgrown.toScope

theorem addEntry_blames (files : Files) : ∀ (e : FlagEntry) {d : Draft} {seen : List String}
    (store : StoreId) (parent : NodePath), d.scheme.Scope store seen →
      Blames ((e.places seen).flatMap List.reverse) (d.addEntry files store parent e)
  | .flag policy ⟨key, description, args, flags⟩, d, seen, store, parent, hs => by
    rw [FlagEntry.places, Draft.addEntry]
    exact addSpec_blames_of _ (addComplexFlag_agrees hs) (addFlag_agrees hs)
      fun child path => addEntries_blames files flags child path
  | .group policy members, d, seen, store, parent, hs => by
    rw [FlagEntry.places, Draft.addEntry, addGroup_eq hs]
    have h := hs.withGroup store policy
    exact addMembers_blames files members parent group?_withGroup_new h.toScope

theorem addMembers_blames (files : Files) : ∀ (specs : List FlagSpec) {d : Draft}
    {seen : List String} {group : GroupId} {g : Group} (parent : NodePath),
    d.scheme.group? group = some g → d.scheme.Scope g.store seen →
      Blames ((FlagSpec.allPlaces seen specs).flatMap List.reverse)
        (d.addMembers files group parent specs)
  | [], _, _, _, _, _, _, _ => by
    rw [FlagSpec.allPlaces, Draft.addMembers]
    exact .none
  | spec :: specs, d, seen, group, g, parent, hg, hs => by
    rw [FlagSpec.allPlaces, List.flatMap_append, Draft.addMembers]
    refine (addSpec_blames files spec parent hg hs).bind fun hok => ?_
    obtain ⟨seen', hseen, hgrown⟩ := (addSpec_agrees files spec parent hg hs).exists_of_ok hok
    obtain rfl := checkSpec_eq_ok hseen
    obtain ⟨g', hg', hstore⟩ := hgrown.group_store hg
    exact addMembers_blames files specs parent hg' (hstore ▸ hgrown.toScope)

theorem addSpec_blames (files : Files) : ∀ (spec : FlagSpec) {d : Draft} {seen : List String}
    {group : GroupId} {g : Group} (parent : NodePath),
    d.scheme.group? group = some g → d.scheme.Scope g.store seen →
      Blames ((spec.places seen).flatMap List.reverse) (d.addMember files group parent spec)
  | ⟨key, description, args, flags⟩, d, seen, group, g, parent, hg, hs => by
    rw [Draft.addMember]
    exact addSpec_blames_of _ (addComplexMember_agrees hg hs) (addMember_agrees hg hs)
      fun child path => addEntries_blames files flags child path

end

end Build

/-! ## Whole grammars -/

section First

variable {α : Type}

theorem head?_flatten_eq : ∀ ps : List (List α),
    ps.flatten.head? = ((ps.find? (!·.isEmpty)).getD []).head?
  | [] => rfl
  | [] :: ps => head?_flatten_eq ps
  | (_ :: _) :: _ => rfl

theorem head?_flatMap_reverse : ∀ ps : List (List α),
    (ps.flatMap List.reverse).head? = ((ps.find? (!·.isEmpty)).getD []).getLast?
  | [] => rfl
  | [] :: ps => head?_flatMap_reverse ps
  | (a :: p) :: ps => by
    rw [List.flatMap_cons, List.head?_append, List.head?_reverse]
    simp [List.getLast?_cons]

end First

section Shape

/-- The faults of an argument of which both the name and the converter are wrong. -/
def IsTwofold (p : List GrammarError) : Prop :=
  ∃ a : ArgSpec, p = a.faults ∧ Text.isBlankText a.name = true ∧
    a.converter.fault?.isSome = true

def IsPlace (p : List GrammarError) : Prop :=
  p.length ≤ 1 ∨ IsTwofold p

theorem isPlace_keyFaults (seen : List String) (key : String) : IsPlace (keyFaults seen key) := by
  left
  unfold keyFaults
  split_ifs <;> simp

theorem isPlace_faults (a : ArgSpec) : IsPlace a.faults := by
  by_cases hb : Text.isBlankText a.name = true
  · rcases hf : a.converter.fault? with _ | fault
    · left
      simp [ArgSpec.faults, hb, hf]
    · exact .inr ⟨a, rfl, hb, by rw [hf]; rfl⟩
  · left
    rw [ArgSpec.faults, if_neg hb]
    cases a.converter.fault? <;> simp

theorem IsTwofold.ne {p : List GrammarError} {e e' : GrammarError} (h : IsTwofold p)
    (he : p.head? = some e) (he' : p.getLast? = some e') : e ≠ e' := by
  obtain ⟨a, rfl, hb, hf⟩ := h
  obtain ⟨fault, hf⟩ := Option.isSome_iff_exists.1 hf
  rw [ArgSpec.faults, if_pos hb, hf] at he he'
  cases he
  cases he'
  simp

theorem eq_of_length_le {p : List GrammarError} {e e' : GrammarError} (h : p.length ≤ 1)
    (he : p.head? = some e) (he' : p.getLast? = some e') : e = e' := by
  rcases p with _ | ⟨f, _ | _⟩
  · cases he
  · cases he
    cases he'
    rfl
  · simp at h

mutual

theorem FlagEntry.allPlaces_isPlace : ∀ (es : List FlagEntry) (seen : List String),
    ∀ p ∈ FlagEntry.allPlaces seen es, IsPlace p
  | [], _ => by simp [FlagEntry.allPlaces]
  | e :: es, seen => by
    rw [FlagEntry.allPlaces, List.forall_mem_append]
    exact ⟨FlagEntry.places_isPlace e seen, FlagEntry.allPlaces_isPlace es _⟩

theorem FlagEntry.places_isPlace : ∀ (e : FlagEntry) (seen : List String),
    ∀ p ∈ e.places seen, IsPlace p
  | .flag _ spec, seen => by
    rw [FlagEntry.places]
    exact FlagSpec.places_isPlace spec seen
  | .group _ members, seen => by
    rw [FlagEntry.places]
    exact FlagSpec.allPlaces_isPlace members seen

theorem FlagSpec.allPlaces_isPlace : ∀ (specs : List FlagSpec) (seen : List String),
    ∀ p ∈ FlagSpec.allPlaces seen specs, IsPlace p
  | [], _ => by simp [FlagSpec.allPlaces]
  | spec :: specs, seen => by
    rw [FlagSpec.allPlaces, List.forall_mem_append]
    exact ⟨FlagSpec.places_isPlace spec seen, FlagSpec.allPlaces_isPlace specs _⟩

theorem FlagSpec.places_isPlace : ∀ (spec : FlagSpec) (seen : List String),
    ∀ p ∈ spec.places seen, IsPlace p
  | ⟨key, _, args, flags⟩, seen => by
    rw [FlagSpec.places, List.forall_mem_cons, List.forall_mem_append, List.forall_mem_map]
    exact ⟨isPlace_keyFaults seen key, fun a _ => isPlace_faults a,
      FlagEntry.allPlaces_isPlace flags []⟩

end

end Shape

namespace Grammar

open Scheme

variable {files : Files} {g : Grammar}

theorem keyFaults_helpKey (seen : List String) : keyFaults seen helpKey =
    if helpKey ∈ seen then [.scheme (.duplicateKey helpKey)] else [] := by
  have hb : Text.isBlankText helpKey = false := by decide +kernel
  simp [keyFaults, hb]

theorem check_blames (files : Files) (g : Grammar) :
    Blames g.places.flatten (g.check files) := by
  rw [places, List.flatten_append, List.flatten_append, List.append_assoc]
  refine (checkArgs_blames files g.args).bind fun _ => ?_
  refine (checkEntries_blames files g.flags []).bind fun {seen} hseen => ?_
  have hdeclared : helpKey ∈ seen ↔ (g.flags.any fun e => e.declares helpKey) = true := by
    simpa using checkEntries_eq_ok hseen helpKey
  rw [← checkEntries_seen hseen]
  rcases g.help
  · exact .none
  · simp only [if_true, keyFaults_helpKey, hdeclared, Bool.true_and]
    split_ifs
    · exact .first
    · exact .none

theorem build_blames (files : Files) (g : Grammar) :
    Blames (g.places.flatMap List.reverse) (g.build files) := by
  rw [places, List.flatMap_append, List.flatMap_append, List.append_assoc]
  refine (addArgs_blames files root [] g.args (d := {}) scope_empty).bind fun {d} hargs => ?_
  obtain ⟨-, -, hd⟩ :=
    (addArgs_agrees files root [] g.args (d := {}) scope_empty).exists_of_ok hargs
  refine (addEntries_blames files g.flags root [] hd.toScope).bind fun {d'} hentries => ?_
  obtain ⟨seen, hseen, hd'⟩ :=
    (addEntries_agrees files g.flags root [] hd.toScope).exists_of_ok hentries
  rw [← checkEntries_seen hseen]
  rcases g.help
  · exact .none
  · have hhelp : d'.scheme.help = none := hd'.help.trans hd.help
    simp only [if_true, List.flatMap_cons, List.flatMap_nil, List.append_nil, keyFaults_reverse]
    refine (List.append_nil (keyFaults seen helpKey)).symm ▸ ?_
    exact (enableHelp_agrees hd'.toScope hhelp).blames.bind fun _ => .none

theorem firstFaults_isPlace (g : Grammar) : IsPlace g.firstFaults := by
  have hplaces : ∀ p ∈ g.places, IsPlace p := by
    rw [places, List.forall_mem_append, List.forall_mem_append, List.forall_mem_map]
    refine ⟨⟨fun a _ => isPlace_faults a, FlagEntry.allPlaces_isPlace g.flags []⟩, ?_⟩
    split_ifs
    · simpa using isPlace_keyFaults _ _
    · simp
  unfold firstFaults
  rcases h : g.places.find? (!·.isEmpty) with _ | p
  · rw [h]
    exact .inl (Nat.zero_le 1)
  · rw [h]
    exact hplaces p (List.mem_of_find?_eq_some h)

/-- Checking and building blame the first place with a fault, the one for its first fault and the
other for its last. These differ exactly if both the name and the converter of an argument are
wrong there. -/
theorem check_and_build_blame (files : Files) (g : Grammar) :
    (∀ e, g.check files = .error e ↔ g.firstFaults.head? = some e) ∧
      (∀ e, g.build files = .error e ↔ g.firstFaults.getLast? = some e) ∧
      ∀ e e', g.check files = .error e → g.build files = .error e' →
        (e ≠ e' ↔ IsTwofold g.firstFaults) := by
  have hcheck (e : GrammarError) : g.check files = .error e ↔ g.firstFaults.head? = some e := by
    rw [(check_blames files g).eq_error_iff, head?_flatten_eq, firstFaults]
  have hbuild (e : GrammarError) : g.build files = .error e ↔ g.firstFaults.getLast? = some e := by
    rw [(build_blames files g).eq_error_iff, head?_flatMap_reverse, firstFaults]
  refine ⟨hcheck, hbuild, fun e e' he he' => ?_⟩
  rw [hcheck] at he
  rw [hbuild] at he'
  refine ⟨fun hne => ?_, fun h => h.ne he he'⟩
  rcases g.firstFaults_isPlace with hle | h
  · exact absurd (eq_of_length_le hle he he') hne
  · exact h

/-- A name that does not show, of an argument with nothing to choose from. -/
def unnamed : Grammar where
  args := [⟨"", .mandatory, "", .choice []⟩]

theorem unnamed_blamed_twice : ∃ e e', unnamed.check .empty = .error e ∧
    unnamed.build .empty = .error e' ∧ e ≠ e' := by
  refine ⟨.scheme .emptyArgumentName, .invalidConverter "" .noChoices, ?_, rfl, by decide⟩
  decide +kernel

end Grammar

end CommandGrammar
