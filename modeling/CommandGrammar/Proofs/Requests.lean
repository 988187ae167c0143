import CommandGrammar.Form.Queries
import CommandGrammar.Proofs.Entering
import CommandGrammar.Proofs.Rendering

/-!
# Requests with any handles

Whatever is asked of a form, in whatever order and with whatever handles, no index is out of bounds
and every request is answered. A handle that leads nowhere has the answer that is kept for it, and
nothing else happens then.

The form answers as the session does. A session is tight when its references fit together and its
pass has found nothing that is not there; every request leaves it so.
-/

namespace CommandGrammar

open Scheme (Outcome)

/-- What can be asked for without a change. -/
inductive Query where
  | flagMatched (id : FlagId)
  | groupMatched (id : GroupId)
  | argMatched (id : ArgId)
  | value (id : ArgId) (type : ValueType)
  | chosen (id : GroupId)
  | chosenFlag (id : GroupId)
  | key (id : FlagId)
  | argName (id : ArgId)
  | members (id : GroupId)
  | counts (id : StoreId)
  | program
  | errorMode
  | consumed
  | tokensConsumed
  | usageSummary
  | usageHelp
  | usage
  | failureReport (e : ParseError)

inductive Request where
  | call (c : Call)
  | query (q : Query)

inductive Answer where
  | granted (r : Except SchemeError Grant)
  /-- How a pass ended, and how the program ends after it, if it does. -/
  | ended (outcome : Except ParseError Outcome) (exit : Option Exit)
  | done
  | truth (b : Bool)
  | value (v : Option Value)
  | key (key : Option String)
  | flag (id : Option FlagId)
  | flags (ids : List FlagId)
  | counts (tallies : Option (Tally × Tally))
  | mode (mode : ErrorMode)
  | text (text : String)
  | tokens (tokens : List String)
  | number (n : Nat)

/-! ## Sessions -/

namespace Session

variable (t : Session)

def reply : Call → Answer
  | .register r => .granted (t.perform r).1
  | .parse tokens => .ended (t.parse tokens).2 none
  | .validateArgs argv =>
    let (t, outcome) := t.validateArgs argv
    .ended outcome (t.exit? outcome)
  | .reset | .setErrorMode _ | .setProgram _ => .done

def ask : Query → Answer
  | .flagMatched id => .truth (t.pass.isMatched id)
  | .groupMatched id => .truth (t.pass.isGroupMatched id)
  | .argMatched id => .truth (t.pass.isFilled id)
  | .value id type => .value (t.valueAs? id type)
  | .chosen id => .key (t.chosenKey? id)
  | .chosenFlag id => .flag (t.pass.chosen? id)
  | .key id => .key (t.scheme.key? id)
  | .argName id => .key (t.scheme.argName? id)
  | .members id => .flags (t.scheme.members id)
  | .counts id => .counts (t.scheme.counts? id)
  | .program => .text t.program
  | .errorMode => .mode t.errorMode
  | .consumed => .tokens t.pass.consumed
  | .tokensConsumed => .number t.pass.consumed.length
  | .usageSummary => .text t.usageSummary
  | .usageHelp => .text t.usageHelp
  | .usage => .text t.usage
  | .failureReport e => .text (t.failureReport e)

/-- The answer to a request, and the session then. -/
def answer : Request → Answer × Session
  | .call c => (t.reply c, t.call c)
  | .query q => (t.ask q, t)

/-- The answers to requests, and the session after the last. -/
def serve : Session → List Request → List Answer × Session
  | t, [] => ([], t)
  | t, r :: rs =>
    let (a, t) := t.answer r
    let (as, t) := t.serve rs
    (a :: as, t)

end Session

/-! ## Forms -/

namespace Act

def call : Call → Act Answer
  | .register r => return .granted (← (Entering.register r).run)
  | .parse tokens => return .ended (← parse tokens) none
  | .validateArgs argv => do
    let outcome ← validateArgs argv
    return .ended outcome (← exit? outcome)
  | .reset => do
    reset
    return .done
  | .setErrorMode errorMode => do
    modify fun form => { form with errorMode }
    return .done
  | .setProgram program => do
    modify fun form => { form with program }
    return .done

def ask : Query → Act Answer
  | .flagMatched id => return .truth ((← get).isMatched id)
  | .groupMatched id => return .truth ((← get).isGroupMatched id)
  | .argMatched id => return .truth ((← get).isFilled id)
  | .value id type => return .value ((← get).valueAs? id type)
  | .chosen id => return .key (← chosenKey? id)
  | .chosenFlag id => return .flag ((← get).chosen? id)
  | .key id => return .key ((← get).key? id)
  | .argName id => return .key ((← get).argName? id)
  | .members id => return .flags ((← get).members id)
  | .counts id => return .counts ((← get).counts? id)
  | .program => return .text (← get).program
  | .errorMode => return .mode (← get).errorMode
  | .consumed => return .tokens (← get).consumed
  | .tokensConsumed => return .number (← get).consumed.length
  | .usageSummary => return .text (← usageSummary)
  | .usageHelp => return .text (← usageHelp)
  | .usage => return .text (← usage)
  | .failureReport e => return .text (← failureReport e)

def answer : Request → Act Answer
  | .call c => call c
  | .query q => ask q

def serve (requests : List Request) : Act (List Answer) := requests.mapM answer

end Act

/-! ## Handles that lead nowhere -/

/-- What is said of a number that leads nowhere among `n` nodes. -/
def beyond {α : Type} (n index : Nat) (a : α) : Option α :=
  if n ≤ index then some a else none

theorem beyond_eq_some {α : Type} {n index : Nat} {a b : α} :
    beyond n index a = some b ↔ n ≤ index ∧ a = b := by
  simp [beyond]

/-- The refusal of a registration whose handle leads nowhere. -/
def Registration.astray? (form : Form) : Registration → Option SchemeError
  | .flag st .. | .complexFlag st .. | .arg st _ | .group st _ =>
    beyond form.stores.length st.index .unknownStore
  | .member g .. | .complexMember g .. => beyond form.groups.length g.index .unknownGroup
  | .trigger id _ => beyond form.flags.length id.index .unknownFlag
  | .help => none

/-- The answer to a query whose handle leads nowhere. -/
def Query.astray? (form : Form) : Query → Option Answer
  | .flagMatched id => beyond form.flags.length id.index (.truth false)
  | .groupMatched id => beyond form.groups.length id.index (.truth false)
  | .argMatched id => beyond form.args.length id.index (.truth false)
  | .value id _ => beyond form.args.length id.index (.value none)
  | .chosen id => beyond form.groups.length id.index (.key none)
  | .chosenFlag id => beyond form.groups.length id.index (.flag none)
  | .key id => beyond form.flags.length id.index (.key none)
  | .argName id => beyond form.args.length id.index (.key none)
  | .members id => beyond form.groups.length id.index (.flags [])
  | .counts id => beyond form.stores.length id.index (.counts none)
  | .program | .errorMode | .consumed | .tokensConsumed | .usageSummary | .usageHelp | .usage
  | .failureReport _ => none

def Request.astray? (form : Form) : Request → Option Answer
  | .call (.register r) => (r.astray? form).map fun e => .granted (.error e)
  | .call _ => none
  | .query q => q.astray? form

/-! ## Tight sessions -/

namespace Scheme

open Relation

variable {s s' : Scheme}

/-- There are at least as many nodes as before of those that are marked. -/
structure AtMost (s s' : Scheme) : Prop where
  flags : s.flags.length ≤ s'.flags.length
  groups : s.groups.length ≤ s'.groups.length
  args : s.args.length ≤ s'.args.length

theorem atMost_listMember (group : GroupId) (id : FlagId) : s.AtMost (s.listMember group id) := by
  rcases hg : s.group? group with _ | g
  · rw [listMember, hg]
    exact ⟨le_rfl, le_rfl, le_rfl⟩
  · rw [listMember_eq hg]
    exact ⟨le_rfl, (List.length_modify ..).ge, le_rfl⟩

theorem Gains.atMost (h : s.Gains s') : s.AtMost s' := by
  cases h with
  | flag store flag => exact ⟨List.length_append ▸ Nat.le_add_right _ _, le_rfl, le_rfl⟩
  | arg store arg => exact ⟨le_rfl, le_rfl, List.length_append ▸ Nat.le_add_right _ _⟩
  | group store policy => exact ⟨le_rfl, List.length_append ▸ Nat.le_add_right _ _, le_rfl⟩
  | member group id => exact atMost_listMember group id
  | store id => exact ⟨(List.length_modify ..).ge, le_rfl, le_rfl⟩
  | trigger id trigger => exact ⟨(List.length_modify ..).ge, le_rfl, le_rfl⟩
  | entry | help => exact ⟨le_rfl, le_rfl, le_rfl⟩

theorem atMost_of_gains (h : ReflTransGen Gains s s') : s.AtMost s' := by
  induction h with
  | refl => exact ⟨le_rfl, le_rfl, le_rfl⟩
  | tail _ hgain ih =>
    have := hgain.atMost
    exact ⟨ih.flags.trans this.flags, ih.groups.trans this.groups, ih.args.trans this.args⟩

end Scheme

namespace Session

/-- The references in the scheme fit together, and the pass has found nothing that is not there. -/
structure Tight (t : Session) : Prop where
  scheme : t.scheme.WellFormed
  pass : t.pass.Within t.scheme

variable {t : Session}

theorem tight_empty : Tight {} := ⟨Scheme.empty_wellFormed, .empty _⟩

theorem Tight.parse (h : t.Tight) (tokens : List String) : (t.parse tokens).1.Tight :=
  ⟨h.scheme, Act.parse_within h.scheme tokens⟩

theorem Tight.call (h : t.Tight) (c : Call) : (t.call c).Tight := by
  cases c with
  | register r =>
    rcases hr : t.scheme.register r with e | s
    · simpa only [Session.call, hr] using h
    · have hle := Scheme.atMost_of_gains (Scheme.register_gains hr)
      simp only [Session.call, hr]
      exact ⟨Scheme.register_wellFormed h.scheme hr, h.pass.mono hle.flags hle.groups hle.args⟩
  | parse tokens => exact h.parse tokens
  | validateArgs argv =>
    rcases argv with _ | ⟨program, tokens⟩
    · exact h.parse []
    · exact Tight.parse (t := { t with program }) ⟨h.scheme, h.pass⟩ tokens
  | reset => exact ⟨h.scheme, .empty _⟩
  | setErrorMode mode => exact ⟨h.scheme, h.pass⟩
  | setProgram program => exact ⟨h.scheme, h.pass⟩

theorem Tight.answer (h : t.Tight) (r : Request) : (t.answer r).2.Tight := by
  cases r with
  | call c => exact h.call c
  | query q => exact h

theorem Tight.serve : ∀ (requests : List Request) {t : Session}, t.Tight →
    (t.serve requests).2.Tight
  | [], _, h => h
  | r :: requests, _, h => Tight.serve requests (h.answer r)

end Session

/-! ## Forms answer as sessions do -/

namespace Session

variable {t : Session}

theorem form_isMatched (hp : t.pass.Within t.scheme) (id : FlagId) :
    t.form.isMatched id = t.pass.isMatched id := by
  rw [Form.isMatched, form, Pass.flagCells, List.getElem?_mapIdx]
  rcases hf : t.scheme.flags[id.index]? with _ | f
  · exact (hp.isMatched_eq_false (List.getElem?_eq_none_iff.1 hf)).symm
  · rfl

theorem form_isGroupMatched (hp : t.pass.Within t.scheme) (id : GroupId) :
    t.form.isGroupMatched id = t.pass.isGroupMatched id := by
  rw [Form.isGroupMatched, form, Pass.groupCells, List.getElem?_mapIdx]
  rcases hg : t.scheme.groups[id.index]? with _ | g
  · exact (hp.isGroupMatched_eq_false (List.getElem?_eq_none_iff.1 hg)).symm
  · rfl

theorem form_isFilled (hp : t.pass.Within t.scheme) (id : ArgId) :
    t.form.isFilled id = t.pass.isFilled id := by
  rw [Form.isFilled, form, Pass.argCells, List.getElem?_mapIdx]
  rcases ha : t.scheme.args[id.index]? with _ | a
  · exact (hp.isFilled_eq_false (List.getElem?_eq_none_iff.1 ha)).symm
  · rfl

theorem form_chosen? (hp : t.pass.Within t.scheme) (id : GroupId) :
    t.form.chosen? id = t.pass.chosen? id := by
  rw [Form.chosen?, form, Pass.groupCells, List.getElem?_mapIdx]
  rcases hg : t.scheme.groups[id.index]? with _ | g
  · exact (hp.chosen?_eq_none (List.getElem?_eq_none_iff.1 hg)).symm
  · rfl

theorem form_valueAs? (hp : t.pass.Within t.scheme) (id : ArgId) (type : ValueType) :
    t.form.valueAs? id type = t.valueAs? id type := by
  rw [Form.valueAs?, valueAs?, form, Pass.argCells, List.getElem?_mapIdx]
  rcases ha : t.scheme.args[id.index]? with _ | a
  · rw [hp.value?_eq_none (List.getElem?_eq_none_iff.1 ha)]
    rfl
  · rfl

theorem form_key? (t : Session) (id : FlagId) : t.form.key? id = t.scheme.key? id := by
  rw [Form.key?, form, Pass.flagCells, List.getElem?_mapIdx, Option.map_map]
  rfl

theorem form_argName? (t : Session) (id : ArgId) : t.form.argName? id = t.scheme.argName? id := by
  rw [Form.argName?, form, Pass.argCells, List.getElem?_mapIdx, Option.map_map]
  rfl

theorem form_members (t : Session) (id : GroupId) : t.form.members id = t.scheme.members id := by
  rw [Form.members, form, Pass.groupCells, List.getElem?_mapIdx, Option.map_map]
  rfl

end Session

namespace Act

variable {t : Session}

theorem chosenKey?_gives (hp : t.pass.Within t.scheme) (id : GroupId) :
    (chosenKey? id).Gives t (t.chosenKey? id) t := by
  refine Gives.get.bind ?_
  rw [Session.form_chosen? hp, Session.chosenKey?]
  rcases hc : t.pass.chosen? id with _ | first
  · exact .pure
  · obtain ⟨f, hf⟩ : ∃ f, t.scheme.flag? first = some f :=
      ⟨_, List.getElem?_eq_getElem (hp.chosen hc).2⟩
    have hkey : t.scheme.key? first = some f.key := congrArg (Option.map Flag.key) hf
    rw [Option.bind_some, hkey]
    exact (keyOf_gives hf).bind .pure

theorem ask_gives (h : t.Tight) (q : Query) : (ask q).Gives t (t.ask q) t := by
  cases q with
  | flagMatched id => exact Gives.get.bind (Session.form_isMatched h.pass id ▸ .pure)
  | groupMatched id => exact Gives.get.bind (Session.form_isGroupMatched h.pass id ▸ .pure)
  | argMatched id => exact Gives.get.bind (Session.form_isFilled h.pass id ▸ .pure)
  | value id type => exact Gives.get.bind (Session.form_valueAs? h.pass id type ▸ .pure)
  | chosen id => exact (chosenKey?_gives h.pass id).bind .pure
  | chosenFlag id => exact Gives.get.bind (Session.form_chosen? h.pass id ▸ .pure)
  | key id => exact Gives.get.bind (t.form_key? id ▸ .pure)
  | argName id => exact Gives.get.bind (t.form_argName? id ▸ .pure)
  | members id => exact Gives.get.bind (t.form_members id ▸ .pure)
  | counts id => exact Gives.get.bind .pure
  | program => exact Gives.get.bind .pure
  | errorMode => exact Gives.get.bind .pure
  | consumed => exact Gives.get.bind .pure
  | tokensConsumed => exact Gives.get.bind .pure
  | usageSummary => exact (usageSummary_gives h.scheme).bind .pure
  | usageHelp => exact (usageHelp_gives h.scheme).bind .pure
  | usage => exact (usage_gives h.scheme).bind .pure
  | failureReport e => exact (failureReport_gives h.scheme e).bind .pure

theorem validateArgs_gives (ha : t.scheme.WellFormed) (argv : List String) :
    (validateArgs argv).Gives t (t.validateArgs argv).2 (t.validateArgs argv).1 := by
  rcases argv with _ | ⟨program, tokens⟩
  · exact parse_gives ha []
  · exact (Gives.modify (u := { t with program }) rfl).bind
      (parse_gives (t := { t with program }) ha tokens)

theorem exit?_gives (ha : t.scheme.WellFormed) (outcome : Except ParseError Outcome) :
    (exit? outcome).Gives t (t.exit? outcome) t := by
  refine Gives.get.bind ?_
  unfold Session.exit?
  dsimp only [Session.form]
  rcases t.errorMode with _ | _
  · rcases outcome with e | _ | _
    · exact (failureReport_gives ha e).bind .pure
    · exact .pure
    · exact (usage_gives ha).bind .pure
  · exact .pure

theorem call_gives (h : t.Tight) (c : Call) : (call c).Gives t (t.reply c) (t.call c) := by
  cases c with
  | register r =>
    have hr := Entering.register_yields h.pass r
    rw [Entering.Yields, ← t.perform_eq, t.perform_session] at hr
    exact hr.bind .pure
  | parse tokens => exact (parse_gives h.scheme tokens).bind .pure
  | validateArgs argv =>
    have h' := (h.call (.validateArgs argv)).scheme
    exact (validateArgs_gives h.scheme argv).bind ((exit?_gives h' _).bind .pure)
  | reset => exact reset_gives.bind .pure
  | setErrorMode mode => exact (Gives.modify rfl).bind .pure
  | setProgram program => exact (Gives.modify rfl).bind .pure

theorem answer_gives (h : t.Tight) (r : Request) :
    (answer r).Gives t (t.answer r).1 (t.answer r).2 := by
  cases r with
  | call c => exact call_gives h c
  | query q => exact ask_gives h q

theorem serve_gives : ∀ (requests : List Request) {t : Session}, t.Tight →
    (serve requests).Gives t (t.serve requests).1 (t.serve requests).2
  | [], _, _ => .pure
  | r :: requests, t, h => by
    rw [serve, List.mapM_cons]
    exact (answer_gives h r).bind ((serve_gives requests (h.answer r)).bind .pure)

end Act

/-! ## Handles that lead nowhere are answered so -/

theorem Scheme.insertFlag_of_no_store {s : Scheme} {store : StoreId} (h : s.store? store = none)
    (flag : Flag) : s.insertFlag store flag = .error .unknownStore := by
  rw [insertFlag_eq, h]

namespace Session

variable {t : Session}

theorem form_flags_length (t : Session) : t.form.flags.length = t.scheme.flags.length :=
  List.length_mapIdx

theorem form_groups_length (t : Session) : t.form.groups.length = t.scheme.groups.length :=
  List.length_mapIdx

theorem form_args_length (t : Session) : t.form.args.length = t.scheme.args.length :=
  List.length_mapIdx

theorem grant_astray {r : Registration} {e : SchemeError} (h : r.astray? t.form = some e) :
    t.scheme.grant r = .error e := by
  cases r with
  | flag store key policy description =>
    obtain ⟨hle, rfl⟩ := beyond_eq_some.1 h
    have hst := (t.scheme.store?_eq_none_iff store).2 hle
    rw [Scheme.grant, Scheme.addFlag, Scheme.insertFlag_of_no_store hst]
    rfl
  | complexFlag store key policy description =>
    obtain ⟨hle, rfl⟩ := beyond_eq_some.1 h
    have hst := (t.scheme.store?_eq_none_iff store).2 hle
    rw [Scheme.grant, Scheme.addComplexFlag, Scheme.addFlag, Scheme.insertFlag_of_no_store hst]
    rfl
  | arg store arg =>
    obtain ⟨hle, rfl⟩ := beyond_eq_some.1 h
    rw [Scheme.grant, Scheme.addArg, (t.scheme.store?_eq_none_iff store).2 hle]
    rfl
  | group store policy =>
    obtain ⟨hle, rfl⟩ := beyond_eq_some.1 h
    rw [Scheme.grant, Scheme.addGroup, (t.scheme.store?_eq_none_iff store).2 hle]
    rfl
  | member group key description =>
    obtain ⟨hle, rfl⟩ := beyond_eq_some.1 h
    have hg : t.scheme.group? group = none :=
      List.getElem?_eq_none (t.form_groups_length ▸ hle)
    rw [Scheme.grant, Scheme.addMember, hg]
    rfl
  | complexMember group key description =>
    obtain ⟨hle, rfl⟩ := beyond_eq_some.1 h
    have hg : t.scheme.group? group = none :=
      List.getElem?_eq_none (t.form_groups_length ▸ hle)
    rw [Scheme.grant, Scheme.addComplexMember, Scheme.addMember, hg]
    rfl
  | help => cases h
  | trigger id trigger =>
    obtain ⟨hle, rfl⟩ := beyond_eq_some.1 h
    have hf : t.scheme.flag? id = none := List.getElem?_eq_none (t.form_flags_length ▸ hle)
    rw [Scheme.grant, Scheme.setTrigger, hf]
    rfl

theorem ask_astray (hp : t.pass.Within t.scheme) {q : Query} {a : Answer}
    (h : q.astray? t.form = some a) : t.ask q = a := by
  cases q with
  | flagMatched id =>
    obtain ⟨hle, rfl⟩ := beyond_eq_some.1 h
    rw [ask, hp.isMatched_eq_false (t.form_flags_length ▸ hle)]
  | groupMatched id =>
    obtain ⟨hle, rfl⟩ := beyond_eq_some.1 h
    rw [ask, hp.isGroupMatched_eq_false (t.form_groups_length ▸ hle)]
  | argMatched id =>
    obtain ⟨hle, rfl⟩ := beyond_eq_some.1 h
    rw [ask, hp.isFilled_eq_false (t.form_args_length ▸ hle)]
  | value id type =>
    obtain ⟨hle, rfl⟩ := beyond_eq_some.1 h
    rw [ask, valueAs?, hp.value?_eq_none (t.form_args_length ▸ hle), Option.bind_none]
  | chosen id =>
    obtain ⟨hle, rfl⟩ := beyond_eq_some.1 h
    rw [ask, chosenKey?, hp.chosen?_eq_none (t.form_groups_length ▸ hle), Option.bind_none]
  | chosenFlag id =>
    obtain ⟨hle, rfl⟩ := beyond_eq_some.1 h
    rw [ask, hp.chosen?_eq_none (t.form_groups_length ▸ hle)]
  | key id =>
    obtain ⟨hle, rfl⟩ := beyond_eq_some.1 h
    have hf : t.scheme.flag? id = none := List.getElem?_eq_none (t.form_flags_length ▸ hle)
    rw [ask, Scheme.key?, hf, Option.map_none]
  | argName id =>
    obtain ⟨hle, rfl⟩ := beyond_eq_some.1 h
    have ha : t.scheme.arg? id = none := List.getElem?_eq_none (t.form_args_length ▸ hle)
    rw [ask, Scheme.argName?, ha, Option.map_none]
  | members id =>
    obtain ⟨hle, rfl⟩ := beyond_eq_some.1 h
    have hg : t.scheme.group? id = none := List.getElem?_eq_none (t.form_groups_length ▸ hle)
    rw [ask, Scheme.members, hg, Option.map_none, Option.getD_none]
  | counts id =>
    obtain ⟨hle, rfl⟩ := beyond_eq_some.1 h
    have hst := (t.scheme.store?_eq_none_iff id).2 hle
    rw [ask, Scheme.counts?, hst, Option.map_none]
  | program | errorMode | consumed | tokensConsumed | usageSummary | usageHelp | usage
  | failureReport => cases h

end Session

namespace Act

variable {t : Session}

theorem answer_gives_astray (h : t.Tight) {r : Request} {a : Answer}
    (hr : r.astray? t.form = some a) : (answer r).Gives t a t := by
  cases r with
  | query q => exact Session.ask_astray h.pass hr ▸ ask_gives h q
  | call c =>
    cases c with
    | register r =>
      obtain ⟨e, he, rfl⟩ := Option.map_eq_some_iff.1 hr
      have hperform : t.perform r = (.error e, t) := by
        rw [t.perform_eq, Session.grant_astray he]
        rfl
      have hc := call_gives h (.register r)
      rwa [Session.reply, ← t.perform_session, hperform] at hc
    | parse | validateArgs | reset | setErrorMode | setProgram => cases hr

/-- Whatever is asked for in whatever order, and whatever the handles are, no index is out of
bounds: all requests are answered, as the session answers them. And whatever is asked for next with
a handle that leads nowhere has the answer that is kept for it, and changes nothing. -/
theorem serve_in_bounds (requests : List Request) :
    let (answers, t) := Session.serve {} requests
    (serve requests).on {} = some (.ok (answers, t.form)) ∧
      ∀ r a, r.astray? t.form = some a → (answer r).on t.form = some (.ok (a, t.form)) :=
  ⟨serve_gives requests Session.tight_empty, fun _ _ hr =>
    answer_gives_astray (.serve requests Session.tight_empty) hr⟩

end Act

end CommandGrammar
