import CommandGrammar.Proofs.Requests

/-!
# What passes keep, and what they forget

A pass marks the nodes of a form, which carry the grammar next to the marks. Whatever the command
line and however the pass ends, nothing but marks is changed: a form without its marks is the same
before and after it, and whatever is asked later is answered as if there had been no pass, unless it
is asked what the last pass has found. That goes for usage texts, tallies, names and members as well
as for registrations, and for all of them behind each other.

A pass takes the marks of the one before it away. So it ends, and marks the nodes, as it would in a
form in which nothing was read before.
-/

namespace CommandGrammar

/-- A query that is about the grammar, not about what the last pass has found. -/
def Query.isOfGrammar : Query → Bool
  | .flagMatched _ | .groupMatched _ | .argMatched _ | .value .. | .chosen _ | .chosenFlag _
  | .consumed | .tokensConsumed | .failureReport _ => false
  | .key _ | .argName _ | .members _ | .counts _ | .program | .errorMode | .usageSummary
  | .usageHelp | .usage => true

def Request.isOfGrammar : Request → Bool
  | .call _ => true
  | .query q => q.isOfGrammar

namespace Form

/-- Two forms have the same grammar: without their marks they are the same, and they stay so and
answer alike through all requests but those for what the last pass has found. -/
structure SameGrammar (form form' : Form) : Prop where
  cleared : form.cleared = form'.cleared
  later : ∀ requests : List Request, (∀ r ∈ requests, r.isOfGrammar = true) →
    ∃ answers last last', (Act.serve requests).on form = some (.ok (answers, last)) ∧
      (Act.serve requests).on form' = some (.ok (answers, last')) ∧ last.cleared = last'.cleared

/-- A call ends and keeps the grammar of a form, but for the name of the program. -/
def Keeps (form : Form) (c : Call) (program : String) : Prop :=
  ∃ answer form', (Act.call c).on form = some (.ok (answer, form')) ∧
    form'.SameGrammar { form with program }

end Form

namespace Session

variable (t : Session) (p : Pass)

/-! ## Sessions after other passes -/

theorem form_amid_cleared : (t.amid p).form.cleared = t.form.cleared := by
  rw [← Act.form_reset, ← Act.form_reset]
  rfl

theorem validateArgs_amid (argv : List String) :
    (t.amid p).validateArgs argv = t.validateArgs argv := by
  cases argv <;> rfl

theorem reply_amid (c : Call) : (t.amid p).reply c = t.reply c := by
  cases c with
  | register r =>
    rw [reply, reply, perform_eq, perform_eq]
    dsimp only [amid]
    rcases t.scheme.grant r with e | ⟨s, answer⟩ <;> rfl
  | validateArgs argv => rw [reply, reply, validateArgs_amid]
  | parse | reset | setErrorMode | setProgram => rfl

/-- Every call leaves two sessions alike that differ in their passes only. -/
theorem exists_call_amid (c : Call) : ∃ p', (t.amid p).call c = (t.call c).amid p' := by
  cases c with
  | register r =>
    refine ⟨p, ?_⟩
    rw [call, call]
    dsimp only [amid]
    rcases t.scheme.register r with e | s <;> rfl
  | parse tokens => exact ⟨(t.parse tokens).1.pass, rfl⟩
  | validateArgs argv =>
    refine ⟨(t.validateArgs argv).1.pass, ?_⟩
    rw [call, call, validateArgs_amid]
    rfl
  | reset => exact ⟨{}, rfl⟩
  | setErrorMode | setProgram => exact ⟨p, rfl⟩

theorem ask_amid {q : Query} (h : q.isOfGrammar = true) : (t.amid p).ask q = t.ask q := by
  cases q with
  | flagMatched | groupMatched | argMatched | value | chosen | chosenFlag | consumed
  | tokensConsumed | failureReport => cases h
  | key | argName | members | counts | program | errorMode | usageSummary | usageHelp
  | usage => rfl

theorem exists_answer_amid {r : Request} (h : r.isOfGrammar = true) :
    ∃ p', (t.amid p).answer r = ((t.answer r).1, (t.answer r).2.amid p') := by
  cases r with
  | call c =>
    obtain ⟨p', hc⟩ := t.exists_call_amid p c
    exact ⟨p', congrArg₂ Prod.mk (t.reply_amid p c) hc⟩
  | query q => exact ⟨p, congrArg₂ Prod.mk (t.ask_amid p h) rfl⟩

theorem exists_serve_amid : ∀ (requests : List Request) (t : Session) (p : Pass),
    (∀ r ∈ requests, r.isOfGrammar = true) →
      ∃ p', (t.amid p).serve requests = ((t.serve requests).1, (t.serve requests).2.amid p')
  | [], _, p, _ => ⟨p, rfl⟩
  | r :: requests, t, p, h => by
    obtain ⟨p₁, h₁⟩ := t.exists_answer_amid p (h r List.mem_cons_self)
    obtain ⟨p₂, h₂⟩ := exists_serve_amid requests (t.answer r).2 p₁ fun r' hr =>
      h r' (List.mem_cons_of_mem _ hr)
    refine ⟨p₂, ?_⟩
    simp only [serve, h₁, h₂]

/-! ## Forms after other passes -/

variable {t p}

theorem sameGrammar_amid (ht : t.Tight) (hp : p.Within t.scheme) :
    (t.amid p).form.SameGrammar t.form where
  cleared := t.form_amid_cleared p
  later requests h := by
    obtain ⟨p', hp'⟩ := exists_serve_amid requests t p h
    have hother := Act.serve_gives requests (t := t.amid p) ⟨ht.scheme, hp⟩
    rw [hp'] at hother
    exact ⟨_, _, _, hother, Act.serve_gives requests ht, form_amid_cleared _ _⟩

theorem keeps_of_call (ht : t.Tight) {c : Call} {program : String}
    (hc : t.call c = ({ t with program } : Session).amid (t.call c).pass) :
    t.form.Keeps c program := by
  refine ⟨t.reply c, (t.call c).form, Act.call_gives ht c, ?_⟩
  have hp := (ht.call c).pass
  rw [hc] at hp ⊢
  exact sameGrammar_amid (t := { t with program }) ⟨ht.scheme, ht.pass⟩ hp

end Session

namespace Act

/-- Whatever was asked of a form, its passes and resets keep its grammar; and a command line with
the name of the program keeps all of it but that name. -/
theorem passes_keep_grammar (requests : List Request) :
    let (answers, t) := Session.serve {} requests
    (serve requests).on {} = some (.ok (answers, t.form)) ∧
      (∀ tokens, t.form.Keeps (.parse tokens) t.program) ∧
      t.form.Keeps .reset t.program ∧
      ∀ argv, t.form.Keeps (.validateArgs argv) (argv.headD t.program) := by
  have ht := Session.Tight.serve requests Session.tight_empty
  refine ⟨serve_gives requests Session.tight_empty, fun tokens => ?_, ?_, fun argv => ?_⟩
  · exact Session.keeps_of_call ht rfl
  · exact Session.keeps_of_call ht rfl
  · rcases argv with _ | ⟨program, tokens⟩
    · exact Session.keeps_of_call ht rfl
    · exact Session.keeps_of_call ht rfl

end Act

/-! ## Passes after passes -/

open Scheme (Outcome)

/-- Makes the calls of a script in place, and then reads a command line. -/
def Act.parseAfter (script : List Call) (tokens : List String) :
    Act (Except ParseError Outcome) := do
  let _ ← serve (script.map .call)
  parse tokens

theorem Session.serve_calls : ∀ (script : List Call) (t : Session),
    (t.serve (script.map .call)).2 = script.foldl call t
  | [], _ => rfl
  | c :: script, t => serve_calls script (t.call c)

theorem Act.parseAfter_gives (script : List Call) (tokens : List String) :
    (parseAfter script tokens).Gives {} ((Session.after script).parse tokens).2
      ((Session.after script).parse tokens).1 := by
  have hscript := serve_gives (script.map .call) Session.tight_empty
  rw [Session.serve_calls] at hscript
  exact hscript.bind (parse_gives (Session.after_wellFormed script) tokens)

namespace Session

/-- A pass ends as it would in a session that only went through the registrations, and finds the
same: the same tokens consumed, the same nodes matched, chosen and filled with the same values, the
same triggers fired in the same order. So it does in place, where the marks of earlier passes stand
on the nodes until the pass takes them away: all nodes are marked in the same way then. So a built
grammar reports the same, whatever was read before. -/
theorem after_parse_history (script : List Call) (tokens : List String) :
    ((after script).parse tokens =
      let (fresh, outcome) := (after (registrations script)).parse tokens
      ({ fresh with
          program := (after script).program
          errorMode := (after script).errorMode }, outcome)) ∧
    (∃ outcome fresh,
      (Act.parseAfter (registrations script) tokens).on {} = some (.ok (outcome, fresh)) ∧
        (Act.parseAfter script tokens).on {} = some (.ok (outcome,
          { fresh with
            program := (after script).program
            errorMode := (after script).errorMode }))) ∧
    ∀ (b : BuiltGrammar) (uses : List BuiltGrammar.Use),
      ((b.after uses).parse tokens).2 = (b.parse tokens).2 := by
  have hparse := parse_congr (after_registrations_scheme script).symm tokens
  refine ⟨hparse, ⟨_, _, Act.parseAfter_gives (registrations script) tokens, ?_⟩,
    fun b uses => BuiltGrammar.parse_congr (BuiltGrammar.after_sameGrammar uses b) tokens⟩
  have hplace := Act.parseAfter_gives script tokens
  rw [hparse] at hplace
  exact hplace

end Session

end CommandGrammar
