import CommandGrammar.Grammar.Build
import CommandGrammar.Proofs.Script

/-!
# What a session keeps of its history

A registration looks at the scheme alone, and nothing else changes the scheme. A pass starts from
the scheme and from nothing found. So a script leaves nothing behind for the next pass but what its
registrations have made: passes that were cut short, with groups chosen, stores open and values
stored, are forgotten, and so are resets and settings.
-/

namespace CommandGrammar

def Call.isRegistration : Call → Bool
  | .register _ => true
  | .parse _ | .validateArgs _ | .reset | .setErrorMode _ | .setProgram _ => false

/-- A script without its passes, resets and settings. -/
def registrations (script : List Call) : List Call := script.filter Call.isRegistration

namespace Session

variable {t t' : Session} {c : Call}

theorem call_scheme_of_not_registration (t : Session) (hc : c.isRegistration = false) :
    (t.call c).scheme = t.scheme := by
  rcases t.call_scheme c with h | ⟨r, rfl, -⟩
  · exact h
  · cases hc

/-- What a registration makes of a scheme, and whether it is refused, does not depend on what was
found in it. -/
theorem register_scheme_congr (r : Registration) (h : t.scheme = t'.scheme) :
    (t.call (.register r)).scheme = (t'.call (.register r)).scheme := by
  simp only [call, h]
  rcases t'.scheme.register r with e | s
  · exact h
  · rfl

theorem after_registrations_scheme (script : List Call) :
    (after (registrations script)).scheme = (after script).scheme := by
  induction script using List.reverseRecOn with
  | nil => rfl
  | append_singleton script c ih =>
    rw [registrations, List.filter_append, after_append]
    cases hc : c.isRegistration with
    | true =>
      obtain ⟨r, rfl⟩ : ∃ r, c = .register r := by
        cases c with
        | register r => exact ⟨r, rfl⟩
        | parse | validateArgs | reset | setErrorMode | setProgram => cases hc
      rw [List.filter_cons_of_pos hc, List.filter_nil, after_append]
      exact register_scheme_congr r ih
    | false =>
      rw [List.filter_cons_of_neg (by simp [hc]), List.filter_nil, List.append_nil,
        call_scheme_of_not_registration _ hc]
      exact ih

/-- Two sessions of one scheme read a command line alike, and find the same. -/
theorem parse_congr (h : t.scheme = t'.scheme) (tokens : List String) :
    t.parse tokens = ({ (t'.parse tokens).1 with program := t.program, errorMode := t.errorMode },
      (t'.parse tokens).2) := by
  simp only [parse, h]

end Session

namespace BuiltGrammar

/-- What can be done with a built grammar before the next command line. -/
inductive Use where
  | parse (tokens : List String)
  | parseArgs (argv : List String)
  | reset

def use (b : BuiltGrammar) : Use → BuiltGrammar
  | .parse tokens => (b.parse tokens).1
  | .parseArgs argv => (b.parseArgs argv).1
  | .reset => { b with session := b.session.reset }

def after (b : BuiltGrammar) (uses : List Use) : BuiltGrammar := uses.foldl use b

/-- Two built grammars make the same reports of what was found. -/
structure SameGrammar (b b' : BuiltGrammar) : Prop where
  scheme : b.session.scheme = b'.session.scheme
  flags : b.flags = b'.flags
  args : b.args = b'.args
  groups : b.groups = b'.groups

variable {b b' b'' : BuiltGrammar}

theorem SameGrammar.trans (h : b.SameGrammar b') (h' : b'.SameGrammar b'') : b.SameGrammar b'' :=
  ⟨h.scheme.trans h'.scheme, h.flags.trans h'.flags, h.args.trans h'.args,
    h.groups.trans h'.groups⟩

theorem use_sameGrammar (b : BuiltGrammar) (u : Use) : (b.use u).SameGrammar b := by
  cases u with
  | parse tokens => exact ⟨b.session.parse_scheme tokens, rfl, rfl, rfl⟩
  | parseArgs argv => exact ⟨b.session.validateArgs_scheme argv, rfl, rfl, rfl⟩
  | reset => exact ⟨rfl, rfl, rfl, rfl⟩

theorem after_sameGrammar : ∀ (uses : List Use) (b : BuiltGrammar), (b.after uses).SameGrammar b
  | [], _ => ⟨rfl, rfl, rfl, rfl⟩
  | u :: uses, b => (after_sameGrammar uses (b.use u)).trans (b.use_sameGrammar u)

theorem parse_congr (h : b.SameGrammar b') (tokens : List String) :
    (b.parse tokens).2 = (b'.parse tokens).2 := by
  simp only [parse, conclude, Session.parse_congr h.scheme tokens]
  congr 1
  funext outcome
  simp only [report, Session.chosenKey?, h.flags, h.args, h.groups]

end BuiltGrammar

end CommandGrammar
