import CommandGrammar.Session
import Mathlib.Data.List.Induction

/-!
# Scripts

A script is a sequence of calls to a session: registrations with any handles, passes, resets and
settings. A refused registration leaves the session as it was. `Session.after` is the session that a
script makes of a new one; the sessions that can be reached are those.
-/

namespace CommandGrammar

inductive Registration where
  | flag (store : StoreId) (key : String) (policy : Policy) (description : String)
  | complexFlag (store : StoreId) (key : String) (policy : Policy) (description : String)
  | arg (store : StoreId) (arg : Positional)
  | group (store : StoreId) (policy : Policy)
  | member (group : GroupId) (key : String) (description : String)
  | complexMember (group : GroupId) (key : String) (description : String)
  | help
  | trigger (flag : FlagId) (trigger : Trigger)

/-- The scheme after a registration, without the number of what was added. -/
def Scheme.register (s : Scheme) : Registration → Except SchemeError Scheme
  | .flag store key policy description => (s.addFlag store key policy description).map (·.1)
  | .complexFlag store key policy description =>
    (s.addComplexFlag store key policy description).map (·.1)
  | .arg store arg => (s.addArg store arg).map (·.1)
  | .group store policy => (s.addGroup store policy).map (·.1)
  | .member group key description => (s.addMember group key description).map (·.1)
  | .complexMember group key description => (s.addComplexMember group key description).map (·.1)
  | .help => s.enableHelp.map (·.1)
  | .trigger flag trigger => s.setTrigger flag trigger

inductive Call where
  | register (r : Registration)
  | parse (tokens : List String)
  | validateArgs (argv : List String)
  | reset
  | setErrorMode (mode : ErrorMode)
  | setProgram (program : String)

namespace Session

def call (t : Session) : Call → Session
  | .register r =>
    match t.scheme.register r with
    | .ok scheme => { t with scheme }
    | .error _ => t
  | .parse tokens => (t.parse tokens).1
  | .validateArgs argv => (t.validateArgs argv).1
  | .reset => t.reset
  | .setErrorMode errorMode => { t with errorMode }
  | .setProgram program => { t with program }

def after (script : List Call) : Session := script.foldl call {}

theorem after_append (script : List Call) (c : Call) :
    after (script ++ [c]) = (after script).call c := by
  simp [after]

theorem parse_scheme (t : Session) (tokens : List String) :
    (t.parse tokens).1.scheme = t.scheme := rfl

theorem validateArgs_scheme (t : Session) (argv : List String) :
    (t.validateArgs argv).1.scheme = t.scheme := by
  cases argv <;> rfl

/-- Only a registration that is not refused changes the scheme. -/
theorem call_scheme (t : Session) (c : Call) :
    (t.call c).scheme = t.scheme ∨
      ∃ r, c = .register r ∧ t.scheme.register r = .ok (t.call c).scheme := by
  cases c with
  | register r =>
    rcases h : t.scheme.register r with e | s
    · exact .inl (by simp [call, h])
    · exact .inr ⟨r, rfl, by simp [call, h]⟩
  | parse tokens => exact .inl (t.parse_scheme tokens)
  | validateArgs argv => exact .inl (t.validateArgs_scheme argv)
  | reset => exact .inl rfl
  | setErrorMode mode => exact .inl rfl
  | setProgram program => exact .inl rfl

/-- What the empty scheme has and registrations keep, the scheme of every session has. -/
theorem after_scheme {P : Scheme → Prop} (h0 : P {})
    (hr : ∀ s r s', P s → s.register r = .ok s' → P s') (script : List Call) :
    P (after script).scheme := by
  induction script using List.reverseRecOn with
  | nil => exact h0
  | append_singleton script c ih =>
    rw [after_append]
    rcases call_scheme (after script) c with h | ⟨r, -, h⟩
    · rw [h]
      exact ih
    · exact hr _ r _ ih h

end Session

end CommandGrammar
